import Opcd.Abstract.System
import Opcd.Store.Handover
import Opcd.Store.Ledger

/-!
# Transactions in the writer

`Booked` relates the open transactions to the writer: where each one's job is (`Places`), how far the
worker is with it, and that the writer holds nothing else. There is one lemma for each thing that can
happen to the writer:

* `Booked.enqueue`, `Booked.enqueueCopy`: a job is queued, for a transaction or a copy.
* `Booked.worker`: a section of the worker's thread.
* `Booked.drain`: the completed jobs become records in hand.
* `Booked.settle`: a record is dealt with.

`Booked.freeSlot`: with at most one job for each resource and one copy, there is always a free slot.
-/

namespace Opcd

open Bytes Protocol Store
open Store.Writer (Pushed)

/-! ## What a job slot holds -/

namespace Store.Writer

/-- What the write of the job the worker is busy with came to, once made. -/
def progress (w : Writer) (i : Slot) : Option WriteResult :=
  match w.worker with
  | .echoing j r => if j = i then some r else none
  | .publishing j r => if j = i then some r else none
  | _ => none

theorem progress_eq_none {w : Writer} {i : Slot} (h : w.worker.current ≠ some i) : w.progress i = none := by
  unfold progress
  cases hw : w.worker with
  | echoing j r => exact if_neg fun e => h (by rw [hw, ← e]; rfl)
  | publishing j r => exact if_neg fun e => h (by rw [hw, ← e]; rfl)
  | _ => rfl

/-- At the head of its loop the worker is busy with no job. -/
theorem progress_loopHead (w : Writer) (i : Slot) : w.loopHead.progress i = none := by
  unfold loopHead
  split
  · cases h : w.shutdown <;> simp [progress]
  · simp [progress]

/-- A writer that takes jobs does not let its thread leave. -/
theorem loopHead_running {w : Writer} (hs : w.loopHead.shutdown = false) : w.loopHead.worker ≠ .exited := by
  intro he
  rw [(loopHead_exited he).1] at hs
  cases hs

theorem Pushed.progress {w w' : Writer} {i : Slot} {j : Job} (h : Pushed w i j w') (k : Slot) :
    w'.progress k = w.progress k := by
  rw [h.eq]; rfl

/-- The worker has not begun a job that was just queued. -/
theorem Pushed.progress_self {w w' : Writer} {i : Slot} {j : Job} (h : Pushed w i j w')
    (hwf : w.WF) : w'.progress i = none := by
  rw [h.progress]
  refine progress_eq_none fun hc => ?_
  have := (hwf.mem_queue i).mp (current_mem_queue hc)
  rw [h.free] at this
  cases this

end Store.Writer

/-- The completion record of a write. -/
def doneRecord (token : Nat) (r : WriteResult) : Done := ⟨token, r.rc, r.savedErrno, r.outcome⟩

/-- A job slot holds a write that came to `result` so far. -/
inductive Holds (w : Writer) (i : Slot) (sub : Submission) : Option WriteResult → Prop
  | queued {result : Option WriteResult} (hsub : (w.jobs i).submission = sub)
      (hq : (w.jobs i).state = .queued) (hp : w.progress i = result) : Holds w i sub result
  | done {r : WriteResult} (hsub : (w.jobs i).submission = sub) (hd : (w.jobs i).state = .done)
      (hrec : (w.jobs i).record = doneRecord sub.token r) : Holds w i sub (some r)

/-- A job slot holds a copy to the customer's file in this phase. -/
inductive HoldsCopy (w : Writer) (i : Slot) (sub : Submission) : CopyPhase → Prop
  | waiting (hsub : (w.jobs i).submission = sub) (hq : (w.jobs i).state = .queued)
      (hp : w.progress i = none) : HoldsCopy w i sub .waiting
  | shown {r : WriteResult} (hsub : (w.jobs i).submission = sub)
      (hq : (w.jobs i).state = .queued) (hw : w.worker = .echoing i r) :
      HoldsCopy w i sub (.shown r)
  | publishing {r : WriteResult} (hsub : (w.jobs i).submission = sub)
      (hq : (w.jobs i).state = .queued) (hw : w.worker = .publishing i r) :
      HoldsCopy w i sub .over
  | done (hsub : (w.jobs i).submission = sub) (hd : (w.jobs i).state = .done) :
      HoldsCopy w i sub .over

section

variable {w w' : Writer} {i : Slot} {sub : Submission}

variable {phase : CopyPhase} {result : Option WriteResult}

theorem Holds.submission (h : Holds w i sub result) : (w.jobs i).submission = sub := by
  cases h <;> assumption

theorem Holds.progress (h : Holds w i sub result) (hq : (w.jobs i).state = .queued) : w.progress i = result := by
  cases h with
  | queued _ _ hp => exact hp
  | done _ hd _ => rw [hd] at hq; cases hq

theorem Holds.record (h : Holds w i sub result) (hd : (w.jobs i).state = .done) :
    ∃ r, result = some r ∧ (w.jobs i).record = doneRecord sub.token r := by
  cases h with
  | queued _ hq _ => rw [hd] at hq; cases hq
  | done _ _ hrec => exact ⟨_, rfl, hrec⟩

theorem HoldsCopy.over (h : HoldsCopy w i sub phase) (hd : (w.jobs i).state = .done) : phase = .over := by
  cases h with
  | waiting _ hq _ => rw [hd] at hq; cases hq
  | shown _ hq _ => rw [hd] at hq; cases hq
  | publishing => rfl
  | done => rfl

theorem HoldsCopy.submission (h : HoldsCopy w i sub phase) : (w.jobs i).submission = sub := by
  cases h <;> assumption

theorem Holds.nonfree (h : Holds w i sub result) : (w.jobs i).state ≠ .free := by
  cases h <;> simp_all

theorem HoldsCopy.nonfree (h : HoldsCopy w i sub phase) : (w.jobs i).state ≠ .free := by
  cases h <;> simp_all

/-- A slot that is left alone holds what it held, if the worker is as far with it. -/
theorem Holds.congr (h : Holds w i sub result)
    (hj : w'.jobs i = w.jobs i) (hp : w'.progress i = w.progress i) : Holds w' i sub result := by
  cases h with
  | queued hsub hq hpr => exact .queued (by rw [hj, hsub]) (by rw [hj, hq]) (by rw [hp, hpr])
  | done hsub hd hrec => exact .done (by rw [hj, hsub]) (by rw [hj, hd]) (by rw [hj, hrec])

theorem HoldsCopy.congr (h : HoldsCopy w i sub phase) (hj : w'.jobs i = w.jobs i) (hp : w'.progress i = w.progress i)
    (hw : w.progress i ≠ none → w'.worker = w.worker) : HoldsCopy w' i sub phase := by
  cases h with
  | waiting hsub hq hpr => exact .waiting (by rw [hj, hsub]) (by rw [hj, hq]) (by rw [hp, hpr])
  | shown hsub hq hworker =>
    have hne : w.progress i ≠ none := by simp [Writer.progress, hworker]
    exact .shown (by rw [hj, hsub]) (by rw [hj, hq]) (by rw [hw hne, hworker])
  | publishing hsub hq hworker =>
    have hne : w.progress i ≠ none := by simp [Writer.progress, hworker]
    exact .publishing (by rw [hj, hsub]) (by rw [hj, hq]) (by rw [hw hne, hworker])
  | done hsub hd => exact .done (by rw [hj, hsub]) (by rw [hj, hd])

end

/-! ## The relation -/

/-- Where the jobs are: a transaction without one is among the records in hand. -/
structure Places where
  job : Resource → Option Slot
  copy : Option Slot

namespace Places

/-- The job of a resource is put elsewhere. -/
def setJob (p : Places) (r : Resource) (i : Option Slot) : Places :=
  { p with job := Function.update p.job r i }

@[simp] theorem setJob_self (p : Places) (r : Resource) (i : Option Slot) :
    (p.setJob r i).job r = i := Function.update_self _ _ _

theorem setJob_of_ne (p : Places) {r r' : Resource} (i : Option Slot) (h : r' ≠ r) :
    (p.setJob r i).job r' = p.job r' := Function.update_of_ne h _ _

end Places

/-- The hand-over of a transaction. -/
def Txn.sub (paths : Paths) (r : Resource) (t : Txn) : Submission :=
  ⟨r.path paths, [], t.data, r.mode, t.slot⟩

/-- The hand-over of a copy to the customer's file. -/
def copySub (paths : Paths) (user : Path) (text : Bytes) : Submission :=
  ⟨user, paths.ipListUserLast.getD [], text, 0o644, tokenMirror⟩

/-- The transactions `txn` and the copy `copy` are what the writer and the records in hand hold. -/
structure Booked (paths : Paths) (closing : Bool) (txn : Resource → Option Txn)
    (copy : Option Copy) (p : Places) (w : Writer) (due : List Done) : Prop where
  wf : w.WF
  shutdown : w.shutdown = closing
  running : w.shutdown = false → w.worker ≠ .exited
  unreserved : ∀ i, (w.jobs i).state ≠ .reserved
  owned : ∀ i, (w.jobs i).state ≠ .free → (∃ r, p.job r = some i) ∨ p.copy = some i
  job : ∀ r i, p.job r = some i → ∃ t, txn r = some t ∧ Holds w i (t.sub paths r) t.result
  inHand : ∀ r t, txn r = some t → p.job r = none →
    ∃ res, t.result = some res ∧ doneRecord t.slot res ∈ due
  copyJob : ∀ i, p.copy = some i → ∃ c user, copy = some c ∧ paths.ipListUser = some user ∧
    HoldsCopy w i (copySub paths user c.text) c.phase
  noCopy : p.copy = none → copy = none
  records : ∀ d ∈ due, d.token = tokenMirror ∨ ∃ r t, txn r = some t ∧ p.job r = none ∧ d.token = t.slot
  nodup : (due.map Done.token).Nodup
  /-- a copy is ahead of the next list, which is not yet in hand -/
  first : ∀ i, p.copy = some i → ∀ t, txn .ipList = some t →
    ∃ j, p.job .ipList = some j ∧ ((w.jobs i).state = .queued → [i, j].Sublist w.queue)
  noFile : txn .none = none
  slots : ∀ r r' t t', txn r = some t → txn r' = some t' → t.slot = t'.slot → r = r'

theorem slot_ne_tokenMirror (k : AckIdx) : (k : Nat) ≠ tokenMirror := by
  have := k.isLt
  simp only [tokenMirror, pendingAckMax] at this ⊢
  omega

namespace Booked

variable {paths : Paths} {closing : Bool} {txn : Resource → Option Txn} {copy : Option Copy}
  {p : Places} {w : Writer} {due : List Done}

/-! ### Which slot is whose -/

theorem job_token (h : Booked paths closing txn copy p w due) {r : Resource} {i : Slot}
    (hi : p.job r = some i) : ∃ t, txn r = some t ∧ (w.jobs i).token = t.slot := by
  obtain ⟨t, ht, hold⟩ := h.job r i hi
  exact ⟨t, ht, congrArg Submission.token hold.submission⟩

theorem copy_token (h : Booked paths closing txn copy p w due) {i : Slot} (hi : p.copy = some i) :
    (w.jobs i).token = tokenMirror := by
  obtain ⟨c, user, -, -, hold⟩ := h.copyJob i hi
  exact congrArg Submission.token hold.submission

theorem job_inj (h : Booked paths closing txn copy p w due) {r r' : Resource} {i : Slot}
    (hi : p.job r = some i) (hi' : p.job r' = some i) : r = r' := by
  obtain ⟨t, ht, htok⟩ := h.job_token hi
  obtain ⟨t', ht', htok'⟩ := h.job_token hi'
  exact h.slots r r' t t' ht ht' (Fin.ext (htok.symm.trans htok'))

theorem job_ne_copy (h : Booked paths closing txn copy p w due) {r : Resource} {i : Slot}
    (hi : p.job r = some i) : p.copy ≠ some i := by
  intro hc
  obtain ⟨t, -, htok⟩ := h.job_token hi
  exact slot_ne_tokenMirror t.slot (htok.symm.trans (h.copy_token hc))

theorem job_none (h : Booked paths closing txn copy p w due) : p.job .none = none := by
  cases hj : p.job .none with
  | none => rfl
  | some i =>
    obtain ⟨t, ht, -⟩ := h.job _ _ hj
    rw [h.noFile] at ht
    cases ht

theorem job_of_txn_none (h : Booked paths closing txn copy p w due) {r : Resource}
    (hr : txn r = none) : p.job r = none := by
  cases hj : p.job r with
  | none => rfl
  | some i =>
    obtain ⟨t, ht, -⟩ := h.job _ _ hj
    rw [hr] at ht
    cases ht

theorem job_nonfree (h : Booked paths closing txn copy p w due) {r : Resource} {i : Slot}
    (hi : p.job r = some i) : (w.jobs i).state ≠ .free := by
  obtain ⟨t, -, hold⟩ := h.job r i hi
  exact hold.nonfree

theorem copy_nonfree (h : Booked paths closing txn copy p w due) {i : Slot}
    (hi : p.copy = some i) : (w.jobs i).state ≠ .free := by
  obtain ⟨c, user, -, -, hold⟩ := h.copyJob i hi
  exact hold.nonfree

/-! ### There is room -/

/-- Whose a slot is; a copy counts for the resource that has no file. -/
theorem owner (h : Booked paths closing txn copy p w due) {i : Slot} (hi : (w.jobs i).state ≠ .free) :
    ∃ r, p.job r = some i ∨ r = .none ∧ p.copy = some i := by
  rcases h.owned i hi with ⟨r, hr⟩ | hc
  · exact ⟨r, .inl hr⟩
  · exact ⟨.none, .inr ⟨rfl, hc⟩⟩

theorem owner_inj (h : Booked paths closing txn copy p w due) {i j : Slot} {r : Resource}
    (hi : p.job r = some i ∨ r = .none ∧ p.copy = some i)
    (hj : p.job r = some j ∨ r = .none ∧ p.copy = some j) : i = j := by
  have hnone := h.job_none
  rcases hi with hi | ⟨rfl, hi⟩ <;> rcases hj with hj | ⟨hr, hj⟩
  · exact Option.some.inj (hi.symm.trans hj)
  · rw [hr, hnone] at hi
    cases hi
  · rw [hnone] at hj
    cases hj
  · exact Option.some.inj (hi.symm.trans hj)

end Booked

instance : Fintype Resource where
  elems := {.none, .password, .ipList, .radio}
  complete r := by cases r <;> decide

theorem card_resource : Fintype.card Resource = 4 := by decide

namespace Booked

variable {paths : Paths} {closing : Bool} {txn : Resource → Option Txn} {copy : Option Copy}
  {p : Places} {w : Writer} {due : List Done}

/-- **At most four job slots are in use.** -/
theorem length_used (h : Booked paths closing txn copy p w due) :
    ((List.finRange queueDepth).filter fun i => (w.jobs i).state ≠ .free).length ≤ 4 := by
  classical
  let owner : Slot → Resource := fun i =>
    if hi : (w.jobs i).state ≠ .free then (h.owner hi).choose else .none
  have hinj : ((List.finRange queueDepth).filter fun i => (w.jobs i).state ≠ .free).map owner
      |>.Nodup := by
    refine List.Nodup.map_on ?_ ((List.nodup_finRange _).filter _)
    intro i hi j hj he
    have hi' : (w.jobs i).state ≠ .free := by simpa using hi
    have hj' : (w.jobs j).state ≠ .free := by simpa using hj
    have hio := (h.owner hi').choose_spec
    have hjo := (h.owner hj').choose_spec
    have hei : owner i = (h.owner hi').choose := dif_pos hi'
    have hej : owner j = (h.owner hj').choose := dif_pos hj'
    rw [← hei] at hio
    rw [← hej, ← he] at hjo
    exact h.owner_inj hio hjo
  have := hinj.length_le_card
  rwa [List.length_map, card_resource] at this

/-- **There is a free job slot.** -/
theorem freeSlot (h : Booked paths closing txn copy p w due) : ∃ i, w.freeSlot = some i := by
  cases hf : w.freeSlot with
  | some i => exact ⟨i, rfl⟩
  | none =>
    have hall : (List.finRange queueDepth).filter (fun i => (w.jobs i).state ≠ .free)
        = List.finRange queueDepth :=
      List.filter_eq_self.mpr fun i _ => by simpa using Writer.freeSlot_eq_none hf i
    have := h.length_used
    rw [hall, List.length_finRange] at this
    exact absurd this (by decide)

/-! ### Queueing a job -/

/-- The slot of a job that is free before is nobody's. -/
theorem free_not_owned (h : Booked paths closing txn copy p w due) {i : Slot}
    (hi : (w.jobs i).state = .free) : (∀ r, p.job r ≠ some i) ∧ p.copy ≠ some i :=
  ⟨fun _ hr => h.job_nonfree hr hi, fun hc => h.copy_nonfree hc hi⟩

/-- A free slot may be overwritten by a free one. -/
theorem setFree (h : Booked paths closing txn copy p w due) {i : Slot} {j : Job}
    (hi : (w.jobs i).state = .free) (hj : j.state = .free) : Booked paths closing txn copy p (w.setJob i j) due := by
  obtain ⟨hjob, hcopy⟩ := h.free_not_owned hi
  have hkeep : ∀ k, k ≠ i → (w.setJob i j).jobs k = w.jobs k := fun k hk =>
    Writer.setJob_jobs_of_ne j hk
  refine { h with
    wf := h.wf.setJob (by simp [hi]) (by simp [hj])
    unreserved := fun k => ?_, owned := fun k hk => ?_, job := fun r k hk => ?_
    copyJob := fun k hk => ?_, first := fun k hk t ht => ?_ }
  · by_cases e : k = i
    · subst e; simp [hj]
    · rw [hkeep k e]; exact h.unreserved k
  · by_cases e : k = i
    · subst e; simp [hj] at hk
    · rw [hkeep k e] at hk; exact h.owned k hk
  · obtain ⟨t, ht, hold⟩ := h.job r k hk
    exact ⟨t, ht, hold.congr (hkeep k fun e => hjob r (e ▸ hk)) rfl⟩
  · obtain ⟨c, user, hc, hu, hold⟩ := h.copyJob k hk
    exact ⟨c, user, hc, hu, hold.congr (hkeep k fun e => hcopy (e ▸ hk)) rfl fun _ => rfl⟩
  · obtain ⟨l, hl, hsub⟩ := h.first k hk t ht
    exact ⟨l, hl, by rw [hkeep k fun e => hcopy (e ▸ hk)]; exact hsub⟩

section Push

variable {i : Slot} {j : Job} {w' : Writer}

/-- **A transaction is opened.** -/
theorem enqueue (h : Booked paths closing txn copy p w due) {r : Resource} {t : Txn}
    (hp : Pushed w i j w') (hr : r ≠ .none) (hidle : txn r = none)
    (hfresh : ∀ r' t', txn r' = some t' → t'.slot ≠ t.slot) (hnew : t.result = none)
    (hsub : j.submission = t.sub paths r) :
    Booked paths closing (Function.update txn r (some t)) copy
      (p.setJob r (some i)) w' due := by
  obtain ⟨hjob, hcopy⟩ := h.free_not_owned hp.free
  have hother : ∀ {r'}, r' ≠ r → Function.update txn r (some t) r' = txn r' :=
    fun hne => Function.update_of_ne hne _ _
  have hotherJob : ∀ {r'}, r' ≠ r → (p.setJob r (some i)).job r' = p.job r' :=
    fun hne => p.setJob_of_ne _ hne
  have hself : (p.setJob r (some i)).job r = some i := p.setJob_self _ _
  refine
    { wf := hp.wf h.wf, shutdown := by rw [hp.eq]; exact h.shutdown
      running := by rw [hp.eq]; exact h.running, unreserved := hp.unreserved h.unreserved
      owned := fun k hk => ?_, job := fun r' k hk => ?_, inHand := fun r' t' ht' hn => ?_
      copyJob := fun k hk => ?_, noCopy := h.noCopy, records := fun d hd => ?_, nodup := h.nodup
      first := fun k hk t' ht' => ?_, noFile := by rw [hother hr.symm]; exact h.noFile
      slots := fun r₁ r₂ t₁ t₂ h₁ h₂ he => ?_ }
  · by_cases e : k = i
    · exact .inl ⟨r, by rw [e]; exact hself⟩
    · rw [hp.other e] at hk
      rcases h.owned k hk with ⟨r', hr'⟩ | hc
      · have hne : r' ≠ r := by
          rintro rfl
          rw [h.job_of_txn_none hidle] at hr'
          cases hr'
        exact .inl ⟨r', by rw [hotherJob hne]; exact hr'⟩
      · exact .inr hc
  · by_cases e : r' = r
    · subst e
      obtain rfl : i = k := Option.some.inj (hself.symm.trans hk)
      exact ⟨t, Function.update_self _ _ _, .queued (by rw [hp.self, hsub]) (by rw [hp.self, hp.queued])
        (by rw [hp.progress_self h.wf, hnew])⟩
    · rw [hotherJob e] at hk
      obtain ⟨t', ht', hold⟩ := h.job r' k hk
      exact ⟨t', by rw [hother e]; exact ht',
        hold.congr (hp.other fun e' => hjob r' (e' ▸ hk)) (hp.progress k)⟩
  · by_cases e : r' = r
    · subst e
      rw [hself] at hn
      cases hn
    · rw [hother e] at ht'
      rw [hotherJob e] at hn
      exact h.inHand r' t' ht' hn
  · obtain ⟨c, user, hc, hu, hold⟩ := h.copyJob k hk
    exact ⟨c, user, hc, hu, hold.congr (hp.other fun e => hcopy (e ▸ hk)) (hp.progress k)
      fun _ => hp.worker⟩
  · rcases h.records d hd with hm | ⟨r', t', ht', hn, htok⟩
    · exact .inl hm
    · have hne : r' ≠ r := by
        rintro rfl
        rw [hidle] at ht'
        cases ht'
      exact .inr ⟨r', t', by rw [hother hne]; exact ht', by rw [hotherJob hne]; exact hn, htok⟩
  · have hki : k ≠ i := fun e => hcopy (e ▸ hk)
    rw [hp.other hki, hp.queue h.wf]
    by_cases e : r = .ipList
    · subst e
      refine ⟨i, hself, fun hq => ?_⟩
      have hmem : k ∈ w.queue := (h.wf.mem_queue k).mpr hq
      exact (List.singleton_sublist.mpr hmem).append (List.Sublist.refl [i])
    · rw [hother (Ne.symm e)] at ht'
      obtain ⟨l, hl, hsubl⟩ := h.first k hk t' ht'
      exact ⟨l, by rw [hotherJob (Ne.symm e)]; exact hl,
        fun hq => (hsubl hq).trans (List.sublist_append_left _ _)⟩
  · by_cases e₁ : r₁ = r <;> by_cases e₂ : r₂ = r
    · rw [e₁, e₂]
    · subst e₁
      rw [hother e₂] at h₂
      rw [Function.update_self] at h₁
      exact absurd (he.symm.trans (congrArg Txn.slot (Option.some.inj h₁)).symm) (hfresh r₂ t₂ h₂)
    · subst e₂
      rw [hother e₁] at h₁
      rw [Function.update_self] at h₂
      exact absurd (he.trans (congrArg Txn.slot (Option.some.inj h₂)).symm) (hfresh r₁ t₁ h₁)
    · rw [hother e₁] at h₁
      rw [hother e₂] at h₂
      exact h.slots r₁ r₂ t₁ t₂ h₁ h₂ he

/-- **A copy to the customer's file is queued**, while no list is under way. -/
theorem enqueueCopy (h : Booked paths closing txn copy p w due) (hp : Pushed w i j w')
    (hidle : txn .ipList = none) (hnone : p.copy = none) {user : Path} {text : Bytes}
    (huser : paths.ipListUser = some user) (hsub : j.submission = copySub paths user text) :
    Booked paths closing txn (some ⟨text, .waiting⟩) { p with copy := some i } w' due := by
  obtain ⟨hjob, -⟩ := h.free_not_owned hp.free
  refine
    { wf := hp.wf h.wf, shutdown := by rw [hp.eq]; exact h.shutdown
      running := by rw [hp.eq]; exact h.running, unreserved := hp.unreserved h.unreserved
      owned := fun k hk => ?_, job := fun r k hk => ?_, inHand := h.inHand
      copyJob := fun k hk => ?_, noCopy := fun hn => ?_, records := h.records, nodup := h.nodup
      first := fun k _ t ht => ?_, noFile := h.noFile, slots := h.slots }
  · by_cases e : k = i
    · exact .inr (by rw [e])
    · rw [hp.other e] at hk
      rcases h.owned k hk with hr | hc
      · exact .inl hr
      · rw [hnone] at hc
        cases hc
  · obtain ⟨t, ht, hold⟩ := h.job r k hk
    exact ⟨t, ht, hold.congr (hp.other fun e => hjob r (e ▸ hk)) (hp.progress k)⟩
  · obtain rfl : i = k := Option.some.inj hk
    exact ⟨_, user, rfl, huser, .waiting (by rw [hp.self, hsub]) (by rw [hp.self, hp.queued])
      (hp.progress_self h.wf)⟩
  · cases hn
  · rw [hidle] at ht
    cases ht

end Push

/-! ### The worker's sections -/

section Worker

variable {w' : Writer}

/-- The worker moves on without making a write or completing a job. -/
theorem moveOn (h : Booked paths closing txn copy p w due) {closing' : Bool}
    (hj : ∀ i, w'.jobs i = w.jobs i) (hq : w'.queue = w.queue) (hs : w'.shutdown = closing')
    (hrun : w'.shutdown = false → w'.worker ≠ .exited) (hp : ∀ i, w'.progress i = w.progress i)
    (hw : ∀ i, p.copy = some i → w.progress i ≠ none → w'.worker = w.worker) :
    Booked paths closing' txn copy p w' due :=
  { h with
    wf := ⟨hq ▸ h.wf.nodup, fun i => by rw [hq, hj]; exact h.wf.mem_queue i⟩
    shutdown := hs
    running := hrun
    unreserved := fun i => by rw [hj]; exact h.unreserved i
    owned := fun i hi => h.owned i (by rwa [hj] at hi)
    job := fun r i hi => by
      obtain ⟨t, ht, hold⟩ := h.job r i hi
      exact ⟨t, ht, hold.congr (hj i) (hp i)⟩
    copyJob := fun i hi => by
      obtain ⟨c, user, hc, hu, hold⟩ := h.copyJob i hi
      exact ⟨c, user, hc, hu, hold.congr (hj i) (hp i) (hw i hi)⟩
    first := fun i hi t ht => by
      obtain ⟨j, hjob, hsub⟩ := h.first i hi t ht
      exact ⟨j, hjob, by rw [hj, hq]; exact hsub⟩ }

/-- The writer takes no more jobs. -/
theorem requestShutdown (h : Booked paths closing txn copy p w due) :
    Booked paths true txn copy p w.requestShutdown due :=
  h.moveOn (fun _ => rfl) rfl rfl (fun hs => by cases hs) (fun _ => rfl) fun _ _ _ => rfl

/-- The write of a transaction is made. -/
theorem wrote (h : Booked paths closing txn copy p w due) {r : Resource} {i : Slot} {t : Txn}
    {res : WriteResult} (hi : p.job r = some i) (ht : txn r = some t) (hworker : w.worker = .writing i) :
    Booked paths closing (Function.update txn r (some { t with result := some res })) copy p
      { w with worker := .echoing i res } due := by
  have hother : ∀ {r' : Resource}, r' ≠ r →
      Function.update txn r (some { t with result := some res }) r' = txn r' :=
    fun hne => Function.update_of_ne hne _ _
  have hpr : ∀ k, w.progress k = none := fun k => by simp [Writer.progress, hworker]
  have hpr' : ∀ k ≠ i, ({ w with worker := .echoing i res } : Writer).progress k = w.progress k :=
    fun k hk => by simp [Writer.progress, hworker, Ne.symm hk]
  have hcur : w.worker.current = some i := by rw [hworker]; rfl
  have hq : ({ w with worker := .echoing i res } : Writer).queue = w.queue := by
    simp [Writer.queue, hworker, Worker.current]
  have hqueued : (w.jobs i).state = .queued :=
    (h.wf.mem_queue i).mp (Writer.current_mem_queue hcur)
  refine
    { wf := ⟨hq ▸ h.wf.nodup, fun k => by rw [hq]; exact h.wf.mem_queue k⟩
      shutdown := h.shutdown, running := fun _ => by simp, unreserved := h.unreserved, owned := h.owned
      job := fun r' k hk => ?_, inHand := fun r' t' ht' hn => ?_, copyJob := fun k hk => ?_
      noCopy := h.noCopy, records := fun d hd => ?_, nodup := h.nodup
      first := fun k hk t' ht' => ?_, noFile := ?_, slots := fun r₁ r₂ t₁ t₂ h₁ h₂ he => ?_ }
  · obtain ⟨t', ht', hold⟩ := h.job r' k hk
    by_cases e : r' = r
    · subst e
      obtain rfl : k = i := Option.some.inj (hk.symm.trans hi)
      obtain rfl : t' = t := Option.some.inj (ht'.symm.trans ht)
      exact ⟨_, Function.update_self _ _ _,
        .queued hold.submission hqueued (by simp [Writer.progress])⟩
    · exact ⟨t', by rw [hother e]; exact ht',
        hold.congr rfl (hpr' k fun e' => e (h.job_inj hk (e' ▸ hi)))⟩
  · have e : r' ≠ r := by
      rintro rfl
      rw [hi] at hn
      cases hn
    rw [hother e] at ht'
    exact h.inHand r' t' ht' hn
  · obtain ⟨c, user, hc, hu, hold⟩ := h.copyJob k hk
    exact ⟨c, user, hc, hu, hold.congr rfl (hpr' k fun e => h.job_ne_copy hi (e ▸ hk))
      fun hne => absurd (hpr k) hne⟩
  · rcases h.records d hd with hm | ⟨r', t', ht', hn, htok⟩
    · exact .inl hm
    · have e : r' ≠ r := by
        rintro rfl
        rw [hi] at hn
        cases hn
      exact .inr ⟨r', t', by rw [hother e]; exact ht', hn, htok⟩
  · rw [hq]
    by_cases e : r = .ipList
    · subst e
      exact h.first k hk t ht
    · rw [hother (Ne.symm e)] at ht'
      exact h.first k hk t' ht'
  · have e : Resource.none ≠ r := by
      rintro rfl
      rw [h.noFile] at ht
      cases ht
    rw [hother e]
    exact h.noFile
  · -- the slot of the transaction is the one it had
    have hslot : ∀ r' t', Function.update txn r (some { t with result := some res }) r' = some t' →
        ∃ t₀, txn r' = some t₀ ∧ t₀.slot = t'.slot := by
      intro r' t' ht'
      by_cases e : r' = r
      · subst e
        rw [Function.update_self] at ht'
        exact ⟨t, ht, by rw [← Option.some.inj ht']⟩
      · rw [hother e] at ht'
        exact ⟨t', ht', rfl⟩
    obtain ⟨u₁, hu₁, hs₁⟩ := hslot r₁ t₁ h₁
    obtain ⟨u₂, hu₂, hs₂⟩ := hslot r₂ t₂ h₂
    exact h.slots r₁ r₂ u₁ u₂ hu₁ hu₂ (by rw [hs₁, hs₂, he])

/-- The worker goes on with a copy. -/
theorem copied (h : Booked paths closing txn copy p w due) {i : Slot} {user : Path} {text : Bytes}
    (hi : p.copy = some i) (huser : paths.ipListUser = some user) (hcur : w.worker.current = some i) {k : Worker}
    {phase' : CopyPhase} (hcur' : k.current = some i)
    (hold' : HoldsCopy { w with worker := k } i (copySub paths user text) phase') :
    Booked paths closing txn (some ⟨text, phase'⟩) p { w with worker := k } due := by
  have hq : ({ w with worker := k } : Writer).queue = w.queue := by
    simp [Writer.queue, hcur, hcur']
  refine { h with
    wf := ⟨hq ▸ h.wf.nodup, fun k => by rw [hq]; exact h.wf.mem_queue k⟩
    running := fun _ => ?_, job := fun r j hj => ?_, copyJob := fun j hj => ?_
    noCopy := fun hn => ?_, first := fun j hj t ht => ?_ }
  · rintro rfl
    cases hcur'
  · obtain ⟨t, ht, hold⟩ := h.job r j hj
    have hne : j ≠ i := fun e => h.job_ne_copy hj (e ▸ hi)
    have hp : ({ w with worker := k } : Writer).progress j = w.progress j := by
      rw [Writer.progress_eq_none (fun e => hne (Option.some.inj (e.symm.trans hcur'))),
        Writer.progress_eq_none (fun e => hne (Option.some.inj (e.symm.trans hcur)))]
    exact ⟨t, ht, hold.congr rfl hp⟩
  · obtain rfl : i = j := Option.some.inj (hi.symm.trans hj)
    exact ⟨_, user, rfl, huser, hold'⟩
  · rw [hi] at hn
    cases hn
  · rw [hq]
    exact h.first j hj t ht

/-- The worker completes a job. -/
theorem publish (h : Booked paths closing txn copy p w due) {i : Slot} {r : WriteResult}
    (hworker : w.worker = .publishing i r) : Booked paths closing txn copy p (w.publish i r).loopHead due := by
  have hcur : w.worker.current = some i := by rw [hworker]; rfl
  have hqueue := Writer.queue_of_current hcur
  have hmem : i ∈ w.queue := Writer.current_mem_queue hcur
  have hqueued : (w.jobs i).state = .queued := (h.wf.mem_queue i).mp hmem
  have hq : (w.publish i r).loopHead.queue = w.ring.toList :=
    (Writer.queue_loopHead rfl).trans (Writer.queue_publish w i r)
  have hself : (w.publish i r).loopHead.jobs i =
      { w.jobs i with
        result := r.rc, savedErrno := r.savedErrno, outcome := r.outcome, state := .done } := by
    rw [Writer.loopHead_jobs, Writer.publish_jobs_self]
  have hother : ∀ k, k ≠ i → (w.publish i r).loopHead.jobs k = w.jobs k := fun k hk => by
    rw [Writer.loopHead_jobs, Writer.publish_jobs_of_ne r hk]
  have hpr : ∀ k, k ≠ i → w.progress k = none := fun k hk =>
    Writer.progress_eq_none fun e => hk (Option.some.inj (e.symm.trans hcur))
  have hpr' : ∀ k, (w.publish i r).loopHead.progress k = none := Writer.progress_loopHead _
  refine { h with
    wf := (h.wf.publish hcur r).loopHead rfl
    shutdown := ?_, running := Writer.loopHead_running, unreserved := fun k => ?_, owned := fun k hk => ?_
    job := fun r' k hk => ?_, copyJob := fun k hk => ?_, first := fun k hk t ht => ?_ }
  · rw [← h.shutdown]
    unfold Writer.loopHead
    split <;> rfl
  · by_cases e : k = i
    · rw [e, hself]; simp
    · rw [hother k e]; exact h.unreserved k
  · by_cases e : k = i
    · exact h.owned k (by rw [e, hqueued]; simp)
    · rw [hother k e] at hk; exact h.owned k hk
  · obtain ⟨t, ht, hold⟩ := h.job r' k hk
    refine ⟨t, ht, ?_⟩
    by_cases e : k = i
    · subst e
      have hprog : w.progress k = some r := by simp [Writer.progress, hworker]
      have htok : (w.jobs k).token = (t.sub paths r').token :=
        congrArg Submission.token hold.submission
      rw [← hold.progress hqueued, hprog]
      exact .done (by rw [hself]; exact hold.submission) (by rw [hself])
        (by rw [hself, ← htok]; rfl)
    · exact hold.congr (hother k e) (by rw [hpr' k, hpr k e])
  · obtain ⟨c, user, hc, hu, hold⟩ := h.copyJob k hk
    refine ⟨c, user, hc, hu, ?_⟩
    by_cases e : k = i
    · subst e
      have hover : c.phase = .over := by
        generalize c.phase = phase at hold
        cases hold with
        | waiting _ _ hp => simp [Writer.progress, hworker] at hp
        | shown _ _ hw => rw [hworker] at hw; cases hw
        | publishing => rfl
        | done => rfl
      rw [hover]
      exact .done (by rw [hself]; exact hold.submission) (by rw [hself])
    · exact hold.congr (hother k e) (by rw [hpr' k, hpr k e]) fun hne => absurd (hpr k e) hne
  · obtain ⟨j, hj, hsub⟩ := h.first k hk t ht
    refine ⟨j, hj, fun hkq => ?_⟩
    have e : k ≠ i := by
      rintro rfl
      rw [hself] at hkq
      cases hkq
    rw [hother k e] at hkq
    have := hsub hkq
    rw [hqueue] at this
    rw [hq]
    cases this with
    | cons _ h' => exact h'
    | cons_cons _ _ => exact absurd rfl e

/-- When the worker is at a list, the copy of the list before it was made. -/
theorem turn (h : Booked paths closing txn copy p w due) {i : Slot} (hworker : w.worker = .writing i)
    (hi : p.job .ipList = some i) : ∀ c, copy = some c → c.phase = .over := by
  intro c hc
  cases hk : p.copy with
  | none =>
    rw [h.noCopy hk] at hc
    cases hc
  | some k =>
    obtain ⟨c', user, hc', -, hold⟩ := h.copyJob k hk
    obtain rfl : c' = c := Option.some.inj (hc'.symm.trans hc)
    obtain ⟨t, ht, -⟩ := h.job .ipList i hi
    obtain ⟨j, hj, hsub⟩ := h.first k hk t ht
    obtain rfl : j = i := Option.some.inj (hj.symm.trans hi)
    have hqueue : w.queue = j :: w.ring.toList := by simp [Writer.queue, hworker, Worker.current]
    have hunqueued : (w.jobs k).state ≠ .queued := by
      intro hq
      have hlt := hsub hq
      have hnodup := h.wf.nodup
      rw [hqueue] at hlt hnodup
      cases hlt with
      | cons _ hlt => exact (List.nodup_cons.mp hnodup).1 (hlt.subset (by simp))
      | cons_cons _ hlt => exact (List.nodup_cons.mp hnodup).1 (hlt.subset (by simp))
    generalize c'.phase = phase at hold
    cases hold with
    | waiting _ hq _ => exact absurd hq hunqueued
    | shown _ hq _ => exact absurd hq hunqueued
    | publishing => rfl
    | done => rfl

/-- **A section of the worker's thread.** -/
theorem worker (h : Booked paths closing txn copy p w due) (res : WriteResult) :
    ((w.workerStep res).2 = [] ∧ Booked paths closing txn copy p (w.workerStep res).1 due) ∨
    (∃ r t, txn r = some t ∧ t.result = none ∧ (r = .ipList → ∀ c, copy = some c → c.phase = .over) ∧
      (w.workerStep res).2 = [⟨r.path paths, t.data, r.mode, res⟩] ∧
      Booked paths closing (Function.update txn r (some { t with result := some res })) copy p
        (w.workerStep res).1 due) ∨
    (∃ text user, paths.ipListUser = some user ∧ copy = some ⟨text, .waiting⟩ ∧
      (w.workerStep res).2 = [⟨user, text, 0o644, res⟩] ∧
      Booked paths closing txn (some ⟨text, .shown res⟩) p (w.workerStep res).1 due) ∨
    (∃ text r, copy = some ⟨text, .shown r⟩ ∧
      ((∃ last, paths.ipListUserLast = some last ∧ last ≠ [] ∧ r.outcome ≠ .unchanged ∧
          (w.workerStep res).2 = [⟨last, text, 0o644, res⟩]) ∨
        ((∀ last, paths.ipListUserLast = some last → last = []) ∨ r.outcome = .unchanged) ∧
          (w.workerStep res).2 = []) ∧
      Booked paths closing txn (some ⟨text, .over⟩) p (w.workerStep res).1 due) := by
  cases hworker : w.worker with
  | waiting =>
    refine .inl ⟨by simp [Writer.workerStep, hworker], ?_⟩
    have hstep : (w.workerStep res).1 = w.loopHead := by simp [Writer.workerStep, hworker]
    have hpr : ∀ i, w.progress i = none := fun i => by simp [Writer.progress, hworker]
    rw [hstep]
    refine h.moveOn (fun i => by rw [Writer.loopHead_jobs])
      (Writer.queue_loopHead (by rw [hworker]; rfl)) ?_ Writer.loopHead_running (fun i => ?_)
      fun i _ hne => absurd (hpr i) hne
    · rw [← h.shutdown]
      unfold Writer.loopHead
      split <;> rfl
    · rw [hpr i, Writer.progress_loopHead]
  | writing i =>
    have hcur : w.worker.current = some i := by rw [hworker]; rfl
    have hqueued : (w.jobs i).state = .queued :=
      (h.wf.mem_queue i).mp (Writer.current_mem_queue hcur)
    have hpr : w.progress i = none := by simp [Writer.progress, hworker]
    have hout : (w.workerStep res).2 =
        [⟨(w.jobs i).submission.path, (w.jobs i).submission.bytes, (w.jobs i).submission.mode, res⟩] := by
      simp [Writer.workerStep, hworker, Job.submission]
    have hstep : (w.workerStep res).1 = { w with worker := .echoing i res } := by
      simp [Writer.workerStep, hworker]
    rw [hout, hstep]
    rcases h.owned i (by simp [hqueued]) with ⟨r, hr⟩ | hc
    · obtain ⟨t, ht, hold⟩ := h.job r i hr
      exact .inr (.inl ⟨r, t, ht, by rw [← hold.progress hqueued, hpr], fun e => h.turn hworker (e ▸ hr),
        by rw [hold.submission]; rfl, h.wrote hr ht hworker⟩)
    · obtain ⟨⟨text, phase⟩, user, hcopy, hu, hold⟩ := h.copyJob i hc
      dsimp only at hold
      obtain rfl : phase = .waiting := by
        cases hold with
        | waiting => rfl
        | shown _ _ hw => rw [hworker] at hw; cases hw
        | publishing _ _ hw => rw [hworker] at hw; cases hw
        | done _ hd => rw [hd] at hqueued; cases hqueued
      refine .inr (.inr (.inl ⟨text, user, hu, hcopy, by rw [hold.submission]; rfl, ?_⟩))
      exact h.copied hc hu hcur rfl (.shown hold.submission hqueued rfl)
  | echoing i r =>
    have hcur : w.worker.current = some i := by rw [hworker]; rfl
    have hqueued : (w.jobs i).state = .queued :=
      (h.wf.mem_queue i).mp (Writer.current_mem_queue hcur)
    have hstep : (w.workerStep res).1 = { w with worker := .publishing i r } := by
      simp [Writer.workerStep, hworker]
    have hout : (w.workerStep res).2 =
        if (w.jobs i).submission.echoPath ≠ [] ∧ r.outcome ≠ .unchanged then
          [⟨(w.jobs i).submission.echoPath, (w.jobs i).submission.bytes,
            (w.jobs i).submission.mode, res⟩] else [] := by
      simp only [Writer.workerStep, hworker]
      rfl
    rw [hstep, hout]
    rcases h.owned i (by simp [hqueued]) with ⟨r', hr⟩ | hc
    · obtain ⟨t, ht, hold⟩ := h.job r' i hr
      refine .inl ⟨by rw [hold.submission]; simp [Txn.sub], ?_⟩
      refine h.moveOn (fun _ => rfl) (by simp [Writer.queue, hworker, Worker.current]) h.shutdown
        (fun _ => by simp) (fun k => by simp [Writer.progress, hworker]) fun k hk hne => ?_
      refine absurd (Writer.progress_eq_none fun e => ?_) hne
      exact h.job_ne_copy hr (Option.some.inj (hcur.symm.trans e) ▸ hk)
    · obtain ⟨⟨text, phase⟩, user, hcopy, hu, hold⟩ := h.copyJob i hc
      dsimp only at hold
      obtain rfl : phase = .shown r := by
        cases hold with
        | waiting _ _ hp => simp [Writer.progress, hworker] at hp
        | shown _ _ hw => rw [hworker] at hw; cases hw; rfl
        | publishing _ _ hw => rw [hworker] at hw; cases hw
        | done _ hd => rw [hd] at hqueued; cases hqueued
      refine .inr (.inr (.inr ⟨text, r, hcopy, ?_,
        h.copied hc hu hcur rfl (.publishing hold.submission hqueued rfl)⟩))
      rw [hold.submission]
      cases hlast : paths.ipListUserLast with
      | none => exact .inr ⟨.inl (by simp), by simp [copySub, hlast]⟩
      | some last =>
        by_cases hne : last = []
        · exact .inr ⟨.inl (by simp [hne]), by simp [copySub, hlast, hne]⟩
        · by_cases hr : r.outcome = .unchanged
          · exact .inr ⟨.inr hr, by simp [hr]⟩
          · exact .inl ⟨last, rfl, hne, hr, by simp [copySub, hlast, hne, hr]⟩
  | publishing i r =>
    refine .inl ⟨by simp [Writer.workerStep, hworker], ?_⟩
    have hstep : (w.workerStep res).1 = (w.publish i r).loopHead := by
      simp [Writer.workerStep, hworker]
    rw [hstep]
    exact h.publish hworker
  | exited =>
    refine .inl ⟨by simp [Writer.workerStep, hworker], ?_⟩
    have hstep : (w.workerStep res).1 = w := by simp [Writer.workerStep, hworker]
    rw [hstep]
    exact h

end Worker

/-! ### Records -/

/-- No two jobs have one token. -/
theorem token_inj (h : Booked paths closing txn copy p w due) {i j : Slot}
    (hi : (w.jobs i).state ≠ .free) (hj : (w.jobs j).state ≠ .free)
    (he : (w.jobs i).token = (w.jobs j).token) : i = j := by
  have hmixed : ∀ {k l : Slot} {r : Resource}, p.job r = some k → p.copy = some l →
      (w.jobs k).token ≠ (w.jobs l).token := by
    intro k l r hk hl e
    obtain ⟨t, -, htok⟩ := h.job_token hk
    exact slot_ne_tokenMirror t.slot (by rw [← htok, e, h.copy_token hl])
  rcases h.owned i hi with ⟨r, hr⟩ | hc <;> rcases h.owned j hj with ⟨r', hr'⟩ | hc'
  · obtain ⟨t, ht, htok⟩ := h.job_token hr
    obtain ⟨t', ht', htok'⟩ := h.job_token hr'
    obtain rfl : r = r' := h.slots r r' t t' ht ht' (Fin.ext (by rw [← htok, he, htok']))
    exact Option.some.inj (hr.symm.trans hr')
  · exact absurd he (hmixed hr hc')
  · exact absurd he.symm (hmixed hr' hc)
  · exact Option.some.inj (hc.symm.trans hc')

end Booked

/-- Where the jobs are that a drain leaves. -/
def Places.drained (p : Places) (w : Writer) : Places where
  job r := (p.job r).filter fun i => (w.jobs i).state ≠ .done
  copy := p.copy.filter fun i => (w.jobs i).state ≠ .done

namespace Booked

variable {paths : Paths} {closing : Bool} {txn : Resource → Option Txn} {copy : Option Copy}
  {p : Places} {w : Writer} {due : List Done}

theorem drained_eq_some {o : Option Slot} {i : Slot} :
    (o.filter fun i => (w.jobs i).state ≠ .done) = some i ↔ o = some i ∧ (w.jobs i).state ≠ .done := by
  simp [Option.filter_eq_some_iff]

/-- A drain takes every completed job. -/
theorem drain_eq (w : Writer) :
    (w.drain queueDepth).2 = w.doneSlots.map (fun i => (w.jobs i).record) ∧
      ∀ i, (w.drain queueDepth).1.jobs i =
        if (w.jobs i).state = .done then { w.jobs i with state := .free } else w.jobs i := by
  have hlen : w.doneSlots.length ≤ queueDepth :=
    (List.length_filter_le _ _).trans (List.length_finRange).le
  have htake : w.doneSlots.take queueDepth = w.doneSlots := List.take_of_length_le hlen
  refine ⟨congrArg (List.map fun i => (w.jobs i).record) htake, fun i => ?_⟩
  refine (Writer.harvest_jobs w.readEvent queueDepth i).trans ?_
  rw [show w.readEvent.doneSlots = w.doneSlots from rfl, htake]
  simp only [Writer.mem_doneSlots]
  rfl

/-- **The completed jobs become records in hand.** -/
theorem drain (h : Booked paths closing txn copy p w []) {copy' : Option Copy}
    (hcopy : copy' = if (p.drained w).copy = none then none else copy) :
    Booked paths closing txn copy' (p.drained w) (w.drain queueDepth).1 (w.drain queueDepth).2 := by
  obtain ⟨hrec, hjobs⟩ := drain_eq w
  have hkeep : ∀ i, (w.jobs i).state ≠ .done → (w.drain queueDepth).1.jobs i = w.jobs i :=
    fun i hi => by rw [hjobs, if_neg hi]
  have hgone : ∀ i, (w.jobs i).state = .done → ((w.drain queueDepth).1.jobs i).state = .free :=
    fun i hi => by rw [hjobs, if_pos hi]
  have hworker : (w.drain queueDepth).1.worker = w.worker := Writer.harvest_worker _ _
  have hq : (w.drain queueDepth).1.queue = w.queue := Writer.harvest_queue _ _
  have hpr : ∀ i, (w.drain queueDepth).1.progress i = w.progress i := fun i => by
    simp only [Writer.progress, hworker]
  have hmem : ∀ d ∈ (w.drain queueDepth).2, ∃ i, (w.jobs i).state = .done ∧ d = (w.jobs i).record := by
    intro d hd
    rw [hrec] at hd
    obtain ⟨i, hi, rfl⟩ := List.mem_map.mp hd
    exact ⟨i, Writer.mem_doneSlots.mp hi, rfl⟩
  have hjob : ∀ {r i}, (p.drained w).job r = some i ↔ p.job r = some i ∧ (w.jobs i).state ≠ .done :=
    drained_eq_some
  have hcp : ∀ {i}, (p.drained w).copy = some i ↔ p.copy = some i ∧ (w.jobs i).state ≠ .done :=
    drained_eq_some
  refine
    { wf := Writer.WF.harvest (w := w.readEvent) ⟨h.wf.nodup, h.wf.mem_queue⟩ queueDepth
      shutdown := ?_, running := ?_, unreserved := fun i => ?_, owned := fun i hi => ?_
      job := fun r i hi => ?_, inHand := fun r t ht hn => ?_, copyJob := fun i hi => ?_
      noCopy := fun hn => by rw [hcopy, if_pos hn], records := fun d hd => ?_, nodup := ?_
      first := fun i hi t ht => ?_, noFile := h.noFile, slots := h.slots }
  · rw [← h.shutdown]
    exact Writer.harvest_shutdown _ _
  · rw [hworker, show (w.drain queueDepth).1.shutdown = w.shutdown from Writer.harvest_shutdown _ _]
    exact h.running
  · by_cases hd : (w.jobs i).state = .done
    · rw [hgone i hd]; simp
    · rw [hkeep i hd]; exact h.unreserved i
  · have hd : (w.jobs i).state ≠ .done := fun hd => hi (hgone i hd)
    rw [hkeep i hd] at hi
    rcases h.owned i hi with ⟨r, hr⟩ | hc
    · exact .inl ⟨r, hjob.mpr ⟨hr, hd⟩⟩
    · exact .inr (hcp.mpr ⟨hc, hd⟩)
  · obtain ⟨hi, hd⟩ := hjob.mp hi
    obtain ⟨t, ht, hold⟩ := h.job r i hi
    exact ⟨t, ht, hold.congr (hkeep i hd) (hpr i)⟩
  · -- a transaction that is not in a slot any more was completed
    cases hi : p.job r with
    | none =>
      obtain ⟨res, -, hd⟩ := h.inHand r t ht hi
      cases hd
    | some i =>
      have hd : (w.jobs i).state = .done := by
        by_contra hd
        rw [hjob.mpr ⟨hi, hd⟩] at hn
        cases hn
      obtain ⟨t', ht', hold⟩ := h.job r i hi
      obtain rfl : t' = t := Option.some.inj (ht'.symm.trans ht)
      obtain ⟨res, hres, hr⟩ := hold.record hd
      refine ⟨res, hres, ?_⟩
      rw [hrec, ← show (w.jobs i).record = doneRecord t'.slot res from hr]
      exact List.mem_map_of_mem (Writer.mem_doneSlots.mpr hd)
  · obtain ⟨hi', hd⟩ := hcp.mp hi
    obtain ⟨c, user, hc, hu, hold⟩ := h.copyJob i hi'
    refine ⟨c, user, ?_, hu, hold.congr (hkeep i hd) (hpr i) fun _ => hworker⟩
    rw [hcopy, hi, if_neg (by simp), hc]
  · obtain ⟨i, hdone, rfl⟩ := hmem d hd
    rcases h.owned i (by rw [hdone]; simp) with ⟨r, hr⟩ | hc
    · obtain ⟨t, ht, htok⟩ := h.job_token hr
      refine .inr ⟨r, t, ht, ?_, htok⟩
      cases hn : (p.drained w).job r with
      | none => rfl
      | some j =>
        obtain ⟨hj, hnd⟩ := hjob.mp hn
        exact absurd hdone (Option.some.inj (hj.symm.trans hr) ▸ hnd)
    · exact .inl (h.copy_token hc)
  · rw [hrec, List.map_map]
    refine List.Nodup.map_on ?_ (Writer.nodup_doneSlots w)
    intro i hi j hj he
    exact h.token_inj (by rw [Writer.mem_doneSlots.mp hi]; simp)
      (by rw [Writer.mem_doneSlots.mp hj]; simp) he
  · obtain ⟨hi, hd⟩ := hcp.mp hi
    obtain ⟨j, hj, hsub⟩ := h.first i hi t ht
    have hqueued : (w.jobs i).state = .queued := by
      have hu := h.unreserved i
      have hf := h.copy_nonfree hi
      cases hs : (w.jobs i).state <;> simp_all
    have hjq : j ∈ w.queue := (hsub hqueued).subset (by simp)
    refine ⟨j, hjob.mpr ⟨hj, by rw [(h.wf.mem_queue j).mp hjq]; simp⟩, fun _ => ?_⟩
    rw [hq]
    exact hsub hqueued

/-- The copy that a drain ends is over. -/
theorem drained_copy (h : Booked paths closing txn copy p w due) :
    (if (p.drained w).copy = none then none else copy) = copy ∨
      ∃ text, copy = some ⟨text, .over⟩ ∧
        (if (p.drained w).copy = none then none else copy) = none := by
  by_cases hn : (p.drained w).copy = none
  · rw [if_pos hn]
    cases hc : p.copy with
    | none => exact .inl (h.noCopy hc).symm
    | some i =>
      have hd : (w.jobs i).state = .done := by
        by_contra hd
        have : (p.drained w).copy = some i := drained_eq_some.mpr ⟨hc, hd⟩
        rw [this] at hn
        cases hn
      obtain ⟨⟨text, phase⟩, user, hcopy, -, hold⟩ := h.copyJob i hc
      obtain rfl : phase = .over := hold.over hd
      exact .inr ⟨text, hcopy, rfl⟩
  · exact .inl (if_neg hn)

/-- **A record is dealt with**: it ends a copy, or it is that of a transaction, whose list has no copy
under way. -/
theorem settle {d : Done} {ds : List Done} (h : Booked paths closing txn copy p w (d :: ds)) :
    d.token = tokenMirror ∧ Booked paths closing txn copy p w ds ∨
      ∃ r t res, txn r = some t ∧ t.result = some res ∧ d = doneRecord t.slot res ∧
        Booked paths closing (Function.update txn r none) copy p w ds ∧ (r = .ipList → p.copy = none) := by
  have hnodup : d.token ∉ ds.map Done.token ∧ (ds.map Done.token).Nodup :=
    List.nodup_cons.mp h.nodup
  have hrest : ∀ {res : WriteResult} {k : AckIdx}, (k : Nat) ≠ d.token →
      doneRecord k res ∈ d :: ds → doneRecord k res ∈ ds := by
    intro res k hne hm
    rcases List.mem_cons.mp hm with e | hm
    · exact absurd (congrArg Done.token e) hne
    · exact hm
  rcases h.records d (List.mem_cons_self) with hm | ⟨r, t, ht, hn, htok⟩
  · refine .inl ⟨hm, { h with
      inHand := fun r t ht hn => ?_, records := fun d' hd => h.records d' (List.mem_cons_of_mem _ hd)
      nodup := hnodup.2 }⟩
    obtain ⟨res, hres, hmem⟩ := h.inHand r t ht hn
    exact ⟨res, hres, hrest (by rw [hm]; exact slot_ne_tokenMirror t.slot) hmem⟩
  · obtain ⟨res, hres, hmem⟩ := h.inHand r t ht hn
    have hd : d = doneRecord t.slot res := by
      rcases List.mem_cons.mp hmem with e | hmem
      · exact e.symm
      · exact absurd (htok ▸ List.mem_map_of_mem hmem) hnodup.1
    have hother : ∀ {r' : Resource}, r' ≠ r → Function.update txn r none r' = txn r' :=
      fun hne => Function.update_of_ne hne _ _
    have hopen : ∀ {r' : Resource} {t' : Txn}, Function.update txn r none r' = some t' →
        r' ≠ r ∧ txn r' = some t' := by
      intro r' t' ht'
      have hne : r' ≠ r := by
        rintro rfl
        rw [Function.update_self] at ht'
        cases ht'
      exact ⟨hne, by rwa [hother hne] at ht'⟩
    refine .inr ⟨r, t, res, ht, hres, hd, { h with
      job := fun r' i hi => ?_, inHand := fun r' t' ht' hn' => ?_, records := fun d' hd' => ?_
      nodup := hnodup.2, first := fun i hi t' ht' => h.first i hi t' (hopen ht').2
      noFile := ?_
      slots := fun r₁ r₂ t₁ t₂ h₁ h₂ => h.slots r₁ r₂ t₁ t₂ (hopen h₁).2 (hopen h₂).2 }, ?_⟩
    · have hne : r' ≠ r := by
        rintro rfl
        rw [hn] at hi
        cases hi
      rw [hother hne]
      exact h.job r' i hi
    · obtain ⟨hne, ht'⟩ := hopen ht'
      obtain ⟨res', hres', hmem'⟩ := h.inHand r' t' ht' hn'
      refine ⟨res', hres', hrest (fun e => hne ?_) hmem'⟩
      exact h.slots r' r t' t ht' ht (Fin.ext (e.trans htok))
    · rcases h.records d' (List.mem_cons_of_mem _ hd') with hm | ⟨r', t', ht', hn', htok'⟩
      · exact .inl hm
      · have hne : r' ≠ r := by
          rintro rfl
          obtain rfl : t' = t := Option.some.inj (ht'.symm.trans ht)
          exact hnodup.1 (List.mem_map.mpr ⟨d', hd', htok'.trans htok.symm⟩)
        exact .inr ⟨r', t', by rw [hother hne]; exact ht', hn', htok'⟩
    · have hne : Resource.none ≠ r := by
        rintro rfl
        rw [h.noFile] at ht
        cases ht
      rw [hother hne]
      exact h.noFile
    · rintro rfl
      cases hc : p.copy with
      | none => rfl
      | some i =>
        obtain ⟨j, hj, -⟩ := h.first i hc t ht
        rw [hn] at hj
        cases hj

end Booked

end Opcd
