import Opcd.Abstract.Book
import Opcd.Daemon.Refines

/-!
# The daemon does what the service does

`Tracks` ties a state of the daemon, with the completions in hand, to the open transactions: the
acknowledgement slots are theirs, and so is everything the writer holds. `St.sys` is the state of the
service then.

* `Tracks.trans`: every transition of the daemon is a chain of moves with the same effects.
* `daemon_simulated`: so is every action.
* `shows_startup`: the daemon starts with no transaction open.

No write finds the acknowledgement slots or the job slots used up (`Acked.ackSlot`,
`Booked.freeSlot`), so the transition `Trans.starved` never happens.
-/

namespace Opcd

open Bytes Protocol Store
open Store.Writer (Pushed)

/-! ## The relation -/

/-- The service a daemon's state shows, for these transactions. -/
def St.sys (st : St) (closing : Bool) (txn : Resource → Option Txn) (copy : Option Copy) : Sys where
  paths := st.paths
  iface := st.mgmtIpIfaceIdx
  loggedIn := st.session.loggedIn
  generation := st.session.generation
  pw := st.pw
  rad := st.rad
  ipl := st.ipl
  chg := st.chg
  async := st.storeAsync.isSome
  closing := closing
  txn := txn
  copy := copy

/-- Another writer is a writer. -/
theorem St.steps_attached {src : Source} {x : Sys} {out : List Effect} {st st' : St} {w w' : Writer}
    {closing : Bool} {txn : Resource → Option Txn} {copy : Option Copy} (hw : st.storeAsync = some w)
    (hw' : st'.storeAsync = some w')
    (h : Steps (Move src) x out
      { st'.sys closing txn copy with async := st.storeAsync.isSome }) :
    Steps (Move src) x out (st'.sys closing txn copy) := by
  have heq : st'.sys closing txn copy =
      { st'.sys closing txn copy with async := st.storeAsync.isSome } := by
    simp [St.sys, hw, hw']
  rw [heq]
  exact h

/-- The acknowledgement slot of a transaction. -/
def Txn.pendingAck (r : Resource) (t : Txn) (gen : BitVec 32) : PendingAck where
  inUse := true
  noAck := t.noAck
  resource := r
  reqId := r.reqId
  seq := t.cl.seq
  radioGen := if r = .radio then gen else 0
  clientIp := t.cl.ip
  clientPort := t.cl.port

/-- The acknowledgement slots in use are those of the transactions. -/
structure Acked (txn : Resource → Option Txn) (acks : AckIdx → PendingAck) (gen : BitVec 32) : Prop where
  ack : ∀ r t, txn r = some t → acks t.slot = t.pendingAck r gen
  owned : ∀ k, (acks k).inUse = true → ∃ r t, txn r = some t ∧ t.slot = k

/-- The writer, if there is one, holds the transactions and nothing else. -/
def Kept (paths : Paths) (closing : Bool) (txn : Resource → Option Txn) (copy : Option Copy)
    (due : List Done) : Option Writer → Prop
  | none => txn = (fun _ => none) ∧ copy = none ∧ due = []
  | some w => ∃ p, Booked paths closing txn copy p w due

/-- The transactions are those of the daemon. -/
structure Tracks (l : Loop) (closing : Bool) (txn : Resource → Option Txn) (copy : Option Copy) :
    Prop where
  acked : Acked txn l.st.acks l.st.rad.gen
  kept : Kept l.st.paths closing txn copy l.due l.st.storeAsync

/-! ## Acknowledgement slots -/

namespace Acked

variable {txn : Resource → Option Txn} {acks : AckIdx → PendingAck} {gen : BitVec 32}

/-- A resource is busy while its transaction is open. -/
theorem busy {st : St} (h : Acked txn st.acks gen) (r : Resource) : st.persistResourceBusy r = (txn r).isSome := by
  rw [Bool.eq_iff_iff, Option.isSome_iff_exists]
  simp only [St.persistResourceBusy, List.any_eq_true, List.mem_finRange, true_and, decide_eq_true_eq]
  constructor
  · rintro ⟨k, hk, hr⟩
    obtain ⟨r', t, ht, rfl⟩ := h.owned k hk
    rw [h.ack r' t ht] at hr
    exact ⟨t, hr ▸ ht⟩
  · rintro ⟨t, ht⟩
    exact ⟨t.slot, by simp [h.ack r t ht, Txn.pendingAck]⟩

/-- **There is a free acknowledgement slot.** -/
theorem ackSlot {st : St} (h : Acked txn st.acks gen) : ∃ k, st.pendingAckAlloc = some k := by
  cases hk : st.pendingAckAlloc with
  | some k => exact ⟨k, rfl⟩
  | none =>
    have hall : ∀ k, ∃ r t, txn r = some t ∧ t.slot = k := fun k => by
      have := List.find?_eq_none.mp hk k (List.mem_finRange k)
      exact h.owned k (by simpa using this)
    choose r t ht hs using hall
    have hinj : Function.Injective r := fun k k' e => by
      have := ht k
      rw [e, ht k'] at this
      rw [← hs k, ← hs k', Option.some.inj this]
    exact absurd (Fintype.card_le_of_injective r hinj) (by decide)

/-- The slot that is allocated is nobody's. -/
theorem fresh {st : St} (h : Acked txn st.acks gen) {k : AckIdx} (hk : st.pendingAckAlloc = some k)
    {r : Resource} {t : Txn} (ht : txn r = some t) : t.slot ≠ k := by
  rintro rfl
  have hfree : (st.acks t.slot).inUse = false := by simpa using List.find?_some hk
  rw [h.ack r t ht] at hfree
  cases hfree

/-- A transaction is opened in a fresh slot. -/
theorem enqueue (h : Acked txn acks gen) {r : Resource} {t : Txn}
    (hfresh : ∀ r' t', txn r' = some t' → t'.slot ≠ t.slot) {gen' : BitVec 32}
    (hgen : ∀ t', txn .radio = some t' → gen' = gen) (hidle : txn r = none) :
    Acked (Function.update txn r (some t)) (Function.update acks t.slot (t.pendingAck r gen')) gen' where
  ack r' t' ht' := by
    by_cases e : r' = r
    · subst e
      rw [Function.update_self] at ht'
      rw [← Option.some.inj ht', Function.update_self]
    · rw [Function.update_of_ne e] at ht'
      rw [Function.update_of_ne (hfresh r' t' ht'), h.ack r' t' ht']
      by_cases hr : r' = .radio
      · subst hr
        rw [hgen t' ht']
      · simp [Txn.pendingAck, hr]
  owned k hk := by
    by_cases e : k = t.slot
    · exact ⟨r, t, Function.update_self _ _ _, e.symm⟩
    · rw [Function.update_of_ne e] at hk
      obtain ⟨r', t', ht', hs⟩ := h.owned k hk
      have hne : r' ≠ r := by
        rintro rfl
        rw [hidle] at ht'
        cases ht'
      exact ⟨r', t', by rw [Function.update_of_ne hne]; exact ht', hs⟩

/-- The worker made the write of a transaction. -/
theorem wrote (h : Acked txn acks gen) {r : Resource} {t : Txn} (ht : txn r = some t) (res : WriteResult) :
    Acked (Function.update txn r (some { t with result := some res })) acks gen where
  ack r' t' ht' := by
    by_cases e : r' = r
    · subst e
      rw [Function.update_self] at ht'
      rw [← Option.some.inj ht']
      exact h.ack r' t ht
    · rw [Function.update_of_ne e] at ht'
      exact h.ack r' t' ht'
  owned k hk := by
    obtain ⟨r', t', ht', hs⟩ := h.owned k hk
    by_cases e : r' = r
    · subst e
      obtain rfl : t' = t := Option.some.inj (ht'.symm.trans ht)
      exact ⟨r', _, Function.update_self _ _ _, hs⟩
    · exact ⟨r', t', by rw [Function.update_of_ne e]; exact ht', hs⟩

/-- A transaction is closed. -/
theorem settle (h : Acked txn acks gen) {r : Resource} {t : Txn} (ht : txn r = some t)
    (hslots : ∀ r' t', txn r' = some t' → t'.slot = t.slot → r' = r) {pa : PendingAck} (hpa : pa.inUse = false) :
    Acked (Function.update txn r none) (Function.update acks t.slot pa) gen where
  ack r' t' ht' := by
    have hne : r' ≠ r := by
      rintro rfl
      rw [Function.update_self] at ht'
      cases ht'
    rw [Function.update_of_ne hne] at ht'
    rw [Function.update_of_ne fun e => hne (hslots r' t' ht' e)]
    exact h.ack r' t' ht'
  owned k hk := by
    have hk' : k ≠ t.slot := by
      rintro rfl
      rw [Function.update_self, hpa] at hk
      cases hk
    rw [Function.update_of_ne hk'] at hk
    obtain ⟨r', t', ht', hs⟩ := h.owned k hk
    have hne : r' ≠ r := by
      rintro rfl
      obtain rfl : t' = t := Option.some.inj (ht'.symm.trans ht)
      exact hk' hs.symm
    exact ⟨r', t', by rw [Function.update_of_ne hne]; exact ht', hs⟩

end Acked

/-! ## The groups of the state -/

theorem St.armIpChangeFromCommitted_eq (st : St) :
    st.armIpChangeFromCommitted = { st with chg := st.chg.arm st.ipl.list } := by
  unfold St.armIpChangeFromCommitted IpChange.arm slotIdx?
  dsimp only
  split
  · split <;> simp_all
  · rfl

theorem St.logoutDecision_eq (st : St) :
    st.logoutDecision =
      { st with chg := st.chg.logout st.ipl.list (st.persistResourceBusy .ipList) } := by
  unfold St.logoutDecision IpChange.logout
  split
  · split
    · rfl
    · exact st.armIpChangeFromCommitted_eq
  · rfl

theorem St.decideDeferred_eq (st : St) :
    st.decideDeferred = { st with chg := st.chg.settle st.ipl.list } := by
  unfold St.decideDeferred IpChange.settle
  cases hd : st.chg.logoutDeferred with
  | false => simp
  | true =>
    simp only [not_true_eq_false, if_false, if_true]
    split
    · exact St.armIpChangeFromCommitted_eq _
    · rfl

theorem St.iplistWriteUser_eq (st : St) (env : MirrorEnv) :
    st.iplistWriteUser env = st.paths.writeUser st.ipl.list env := by
  unfold St.iplistWriteUser Paths.writeUser
  rw [IpList.textFormat_eq]
  cases st.paths.ipListUser <;> rfl

theorem St.radioTxnArm_fst (st : St) (marker : WriteResult) (req : RadioConfig) :
    (st.radioTxnArm marker req).1 = st.paths.armMarker marker req := by
  unfold St.radioTxnArm Paths.armMarker
  cases st.paths.radioMarker <;> rfl

theorem St.radioTxnClear_eq (st : St) (ok : Bool) : st.radioTxnClear ok = st.paths.clearMarker ok := by
  unfold St.radioTxnClear Paths.clearMarker
  cases st.paths.radioMarker <;> rfl

/-- A radio write that came to an end, with no apply since it was asked for. -/
theorem St.completeRadio_eq (st : St) (revert : ApplyResult) (unlink : Bool) (o : Outcome) :
    st.completeRadio revert unlink st.rad.gen o =
      ⟨{ st with rad := st.rad.settle revert o }, st.rad.settleOut st.paths revert unlink o, ()⟩ := by
  unfold St.completeRadio
  rw [if_neg (by simp)]
  cases o with
  | durable =>
    simp only [Turn.bind, RadioState.settle, RadioState.settleOut, St.radioTxnClear_eq, St.done, List.append_nil]
  | replacedUnsynced => rfl
  | unchanged =>
    have hdrain : ∀ st : St, st.radioRevertDrain revert =
        if st.rad.revertPending then
          ⟨{ st with rad := st.rad.reverted revert }, [.applyRadio st.rad.revertCfg revert], ()⟩
        else ⟨st, [], ()⟩ := fun st => by
      unfold St.radioRevertDrain
      cases st.rad.revertPending <;> rfl
    simp only [hdrain, RadioState.settle, RadioState.settleOut]
    have hun : ({ st.rad with committed := false } : RadioState).armRevert st.rad.revertCfg
        st.rad.revertCommitted st.rad.persistBaselineValid = st.rad.unwritten := rfl
    simp only [hun]
    split <;> rfl

theorem RadioState.armRevert_gen (r : RadioState) (b : RadioConfig) (c v : Bool) :
    (r.armRevert b c v).gen = r.gen := by
  unfold RadioState.armRevert
  split <;> rfl

theorem RadioState.reverted_gen (r : RadioState) (res : ApplyResult) : (r.reverted res).gen = r.gen := by
  cases res <;> rfl

/-- No write that comes to an end counts as an apply. -/
theorem RadioState.settle_gen (r : RadioState) (res : ApplyResult) (o : Outcome) : (r.settle res o).gen = r.gen := by
  have hun : r.unwritten.gen = r.gen := RadioState.armRevert_gen _ _ _ _
  cases o with
  | durable => rfl
  | replacedUnsynced => rfl
  | unchanged =>
    unfold RadioState.settle
    dsimp only
    split
    · exact (RadioState.reverted_gen _ _).trans hun
    · exact hun

/-- The copy of a published list: only the writer changes. -/
theorem St.iplistMirrorUser_st (st : St) (env : MirrorEnv) :
    (st.iplistMirrorUser env).st =
      { st with storeAsync := (st.iplistMirrorUser env).st.storeAsync } := by
  unfold St.iplistMirrorUser
  rw [IpList.textFormat_eq]
  cases st.paths.ipListUser with
  | none => rfl
  | some user =>
    dsimp only
    cases st.storeAsync <;> rfl

theorem St.completeIpList_unchanged (st : St) (env : MirrorEnv) :
    st.completeIpList env .unchanged =
      ⟨{ st with ipl := st.ipl.unpend, chg := st.chg.settle st.ipl.list }, [], ()⟩ := by
  unfold St.completeIpList St.publishIpList
  rw [if_pos rfl]
  simp only [Turn.bind, St.done, St.decideDeferred_eq]
  rfl

/-- A list write that shows. -/
theorem St.completeIpList_visible (st : St) (env : MirrorEnv) {o : Outcome} (ho : o ≠ .unchanged)
    {m : Turn Unit} (hm : m = { st with ipl.list := st.ipl.pending }.iplistMirrorUser env) :
    st.completeIpList env o =
      ⟨{ st with
          ipl := st.ipl.settle
            (st.session.loggedIn && decide (st.session.generation = st.ipl.pendingGeneration))
          chg := st.chg.settle st.ipl.pending
          storeAsync := m.st.storeAsync }, m.out, ()⟩ := by
  obtain ⟨w', hst⟩ : ∃ w', m.st = { st with ipl.list := st.ipl.pending, storeAsync := w' } :=
    ⟨_, by rw [hm]; exact St.iplistMirrorUser_st _ env⟩
  unfold St.completeIpList St.publishIpList
  rw [if_neg ho, ← hm]
  simp only [Turn.bind, St.decideDeferred_eq, St.done, hst]
  by_cases hcur : st.session.loggedIn = true ∧ st.session.generation = st.ipl.pendingGeneration
  · rw [if_pos hcur]
    simp [IpListState.settle, IpListState.unpend, hcur]
  · rw [if_neg hcur]
    have : (st.session.loggedIn && decide (st.session.generation = st.ipl.pendingGeneration))
        = false := by simpa using hcur
    simp [IpListState.settle, IpListState.unpend, this]

/-- The answer of a completed transaction. -/
theorem deferredAck_eq (r : Resource) (hr : r ≠ .none) (t : Txn) (gen : BitVec 32) (res : WriteResult) :
    (if ¬ (t.pendingAck r gen).noAck ∧ St.deferredAck (t.pendingAck r gen) res.rc ≠ [] then
        some ((t.pendingAck r gen).clientIp, (t.pendingAck r gen).clientPort,
          St.deferredAck (t.pendingAck r gen) res.rc) else none) = t.answer r res := by
  have hack : St.deferredAck (t.pendingAck r gen) res.rc =
      (simpleAckPack txCap r.reqId t.cl.seq simpleAckLength
        (if res.outcome = .durable then resultOk else resultNg)
        (if res.outcome = .durable then Err.none else Err.nvram)).getD [] := by
    simp only [St.deferredAck, rc_eq_zero_iff]
    cases r <;>
      simp [Txn.pendingAck, Resource.reqId, Command.id, setPasswordAckPack, setIpConfigListAckPack,
        setRadioConfigAckPack] at hr ⊢
  obtain ⟨f, hf, hne⟩ := simpleAckPack_frameMax r.reqId t.cl.seq simpleAckLength
    (if res.outcome = .durable then resultOk else resultNg)
    (if res.outcome = .durable then Err.none else Err.nvram)
  rw [hack, Txn.answer, txCap, hf]
  cases hn : t.noAck <;> simp [Txn.pendingAck, hn, hne]

/-- A ChangeIpAddress that is answered OK. -/
theorem changeIpError_none {st : St} {other : Option (BitVec 32 × BitVec 32)} {n : BitVec 16}
    (h : st.changeIpError other n = none) :
    st.chg.commitArmed = false ∧ st.chg.logoutDeferred = false ∧ st.ipl.stagingActive = false ∧
      ∃ i, slotIdx? n = some i ∧ st.ipl.list.present i = true := by
  unfold St.changeIpError at h
  split at h
  · cases h
  next hflags =>
  split at h
  · cases h
  next hstaging =>
  split at h
  · cases h
  next i hi =>
  split at h
  · cases h
  next hpresent =>
  exact ⟨by simp_all, by simp_all, by simpa using hstaging, i, hi, by simpa using hpresent⟩

/-! ## Transitions -/

variable {src : Source} {st st' : St} {closing : Bool} {txn : Resource → Option Txn}
  {copy : Option Copy}

namespace Tracks

variable {due : List Done} {w : Writer}

/-- What leaves the slots and the writer alone keeps the transactions. -/
theorem congr (h : Tracks ⟨st, due⟩ closing txn copy) (hp : st'.paths = st.paths)
    (ha : st'.acks = st.acks) (hg : st'.rad.gen = st.rad.gen) (hw : st'.storeAsync = st.storeAsync) :
    Tracks ⟨st', due⟩ closing txn copy where
  acked := by rw [ha, hg]; exact h.acked
  kept := by rw [hp, hw]; exact h.kept

/-- The transactions as the writer holds them. -/
theorem booked (h : Tracks ⟨st, due⟩ closing txn copy)
    (hw : st.storeAsync = some w) : ∃ p, Booked st.paths closing txn copy p w due := by
  have := h.kept
  rwa [show (⟨st, due⟩ : Loop).st.storeAsync = some w from hw] at this

/-- Without a writer nothing is open. -/
theorem closed (h : Tracks ⟨st, due⟩ closing txn copy)
    (hw : st.storeAsync = none) : txn = (fun _ => none) ∧ copy = none ∧ due = [] := by
  have := h.kept
  rwa [show (⟨st, due⟩ : Loop).st.storeAsync = none from hw] at this

theorem of_booked {p : Places} (ha : Acked txn st.acks st.rad.gen)
    (hw : st.storeAsync = some w) (hb : Booked st.paths closing txn copy p w due) :
    Tracks ⟨st, due⟩ closing txn copy where
  acked := ha
  kept := by rw [show (⟨st, due⟩ : Loop).st.storeAsync = some w from hw]; exact ⟨p, hb⟩

/-- Without a writer, whatever the radio generation. -/
theorem sync (h : Tracks ⟨st, []⟩ closing txn copy) (hw : st.storeAsync = none)
    (ha : st'.acks = st.acks) (hw' : st'.storeAsync = none) : Tracks ⟨st', []⟩ closing txn copy := by
  obtain ⟨rfl, rfl, -⟩ := h.closed hw
  refine ⟨⟨fun _ _ ht => absurd ht (by simp), fun k hk => h.acked.owned k (by rwa [← ha])⟩, ?_⟩
  rw [show (⟨st', []⟩ : Loop).st.storeAsync = none from hw']
  exact ⟨rfl, rfl, rfl⟩

/-- A write is queued. -/
theorem queued (h : Tracks ⟨st, []⟩ closing txn copy) (st' : St) {r : Resource} (hr : r ≠ .none) {len : Nat}
    {data : Bytes} {noAck : Bool} {cl : Client} {s : Slot} {k : AckIdx} {w' : Writer}
    (q : Queued st r (r.path st.paths) len data r.mode s k w') (hp : st'.paths = st.paths)
    (hw : st'.storeAsync = some w')
    (ha : st'.acks = Function.update st.acks k
      (Txn.pendingAck r ⟨k, noAck, cl, data, none⟩ st'.rad.gen)) (hg : r ≠ .radio → st'.rad.gen = st.rad.gen) :
    (st.sys closing txn copy).Ready r k ∧
      Tracks ⟨st', []⟩ closing (Function.update txn r (some ⟨k, noAck, cl, data, none⟩)) copy := by
  obtain ⟨w, w₁, hw₀, hres, hsub⟩ := q.taken
  obtain ⟨p, hb⟩ := h.booked hw₀
  obtain ⟨j, hpush, hj⟩ := Pushed.of_submitReserved hres hsub
  have hidle : txn r = none := by
    have := h.acked.busy r
    rw [q.idle] at this
    simpa using this.symm
  have hfresh : ∀ r' t', txn r' = some t' → t'.slot ≠ k := fun r' t' ht' => h.acked.fresh q.alloc ht'
  refine ⟨⟨by simp [St.sys, hw₀], hidle, hfresh⟩, ?_⟩
  have hgen : ∀ t', txn .radio = some t' → st'.rad.gen = st.rad.gen := fun t' ht' =>
    hg (by rintro rfl; rw [hidle] at ht'; cases ht')
  have hack : Acked (Function.update txn r (some ⟨k, noAck, cl, data, none⟩)) st'.acks st'.rad.gen := by
    rw [ha]
    exact h.acked.enqueue hfresh hgen hidle
  have hb' : Booked st'.paths closing (Function.update txn r (some ⟨k, noAck, cl, data, none⟩)) copy
      (p.setJob r (some s)) w' [] := by
    rw [hp]
    exact hb.enqueue hpush hr hidle hfresh rfl hj
  exact of_booked hack hw hb'

/-- The worker's thread. -/
theorem worker (h : Tracks ⟨st, []⟩ closing txn copy) (hw : st.storeAsync = some w) (res : WriteResult) :
    ∃ txn' copy', Steps (Move src) (st.sys closing txn copy) ((w.workerStep res).2.map .write)
        ((st.setWriter (w.workerStep res).1).sys closing txn' copy') ∧
      Tracks ⟨st.setWriter (w.workerStep res).1, []⟩ closing txn' copy' := by
  obtain ⟨p, hb⟩ := h.booked hw
  rcases hb.worker res with ⟨hout, hb'⟩ | ⟨r, t, ht, hres, hturn, hout, hb'⟩ |
    ⟨text, user, hu, hc, hout, hb'⟩ | ⟨text, r, hc, hout, hb'⟩
  · refine ⟨txn, copy, ?_, of_booked h.acked rfl hb'⟩
    rw [hout]
    refine St.steps_attached hw rfl ?_
    exact .refl _
  · refine ⟨_, copy, ?_, of_booked (h.acked.wrote ht res) rfl hb'⟩
    rw [hout]
    refine St.steps_attached hw rfl ?_
    exact .single (.write (x := st.sys closing txn copy) ht hres hturn)
  · refine ⟨txn, _, ?_, of_booked h.acked rfl hb'⟩
    rw [hout]
    refine St.steps_attached hw rfl ?_
    exact .single (.copyShown (x := st.sys closing txn copy) hu hc)
  · refine ⟨txn, _, ?_, of_booked h.acked rfl hb'⟩
    refine St.steps_attached hw rfl ?_
    rcases hout with ⟨last, hlast, hne, hr, hout⟩ | ⟨hwhy, hout⟩
    · rw [hout]
      exact .single (.copyRecorded (x := st.sys closing txn copy) hlast hne hc hr)
    · rw [hout]
      exact .single (.copyUnrecorded (x := st.sys closing txn copy) hc hwhy)

/-- The completed jobs are drained. -/
theorem drain (h : Tracks ⟨st, []⟩ closing txn copy) (hw : st.storeAsync = some w) :
    ∃ txn' copy', Steps (Move src) (st.sys closing txn copy) []
        ((st.setWriter (w.drain queueDepth).1).sys closing txn' copy') ∧
      Tracks ⟨st.setWriter (w.drain queueDepth).1, (w.drain queueDepth).2⟩ closing txn' copy' := by
  obtain ⟨p, hb⟩ := h.booked hw
  refine ⟨txn, _, ?_, of_booked h.acked rfl (hb.drain rfl)⟩
  refine St.steps_attached hw rfl ?_
  rcases hb.drained_copy with heq | ⟨text, hc, heq⟩
  · rw [heq]
    exact .refl _
  · rw [heq]
    exact .single (.copyOver (x := st.sys closing txn copy) hc)

/-- The record of a transaction is reconciled, answered, and its slot released. -/
theorem complete_txn {r : Resource} {t : Txn} (h : Acked txn st.acks st.rad.gen) (hr : r ≠ .none)
    (ht : txn r = some t) (env : ReadyEnv) (i : Nat) (res : WriteResult) :
    st.complete env i (doneRecord t.slot res) =
      (st.reconcile env i (t.pendingAck r st.rad.gen) (doneRecord t.slot res)).bind fun st _ =>
        ⟨{ st with acks := Function.update st.acks t.slot { st.acks t.slot with inUse := false } },
          [.settle t.slot (t.answer r res)], ()⟩ := by
  have hack := h.ack r t ht
  unfold St.complete
  rw [if_neg (by exact slot_ne_tokenMirror t.slot),
    dif_pos (show (doneRecord t.slot res).token < pendingAckMax from t.slot.isLt)]
  dsimp only
  rw [show (⟨(doneRecord t.slot res).token, t.slot.isLt⟩ : AckIdx) = t.slot from rfl, hack,
    if_neg (by simp [Txn.pendingAck]), show (doneRecord t.slot res).result = res.rc from rfl,
    deferredAck_eq r hr]

/-- The copy of a published list, whose transaction is closed and which has no copy before it. -/
theorem mirror (st : St) {p : Places} (hb : Booked st.paths closing txn copy p w due) (hw : st.storeAsync = some w)
    (hidle : txn .ipList = none) (hnone : p.copy = none) (env : MirrorEnv) (x : Sys)
    (hx : x.paths = st.paths ∧ x.closing = closing ∧ x.copy = copy) :
    ∃ w' copy' p', (st.iplistMirrorUser env).st.storeAsync = some w' ∧
      CopyStart x st.ipl.list (st.iplistMirrorUser env).out copy' ∧ Booked st.paths closing txn copy' p' w' due := by
  obtain ⟨hpaths, hclosing, hcopy⟩ := hx
  unfold St.iplistMirrorUser
  rw [IpList.textFormat_eq]
  cases huser : st.paths.ipListUser with
  | none =>
    refine ⟨w, copy, p, hw, ?_, hb⟩
    rw [← hcopy]
    exact .nowhere (by rw [hpaths, huser])
  | some user =>
    obtain ⟨i, hfree⟩ := hb.freeSlot
    have hlen : (IpList.listText st.ipl.list).length ≤ dataMax :=
      (IpList.length_listText st.ipl.list).trans (by decide)
    have hcases : (∃ j w', St.submitMirror w user st.paths.ipListUserLast (IpList.listText st.ipl.list)
          = (w', .ok ()) ∧ Pushed w i j w' ∧
          j.submission = copySub st.paths user (IpList.listText st.ipl.list)) ∨
        ∃ e, St.submitMirror w user st.paths.ipListUserLast (IpList.listText st.ipl.list)
          = (w, .error e) ∧ w.Refusal (user :: st.paths.ipListUserLast.toList) e := by
      unfold copySub St.submitMirror
      cases st.paths.ipListUserLast with
      | none => exact Writer.submit_cases hfree hlen
      | some last => exact Writer.submitEcho_cases hfree hlen
    simp only [hw]
    rcases hcases with ⟨j, w', heq, hpush, hsub⟩ | ⟨e, heq, hwhy⟩
    · rw [heq]
      exact ⟨w', _, _, rfl, .queued (by rw [hpaths, huser]) (by rw [hcopy]; exact hb.noCopy hnone),
        hb.enqueueCopy hpush hidle hnone huser hsub⟩
    · rw [heq]
      refine ⟨w, copy, p, rfl, ?_, hb⟩
      dsimp only
      rw [St.iplistWriteUser_eq, ← hcopy, ← hpaths]
      refine .refused (by rw [hpaths, huser]) (by rw [hcopy]; exact hb.noCopy hnone) ?_
      rcases hwhy with ⟨rfl, q, hq, hl⟩ | ⟨rfl, hs⟩
      · refine .inl ⟨rfl, ?_⟩
        rcases List.mem_cons.mp hq with rfl | hq
        · exact .inl hl
        · exact .inr ⟨q, by rw [hpaths]; simpa using hq, hl⟩
      · exact .inr ⟨rfl, by rw [hclosing, ← hb.shutdown]; exact hs⟩

/-- A completion is dealt with. -/
theorem complete {d : Done} {ds : List Done} (h : Tracks ⟨st, d :: ds⟩ closing txn copy)
    (env : ReadyEnv) (i : Nat) (ready : src = none) :
    ∃ txn' copy', Steps (Move src) (st.sys closing txn copy) (st.complete env i d).out
        ((st.complete env i d).st.sys closing txn' copy') ∧
      Tracks ⟨(st.complete env i d).st, ds⟩ closing txn' copy' := by
  cases hw : st.storeAsync with
  | none =>
    obtain ⟨-, -, hnil⟩ := h.closed hw
    cases hnil
  | some w =>
  obtain ⟨p, hb⟩ := h.booked hw
  rcases hb.settle with ⟨hm, hb'⟩ | ⟨r, t, res, ht, hres, rfl, hb', hnoCopy⟩
  · have heq : st.complete env i d = st.done () := by
      unfold St.complete
      rw [if_pos hm]
    rw [heq]
    exact ⟨txn, copy, .refl _, of_booked h.acked hw hb'⟩
  · have hr : r ≠ .none := by
      rintro rfl
      rw [hb.noFile] at ht
      cases ht
    have hack : ∀ pa : PendingAck, pa.inUse = false →
        Acked (Function.update txn r none) (Function.update st.acks t.slot pa) st.rad.gen :=
      fun pa hpa => h.acked.settle ht (fun r' t' ht' => hb.slots r' r t' t ht' ht) hpa
    rw [complete_txn h.acked hr ht]
    cases r with
    | none => exact absurd rfl hr
    | password =>
      refine ⟨_, copy, ?_, of_booked (hack _ rfl) hw hb'⟩
      exact .single (.settlePassword (x := st.sys closing txn copy) ht hres ready)
    | ipList =>
      have hrec : st.reconcile env i (t.pendingAck .ipList st.rad.gen) (doneRecord t.slot res) =
          st.completeIpList (env.mirror i) res.outcome := by
        have hid : ¬ Resource.ipList.reqId = Command.setRadioConfig.id := by decide
        unfold St.reconcile
        simp only [Txn.pendingAck, doneRecord, hid, if_false]
        simp [Turn.bind, St.done]
      rw [hrec]
      by_cases ho : res.outcome = .unchanged
      · rw [ho, St.completeIpList_unchanged]
        refine ⟨_, copy, ?_, of_booked (hack _ rfl) hw hb'⟩
        exact .single (.settleUnwritten (x := st.sys closing txn copy) ht hres ho ready)
      · obtain ⟨w', copy', p', hst, hstart, hb''⟩ :=
          mirror { st with ipl.list := st.ipl.pending } hb' hw (Function.update_self _ _ _)
            (hnoCopy rfl) (env.mirror i) (st.sys closing txn copy) ⟨rfl, rfl, rfl⟩
        generalize hm : { st with ipl.list := st.ipl.pending }.iplistMirrorUser (env.mirror i) = m
          at hst hstart
        rw [St.completeIpList_visible st (env.mirror i) ho hm.symm, hst]
        refine ⟨Function.update txn .ipList none, copy', ?_, of_booked (hack _ rfl) rfl hb''⟩
        rw [Turn.bind_st, Turn.bind_out]
        refine St.steps_attached hw rfl ?_
        exact .single (.settleIpList (x := st.sys closing txn copy) ht hres ho hstart ready)
    | radio =>
      have hrec : st.reconcile env i (t.pendingAck .radio st.rad.gen) (doneRecord t.slot res) =
          st.completeRadio (env.revert i) (env.unlink i) st.rad.gen res.outcome := rfl
      rw [hrec, St.completeRadio_eq]
      have hgen : (st.rad.settle (env.revert i) res.outcome).gen = st.rad.gen :=
        RadioState.settle_gen _ _ _
      refine ⟨_, copy, ?_, of_booked ?_ hw hb'⟩
      · exact .single (.settleRadio (x := st.sys closing txn copy) ht hres ready)
      · rw [Turn.bind_st]
        exact hgen ▸ hack _ rfl

/-- No write finds the slots used up. -/
theorem not_starved {path : Path} {len : Nat} (h : Tracks ⟨st, []⟩ closing txn copy) (hw : st.storeAsync = some w) :
    ¬ (st.pendingAckAlloc = none ∨ (w.reserve path len).2 = .error .again) := by
  obtain ⟨k, hk⟩ := h.acked.ackSlot
  obtain ⟨p, hb⟩ := h.booked hw
  obtain ⟨i, hi⟩ := hb.freeSlot
  rintro (hn | hn)
  · rw [hn] at hk
    cases hk
  · unfold Writer.reserve at hn
    rw [hi] at hn
    split_ifs at hn <;> cases hn

/-- The slot of a queued radio write is the one that is stamped. -/
theorem stampRadio_eq {acks : AckIdx → PendingAck} {k : AckIdx} {cl : Client} {noAck : Bool}
    {data : Bytes} (hfree : ∀ i, (acks i).inUse = true → (acks i).reqId ≠ Command.setRadioConfig.id)
    (hst : st.acks = Function.update acks k (Txn.pendingAck .radio ⟨k, noAck, cl, data, none⟩ 0)) :
    st.stampRadio cl = Function.update acks k (Txn.pendingAck .radio ⟨k, noAck, cl, data, none⟩ st.rad.gen) := by
  have hself : st.acks k = Txn.pendingAck .radio ⟨k, noAck, cl, data, none⟩ 0 := by
    rw [hst, Function.update_self]
  have hfind : st.pendingSlotFor Command.setRadioConfig.id cl.ip cl.port = some k := by
    cases hs : st.pendingSlotFor Command.setRadioConfig.id cl.ip cl.port with
    | none =>
      have := List.find?_eq_none.mp hs k (List.mem_finRange k)
      rw [hself] at this
      simp [Txn.pendingAck, Resource.reqId] at this
    | some i =>
      have hi := List.find?_some hs
      simp only [decide_eq_true_eq] at hi
      by_contra hne
      have hik : i ≠ k := fun e => hne (by rw [e])
      rw [hst, Function.update_of_ne hik] at hi
      exact hfree i hi.1 hi.2.1
  unfold St.stampRadio
  rw [hfind]
  dsimp only
  rw [hself, hst, Function.update_idem]
  rfl

/-- **Every transition of the daemon is a chain of moves of the service**, with the same effects. -/
theorem trans {l l' : Loop} {out : List Effect} (h : Tracks l closing txn copy) (t : Trans src l out l') :
    ∃ txn' copy', Steps (Move src) (l.st.sys closing txn copy) out (l'.st.sys closing txn' copy') ∧
      Tracks l' closing txn' copy' := by
  cases t with
  | @quiet st st' _ _ same hout =>
    refine ⟨txn, copy, ?_, h.congr same.paths same.acks (congrArg RadioState.gen same.rad)
      same.storeAsync⟩
    have hsys : st'.sys closing txn copy = st.sys closing txn copy := by
      simp only [St.sys, St.mgmtIpIfaceIdx, same.conf, same.paths, same.loggedIn, same.generation,
        same.pw, same.rad, same.ipl, same.chg, same.storeAsync]
    rw [hsys]
    exact .single (.quiet hout)
  | @login st s cl frame source login was now generation =>
    refine ⟨txn, copy, ?_, h.congr rfl rfl rfl rfl⟩
    have hmove : Move src (st.sys closing txn copy) [] _ := .login source login was
    rw [show (st.sys closing txn copy).generation + 1 = s.generation from generation.symm, ← now] at hmove
    exact .single hmove
  | @close st s ended =>
    refine ⟨txn, copy, ?_, h.congr rfl rfl rfl rfl⟩
    have hmove : Move src (st.sys closing txn copy) [] _ := .close ended.was
    rw [show (st.sys closing txn copy).generation + 1 = s.generation from ended.generation.symm, ← ended.out] at hmove
    exact .single hmove
  | @decide st cl frame source logout was =>
    refine ⟨txn, copy, ?_, ?_⟩
    · rw [St.logoutDecision_eq, h.acked.busy .ipList]
      exact .single (.decide (x := st.sys closing txn copy) source logout was)
    · rw [St.logoutDecision_eq]
      exact h.congr rfl rfl rfl rfl
  | @stage st cl frame other n source change was ok =>
    obtain ⟨harm, hdef, hstg, i, hi, hpres⟩ := changeIpError_none ok
    exact ⟨txn, copy, .single (.stage (x := st.sys closing txn copy) source change was harm hdef hstg
      hi hpres), h.congr rfl rfl rfl rfl⟩
  | @apply st ok armed =>
    exact ⟨txn, copy, .single (.apply (x := st.sys closing txn copy) armed), h.congr rfl rfl rfl rfl⟩
  | @probe st w w' path len s hw taken =>
    obtain ⟨p, hb⟩ := h.booked hw
    obtain ⟨hfree, j, hj, heq⟩ := Writer.cancel_reserve taken
    rw [heq]
    refine ⟨txn, copy, ?_, of_booked h.acked rfl (hb.setFree hfree hj)⟩
    refine St.steps_attached hw rfl ?_
    exact .single (.probe (x := st.sys closing txn copy))
  | starved hw short => exact absurd short (h.not_starved hw)
  | @staging st cl es idle due unclosed =>
    have hidle : txn .ipList = none := by
      rcases idle with hsync | hbusy
      · have hkept := h.kept
        dsimp only at hkept
        rw [hsync] at hkept
        rw [hkept.1]
      · have hiff := h.acked.busy .ipList
        rw [hbusy] at hiff
        simpa using hiff.symm
    exact ⟨txn, copy, .single (.staging (x := st.sys closing txn copy) hidle due unclosed),
      h.congr rfl rfl rfl rfl⟩
  | @passwordQueued st cl req len data s k w' due queued =>
    obtain ⟨w, -, hw, -, -⟩ := queued.taken
    obtain ⟨ready, ht⟩ := h.queued { st.enqueue w' k .password false Command.setPassword.id cl with
      pw.pending := Buf.ofBytes 128 data } (by simp) queued rfl rfl rfl fun _ => rfl
    refine ⟨_, copy, ?_, ht⟩
    refine St.steps_attached hw rfl ?_
    exact .single (.passwordQueued (x := st.sys closing txn copy) due ready)
  | @ipListQueued st cl es s k w' due closed queued =>
    obtain ⟨w, -, hw, -, -⟩ := queued.taken
    obtain ⟨ready, ht⟩ := h.queued
      { st.enqueue w' k .ipList (st.folded es).2.isSome Command.setIpConfigList.id cl with
        ipl := st.ipl.pend (st.folded es).1 st.session.generation }
      (by simp) queued rfl rfl rfl fun _ => rfl
    refine ⟨_, copy, ?_, ht⟩
    refine St.steps_attached hw rfl ?_
    exact .single (.ipListQueued (x := st.sys closing txn copy) due rfl closed ready)
  | @radioQueued st st₁ cl req marker s k w' due armed queued h₁ =>
    obtain ⟨w, -, hw, -, -⟩ := queued.taken
    have hidle : txn .radio = none := by
      have := h.acked.busy .radio
      rw [queued.idle] at this
      simpa using this.symm
    have hfree : ∀ i, (st.acks i).inUse = true → (st.acks i).reqId ≠ Command.setRadioConfig.id := by
      intro i hi
      obtain ⟨r, t, ht, rfl⟩ := h.acked.owned i hi
      rw [h.acked.ack r t ht]
      have hr : r ≠ .radio := by
        rintro rfl
        rw [hidle] at ht
        cases ht
      cases r with
      | radio => exact absurd rfl hr
      | _ => simp [Txn.pendingAck, Resource.reqId, Command.id]
    have hstamp : st₁.stampRadio cl = Function.update st.acks k
        (Txn.pendingAck .radio ⟨k, false, cl, rawRadio req, none⟩ st₁.rad.gen) :=
      stampRadio_eq hfree (by rw [h₁]; rfl)
    subst h₁
    rw [hstamp, St.radioTxnArm_fst]
    obtain ⟨ready, ht⟩ := h.queued
      { (st.radioApplied req).enqueue w' k .radio false Command.setRadioConfig.id cl with
        acks := Function.update st.acks k
          (Txn.pendingAck .radio ⟨k, false, cl, rawRadio req, none⟩ (st.rad.gen + 1))
        rad := st.rad.pend req }
      (by simp) queued rfl rfl rfl fun hr => absurd rfl hr
    refine ⟨_, copy, ?_, ht⟩
    refine St.steps_attached hw rfl ?_
    exact .single (.radioQueued (x := st.sys closing txn copy) due armed ready)
  | @passwordWritten st cl req data r sync due =>
    exact ⟨txn, copy, .single (.passwordWritten (x := st.sys closing txn copy) (by simp [St.sys, sync]) due),
      h.congr rfl rfl rfl rfl⟩
  | @ipListUnwritten st cl es r sync due closed hr =>
    exact ⟨txn, copy, .single (.ipListUnwritten (x := st.sys closing txn copy) (by simp [St.sys, sync]) due
      rfl closed hr), h⟩
  | @ipListWritten st st' cl es r mirror sync due closed hr hst =>
    subst hst
    rw [St.iplistWriteUser_eq]
    exact ⟨txn, copy, .single (.ipListWritten (x := st.sys closing txn copy) (by simp [St.sys, sync]) due
      rfl closed hr), h.congr rfl rfl rfl rfl⟩
  | @radioWritten st cl req marker r unlink sync due armed =>
    rw [St.radioTxnArm_fst, St.radioTxnClear_eq]
    exact ⟨txn, copy, .single (.radioWritten (x := st.sys closing txn copy) (by simp [St.sys, sync]) due
      armed), h.sync sync rfl sync⟩
  | @markerFailed st cl req marker due failed =>
    rw [St.radioTxnArm_fst]
    exact ⟨txn, copy, .single (.markerFailed (x := st.sys closing txn copy) due failed), h⟩
  | @radioFailed st cl req marker live due armed =>
    rw [St.radioTxnArm_fst]
    refine ⟨txn, copy, .single (.radioFailed (x := st.sys closing txn copy) due armed),
      h.congr rfl rfl ?_ rfl⟩
    dsimp only
    split
    · exact RadioState.armRevert_gen _ _ _ _
    · rfl
  | @revert st res pending =>
    exact ⟨txn, copy, .single (.revert (x := st.sys closing txn copy) pending),
      h.congr rfl rfl (RadioState.reverted_gen _ _) rfl⟩
  | worker hw => exact h.worker hw _
  | drain hw => exact h.drain hw
  | complete ready => exact h.complete _ _ ready

end Tracks

/-! ## Runs -/

/-- The service shows the daemon's state and the completions in hand. -/
def Shows (closing : Bool) (x : Sys) (l : Loop) : Prop :=
  ∃ txn copy, x = l.st.sys closing txn copy ∧ Tracks l closing txn copy

/-- A transition shows as a chain of moves. -/
theorem Shows.trans {src : Source} {closing : Bool} {x : Sys} {l l' : Loop} {out : List Effect}
    (hx : Shows closing x l) (ht : Trans src l out l') : ∃ x', Steps (Move src) x out x' ∧ Shows closing x' l' := by
  obtain ⟨txn, copy, rfl, h⟩ := hx
  obtain ⟨txn', copy', hsteps, h'⟩ := h.trans ht
  exact ⟨_, hsteps, txn', copy', rfl, h'⟩

/-- **Whatever the daemon does, the service does.** -/
theorem daemon_simulated :
    daemon.Simulated (fun a => Move a.source) fun x st => Shows false x ⟨st, []⟩ :=
  daemon_refines.simulated fun _ _ _ _ _ hx ht => hx.trans ht

/-- A chain of transitions shows as a chain of moves. -/
theorem Shows.steps {src : Source} {closing : Bool} {x : Sys} {l l' : Loop} {out : List Effect}
    (hx : Shows closing x l) (h : Steps (Trans src) l out l') :
    ∃ x', Steps (Move src) x out x' ∧ Shows closing x' l' :=
  h.simulate (fun _ _ _ _ hx ht => hx.trans ht) x hx

theorem lawful_workers (rs : List WriteResult) (st : St) : Lawful none st (st.workers rs) := by
  induction rs generalizing st with
  | nil => exact .done st ()
  | cons r rs ih => exact (lawful_workerTurn st r).bind (ih _)

/-- **The shutdown** is what the service does once it takes no more writes. -/
theorem Shows.shutdown {x : Sys} {st : St} (hx : Shows false x ⟨st, []⟩) (rs : List WriteResult) (env : ReadyEnv) :
    ∃ closing x', Steps (Move none) { x with closing } (st.shutdown rs env).out x' ∧
      Shows closing x' ⟨(st.shutdown rs env).st, []⟩ := by
  obtain ⟨txn, copy, rfl, h⟩ := hx
  cases hw : st.storeAsync with
  | none =>
    have hfinish : st.finish rs = st.done () := by simp [St.finish, hw]
    refine ⟨false, ?_⟩
    simp only [St.shutdown, hfinish]
    exact Shows.steps ⟨txn, copy, rfl, h⟩ ((Lawful.done st ()).bind (lawful_storeAsyncOnReady _ env))
  | some w =>
    have hfinish : st.finish rs = (st.setWriter w.requestShutdown).workers rs := by
      simp [St.finish, hw]
    obtain ⟨p, hb⟩ := h.booked hw
    have hclosing : Shows true (st.sys true txn copy) ⟨st.setWriter w.requestShutdown, []⟩ := by
      refine ⟨txn, copy, ?_, Tracks.of_booked h.acked rfl hb.requestShutdown⟩
      simp [St.sys, St.setWriter, hw, St.mgmtIpIfaceIdx]
    refine ⟨true, ?_⟩
    simp only [St.shutdown, hfinish]
    exact hclosing.steps ((lawful_workers rs _).bind (lawful_storeAsyncOnReady _ env))

/-- An empty writer holds nothing. -/
theorem booked_create (paths : Paths) :
    Booked paths false (fun _ => none) none ⟨fun _ => none, none⟩ Writer.create [] where
  wf := Writer.wf_create
  shutdown := rfl
  running _ := by simp [Writer.create]
  unreserved _ := by simp [Writer.create, Job.empty]
  owned _ h := absurd rfl h
  job _ _ h := absurd h (by simp)
  inHand _ _ h := absurd h (by simp)
  copyJob _ h := absurd h (by simp)
  noCopy _ := rfl
  records _ h := absurd h (by simp)
  nodup := by simp
  first _ h := absurd h (by simp)
  noFile := rfl
  slots _ _ _ _ h := absurd h (by simp)

/-- The daemon starts with no transaction open. -/
theorem shows_startup (conf : Conf) (paths : Paths) (d : Disk) (env : StartEnv) :
    Shows false ((startup conf paths d env).st.sys false (fun _ => none) none)
      ⟨(startup conf paths d env).st, []⟩ := by
  refine ⟨_, _, rfl, ⟨fun _ _ h => absurd h (by simp), fun k h => absurd h (by simp [startup,
    stateSetDefaults, PendingAck.zero])⟩, ?_⟩
  cases hw : env.writer with
  | false =>
    simp only [startup, hw]
    exact ⟨rfl, rfl, rfl⟩
  | true =>
    simp only [startup, hw]
    exact ⟨_, booked_create paths⟩

end Opcd
