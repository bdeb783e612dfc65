import Opcd.Store.Queue

/-!
# What the writer owes

`Ledger subs ws ds w` relates a writer to its history: the submissions it took, the file writes
the worker made and the completion records it handed over. The submissions are the finished ones
followed by the queue; the writes are those of the finished ones followed by what the worker has
begun; the finished ones' records are those handed over and those still in `done` slots.

There is one lemma per section that moves something: `Ledger.push`, `Ledger.harvest`,
`Ledger.workerStep`, and `Ledger.congr` for the sections that do not.
-/

namespace Opcd.Store

/-- A submission the worker is through with: what its write and, if made, its echo came to. -/
structure Finished where
  sub : Submission
  result : WriteResult
  echoResult : WriteResult

namespace Finished

/-- The writes of one job: the target, then the echo if there is one and the target shows the new
bytes. -/
def writes (f : Finished) : List FileWrite :=
  ⟨f.sub.path, f.sub.bytes, f.sub.mode, f.result⟩ ::
    if f.sub.echoPath ≠ [] ∧ f.result.outcome ≠ .unchanged then
      [⟨f.sub.echoPath, f.sub.bytes, f.sub.mode, f.echoResult⟩]
    else []

/-- The record a drain has to return for the job. -/
def record (f : Finished) : Done :=
  ⟨f.sub.token, f.result.rc, f.result.savedErrno, f.result.outcome⟩

end Finished

namespace Writer

variable {w w' : Writer}

/-- The records of the completed, undrained slots, in slot order. -/
def doneRecords (w : Writer) : List Done := w.doneSlots.map fun i => (w.jobs i).record

/-- The hand-overs in the queue, oldest first. -/
def pending (w : Writer) : List Submission := w.queue.map fun i => (w.jobs i).submission

/-- The writes already made for the job the worker is busy with. The result of an echo is not kept
by the worker, so it is an argument. -/
def begun (w : Writer) (echoResult : WriteResult) : List FileWrite :=
  match w.worker with
  | .echoing ji r => [⟨(w.jobs ji).path, (w.jobs ji).bytes, (w.jobs ji).mode, r⟩]
  | .publishing ji r => (⟨(w.jobs ji).submission, r, echoResult⟩ : Finished).writes
  | _ => []

/-- A writer and its history, with the submissions it is through with and what it wrote of the one at hand. -/
structure Ledger (subs : List Submission) (ws : List FileWrite) (ds : List Done) (w : Writer)
    (fin : List Finished) (echoResult : WriteResult) : Prop where
  wf : w.WF
  submitted : subs = fin.map Finished.sub ++ w.pending
  written : ws = fin.flatMap Finished.writes ++ w.begun echoResult
  recorded : (ds ++ w.doneRecords).Perm (fin.map Finished.record)

theorem doneSlots_congr (h : ∀ i, (w'.jobs i).state = .done ↔ (w.jobs i).state = .done) :
    w'.doneSlots = w.doneSlots := by
  unfold doneSlots
  exact List.filter_congr fun i _ => by simp [h i]

theorem doneRecords_congr (h : ∀ i, (w'.jobs i).state = .done ↔ (w.jobs i).state = .done)
    (hrec : ∀ i, (w.jobs i).state = .done → (w'.jobs i).record = (w.jobs i).record) :
    w'.doneRecords = w.doneRecords := by
  unfold doneRecords
  rw [doneSlots_congr h]
  exact List.map_congr_left fun i hi => hrec i (mem_doneSlots.mp hi)

theorem begun_congr {re : WriteResult} (hw : w'.worker = w.worker)
    (hjobs : ∀ i, w.worker.current = some i → w'.jobs i = w.jobs i) : w'.begun re = w.begun re := by
  unfold begun
  rw [hw]
  cases hk : w.worker with
  | echoing ji r => simp only [hjobs ji (by rw [hk]; rfl)]
  | publishing ji r => simp only [hjobs ji (by rw [hk]; rfl)]
  | _ => rfl

theorem pending_congr (hq : w'.queue = w.queue)
    (hjobs : ∀ i ∈ w.queue, w'.jobs i = w.jobs i) : w'.pending = w.pending := by
  unfold pending
  rw [hq]
  exact List.map_congr_left fun i hi => by rw [hjobs i hi]

theorem current_mem_queue {i : Slot} (h : w.worker.current = some i) : i ∈ w.queue := by
  simp [queue, h]

variable {subs : List Submission} {ws : List FileWrite} {ds : List Done} {fin : List Finished}
  {re : WriteResult}

/-- A section that keeps the worker, the queue with its slots and the completed slots keeps the
ledger. -/
theorem Ledger.congr (h : Ledger subs ws ds w fin re) (hwf : w'.WF) (hw : w'.worker = w.worker)
    (hq : w'.queue = w.queue) (hqueued : ∀ i, (w.jobs i).state = .queued → w'.jobs i = w.jobs i)
    (hdone : ∀ i, (w'.jobs i).state = .done ↔ (w.jobs i).state = .done)
    (hrec : ∀ i, (w.jobs i).state = .done → (w'.jobs i).record = (w.jobs i).record) :
    Ledger subs ws ds w' fin re where
  wf := hwf
  submitted := by
    rw [pending_congr hq fun i hi => hqueued i ((h.wf.mem_queue i).mp hi)]
    exact h.submitted
  written := by
    rw [begun_congr hw fun i hi => hqueued i ((h.wf.mem_queue i).mp (current_mem_queue hi))]
    exact h.written
  recorded := by
    rw [doneRecords_congr hdone hrec]
    exact h.recorded

/-- Overwriting a slot that is free or reserved by one that is free or reserved. -/
theorem Ledger.setJob (h : Ledger subs ws ds w fin re) {i : Slot} {j : Job}
    (hi : (w.jobs i).state = .free ∨ (w.jobs i).state = .reserved)
    (hj : j.state = .free ∨ j.state = .reserved) : Ledger subs ws ds (w.setJob i j) fin re := by
  have hiq : (w.jobs i).state ≠ .queued := by rcases hi with e | e <;> simp [e]
  have hid : (w.jobs i).state ≠ .done := by rcases hi with e | e <;> simp [e]
  have hjq : j.state ≠ .queued := by rcases hj with e | e <;> simp [e]
  have hjd : j.state ≠ .done := by rcases hj with e | e <;> simp [e]
  refine h.congr (h.wf.setJob hiq hjq) rfl rfl (fun k hk => ?_) (fun k => ?_) (fun k hk => ?_)
  · exact setJob_jobs_of_ne j fun e => hiq (e ▸ hk)
  · by_cases hk : k = i
    · subst hk; simp [hid, hjd]
    · rw [setJob_jobs_of_ne j hk]
  · rw [setJob_jobs_of_ne j (by rintro rfl; exact hid hk)]

theorem Ledger.cancel (h : Ledger subs ws ds w fin re) (r : Option Slot) : Ledger subs ws ds (w.cancel r) fin re := by
  rcases w.cancel_cases r with hc | ⟨i, -, hres, hc⟩ <;> rw [hc]
  · exact h
  · exact h.setJob (.inr hres) (.inl rfl)

/-- Queueing a reserved slot adds its hand-over to the submissions. -/
theorem Ledger.push (h : Ledger subs ws ds w fin re) {i : Slot} {j : Job}
    (hi : (w.jobs i).state = .reserved) (hj : j.state = .queued) :
    Ledger (subs ++ [j.submission]) ws ds
      { w.setJob i j with ring := w.ring.push i } fin re := by
  have hiq : (w.jobs i).state ≠ .queued := by simp [hi]
  have hkeep : ∀ k, (w.jobs k).state = .queued → (w.setJob i j).jobs k = w.jobs k :=
    fun k hk => setJob_jobs_of_ne j fun e => hiq (e ▸ hk)
  have hpending : ({ w.setJob i j with ring := w.ring.push i } : Writer).pending
      = w.pending ++ [j.submission] := by
    unfold pending
    rw [h.wf.queue_push hiq, List.map_append]
    congr 1
    · exact List.map_congr_left fun k hk => by
        show ((w.setJob i j).jobs k).submission = _
        rw [hkeep k ((h.wf.mem_queue k).mp hk)]
    · simp
  refine ⟨h.wf.push hiq hj, ?_, ?_, ?_⟩
  · rw [hpending, h.submitted, List.append_assoc]
  · have hb : ({ w.setJob i j with ring := w.ring.push i } : Writer).begun re = w.begun re :=
      begun_congr rfl fun k hk => hkeep k ((h.wf.mem_queue k).mp (current_mem_queue hk))
    rw [hb]
    exact h.written
  · have hd : ({ w.setJob i j with ring := w.ring.push i } : Writer).doneRecords
        = w.doneRecords := by
      refine doneRecords_congr (fun k => ?_) (fun k hk => ?_)
      · by_cases hk : k = i
        · subst hk; simp [hi, hj]
        · simp [setJob_jobs_of_ne j hk]
      · show ((w.setJob i j).jobs k).record = _
        rw [setJob_jobs_of_ne j (by rintro rfl; simp [hk] at hi)]
    rw [hd]
    exact h.recorded

/-! ## Handing records over -/

theorem doneSlots_harvest (w : Writer) (cap : Nat) : (w.harvest cap).1.doneSlots.Perm (w.doneSlots.drop cap) := by
  have hsplit : (w.doneSlots.take cap ++ w.doneSlots.drop cap).Nodup := by
    rw [List.take_append_drop]
    exact w.nodup_doneSlots
  rw [List.perm_ext_iff_of_nodup (nodup_doneSlots _) (List.nodup_append.mp hsplit).2.1]
  intro i
  rw [mem_doneSlots, harvest_jobs]
  have hmem : (w.jobs i).state = .done ↔ i ∈ w.doneSlots.take cap ∨ i ∈ w.doneSlots.drop cap := by
    rw [← mem_doneSlots, ← List.mem_append, List.take_append_drop]
  by_cases hi : i ∈ w.doneSlots.take cap
  · have : i ∉ w.doneSlots.drop cap := fun hd => (List.nodup_append.mp hsplit).2.2 i hi i hd rfl
    simp [hi, this]
  · simp [hi, hmem]

/-- A drain moves records from the slots to the client and loses none. -/
theorem harvest_records (w : Writer) (cap : Nat) :
    ((w.harvest cap).2 ++ (w.harvest cap).1.doneRecords).Perm w.doneRecords := by
  have hrest : (w.harvest cap).1.doneRecords.Perm
      ((w.doneSlots.drop cap).map fun i => (w.jobs i).record) := by
    unfold doneRecords
    have hrec : ∀ i, ((w.harvest cap).1.jobs i).record = (w.jobs i).record := by
      intro i
      rw [harvest_jobs]
      split <;> rfl
    simp only [hrec]
    exact (doneSlots_harvest w cap).map _
  refine (hrest.append_left _).trans ?_
  show ((w.doneSlots.take cap).map _ ++ (w.doneSlots.drop cap).map _).Perm _
  rw [← List.map_append, List.take_append_drop]
  exact List.Perm.refl _

theorem Ledger.harvest (h : Ledger subs ws ds w fin re) (cap : Nat) :
    Ledger subs ws (ds ++ (w.harvest cap).2) (w.harvest cap).1 fin re := by
  have hkeep : ∀ i, (w.jobs i).state = .queued → (w.harvest cap).1.jobs i = w.jobs i := by
    intro i hi
    rw [harvest_jobs, if_neg]
    intro hm
    simp [mem_doneSlots.mp (List.mem_of_mem_take hm)] at hi
  refine ⟨h.wf.harvest cap, ?_, ?_, ?_⟩
  · rw [pending_congr (w.harvest_queue cap) fun i hi => hkeep i ((h.wf.mem_queue i).mp hi)]
    exact h.submitted
  · rw [begun_congr (w.harvest_worker cap) fun i hi =>
      hkeep i ((h.wf.mem_queue i).mp (current_mem_queue hi))]
    exact h.written
  · rw [List.append_assoc]
    exact ((harvest_records w cap).append_left ds).trans h.recorded

/-! ## The worker -/

theorem Ledger.loopHead (h : Ledger subs ws ds w fin re) (hcur : w.worker.current = none)
    (hb : w.begun re = []) : Ledger subs ws ds w.loopHead fin re := by
  have hb' : w.loopHead.begun re = [] := by
    unfold Writer.loopHead
    split
    · cases w.shutdown <;> rfl
    · rfl
  refine ⟨h.wf.loopHead hcur, ?_, ?_, ?_⟩
  · rw [pending_congr (queue_loopHead hcur) fun i _ => by rw [loopHead_jobs]]
    exact h.submitted
  · rw [hb', ← hb]
    exact h.written
  · rw [doneRecords_congr (w := w) (by simp) (by simp)]
    exact h.recorded

theorem doneRecords_publish {ji : Slot} (hji : (w.jobs ji).state ≠ .done) (r : WriteResult) :
    (w.publish ji r).doneRecords.Perm (w.doneRecords ++ [(⟨(w.jobs ji).submission, r, r⟩ : Finished).record]) := by
  have hslots : (w.publish ji r).doneSlots.Perm (w.doneSlots ++ [ji]) := by
    have hnot : ji ∉ w.doneSlots := fun hm => hji (mem_doneSlots.mp hm)
    have hnd : (w.doneSlots ++ [ji]).Nodup := by
      rw [← List.concat_eq_append]
      exact (w.nodup_doneSlots).concat hnot
    rw [List.perm_ext_iff_of_nodup (nodup_doneSlots _) hnd]
    intro i
    rw [mem_doneSlots, List.mem_append, mem_doneSlots, List.mem_singleton]
    by_cases hi : i = ji
    · subst hi; simp
    · simp [publish_jobs_of_ne r hi, hi]
  unfold doneRecords
  refine (hslots.map _).trans ?_
  rw [List.map_append]
  apply List.Perm.of_eq
  congr 1
  · refine List.map_congr_left fun i hi => ?_
    rw [publish_jobs_of_ne r (by rintro rfl; exact hji (mem_doneSlots.mp hi))]
  · simp [Job.record, Finished.record, Job.submission]

/-- Publishing finishes the job the worker is busy with. -/
theorem Ledger.publish (h : Ledger subs ws ds w fin re) {ji : Slot} {r : WriteResult}
    (hw : w.worker = .publishing ji r) :
    Ledger subs ws ds (w.publish ji r) (fin ++ [⟨(w.jobs ji).submission, r, re⟩]) re := by
  have hcur : w.worker.current = some ji := by rw [hw]; rfl
  have hq := queue_of_current hcur
  have hqueued : (w.jobs ji).state = .queued := (h.wf.mem_queue ji).mp (by simp [hq])
  have hnot : ji ∉ w.ring.toList := (List.nodup_cons.mp (hq ▸ h.wf.nodup)).1
  refine ⟨h.wf.publish hcur r, ?_, ?_, ?_⟩
  · have hp : w.pending = (w.jobs ji).submission :: (w.publish ji r).pending := by
      unfold pending
      rw [hq, queue_publish, List.map_cons]
      congr 1
      refine List.map_congr_left fun i hi => ?_
      rw [publish_jobs_of_ne r (by rintro rfl; exact hnot hi)]
    rw [h.submitted, hp, List.map_append, List.append_assoc]
    rfl
  · have hb : w.begun re = (⟨(w.jobs ji).submission, r, re⟩ : Finished).writes := by
      unfold begun
      rw [hw]
    rw [h.written, hb, List.flatMap_append]
    simp [begun, Writer.publish]
  · rw [List.map_append]
    refine ((doneRecords_publish (by simp [hqueued]) r).append_left ds).trans ?_
    rw [← List.append_assoc]
    exact h.recorded.append_right _

/-- **The worker's sections.** Each appends its file write, if any; publishing also finishes a
job. -/
theorem Ledger.workerStep (h : Ledger subs ws ds w fin re) (r : WriteResult) :
    ∃ fin' re', Ledger subs (ws ++ (w.workerStep r).2) ds (w.workerStep r).1 fin' re' := by
  have hwf := h.wf.workerStep r
  cases hw : w.worker with
  | waiting =>
    refine ⟨fin, re, ?_⟩
    simpa [Writer.workerStep, hw] using h.loopHead (by rw [hw]; rfl) (by simp [begun, hw])
  | writing ji =>
    refine ⟨fin, re, hwf, ?_, ?_, ?_⟩
    · rw [pending_congr (w := w) (by simp [Writer.workerStep, hw, queue, Worker.current])
        (by simp [Writer.workerStep, hw])]
      exact h.submitted
    · simp [h.written, Writer.workerStep, hw, begun]
    · rw [doneRecords_congr (w := w) (by simp [Writer.workerStep, hw])
        (by simp [Writer.workerStep, hw])]
      exact h.recorded
  | echoing ji res =>
    refine ⟨fin, r, hwf, ?_, ?_, ?_⟩
    · rw [pending_congr (w := w) (by simp [Writer.workerStep, hw, queue, Worker.current])
        (by simp [Writer.workerStep, hw])]
      exact h.submitted
    · simp [h.written, Writer.workerStep, hw, begun, Finished.writes, Job.submission]
    · rw [doneRecords_congr (w := w) (by simp [Writer.workerStep, hw])
        (by simp [Writer.workerStep, hw])]
      exact h.recorded
  | publishing ji res =>
    have hp := (h.publish hw).loopHead rfl rfl
    exact ⟨fin ++ [⟨(w.jobs ji).submission, res, re⟩], re, by
      simpa [Writer.workerStep, hw] using hp⟩
  | exited => exact ⟨fin, re, by simpa [Writer.workerStep, hw] using h⟩

theorem ledger_create (re : WriteResult) : Ledger [] [] [] create [] re where
  wf := wf_create
  submitted := rfl
  written := rfl
  recorded := by decide

end Writer

end Opcd.Store
