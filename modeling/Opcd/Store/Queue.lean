import Opcd.Store.Writer

/-!
# The writer's queue

`Writer.queue` is the worker's view of a writer: the slot it is busy with, then the ring, oldest
first. `Writer.WF` says that the queue holds each queued slot exactly once; every section keeps
it, and the lemmas here say what each section does to the queue and to the slots:

* `reserve_ok`, `submitReserved_ok`: the only two ways a slot leaves `free` and `reserved`.
* `queue_loopHead`, `queue_publish_loopHead`: the worker's sections.
* `WF.*`: each section keeps `WF`.
-/

namespace Opcd.Store

/-- The slot the worker is busy with. -/
def Worker.current : Worker → Option Slot
  | .writing ji => some ji
  | .echoing ji _ => some ji
  | .publishing ji _ => some ji
  | _ => none

namespace Writer

variable {w : Writer}

/-- The slots handed to the worker and not yet published, oldest first. -/
def queue (w : Writer) : List Slot := w.worker.current.toList ++ w.ring.toList

/-- A slot is queued exactly when it stands in the queue, and it stands there once. -/
structure WF (w : Writer) : Prop where
  nodup : w.queue.Nodup
  mem_queue : ∀ i, i ∈ w.queue ↔ (w.jobs i).state = .queued

/-! ## Fields after an update -/

@[simp] theorem setJob_jobs_self (i : Slot) (j : Job) : (w.setJob i j).jobs i = j := by
  simp [setJob]

theorem setJob_jobs_of_ne {i k : Slot} (j : Job) (h : k ≠ i) : (w.setJob i j).jobs k = w.jobs k :=
  Function.update_of_ne h _ _

@[simp] theorem setJob_ring (i : Slot) (j : Job) : (w.setJob i j).ring = w.ring := rfl

@[simp] theorem setJob_worker (i : Slot) (j : Job) : (w.setJob i j).worker = w.worker := rfl

@[simp] theorem setJob_eventFd (i : Slot) (j : Job) : (w.setJob i j).eventFd = w.eventFd := rfl

@[simp] theorem setJob_queue (i : Slot) (j : Job) : (w.setJob i j).queue = w.queue := rfl

@[simp] theorem notifyCompletion_jobs : w.notifyCompletion.jobs = w.jobs := rfl

@[simp] theorem notifyCompletion_queue : w.notifyCompletion.queue = w.queue := rfl

theorem notifyCompletion_pos : 0 < w.notifyCompletion.eventFd := by
  simp only [notifyCompletion]
  omega

theorem mem_doneSlots {i : Slot} : i ∈ w.doneSlots ↔ (w.jobs i).state = .done := by
  simp [doneSlots]

theorem nodup_doneSlots (w : Writer) : w.doneSlots.Nodup :=
  (List.nodup_finRange queueDepth).filter _

theorem freeSlot_free {ji : Slot} (h : w.freeSlot = some ji) : (w.jobs ji).state = .free := by
  simpa using List.find?_some h

theorem freeSlot_eq_none (h : w.freeSlot = none) (i : Slot) : (w.jobs i).state ≠ .free := by
  simpa using List.find?_eq_none.mp h i (List.mem_finRange i)

/-! ## The queue's capacity -/

theorem WF.length_queue_le (h : w.WF) : w.queue.length ≤ queueDepth := by
  simpa using h.nodup.length_le_card

theorem WF.ring_count_le (h : w.WF) : w.ring.count ≤ queueDepth := by
  have := h.length_queue_le
  rw [queue, List.length_append, RingBuffer.length_toList] at this
  omega

/-- While a slot is not queued the ring has room for it. -/
theorem WF.ring_count_lt (h : w.WF) {i : Slot} (hi : (w.jobs i).state ≠ .queued) : w.ring.count < queueDepth := by
  have hnot : i ∉ w.queue := fun hm => hi ((h.mem_queue i).mp hm)
  have hlen : (i :: w.queue).length ≤ queueDepth := by
    simpa using (List.nodup_cons.mpr ⟨hnot, h.nodup⟩).length_le_card
  rw [List.length_cons, queue, List.length_append, RingBuffer.length_toList] at hlen
  omega

/-! ## Client sections -/

theorem reserve_error {path : Path} {len : Nat} {w' : Writer} {e : SubmitError}
    (h : w.reserve path len = (w', .error e)) : w' = w := by
  unfold reserve at h
  split at h
  · simp_all
  split at h
  · simp_all
  split at h
  · simp_all
  cases hf : w.freeSlot <;> simp_all

/-- A reservation that is granted takes a free slot and touches nothing else. -/
theorem reserve_ok {path : Path} {len : Nat} {w' : Writer} {ji : Slot} (h : w.reserve path len = (w', .ok ji)) :
    len ≤ dataMax ∧ path.length < pathMax ∧ w.shutdown = false ∧ (w.jobs ji).state = .free ∧
      w' = w.setJob ji { w.jobs ji with path, echoPath := [], len, state := .reserved } := by
  unfold reserve at h
  split at h
  · simp at h
  split at h
  · simp at h
  split at h
  · simp at h
  cases hf : w.freeSlot with
  | none => simp [hf] at h
  | some k =>
    simp only [hf, Prod.mk.injEq, Except.ok.injEq] at h
    obtain ⟨rfl, rfl⟩ := h
    exact ⟨by omega, by omega, by simpa using ‹¬ w.shutdown = true›, freeSlot_free hf, rfl⟩

theorem submitReserved_error {r : Option Slot} {data : Bytes} {mode token : Nat} {w' : Writer}
    {e : SubmitError} (h : w.submitReserved r data mode token = (w', .error e)) : w' = w := by
  unfold submitReserved at h
  cases r with
  | none => simp_all
  | some i => simp only at h; split at h <;> simp_all

/-- A submission that is taken queues a reserved slot with the bytes handed over. -/
theorem submitReserved_ok {r : Option Slot} {data : Bytes} {mode token : Nat} {w' : Writer}
    (h : w.submitReserved r data mode token = (w', .ok ())) :
    ∃ i, r = some i ∧ w.shutdown = false ∧ (w.jobs i).state = .reserved ∧ data.length ≤ (w.jobs i).len ∧
      w' = { w.setJob i
              { w.jobs i with
                data, len := data.length, mode, token, result := 0, savedErrno := 0,
                outcome := .unchanged, state := .queued } with
              ring := w.ring.push i } := by
  unfold submitReserved at h
  cases r with
  | none => simp at h
  | some i =>
    simp only at h
    split at h
    · simp at h
    · next hc =>
      simp only [Prod.mk.injEq, and_true] at h
      simp only [not_or, not_lt, ne_eq, not_not] at hc
      exact ⟨i, rfl, by simpa using hc.1, hc.2.1, hc.2.2, h.symm⟩

/-- A slot just reserved takes every submission that fits. -/
theorem submitReserved_reserve {path : Path} {len : Nat} {w' : Writer} {i : Slot}
    (h : w.reserve path len = (w', .ok i)) {data : Bytes} (hd : data.length ≤ len)
    (mode token : Nat) : ∃ w₂, w'.submitReserved (some i) data mode token = (w₂, .ok ()) := by
  obtain ⟨-, -, hshut, -, rfl⟩ := reserve_ok h
  have hnot : ¬ (w.shutdown = true ∨ len < data.length) := by simp [hshut, hd]
  simp [submitReserved, setJob, hnot]

theorem cancel_cases (w : Writer) (r : Option Slot) :
    w.cancel r = w ∨ ∃ i, r = some i ∧ (w.jobs i).state = .reserved ∧
      w.cancel r = w.setJob i { w.jobs i with state := .free } := by
  unfold cancel
  cases r with
  | none => exact .inl rfl
  | some i =>
    by_cases h : (w.jobs i).state = .reserved
    · exact .inr ⟨i, rfl, h, by simp [h]⟩
    · exact .inl (by simp [h])

theorem harvest_jobs (w : Writer) (cap : Nat) (i : Slot) :
    (w.harvest cap).1.jobs i =
      if i ∈ w.doneSlots.take cap then { w.jobs i with state := .free } else w.jobs i := by
  simp only [harvest]
  split <;> rfl

theorem harvest_queue (w : Writer) (cap : Nat) : (w.harvest cap).1.queue = w.queue := by
  simp only [harvest]
  split <;> rfl

theorem harvest_worker (w : Writer) (cap : Nat) : (w.harvest cap).1.worker = w.worker := by
  simp only [harvest]
  split <;> rfl

theorem harvest_shutdown (w : Writer) (cap : Nat) : (w.harvest cap).1.shutdown = w.shutdown := by
  simp only [harvest]
  split <;> rfl

/-! ## `WF` is kept -/

/-- Overwriting a slot keeps `WF` when neither the old nor the new job is queued. -/
theorem WF.setJob (h : w.WF) {i : Slot} {j : Job} (hi : (w.jobs i).state ≠ .queued)
    (hj : j.state ≠ .queued) : (w.setJob i j).WF where
  nodup := h.nodup
  mem_queue k := by
    rw [setJob_queue, h.mem_queue k]
    by_cases hk : k = i
    · subst hk; simp [hi, hj]
    · rw [setJob_jobs_of_ne j hk]

/-- What a taken submission does to the queue. -/
theorem WF.queue_push (h : w.WF) {i : Slot} {j : Job} (hi : (w.jobs i).state ≠ .queued) :
    ({ w.setJob i j with ring := w.ring.push i } : Writer).queue = w.queue ++ [i] := by
  show w.worker.current.toList ++ (w.ring.push i).toList = _
  rw [RingBuffer.toList_push _ _ (h.ring_count_lt hi), queue, List.append_assoc]

theorem WF.push (h : w.WF) {i : Slot} {j : Job} (hi : (w.jobs i).state ≠ .queued)
    (hj : j.state = .queued) : ({ w.setJob i j with ring := w.ring.push i } : Writer).WF where
  nodup := by
    rw [h.queue_push hi]
    have hnot : i ∉ w.queue := fun hm => hi ((h.mem_queue i).mp hm)
    exact List.nodup_append.mpr ⟨h.nodup, List.nodup_singleton i, by
      intro a ha b hb
      rw [List.mem_singleton.mp hb]
      exact fun e => hnot (e ▸ ha)⟩
  mem_queue k := by
    rw [h.queue_push hi, List.mem_append, h.mem_queue k, List.mem_singleton]
    by_cases hk : k = i
    · subst hk; simp [hj]
    · simp [hk, setJob_jobs_of_ne]

theorem WF.harvest (h : w.WF) (cap : Nat) : (w.harvest cap).1.WF where
  nodup := by rw [harvest_queue]; exact h.nodup
  mem_queue i := by
    rw [harvest_queue, h.mem_queue i, harvest_jobs]
    split
    · next hi =>
      have hdone := mem_doneSlots.mp (List.mem_of_mem_take hi)
      simp [hdone]
    · rfl

/-! ## Worker sections -/

theorem queue_of_idle (hcur : w.worker.current = none) : w.queue = w.ring.toList := by
  simp [queue, hcur]

theorem queue_loopHead (hcur : w.worker.current = none) : w.loopHead.queue = w.queue := by
  rw [queue_of_idle hcur]
  unfold loopHead
  split
  · next h0 =>
    rw [(w.ring.toList_eq_nil_iff).mpr h0]
    cases hs : w.shutdown <;>
      simp [queue, Worker.current, (w.ring.toList_eq_nil_iff).mpr h0]
  · next h0 => exact (w.ring.toList_pop h0).symm

@[simp] theorem loopHead_jobs (w : Writer) : w.loopHead.jobs = w.jobs := by
  unfold loopHead
  split <;> rfl

@[simp] theorem loopHead_eventFd (w : Writer) : w.loopHead.eventFd = w.eventFd := by
  unfold loopHead
  split <;> rfl

theorem WF.loopHead (h : w.WF) (hcur : w.worker.current = none) : w.loopHead.WF where
  nodup := by rw [queue_loopHead hcur]; exact h.nodup
  mem_queue i := by rw [queue_loopHead hcur, loopHead_jobs]; exact h.mem_queue i

theorem queue_of_current {ji : Slot} (hcur : w.worker.current = some ji) : w.queue = ji :: w.ring.toList := by
  simp [queue, hcur]

theorem queue_publish (w : Writer) (ji : Slot) (r : WriteResult) :
    (w.publish ji r).queue = w.ring.toList := rfl

@[simp] theorem publish_jobs_self (w : Writer) (ji : Slot) (r : WriteResult) :
    (w.publish ji r).jobs ji =
      { w.jobs ji with
        result := r.rc, savedErrno := r.savedErrno, outcome := r.outcome, state := .done } := by
  simp [publish, setJob, notifyCompletion]

theorem publish_jobs_of_ne {ji i : Slot} (r : WriteResult) (h : i ≠ ji) :
    (w.publish ji r).jobs i = w.jobs i :=
  setJob_jobs_of_ne _ h

theorem publish_eventFd_pos (w : Writer) (ji : Slot) (r : WriteResult) :
    0 < (w.publish ji r).eventFd := notifyCompletion_pos

theorem WF.publish (h : w.WF) {ji : Slot} (hcur : w.worker.current = some ji) (r : WriteResult) :
    (w.publish ji r).WF := by
  have hq := queue_of_current hcur
  have hnodup : (ji :: w.ring.toList).Nodup := hq ▸ h.nodup
  have hnot : ji ∉ w.ring.toList := (List.nodup_cons.mp hnodup).1
  refine ⟨by rw [queue_publish]; exact (List.nodup_cons.mp hnodup).2, fun i => ?_⟩
  rw [queue_publish]
  by_cases hi : i = ji
  · subst hi; simp [hnot]
  · rw [publish_jobs_of_ne r hi, ← h.mem_queue i, hq]
    simp [hi]

theorem WF.workerStep (h : w.WF) (r : WriteResult) : (w.workerStep r).1.WF := by
  unfold Writer.workerStep
  split
  · next hw => exact h.loopHead (by rw [hw]; rfl)
  · next ji hw =>
    have hq : ({ w with worker := .echoing ji r } : Writer).queue = w.queue := by
      simp [queue, hw, Worker.current]
    exact ⟨hq ▸ h.nodup, fun i => hq ▸ h.mem_queue i⟩
  · next ji res hw =>
    have hq : ({ w with worker := .publishing ji res } : Writer).queue = w.queue := by
      simp [queue, hw, Worker.current]
    exact ⟨hq ▸ h.nodup, fun i => hq ▸ h.mem_queue i⟩
  · next ji res hw => exact (h.publish (by rw [hw]; rfl) res).loopHead rfl
  · exact h

/-- The worker touches only the slot it publishes, and only its state and results. -/
theorem workerStep_jobs (w : Writer) (r : WriteResult) (i : Slot) :
    (w.workerStep r).1.jobs i = w.jobs i ∨ ∃ res, w.worker = .publishing i res ∧
        (w.workerStep r).1.jobs i =
          { w.jobs i with
            result := res.rc, savedErrno := res.savedErrno, outcome := res.outcome,
            state := .done } := by
  cases hw : w.worker with
  | publishing ji res =>
    by_cases hi : i = ji
    · subst hi
      exact .inr ⟨res, rfl, by simp [Writer.workerStep, hw]⟩
    · exact .inl (by simp [Writer.workerStep, hw, publish_jobs_of_ne res hi])
  | _ => exact .inl (by simp [Writer.workerStep, hw])

theorem workerStep_reserved (w : Writer) (r : WriteResult) (i : Slot)
    (h : ((w.workerStep r).1.jobs i).state = .reserved) : (w.workerStep r).1.jobs i = w.jobs i := by
  rcases w.workerStep_jobs r i with he | ⟨res, -, he⟩
  · exact he
  · rw [he] at h
    cases h

theorem workerStep_keeps_reserved (hwf : w.WF) (r : WriteResult) {i : Slot}
    (h : (w.jobs i).state = .reserved) : ((w.workerStep r).1.jobs i).state = .reserved := by
  rcases w.workerStep_jobs r i with he | ⟨res, hw, -⟩
  · rw [he]; exact h
  · have hq : i ∈ w.queue := by simp [queue, hw, Worker.current]
    rw [(hwf.mem_queue i).mp hq] at h
    cases h

/-- Only publishing completes a slot, and it makes the eventfd readable. -/
theorem workerStep_event (w : Writer) (r : WriteResult) (h : w.doneSlots ≠ [] → 0 < w.eventFd)
    (hd : (w.workerStep r).1.doneSlots ≠ []) : 0 < (w.workerStep r).1.eventFd := by
  have hsame : (∀ i, (w.workerStep r).1.jobs i = w.jobs i) →
      (w.workerStep r).1.eventFd = w.eventFd → 0 < (w.workerStep r).1.eventFd := by
    intro hj he
    rw [he]
    refine h ?_
    obtain ⟨i, hi⟩ := List.exists_mem_of_ne_nil _ hd
    rw [mem_doneSlots, hj i, ← mem_doneSlots] at hi
    exact List.ne_nil_of_mem hi
  cases hw : w.worker with
  | publishing ji res => simpa [Writer.workerStep, hw] using publish_eventFd_pos w ji res
  | _ => exact hsame (by simp [Writer.workerStep, hw]) (by simp [Writer.workerStep, hw])

theorem loopHead_exited (h : w.loopHead.worker = .exited) :
    w.loopHead.shutdown = true ∧ w.loopHead.ring.count = 0 := by
  by_cases h0 : w.ring.count = 0
  · cases hs : w.shutdown <;> simp_all [Writer.loopHead]
  · simp [Writer.loopHead, h0] at h

theorem workerStep_exited (w : Writer) (r : WriteResult)
    (h : w.worker = .exited → w.shutdown = true ∧ w.ring.count = 0) (he : (w.workerStep r).1.worker = .exited) :
    (w.workerStep r).1.shutdown = true ∧ (w.workerStep r).1.ring.count = 0 := by
  cases hw : w.worker with
  | waiting =>
    simp only [Writer.workerStep, hw] at he ⊢
    exact loopHead_exited he
  | publishing ji res =>
    simp only [Writer.workerStep, hw] at he ⊢
    exact loopHead_exited he
  | writing ji => simp [Writer.workerStep, hw] at he
  | echoing ji res => simp [Writer.workerStep, hw] at he
  | exited => simpa [Writer.workerStep, hw] using h hw

theorem wf_create : create.WF where
  nodup := List.nodup_nil
  mem_queue i := by simp [create, queue, Worker.current, RingBuffer.toList, Job.empty]

end Writer

end Opcd.Store
