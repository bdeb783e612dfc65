import Opcd.Store.Queue

/-!
# Handing a job over

A client hands a job over by a reservation and its submission, or by `submitEcho` and `submit`, which
make both. Whichever way, a job that is taken is put into a free slot and queued (`Pushed`), and one that
is refused leaves the writer as it was.

* `Pushed.of_submitReserved`: a reservation and its submission.
* `submitEcho_cases`, `submit_cases`: the whole calls, when there is a free slot.
-/

namespace Opcd.Store.Writer

variable {w w' w₁ : Writer} {i : Slot} {j : Job}

/-- What is known of the writer after a job was put into a free slot and queued. -/
structure Pushed (w : Writer) (i : Slot) (j : Job) (w' : Writer) : Prop where
  free : (w.jobs i).state = .free
  queued : j.state = .queued
  eq : w' = { w.setJob i j with ring := w.ring.push i }

theorem Pushed.self (h : Pushed w i j w') : w'.jobs i = j := by
  rw [h.eq]
  exact Writer.setJob_jobs_self i j

theorem Pushed.other (h : Pushed w i j w') {k : Slot} (hk : k ≠ i) : w'.jobs k = w.jobs k := by
  rw [h.eq]
  exact Writer.setJob_jobs_of_ne j hk

theorem Pushed.worker (h : Pushed w i j w') : w'.worker = w.worker := by rw [h.eq]; rfl

theorem Pushed.queue (h : Pushed w i j w') (hwf : w.WF) : w'.queue = w.queue ++ [i] := by
  rw [h.eq]
  exact hwf.queue_push (by simp [h.free])

theorem Pushed.wf (h : Pushed w i j w') (hwf : w.WF) : w'.WF := by
  rw [h.eq]
  exact hwf.push (by simp [h.free]) h.queued

theorem Pushed.unreserved (h : Pushed w i j w') (hu : ∀ k, (w.jobs k).state ≠ .reserved) (k : Slot) :
    (w'.jobs k).state ≠ .reserved := by
  by_cases e : k = i
  · rw [e, h.self, h.queued]; simp
  · rw [h.other e]; exact hu k

/-- A reservation and its submission. -/
theorem Pushed.of_submitReserved {path : Path} {len : Nat} {data : Bytes} {mode token : Nat}
    (hr : w.reserve path len = (w₁, .ok i)) (hs : w₁.submitReserved (some i) data mode token = (w', .ok ())) :
    ∃ j, Pushed w i j w' ∧ j.submission = ⟨path, [], data, mode, token⟩ := by
  obtain ⟨-, -, -, hfree, rfl⟩ := reserve_ok hr
  obtain ⟨k, hk, -, -, -, rfl⟩ := submitReserved_ok hs
  obtain rfl := Option.some.inj hk
  refine ⟨{ w.jobs i with
    path, echoPath := [], data, len := data.length, mode, token, result := 0, savedErrno := 0
    outcome := .unchanged, state := .queued }, ⟨hfree, rfl, ?_⟩, ?_⟩
  · simp [setJob]
  · simp [Job.submission, Job.bytes]

/-- A reservation that is given back leaves a free slot free. -/
theorem cancel_reserve {path : Path} {len : Nat} (hr : w.reserve path len = (w₁, .ok i)) :
    (w.jobs i).state = .free ∧ ∃ j, j.state = .free ∧ w₁.cancel (some i) = w.setJob i j := by
  obtain ⟨-, -, -, hfree, rfl⟩ := reserve_ok hr
  refine ⟨hfree, { w.jobs i with path, echoPath := [], len, state := .free }, rfl, ?_⟩
  simp [cancel, setJob, Function.update_idem]

/-- Why a job is refused while there is a free slot: a name too long, or the end of the writer. -/
def Refusal (w : Writer) (paths : List Path) (e : SubmitError) : Prop :=
  e = .nameTooLong ∧ (∃ p ∈ paths, pathMax ≤ p.length) ∨ e = .canceled ∧ w.shutdown = true

theorem reserve_cases (hfree : w.freeSlot = some i) (path : Path) {len : Nat} (hlen : len ≤ dataMax) :
    (∃ w₁, w.reserve path len = (w₁, .ok i)) ∨ ∃ e, w.reserve path len = (w, .error e) ∧ w.Refusal [path] e := by
  have hlen' : ¬ dataMax < len := by omega
  by_cases hpath : pathMax ≤ path.length
  · exact .inr ⟨.nameTooLong, by simp [reserve, hlen', hpath], .inl ⟨rfl, path, by simp, hpath⟩⟩
  · by_cases hshut : w.shutdown = true
    · exact .inr ⟨.canceled, by simp [reserve, hlen', hpath, hshut], .inr ⟨rfl, hshut⟩⟩
    · refine .inl ⟨w.setJob i { w.jobs i with path, echoPath := [], len, state := .reserved }, ?_⟩
      simp [reserve, hlen', hpath, hshut, hfree]

/-- **`opc_store_async_submit_echo` with a free slot.** -/
theorem submitEcho_cases (hfree : w.freeSlot = some i) {path echo : Path} {data : Bytes}
    {mode token : Nat} (hlen : data.length ≤ dataMax) :
    (∃ j w', w.submitEcho path echo data mode token = (w', .ok ()) ∧ Pushed w i j w' ∧
        j.submission = ⟨path, echo, data, mode, token⟩) ∨
      ∃ e, w.submitEcho path echo data mode token = (w, .error e) ∧ w.Refusal [path, echo] e := by
  by_cases hecho : pathMax ≤ echo.length
  · exact .inr ⟨.nameTooLong, by simp [submitEcho, hecho], .inl ⟨rfl, echo, by simp, hecho⟩⟩
  · rcases reserve_cases hfree path hlen with ⟨w₁, hr⟩ | ⟨e, hr, hwhy⟩
    · obtain ⟨-, -, hshut, hst, rfl⟩ := reserve_ok hr
      refine .inl ⟨{ w.jobs i with
        path, echoPath := echo, data, len := data.length, mode, token, result := 0, savedErrno := 0
        outcome := .unchanged, state := .queued }, _, ?_, ⟨hst, rfl, rfl⟩, ?_⟩
      · simp [submitEcho, hecho, hr, setEcho, submitReserved, setJob, hshut, Function.update_idem]
      · simp [Job.submission, Job.bytes]
    · refine .inr ⟨e, by simp [submitEcho, hecho, hr], ?_⟩
      rcases hwhy with ⟨rfl, p, hp, hl⟩ | h
      · exact .inl ⟨rfl, p, by simp_all, hl⟩
      · exact .inr h

/-- **`opc_store_async_submit` with a free slot.** -/
theorem submit_cases (hfree : w.freeSlot = some i) {path : Path} {data : Bytes}
    {mode token : Nat} (hlen : data.length ≤ dataMax) :
    (∃ j w', w.submit path data mode token = (w', .ok ()) ∧ Pushed w i j w' ∧
        j.submission = ⟨path, [], data, mode, token⟩) ∨
      ∃ e, w.submit path data mode token = (w, .error e) ∧ w.Refusal [path] e := by
  rcases reserve_cases hfree path hlen with ⟨w₁, hr⟩ | ⟨e, hr, hwhy⟩
  · obtain ⟨w₂, hs⟩ := submitReserved_reserve hr le_rfl mode token
    obtain ⟨j, hp, hsub⟩ := Pushed.of_submitReserved hr hs
    exact .inl ⟨j, w₂, by simp [submit, hr, hs], hp, hsub⟩
  · exact .inr ⟨e, by simp [submit, hr], hwhy⟩

end Opcd.Store.Writer
