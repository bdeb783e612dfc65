import Opcd.Lib.Machine
import Opcd.Store.Ledger

/-!
# One client and the worker, interleaved

The writer as a machine: at each action either the client thread runs its next section (the first
of a new call, or the next one of the call it is in), or the worker does. Every interleaving of
the two threads at the granularity of the mutex is a list of actions, with the answers of the
file system in the worker's actions.

The events of a run are what the client is told and what the worker does to files. `submissions`
reads off the client's side of them what was handed over: the path from the reservation, the rest
from the submission. The main result, `writer_queue_correct`, relates the two sides:

* `History`: the writes are those of the submissions, in order, once each, and the drained and
  still undrained records are exactly those of the finished submissions.
* `outstanding_finish`: a worker that keeps running finishes what was submitted.
-/

namespace Opcd.Store

/-- A call of the client thread. -/
inductive Call
  | reserve (path : Path) (len : Nat)
  | cancel (reservation : Option Slot)
  | submitReserved (reservation : Option Slot) (data : Bytes) (mode token : Nat)
  | submit (path : Path) (data : Bytes) (mode token : Nat)
  | submitEcho (path echoPath : Path) (data : Bytes) (mode token : Nat)
  | drain (cap : Nat)
  | finish

/-- Where the client thread stands between two sections. -/
inductive Client
  | idle
  /-- `submit_echo` reserved a slot and is about to copy the echo path -/
  | copying (ji : Slot) (echoPath : Path) (data : Bytes) (mode token : Nat)
  /-- `submit` or `submit_echo` is about to queue its slot -/
  | submitting (ji : Slot) (echoPath : Path) (data : Bytes) (mode token : Nat)
  /-- the submission failed and the slot is about to be given back -/
  | cancelling (ji : Slot)
  /-- `drain` cleared the eventfd and is about to scan the slots -/
  | harvesting (cap : Nat)
  /-- `finish` is in `pthread_join` -/
  | joining

/-- What a run shows: to the client (the first four) and to the file system. -/
inductive Event
  | reserved (ji : Slot) (path : Path)
  | submitted (ji : Slot) (echoPath : Path) (data : Bytes) (mode token : Nat)
  | refused (e : SubmitError)
  | drained (ds : List Done)
  | wrote (f : FileWrite)

inductive Action
  /-- the client, when idle, starts a call -/
  | call (c : Call)
  /-- the client runs the next section of its call -/
  | client
  /-- the worker runs its next section; `r` answers the write it makes, if any -/
  | worker (r : WriteResult)

/-- The writer and its client. -/
structure Threads where
  writer : Writer
  client : Client

namespace Threads

/-- What a section leaves: the writer, where the client stands, and its events. -/
abbrev Turn := Writer × Client × List Event

/-- A reservation, and what the call it belongs to does next. -/
def reserving (w : Writer) (path : Path) (len : Nat) (next : Slot → Client) : Turn :=
  match w.reserve path len with
  | (w, .ok ji) => (w, next ji, [.reserved ji path])
  | (w, .error e) => (w, .idle, [.refused e])

/-- A submission of a reserved slot, and where the client goes if it is refused. -/
def submitting (w : Writer) (r : Option Slot) (echoPath : Path) (data : Bytes) (mode token : Nat)
    (failed : Client) : Turn :=
  match w.submitReserved r data mode token, r with
  | (w, .ok ()), some ji => (w, .idle, [.submitted ji echoPath data mode token])
  | (w, .ok ()), none => (w, .idle, [])
  | (w, .error e), _ => (w, failed, [.refused e])

/-- The first section of a call. -/
def callStep (w : Writer) : Call → Turn
  | .reserve path len => reserving w path len fun _ => .idle
  | .cancel r => (w.cancel r, .idle, [])
  | .submitReserved r data mode token => submitting w r [] data mode token .idle
  | .submit path data mode token =>
    reserving w path data.length fun ji => .submitting ji [] data mode token
  | .submitEcho path echoPath data mode token =>
    if pathMax ≤ echoPath.length then (w, .idle, [.refused .nameTooLong])
    else reserving w path data.length fun ji => .copying ji echoPath data mode token
  | .drain cap => if cap = 0 then (w, .idle, [.drained []]) else (w.readEvent, .harvesting cap, [])
  | .finish => (w.requestShutdown, if w.joined then .idle else .joining, [])

/-- The next section of the call the client is in. -/
def clientStep (w : Writer) : Client → Turn
  | .idle => (w, .idle, [])
  | .copying ji echoPath data mode token =>
    (w.setEcho ji echoPath, .submitting ji echoPath data mode token, [])
  | .submitting ji echoPath data mode token =>
    submitting w (some ji) echoPath data mode token (.cancelling ji)
  | .cancelling ji => (w.cancel (some ji), .idle, [])
  | .harvesting cap => ((w.harvest cap).1, .idle, [.drained (w.harvest cap).2])
  | .joining =>
    if w.worker = .exited then ({ w with joined := true }, .idle, []) else (w, .joining, [])

/-- The section an action runs. A call made while the client is inside another one is no action
of a single thread and changes nothing. -/
def turn (s : Threads) : Action → Turn
  | .call c => match s.client with
    | .idle => callStep s.writer c
    | k => (s.writer, k, [])
  | .client => clientStep s.writer s.client
  | .worker r => ((s.writer.workerStep r).1, s.client, (s.writer.workerStep r).2.map .wrote)

def step (s : Threads) (a : Action) : Threads := ⟨(s.turn a).1, (s.turn a).2.1⟩

def out (s : Threads) (a : Action) : List Event := (s.turn a).2.2

/-- A fresh writer and an idle client. -/
def init : Threads := ⟨Writer.create, .idle⟩

end Threads

/-- The two threads as a machine. -/
def threads : Machine Threads Action Event := ⟨Threads.step, Threads.out⟩

/-! ## What the client handed over -/

/-- The path last reserved in each slot, by the events so far. -/
def reservations : (Slot → Path) → List Event → Slot → Path
  | t, [] => t
  | t, .reserved ji path :: es => reservations (Function.update t ji path) es
  | t, _ :: es => reservations t es

/-- The submissions that returned 0, in order. -/
def submissions : (Slot → Path) → List Event → List Submission
  | _, [] => []
  | t, .reserved ji path :: es => submissions (Function.update t ji path) es
  | t, .submitted ji echoPath data mode token :: es =>
    ⟨t ji, echoPath, data, mode, token⟩ :: submissions t es
  | t, _ :: es => submissions t es

/-- The file writes, in order. -/
def fileWrites (es : List Event) : List FileWrite :=
  es.filterMap fun | .wrote f => some f | _ => none

/-- The records handed over by drains, in order. -/
def drained (es : List Event) : List Done :=
  es.flatMap fun | .drained ds => ds | _ => []

theorem reservations_append (t : Slot → Path) (es fs : List Event) :
    reservations t (es ++ fs) = reservations (reservations t es) fs := by
  induction es generalizing t with
  | nil => rfl
  | cons e es ih => cases e <;> simp only [List.cons_append, reservations, ih]

theorem submissions_append (t : Slot → Path) (es fs : List Event) :
    submissions t (es ++ fs) = submissions t es ++ submissions (reservations t es) fs := by
  induction es generalizing t with
  | nil => rfl
  | cons e es ih => cases e <;> simp only [List.cons_append, reservations, submissions, ih]

theorem fileWrites_append (es fs : List Event) :
    fileWrites (es ++ fs) = fileWrites es ++ fileWrites fs := List.filterMap_append

theorem drained_append (es fs : List Event) : drained (es ++ fs) = drained es ++ drained fs :=
  List.flatMap_append

section Wrote

variable (t : Slot → Path) (fs : List FileWrite)

@[simp] theorem submissions_wrote : submissions t (fs.map .wrote) = [] := by
  induction fs with
  | nil => rfl
  | cons f fs ih => simpa [submissions] using ih

@[simp] theorem reservations_wrote : reservations t (fs.map .wrote) = t := by
  induction fs with
  | nil => rfl
  | cons f fs ih => simpa [reservations] using ih

@[simp] theorem fileWrites_wrote : fileWrites (fs.map .wrote) = fs := by
  simp [fileWrites, List.filterMap_map]

@[simp] theorem drained_wrote : drained (fs.map .wrote) = [] := by
  simp [drained]

end Wrote

/-! ## The invariant -/

/-- The slot a client call has reserved and not yet queued or given back. -/
def Client.slot : Client → Option Slot
  | .copying ji .. => some ji
  | .submitting ji .. => some ji
  | .cancelling ji => some ji
  | _ => none

/-- The echo path a reserved slot holds. Only a `submit_echo` under way sets one; a slot about to
be given back may hold anything. -/
def Client.echo : Client → Slot → Option Path
  | .submitting ji echoPath .., i => some (if i = ji then echoPath else [])
  | .cancelling ji, i => if i = ji then none else some []
  | _, _ => some []

def Client.harvests : Client → Bool
  | .harvesting _ => true
  | _ => false

/-- How the events so far and the threads fit together. -/
structure History (tr : List Event) (s : Threads) (fin : List Finished) (re : WriteResult) :
    Prop where
  ledger : s.writer.Ledger (submissions (fun _ => []) tr) (fileWrites tr) (drained tr) fin re
  /-- The client's own slot is still reserved. -/
  slot : ∀ i, s.client.slot = some i → (s.writer.jobs i).state = .reserved
  /-- A reserved slot holds the path it was reserved for. -/
  path : ∀ i, (s.writer.jobs i).state = .reserved →
    (s.writer.jobs i).path = reservations (fun _ => []) tr i
  echo : ∀ i p, (s.writer.jobs i).state = .reserved → s.client.echo i = some p →
    (s.writer.jobs i).echoPath = p
  /-- Completions make the eventfd readable, except while a drain is between its two halves. -/
  event : s.client.harvests = false → s.writer.doneSlots ≠ [] → 0 < s.writer.eventFd
  exited : s.writer.worker = .exited → s.writer.shutdown = true ∧ s.writer.ring.count = 0

namespace History

variable {tr : List Event} {w : Writer} {k : Client} {fin : List Finished} {re : WriteResult}

theorem init (re : WriteResult) : History [] Threads.init [] re where
  ledger := Writer.ledger_create re
  slot := by simp [Threads.init, Client.slot]
  path := by simp [Threads.init, Writer.create, Job.empty]
  echo := by simp [Threads.init, Writer.create, Job.empty]
  event := by
    intro _ h
    obtain ⟨i, hi⟩ := List.exists_mem_of_ne_nil _ h
    simp [Writer.mem_doneSlots, Threads.init, Writer.create, Job.empty] at hi
  exited := by simp [Threads.init, Writer.create]

/-- The client moves on with the writer untouched. -/
theorem quiet (h : History tr ⟨w, k⟩ fin re) {k' : Client} {e : List Event}
    (he : e = [] ∨ (∃ x, e = [.refused x]) ∨ e = [.drained []]) (hslot : ∀ i, k'.slot = some i → k.slot = some i)
    (hecho : ∀ i p, k'.echo i = some p → k.echo i = some p) (hk : k.harvests = false) :
    History (tr ++ e) ⟨w, k'⟩ fin re := by
  have hsub : submissions (fun _ => []) (tr ++ e) = submissions (fun _ => []) tr ∧
      reservations (fun _ => []) (tr ++ e) = reservations (fun _ => []) tr ∧
      fileWrites (tr ++ e) = fileWrites tr ∧ drained (tr ++ e) = drained tr := by
    rw [submissions_append, reservations_append, fileWrites_append, drained_append]
    rcases he with rfl | ⟨x, rfl⟩ | rfl <;>
      simp [submissions, reservations, fileWrites, drained]
  obtain ⟨h1, h2, h3, h4⟩ := hsub
  exact
    { ledger := by rw [h1, h3, h4]; exact h.ledger
      slot := fun i hi => h.slot i (hslot i hi)
      path := by rw [h2]; exact h.path
      echo := fun i p hi hp => h.echo i p hi (hecho i p hp)
      event := fun _ => h.event hk
      exited := h.exited }

theorem reserving (h : History tr ⟨w, .idle⟩ fin re) (path : Path) (len : Nat)
    (next : Slot → Client) (hslot : ∀ ji i, (next ji).slot = some i → i = ji)
    (hecho : ∀ ji i p, (next ji).echo i = some p → p = []) : History (tr ++ (Threads.reserving w path len next).2.2)
      ⟨(Threads.reserving w path len next).1, (Threads.reserving w path len next).2.1⟩ fin re := by
  unfold Threads.reserving
  rcases hr : w.reserve path len with ⟨w', e | ji⟩
  · obtain rfl := Writer.reserve_error hr
    exact h.quiet (.inr (.inl ⟨e, rfl⟩)) (by simp [Client.slot]) (by simp [Client.echo]) rfl
  · obtain ⟨-, -, -, hfree, rfl⟩ := Writer.reserve_ok hr
    have hled := h.ledger.setJob
      (j := { w.jobs ji with path, echoPath := [], len, state := .reserved }) (.inl hfree) (.inr rfl)
    exact
      { ledger := by
          simpa [submissions_append, submissions, fileWrites_append, fileWrites, drained_append,
            drained] using hled
        slot := by
          intro i hi
          obtain rfl := hslot ji i hi
          simp
        path := by
          intro i hi
          rw [reservations_append]
          by_cases hij : i = ji
          · subst hij; simp [reservations]
          · simp only [Writer.setJob_jobs_of_ne _ hij] at hi ⊢
            simpa [reservations, hij] using h.path i hi
        echo := by
          intro i p hi hp
          obtain rfl := hecho ji i p hp
          by_cases hij : i = ji
          · subst hij; simp
          · simp only [Writer.setJob_jobs_of_ne _ hij] at hi ⊢
            exact h.echo i [] hi rfl
        event := by
          intro _ hd
          refine h.event rfl ?_
          rwa [Writer.doneSlots_congr (w := w) fun i => ?_] at hd
          by_cases hij : i = ji
          · subst hij; simp [hfree]
          · rw [Writer.setJob_jobs_of_ne _ hij]
        exited := h.exited }

theorem submitting (h : History tr ⟨w, k⟩ fin re) (r : Option Slot) (echoPath : Path)
    (data : Bytes) (mode token : Nat) (failed : Client)
    (hk : k = .idle ∧ echoPath = [] ∧ failed = .idle ∨
      ∃ ji, r = some ji ∧ k = .submitting ji echoPath data mode token ∧ failed = .cancelling ji) :
    History (tr ++ (Threads.submitting w r echoPath data mode token failed).2.2)
      ⟨(Threads.submitting w r echoPath data mode token failed).1,
        (Threads.submitting w r echoPath data mode token failed).2.1⟩ fin re := by
  have hharv : k.harvests = false := by
    rcases hk with ⟨rfl, -⟩ | ⟨ji, -, rfl, -⟩ <;> rfl
  unfold Threads.submitting
  rcases hr : w.submitReserved r data mode token with ⟨w', e | ⟨⟩⟩
  · obtain rfl := Writer.submitReserved_error hr
    refine h.quiet (.inr (.inl ⟨e, by cases r <;> rfl⟩)) ?_ ?_ hharv
    · rcases hk with ⟨rfl, -, rfl⟩ | ⟨ji, -, rfl, rfl⟩ <;> simp [Client.slot]
    · rcases hk with ⟨rfl, -, rfl⟩ | ⟨ji, -, rfl, rfl⟩
      · simp
      · intro i p
        by_cases hi : i = ji <;> simp [Client.echo, hi]
  · obtain ⟨i, rfl, hsh, hres, -, rfl⟩ := Writer.submitReserved_ok hr
    -- the slot holds the echo path of the call that submits it
    have hecho : (w.jobs i).echoPath = echoPath := by
      refine h.echo i echoPath hres ?_
      rcases hk with ⟨rfl, rfl, -⟩ | ⟨ji, hji, rfl, -⟩
      · rfl
      · obtain rfl := Option.some.inj hji
        simp [Client.echo]
    have hled := h.ledger.push (i := i)
      (j := { w.jobs i with
        data, len := data.length, mode, token, result := 0, savedErrno := 0,
        outcome := .unchanged, state := .queued }) hres rfl
    have hother : ∀ j, ((w.setJob i
        { w.jobs i with
          data, len := data.length, mode, token, result := 0, savedErrno := 0,
          outcome := .unchanged, state := .queued }).jobs j).state = .reserved → j ≠ i := by
      rintro j hj rfl
      simp at hj
    exact
      { ledger := by
          have hpath := h.path i hres
          simpa [submissions_append, submissions, fileWrites_append, fileWrites, drained_append,
            drained, Job.submission, Job.bytes, hecho, ← hpath] using hled
        slot := by simp [Client.slot]
        path := by
          intro j hj
          have hne := hother j hj
          simp only [Writer.setJob_jobs_of_ne _ hne] at hj ⊢
          simpa [reservations_append, reservations] using h.path j hj
        echo := by
          intro j p hj hp
          have hne := hother j hj
          simp only [Writer.setJob_jobs_of_ne _ hne] at hj ⊢
          obtain rfl : [] = p := by simpa [Client.echo] using hp
          refine h.echo j [] hj ?_
          rcases hk with ⟨rfl, -⟩ | ⟨ji, hji, rfl, -⟩
          · rfl
          · obtain rfl := Option.some.inj hji
            simp [Client.echo, hne]
        event := by
          intro _ hd
          refine h.event hharv ?_
          rwa [Writer.doneSlots_congr (w := w) fun j => ?_] at hd
          by_cases hij : j = i
          · subst hij; simp [hres]
          · simp [Writer.setJob_jobs_of_ne _ hij]
        exited := by
          intro hw
          have := (h.exited hw).1
          simp [hsh] at this }

theorem cancelling (h : History tr ⟨w, k⟩ fin re) (r : Option Slot)
    (hk : k = .idle ∨ ∃ ji, r = some ji ∧ k = .cancelling ji) : History (tr ++ []) ⟨w.cancel r, .idle⟩ fin re := by
  have hharv : k.harvests = false := by rcases hk with rfl | ⟨ji, -, rfl⟩ <;> rfl
  rw [List.append_nil]
  have key : ∀ j, ((w.cancel r).jobs j).state = .reserved →
      (w.cancel r).jobs j = w.jobs j ∧ k.echo j = some [] := by
    intro j hj
    rcases w.cancel_cases r with hc | ⟨i, rfl, hres, hc⟩
    · rw [hc] at hj ⊢
      refine ⟨rfl, ?_⟩
      rcases hk with rfl | ⟨ji, rfl, rfl⟩
      · rfl
      · by_cases hij : j = ji
        · -- a slot still reserved here would have been freed
          subst hij
          have : ((w.cancel (some j)).jobs j).state = .free := by simp [Writer.cancel, hj]
          rw [hc, hj] at this
          cases this
        · simp [Client.echo, hij]
    · rw [hc] at hj ⊢
      have hij : j ≠ i := by rintro rfl; simp at hj
      refine ⟨Writer.setJob_jobs_of_ne _ hij, ?_⟩
      rcases hk with rfl | ⟨ji, hji, rfl⟩
      · rfl
      · obtain rfl := Option.some.inj hji
        simp [Client.echo, hij]
  have hdone : (w.cancel r).doneSlots = w.doneSlots := by
    refine Writer.doneSlots_congr fun j => ?_
    rcases w.cancel_cases r with hc | ⟨i, -, hres, hc⟩ <;> rw [hc]
    by_cases hij : j = i
    · subst hij; simp [hres]
    · rw [Writer.setJob_jobs_of_ne _ hij]
  have hsame : (w.cancel r).worker = w.worker ∧ (w.cancel r).eventFd = w.eventFd ∧
      (w.cancel r).shutdown = w.shutdown ∧ (w.cancel r).ring = w.ring := by
    rcases w.cancel_cases r with hc | ⟨i, -, -, hc⟩ <;> rw [hc] <;> exact ⟨rfl, rfl, rfl, rfl⟩
  obtain ⟨hw, hev, hsh, hring⟩ := hsame
  exact
    { ledger := h.ledger.cancel r
      slot := by simp [Client.slot]
      path := fun j hj => by
        have hj' := (key j hj).1
        simp only at hj ⊢
        rw [hj'] at hj ⊢
        exact h.path j hj
      echo := fun j p hj hp => by
        obtain ⟨hj', he⟩ := key j hj
        obtain rfl : [] = p := by simpa [Client.echo] using hp
        simp only at hj ⊢
        rw [hj'] at hj ⊢
        exact h.echo j [] hj he
      event := fun _ hd => by
        simp only [hdone, hev] at hd ⊢
        exact h.event hharv hd
      exited := by simpa only [hw, hsh, hring] using h.exited }

theorem copying (h : History tr ⟨w, .copying ji echoPath data mode token⟩ fin re) :
    History (tr ++ []) ⟨w.setEcho ji echoPath, .submitting ji echoPath data mode token⟩ fin re := by
  rw [List.append_nil]
  have hres := h.slot ji rfl
  simp only at hres
  exact
    { ledger := h.ledger.setJob (.inr hres) (.inr hres)
      slot := by
        intro i hi
        obtain rfl : ji = i := by simpa [Client.slot] using hi
        simp [Writer.setEcho, hres]
      path := by
        intro i hi
        by_cases hij : i = ji
        · subst hij; simpa [Writer.setEcho] using h.path i hres
        · simp only [Writer.setEcho, Writer.setJob_jobs_of_ne _ hij] at hi ⊢
          exact h.path i hi
      echo := by
        intro i p hi hp
        by_cases hij : i = ji
        · subst hij; simpa [Client.echo, Writer.setEcho] using hp
        · simp only [Writer.setEcho, Writer.setJob_jobs_of_ne _ hij] at hi ⊢
          obtain rfl : [] = p := by simpa [Client.echo, hij] using hp
          exact h.echo i [] hi rfl
      event := by
        intro _ hd
        refine h.event rfl ?_
        rwa [Writer.doneSlots_congr (w := w) fun i => ?_] at hd
        by_cases hij : i = ji
        · subst hij; simp [Writer.setEcho, hres]
        · rw [Writer.setEcho, Writer.setJob_jobs_of_ne _ hij]
      exited := h.exited }

theorem harvesting {cap : Nat} (h : History tr ⟨w, .harvesting cap⟩ fin re) :
    History (tr ++ [.drained (w.harvest cap).2]) ⟨(w.harvest cap).1, .idle⟩ fin re := by
  have hres : ∀ i, ((w.harvest cap).1.jobs i).state = .reserved →
      (w.harvest cap).1.jobs i = w.jobs i := by
    intro i hi
    rw [Writer.harvest_jobs] at hi ⊢
    split at hi
    · cases hi
    · next hm => rw [if_neg hm]
  exact
    { ledger := by
        simpa [submissions_append, submissions, fileWrites_append, fileWrites, drained_append,
          drained] using h.ledger.harvest cap
      slot := by simp [Client.slot]
      path := by
        intro i hi
        simp only at hi ⊢
        have hsame := hres i hi
        rw [hsame] at hi ⊢
        simpa [reservations_append, reservations] using h.path i hi
      echo := by
        intro i p hi hp
        simp only at hi ⊢
        have hsame := hres i hi
        rw [hsame] at hi ⊢
        exact h.echo i p hi hp
      event := by
        intro _ hd
        -- something left over means the harvest bumped the eventfd again
        have hlen : (w.doneSlots.drop cap).length ≠ 0 := by
          rw [← (Writer.doneSlots_harvest w cap).length_eq]
          exact fun e => hd (List.length_eq_zero_iff.mp e)
        have hcap : cap < w.doneSlots.length := by
          rw [List.length_drop] at hlen
          omega
        simp only [Writer.harvest, if_pos hcap]
        exact Writer.notifyCompletion_pos
      exited := by
        intro hw
        have hsame : (w.harvest cap).1.shutdown = w.shutdown ∧ (w.harvest cap).1.ring = w.ring := by
          simp only [Writer.harvest]
          split <;> exact ⟨rfl, rfl⟩
        simp only [Writer.harvest_worker] at hw
        rw [hsame.1, hsame.2]
        exact h.exited hw }

/-- A section that leaves the slots, the ring and the worker alone and does not undo a shutdown. -/
theorem control (h : History tr ⟨w, k⟩ fin re) {w' : Writer} {k' : Client} (hjobs : w'.jobs = w.jobs)
    (hring : w'.ring = w.ring) (hworker : w'.worker = w.worker)
    (hsh : w.shutdown = true → w'.shutdown = true) (hslot : k'.slot = none)
    (hecho : ∀ i, k.echo i = some [] ∧ k'.echo i = some [])
    (hev : k'.harvests = true ∨ k.harvests = false ∧ w'.eventFd = w.eventFd) :
    History (tr ++ []) ⟨w', k'⟩ fin re := by
  rw [List.append_nil]
  have hq : w'.queue = w.queue := by simp [Writer.queue, hring, hworker]
  exact
    { ledger := h.ledger.congr
        ⟨hq ▸ h.ledger.wf.nodup, fun i => by rw [hq, hjobs]; exact h.ledger.wf.mem_queue i⟩
        hworker hq (by simp [hjobs]) (by simp [hjobs]) (by simp [hjobs])
      slot := by simp [hslot]
      path := by simpa only [hjobs] using h.path
      echo := by
        intro i p hi hp
        simp only [hjobs] at hi ⊢
        obtain rfl : [] = p := by simpa [(hecho i).2] using hp
        exact h.echo i [] hi (hecho i).1
      event := by
        intro hh hd
        rcases hev with he | ⟨hk, he⟩
        · simp [he] at hh
        · simp only [he, Writer.doneSlots, hjobs] at hd ⊢
          exact h.event hk hd
      exited := by
        intro hw
        simp only [hworker, hring] at hw ⊢
        exact ⟨hsh (h.exited hw).1, (h.exited hw).2⟩ }

theorem worker (h : History tr ⟨w, k⟩ fin re) (r : WriteResult) :
    ∃ fin' re', History (tr ++ (w.workerStep r).2.map .wrote) ⟨(w.workerStep r).1, k⟩ fin' re' := by
  obtain ⟨fin', re', hled⟩ := h.ledger.workerStep r
  refine ⟨fin', re', ?_⟩
  exact
    { ledger := by
        simpa [submissions_append, fileWrites_append, drained_append] using hled
      slot := by
        intro i hi
        exact Writer.workerStep_keeps_reserved h.ledger.wf r (h.slot i hi)
      path := by
        intro i hi
        simp only at hi ⊢
        have hsame := Writer.workerStep_reserved w r i hi
        rw [hsame] at hi ⊢
        simpa [reservations_append] using h.path i hi
      echo := by
        intro i p hi hp
        simp only at hi ⊢
        have hsame := Writer.workerStep_reserved w r i hi
        rw [hsame] at hi ⊢
        exact h.echo i p hi hp
      event := fun hk hd => Writer.workerStep_event w r (h.event hk) hd
      exited := Writer.workerStep_exited w r h.exited }

/-- **One section.** -/
theorem step {s : Threads} (h : History tr s fin re) (a : Action) :
    ∃ fin' re', History (tr ++ s.out a) (s.step a) fin' re' := by
  obtain ⟨w, k⟩ := s
  cases a with
  | worker r => exact h.worker r
  | client =>
    refine ⟨fin, re, ?_⟩
    show History (tr ++ (Threads.clientStep w k).2.2)
      ⟨(Threads.clientStep w k).1, (Threads.clientStep w k).2.1⟩ fin re
    cases k with
    | idle => exact h.quiet (.inl rfl) (fun _ hi => hi) (fun _ _ hp => hp) rfl
    | copying ji echoPath data mode token => exact h.copying
    | submitting ji echoPath data mode token =>
      exact h.submitting _ _ _ _ _ _ (.inr ⟨ji, rfl, rfl, rfl⟩)
    | cancelling ji => exact h.cancelling _ (.inr ⟨ji, rfl, rfl⟩)
    | harvesting cap => exact h.harvesting
    | joining =>
      simp only [Threads.clientStep]
      split
      · exact h.control rfl rfl rfl id rfl (fun _ => ⟨rfl, rfl⟩) (.inr ⟨rfl, rfl⟩)
      · exact h.quiet (.inl rfl) (fun _ hi => hi) (fun _ _ hp => hp) rfl
  | call c =>
    refine ⟨fin, re, ?_⟩
    cases k with
    | idle =>
      show History (tr ++ (Threads.callStep w c).2.2)
        ⟨(Threads.callStep w c).1, (Threads.callStep w c).2.1⟩ fin re
      cases c with
      | reserve path len =>
        exact h.reserving path len _ (by simp [Client.slot]) (by simp [Client.echo])
      | cancel r => exact h.cancelling r (.inl rfl)
      | submitReserved r data mode token =>
        exact h.submitting _ _ _ _ _ _ (.inl ⟨rfl, rfl, rfl⟩)
      | submit path data mode token =>
        exact h.reserving path _ _ (by simp [Client.slot]) (by simp [Client.echo])
      | submitEcho path echoPath data mode token =>
        simp only [Threads.callStep]
        split
        · exact h.quiet (.inr (.inl ⟨_, rfl⟩)) (fun _ hi => hi) (fun _ _ hp => hp) rfl
        · exact h.reserving path _ _ (by simp [Client.slot]) (by simp [Client.echo])
      | drain cap =>
        simp only [Threads.callStep]
        split
        · exact h.quiet (.inr (.inr rfl)) (fun _ hi => hi) (fun _ _ hp => hp) rfl
        · exact h.control rfl rfl rfl id rfl (fun _ => ⟨rfl, rfl⟩) (.inl rfl)
      | finish =>
        simp only [Threads.callStep]
        split <;>
          exact h.control rfl rfl rfl (fun _ => rfl) rfl (fun _ => ⟨rfl, rfl⟩) (.inr ⟨rfl, rfl⟩)
    | _ => simpa [Threads.out, Threads.step, Threads.turn] using h

end History

/-- Every run has a history. -/
theorem exists_history (as : List Action) : ∃ fin re,
    History (threads.trace Threads.init as) (threads.run Threads.init as) fin re := by
  refine threads.trace_inv (P := fun tr s => ∃ fin re, History tr s fin re) ?_ ?_ as
  · rintro tr s a ⟨fin, re, h⟩
    exact h.step a
  · exact ⟨[], ⟨.unchanged, 0⟩, History.init _⟩

/-! ## Client sections leave queued slots alone -/

theorem slot_ne {w : Writer} {i k : Slot} (hi : (w.jobs i).state = .queued) (hk : (w.jobs k).state ≠ .queued) :
    i ≠ k := by
  rintro rfl
  exact hk hi

theorem reserving_keeps_queued {w : Writer} {path : Path} {len : Nat} {next : Slot → Client}
    {i : Slot} (hi : (w.jobs i).state = .queued) :
    (Threads.reserving w path len next).1.jobs i = w.jobs i ∧
      ∀ p, .reserved i p ∉ (Threads.reserving w path len next).2.2 := by
  unfold Threads.reserving
  rcases hr : w.reserve path len with ⟨w', e | ji⟩
  · obtain rfl := Writer.reserve_error hr
    simp
  · obtain ⟨-, -, -, hfree, rfl⟩ := Writer.reserve_ok hr
    have hne := slot_ne hi (k := ji) (by simp [hfree])
    simpa [hne] using Writer.setJob_jobs_of_ne _ hne

theorem submitting_keeps_queued {w : Writer} {r : Option Slot} {echoPath : Path} {data : Bytes}
    {mode token : Nat} {failed : Client} {i : Slot} (hi : (w.jobs i).state = .queued) :
    (Threads.submitting w r echoPath data mode token failed).1.jobs i = w.jobs i ∧
      ∀ p, .reserved i p ∉ (Threads.submitting w r echoPath data mode token failed).2.2 := by
  unfold Threads.submitting
  rcases hr : w.submitReserved r data mode token with ⟨w', e | ⟨⟩⟩
  · obtain rfl := Writer.submitReserved_error hr
    simp
  · obtain ⟨k, rfl, -, hres, -, rfl⟩ := Writer.submitReserved_ok hr
    simpa using Writer.setJob_jobs_of_ne _ (slot_ne hi (k := k) (by simp [hres]))

theorem cancel_keeps_queued {w : Writer} {i : Slot} (r : Option Slot)
    (hi : (w.jobs i).state = .queued) : (w.cancel r).jobs i = w.jobs i := by
  rcases w.cancel_cases r with hc | ⟨k, -, hres, hc⟩ <;> rw [hc]
  exact Writer.setJob_jobs_of_ne _ (slot_ne hi (k := k) (by simp [hres]))

/-- No client section changes a queued slot or hands it out. -/
theorem History.client_keeps_queued {tr : List Event} {s : Threads} {fin : List Finished}
    {re : WriteResult} (h : History tr s fin re) {a : Action} (ha : ∀ r, a ≠ .worker r) {i : Slot}
    (hi : (s.writer.jobs i).state = .queued) :
    (s.step a).writer.jobs i = s.writer.jobs i ∧ ∀ p, .reserved i p ∉ s.out a := by
  obtain ⟨w, k⟩ := s
  cases a with
  | worker r => exact absurd rfl (ha r)
  | client =>
    show (Threads.clientStep w k).1.jobs i = w.jobs i ∧
      ∀ p, .reserved i p ∉ (Threads.clientStep w k).2.2
    cases k with
    | copying ji echoPath data mode token =>
      have hne : i ≠ ji := by
        rintro rfl
        cases hi.symm.trans (h.slot i rfl)
      simpa [Threads.clientStep, Writer.setEcho] using Writer.setJob_jobs_of_ne _ hne
    | submitting ji echoPath data mode token => exact submitting_keeps_queued hi
    | cancelling ji => simpa [Threads.clientStep] using cancel_keeps_queued (some ji) hi
    | harvesting cap =>
      have hnot : i ∉ w.doneSlots.take cap := fun hm => by
        simp [Writer.mem_doneSlots.mp (List.mem_of_mem_take hm)] at hi
      simp [Threads.clientStep, Writer.harvest_jobs, hnot]
    | idle => simp [Threads.clientStep]
    | joining =>
      simp only [Threads.clientStep]
      split <;> simp
  | call c =>
    cases k with
    | idle =>
      show (Threads.callStep w c).1.jobs i = w.jobs i ∧
        ∀ p, .reserved i p ∉ (Threads.callStep w c).2.2
      cases c with
      | reserve path len => exact reserving_keeps_queued hi
      | cancel r => simpa [Threads.callStep] using cancel_keeps_queued r hi
      | submitReserved r data mode token => exact submitting_keeps_queued hi
      | submit path data mode token => exact reserving_keeps_queued hi
      | submitEcho path echoPath data mode token =>
        simp only [Threads.callStep]
        split
        · simp
        · exact reserving_keeps_queued hi
      | drain cap =>
        simp only [Threads.callStep]
        split <;> simp [Writer.readEvent]
      | finish => simp [Threads.callStep, Writer.requestShutdown]
    | _ => simp [Threads.step, Threads.out, Threads.turn]

/-! ## Progress -/

/-- The number of submissions among the events. -/
def submitCount (es : List Event) : Nat := es.countP fun | .submitted .. => true | _ => false

theorem length_submissions (t : Slot → Path) (es : List Event) : (submissions t es).length = submitCount es := by
  induction es generalizing t with
  | nil => rfl
  | cons e es ih => cases e <;> simp [submissions, submitCount, ih]

/-- The worker's turns in a schedule. -/
def workerTurns (as : List Action) : Nat := as.countP fun | .worker _ => true | _ => false

/-- The file operations the worker has behind it for the job it is busy with. -/
def Worker.stage : Worker → Nat
  | .echoing .. => 1
  | .publishing .. => 2
  | _ => 0

/-- The worker's turns until at most `n` jobs are left in the queue. -/
def Writer.work (w : Writer) (n : Nat) : Nat :=
  if w.queue.length ≤ n then 0
  else 3 * (w.queue.length - n) - w.worker.stage + if w.worker = .waiting then 1 else 0

theorem work_workerStep {w : Writer} (hx : w.worker = .exited → w.ring.count = 0)
    (r : WriteResult) (n : Nat) : (w.workerStep r).1.work n ≤ w.work n - 1 := by
  have hlen : ∀ v : Writer, v.queue.length = v.worker.current.toList.length + v.ring.count := by
    intro v
    simp [Writer.queue]
  simp only [Writer.work, hlen]
  cases hw : w.worker with
  | waiting =>
    by_cases h0 : w.ring.count = 0
    · cases hs : w.shutdown <;>
        simp [Writer.workerStep, hw, Writer.loopHead, h0, hs, Worker.current]
    · simp [Writer.workerStep, hw, Writer.loopHead, h0, Worker.current, Worker.stage, RingBuffer.pop]
      split_ifs <;> omega
  | writing ji =>
    simp [Writer.workerStep, hw, Worker.current, Worker.stage]
    split_ifs <;> omega
  | echoing ji res =>
    simp [Writer.workerStep, hw, Worker.current, Worker.stage]
    split_ifs <;> omega
  | publishing ji res =>
    by_cases h0 : w.ring.count = 0
    · cases hs : w.shutdown <;>
        simp [Writer.workerStep, hw, Writer.loopHead, Writer.publish, Writer.setJob,
          Writer.notifyCompletion, h0, hs, Worker.current]
    · simp [Writer.workerStep, hw, Writer.loopHead, Writer.publish, Writer.setJob,
        Writer.notifyCompletion, h0, Worker.current, Worker.stage, RingBuffer.pop]
      split_ifs <;> omega
  | exited => simp [Writer.workerStep, hw, Worker.current, hx hw]

/-- A client section adds to the queue exactly what it submits. -/
theorem History.client_queue {tr : List Event} {s : Threads} {fin : List Finished}
    {re : WriteResult} (h : History tr s fin re) {a : Action} (ha : ∀ r, a ≠ .worker r) :
    (s.step a).writer.worker = s.writer.worker ∧
      (s.step a).writer.queue.length = s.writer.queue.length + submitCount (s.out a) := by
  obtain ⟨w, k⟩ := s
  have hreserving : ∀ path len next, (Threads.reserving w path len next).1.worker = w.worker ∧
      (Threads.reserving w path len next).1.queue.length =
        w.queue.length + submitCount (Threads.reserving w path len next).2.2 := by
    intro path len next
    unfold Threads.reserving
    rcases hr : w.reserve path len with ⟨w', e | ji⟩
    · obtain rfl := Writer.reserve_error hr
      exact ⟨rfl, rfl⟩
    · obtain ⟨-, -, -, -, rfl⟩ := Writer.reserve_ok hr
      exact ⟨rfl, rfl⟩
  have hsubmitting : ∀ r echoPath data mode token failed,
      (Threads.submitting w r echoPath data mode token failed).1.worker = w.worker ∧
      (Threads.submitting w r echoPath data mode token failed).1.queue.length = w.queue.length +
        submitCount (Threads.submitting w r echoPath data mode token failed).2.2 := by
    intro r echoPath data mode token failed
    unfold Threads.submitting
    rcases hr : w.submitReserved r data mode token with ⟨w', e | ⟨⟩⟩
    · obtain rfl := Writer.submitReserved_error hr
      cases r <;> exact ⟨rfl, rfl⟩
    · obtain ⟨i, rfl, -, hres, -, rfl⟩ := Writer.submitReserved_ok hr
      refine ⟨rfl, ?_⟩
      simp only [h.ledger.wf.queue_push (i := i) (by simp [hres]), submitCount]
      simp
  have hcancel : ∀ r, (w.cancel r).worker = w.worker ∧ (w.cancel r).queue = w.queue := by
    intro r
    rcases w.cancel_cases r with hc | ⟨i, -, -, hc⟩ <;> rw [hc] <;> exact ⟨rfl, rfl⟩
  cases a with
  | worker r => exact absurd rfl (ha r)
  | client =>
    show (Threads.clientStep w k).1.worker = w.worker ∧ (Threads.clientStep w k).1.queue.length =
      w.queue.length + submitCount (Threads.clientStep w k).2.2
    cases k with
    | idle => exact ⟨rfl, rfl⟩
    | copying ji echoPath data mode token => exact ⟨rfl, rfl⟩
    | submitting ji echoPath data mode token => exact hsubmitting _ _ _ _ _ _
    | cancelling ji =>
      simp only [Threads.clientStep, hcancel]
      exact ⟨trivial, rfl⟩
    | harvesting cap =>
      simp only [Threads.clientStep, Writer.harvest_worker, Writer.harvest_queue]
      exact ⟨trivial, rfl⟩
    | joining =>
      simp only [Threads.clientStep]
      split <;> exact ⟨rfl, rfl⟩
  | call c =>
    cases k with
    | idle =>
      show (Threads.callStep w c).1.worker = w.worker ∧ (Threads.callStep w c).1.queue.length =
        w.queue.length + submitCount (Threads.callStep w c).2.2
      cases c with
      | reserve path len => exact hreserving _ _ _
      | cancel r =>
        simp only [Threads.callStep, hcancel]
        exact ⟨trivial, rfl⟩
      | submitReserved r data mode token => exact hsubmitting _ _ _ _ _ _
      | submit path data mode token => exact hreserving _ _ _
      | submitEcho path echoPath data mode token =>
        simp only [Threads.callStep]
        split
        · exact ⟨rfl, rfl⟩
        · exact hreserving _ _ _
      | drain cap =>
        simp only [Threads.callStep]
        split <;> exact ⟨rfl, rfl⟩
      | finish => exact ⟨rfl, rfl⟩
    | _ => exact ⟨rfl, rfl⟩

/-- **The worker gets through.** Once it has had the turns it needs, whatever the client did in
between, at most `n` of the old jobs are in the queue beside those submitted since. -/
theorem outstanding_finish (bs : List Action) {tr : List Event} {s : Threads}
    {fin : List Finished} {re : WriteResult} (h : History tr s fin re) (n : Nat)
    (hturns : s.writer.work n ≤ workerTurns bs) :
    (threads.run s bs).writer.queue.length ≤ n + submitCount (threads.trace s bs) := by
  induction bs generalizing tr s fin re n with
  | nil =>
    have h0 : s.writer.work n = 0 := by simpa [workerTurns] using hturns
    simp only [Machine.run_nil, Machine.trace_nil]
    by_contra hlt
    have hcur : s.writer.queue.length = s.writer.worker.current.toList.length
        + s.writer.ring.count := by simp [Writer.queue]
    have hstage : s.writer.worker.stage ≤ 2 := by
      cases s.writer.worker <;> simp [Worker.stage]
    simp only [submitCount, List.countP_nil, Nat.add_zero] at hlt
    simp only [Writer.work, if_neg hlt] at h0
    omega
  | cons a bs ih =>
    obtain ⟨fin', re', hstep⟩ := h.step a
    simp only [Machine.run_cons, Machine.trace_cons]
    have hcount : submitCount (threads.out s a ++ threads.trace (threads.step s a) bs)
        = submitCount (s.out a) + submitCount (threads.trace (threads.step s a) bs) := by
      simp [submitCount, threads]
    rw [hcount, ← Nat.add_assoc]
    refine ih hstep _ ?_
    by_cases ha : ∃ r, a = .worker r
    · obtain ⟨r, rfl⟩ := ha
      have hout : submitCount (s.out (.worker r)) = 0 := by
        rw [← length_submissions fun _ => []]
        simp [Threads.out, Threads.turn]
      have hwork := work_workerStep (fun hw => (h.exited hw).2) r n
      have hturns' : s.writer.work n ≤ workerTurns bs + 1 := by
        simpa [workerTurns] using hturns
      rw [hout, Nat.add_zero]
      show (s.writer.workerStep r).1.work n ≤ _
      omega
    · push Not at ha
      obtain ⟨hw, hq⟩ := h.client_queue ha
      have hturns' : s.writer.work n ≤ workerTurns bs := by
        cases a with
        | worker r => exact absurd rfl (ha r)
        | _ => simpa [workerTurns] using hturns
      simp only [Writer.work, hw, hq] at hturns' ⊢
      split_ifs at hturns' ⊢ <;> omega

/-! ## The queue is correct -/

/-- The two sides of a run agree on `fin`, the submissions the worker is through with: they are the
first of the submissions; the writes are theirs, then perhaps the first ones of the next job's;
and their records are those drained and those waiting in `done` slots. -/
def Accounted (tr : List Event) (w : Writer) (fin : List Finished) : Prop :=
  ∃ rest part,
    submissions (fun _ => []) tr = fin.map Finished.sub ++ rest ∧
    fileWrites tr = fin.flatMap Finished.writes ++ part ∧
    (part = [] ∨ ∃ f : Finished, rest.head? = some f.sub ∧ part <+: f.writes) ∧
    (drained tr ++ w.doneRecords).Perm (fin.map Finished.record)

theorem begun_prefix {w : Writer} (re : WriteResult) :
    w.begun re = [] ∨ ∃ f : Finished, w.pending.head? = some f.sub ∧ w.begun re <+: f.writes := by
  cases hw : w.worker with
  | echoing ji r =>
    refine .inr ⟨⟨(w.jobs ji).submission, r, re⟩, by
      simp [Writer.pending, Writer.queue, hw, Worker.current], ?_⟩
    simp [Writer.begun, hw, Finished.writes, Job.submission]
  | publishing ji r =>
    refine .inr ⟨⟨(w.jobs ji).submission, r, re⟩, by
      simp [Writer.pending, Writer.queue, hw, Worker.current], ?_⟩
    simp [Writer.begun, hw]
  | _ => exact .inl (by simp [Writer.begun, hw])

theorem History.accounted {tr : List Event} {s : Threads} {fin : List Finished} {re : WriteResult}
    (h : History tr s fin re) : Accounted tr s.writer fin :=
  ⟨s.writer.pending, s.writer.begun re, h.ledger.submitted, h.ledger.written, begun_prefix re,
    h.ledger.recorded⟩

/-- **The writer's queue is correct**, for every interleaving `as` of the client's and the worker's
sections. In order: what was submitted is written in order, once, and its record is handed over
once; with turns enough for the worker, however the client goes on, everything submitted so far is
finished, and a drain with room for it returns every finished record not returned before; no
client section touches a queued slot or hands it out; the ring is within bounds and free of
repetitions, and holds queued slots only; and the eventfd is readable while a completion waits
outside a drain. -/
theorem writer_queue_correct (as : List Action) :
    let s := threads.run Threads.init as
    let tr := threads.trace Threads.init as
    (∃ fin, Accounted tr s.writer fin) ∧
    (∀ bs, 3 * s.writer.queue.length + 1 ≤ workerTurns bs →
      ∃ fin, Accounted (threads.trace Threads.init (as ++ bs))
          (threads.run Threads.init (as ++ bs)).writer fin ∧
        (submissions (fun _ => []) tr).length ≤ fin.length) ∧
    (∀ cap, queueDepth ≤ cap → (s.writer.harvest cap).2 = s.writer.doneRecords) ∧
    (∀ a i, (∀ r, a ≠ .worker r) → (s.writer.jobs i).state = .queued →
      (threads.step s a).writer.jobs i = s.writer.jobs i ∧
        ∀ path, .reserved i path ∉ threads.out s a) ∧
    s.writer.ring.count ≤ queueDepth ∧ s.writer.queue.Nodup ∧
    (∀ i, i ∈ s.writer.queue ↔ (s.writer.jobs i).state = .queued) ∧
    ((∀ cap, s.client ≠ .harvesting cap) → (∃ i, (s.writer.jobs i).state = .done) →
      0 < s.writer.eventFd) := by
  intro s tr
  obtain ⟨fin, re, h⟩ := exists_history as
  refine ⟨⟨fin, h.accounted⟩, fun bs hturns => ?_, fun cap hcap => ?_,
    fun a i ha hi => h.client_keeps_queued ha hi, h.ledger.wf.ring_count_le, h.ledger.wf.nodup,
    h.ledger.wf.mem_queue, fun hk ⟨i, hi⟩ => ?_⟩
  · obtain ⟨fin', re', h'⟩ := exists_history (as ++ bs)
    refine ⟨fin', h'.accounted, ?_⟩
    have hwork : s.writer.work 0 ≤ workerTurns bs := by
      refine le_trans ?_ hturns
      unfold Writer.work
      split_ifs <;> omega
    have hleft := outstanding_finish bs h 0 hwork
    have hlen := congrArg List.length h'.ledger.submitted
    rw [Machine.trace_append, submissions_append, List.length_append, List.length_append,
      length_submissions (reservations _ _), List.length_map, Writer.pending, List.length_map,
      Machine.run_append] at hlen
    simp only [tr] at hleft ⊢
    omega
  · have hall : s.writer.doneSlots.take cap = s.writer.doneSlots := by
      refine List.take_of_length_le (le_trans ?_ hcap)
      simpa using (s.writer.nodup_doneSlots).length_le_card
    simp [Writer.harvest, hall, Writer.doneRecords]
  · refine h.event ?_ (List.ne_nil_of_mem (Writer.mem_doneSlots.mpr hi))
    cases hc : (threads.run Threads.init as).client with
    | harvesting cap => exact absurd hc (hk cap)
    | _ => rfl

end Opcd.Store
