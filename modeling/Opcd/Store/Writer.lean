import Opcd.Lib.Bytes
import Opcd.Lib.RingBuffer

/-!
# The asynchronous NVRAM writer

The state and the lock-protected sections of `store_async.c`: sixteen job slots, a ring of slot
numbers waiting for the worker, an eventfd counter, and the worker thread's program counter.

Each definition below is one section that the source runs with the mutex held (or one file
operation the worker makes without it), so an interleaving of client and worker is an
interleaving of these. `submitEcho` and `submit` are also given as whole calls, for a client that
runs with no worker section in between.

The environment answers each atomic file write with a `WriteResult`. Pointer arguments are values
here, so the source's NULL tests have no counterpart; a reservation number outside `0..15` is
`none`.
-/

namespace Opcd.Store

/-- `opc_store_outcome_t`: what an atomic replacement left behind. -/
inductive Outcome
  | unchanged
  | replacedUnsynced
  | durable
  deriving DecidableEq, Repr

/-- What `opc_store_write_atomic_ex` reports; `errno` is read only when the call failed. -/
structure WriteResult where
  outcome : Outcome
  errno : Nat
  deriving DecidableEq, Repr

namespace WriteResult

/-- The return code: 0 only once the directory is synced. -/
def rc (r : WriteResult) : Int := if r.outcome = .durable then 0 else -1

/-- `int e = (rc != 0) ? errno : 0`. -/
def savedErrno (r : WriteResult) : Nat := if r.rc ≠ 0 then r.errno else 0

end WriteResult

/-- A path, without its terminating NUL. -/
abbrev Path := Bytes

/-- One call of the atomic writer: where, what, the file mode, and what came of it. -/
structure FileWrite where
  path : Path
  bytes : Bytes
  mode : Nat
  result : WriteResult
  deriving DecidableEq, Repr

/-- The errno values the submission calls fail with. -/
inductive SubmitError
  | inval
  | tooBig
  | nameTooLong
  | canceled
  | again
  deriving DecidableEq, Repr

/-- `OPC_STORE_ASYNC_QUEUE_DEPTH`. -/
abbrev queueDepth : Nat := 16

instance : NeZero queueDepth := ⟨by decide⟩

/-- `OPC_STORE_ASYNC_DATA_MAX`. -/
def dataMax : Nat := 24576

/-- `sizeof job_t.path`, the terminating NUL included. -/
def pathMax : Nat := 1024

/-- An index into `jobs[]`. -/
abbrev Slot := Fin queueDepth

inductive JobState
  | free
  | reserved
  | queued
  | done
  deriving DecidableEq, Repr

/-- `job_t`. -/
structure Job where
  state : JobState
  path : Path
  echoPath : Path
  data : Bytes
  len : Nat
  mode : Nat
  token : Nat
  result : Int
  savedErrno : Nat
  outcome : Outcome
  deriving DecidableEq, Repr

/-- What a client hands over with a job: the target, the echo target (`[]` for none), the bytes,
the mode and its token. -/
structure Submission where
  path : Path
  echoPath : Path
  bytes : Bytes
  mode : Nat
  token : Nat
  deriving DecidableEq, Repr

/-- `opc_store_async_done_t`. -/
structure Done where
  token : Nat
  result : Int
  savedErrno : Nat
  outcome : Outcome
  deriving DecidableEq, Repr

/-- Where the worker thread stands between two sections. -/
inductive Worker
  /-- in `pthread_cond_wait` -/
  | waiting
  /-- popped a job, about to write its target -/
  | writing (ji : Slot)
  /-- wrote the target, about to decide on the echo -/
  | echoing (ji : Slot) (r : WriteResult)
  /-- file work done, about to take the lock again -/
  | publishing (ji : Slot) (r : WriteResult)
  | exited
  deriving DecidableEq, Repr

/-- `struct opc_store_async`. -/
structure Writer where
  shutdown : Bool
  joined : Bool
  jobs : Slot → Job
  ring : RingBuffer queueDepth Slot
  eventFd : Nat
  worker : Worker

namespace Job

/-- A slot as `calloc` leaves it. -/
def empty : Job :=
  { state := .free, path := [], echoPath := [], data := [], len := 0, mode := 0, token := 0,
    result := 0, savedErrno := 0, outcome := .unchanged }

/-- The bytes a write of this job puts out. -/
def bytes (j : Job) : Bytes := j.data.take j.len

/-- The hand-over a job slot holds. -/
def submission (j : Job) : Submission :=
  { path := j.path, echoPath := j.echoPath, bytes := j.bytes, mode := j.mode, token := j.token }

/-- The completion record of a job slot. -/
def record (j : Job) : Done :=
  { token := j.token, result := j.result, savedErrno := j.savedErrno, outcome := j.outcome }

end Job

namespace Writer

/-- `opc_store_async_create`. The worker finds nothing queued and waits. -/
def create : Writer :=
  { shutdown := false, joined := false, jobs := fun _ => Job.empty,
    ring := ⟨fun _ => 0, 0, 0⟩, eventFd := 0, worker := .waiting }

/-- Overwrite one job slot. -/
def setJob (w : Writer) (i : Slot) (j : Job) : Writer :=
  { w with jobs := Function.update w.jobs i j }

/-- `notify_completion`: bump the eventfd. A saturated counter stays where it is. -/
def notifyCompletion (w : Writer) : Writer :=
  { w with eventFd := min (w.eventFd + 1) (2 ^ 64 - 2) }

/-! ## Client sections -/

/-- The scan for a free slot. -/
def freeSlot (w : Writer) : Option Slot :=
  (List.finRange queueDepth).find? fun i => (w.jobs i).state = .free

/-- `opc_store_async_reserve`. -/
def reserve (w : Writer) (path : Path) (len : Nat) : Writer × Except SubmitError Slot :=
  if dataMax < len then (w, .error .tooBig)
  else if pathMax ≤ path.length then (w, .error .nameTooLong)
  else if w.shutdown then (w, .error .canceled)
  else
    match w.freeSlot with
    | none => (w, .error .again)
    | some ji =>
      (w.setJob ji { w.jobs ji with path, echoPath := [], len, state := .reserved }, .ok ji)

/-- `opc_store_async_cancel`. -/
def cancel (w : Writer) (reservation : Option Slot) : Writer :=
  match reservation with
  | none => w
  | some i =>
    if (w.jobs i).state = .reserved then w.setJob i { w.jobs i with state := .free } else w

/-- The `strcpy` section of `opc_store_async_submit_echo`. -/
def setEcho (w : Writer) (i : Slot) (echoPath : Path) : Writer :=
  w.setJob i { w.jobs i with echoPath }

/-- `opc_store_async_submit_reserved`. -/
def submitReserved (w : Writer) (reservation : Option Slot) (data : Bytes) (mode token : Nat) :
    Writer × Except SubmitError Unit :=
  match reservation with
  | none => (w, .error .inval)
  | some i =>
    if w.shutdown ∨ (w.jobs i).state ≠ .reserved ∨ (w.jobs i).len < data.length then
      (w, .error (if w.shutdown then .canceled else .inval))
    else
      let w := w.setJob i
        { w.jobs i with
          data, len := data.length, mode, token, result := 0, savedErrno := 0,
          outcome := .unchanged, state := .queued }
      ({ w with ring := w.ring.push i }, .ok ())

/-- `opc_store_async_submit_echo` with no worker section in between. -/
def submitEcho (w : Writer) (path echoPath : Path) (data : Bytes) (mode token : Nat) :
    Writer × Except SubmitError Unit :=
  if pathMax ≤ echoPath.length then (w, .error .nameTooLong)
  else
    match w.reserve path data.length with
    | (w, .error e) => (w, .error e)
    | (w, .ok ji) =>
      match (w.setEcho ji echoPath).submitReserved (some ji) data mode token with
      | (w, .ok ()) => (w, .ok ())
      | (w, .error e) => (w.cancel (some ji), .error e)

/-- `opc_store_async_submit` with no worker section in between. -/
def submit (w : Writer) (path : Path) (data : Bytes) (mode token : Nat) :
    Writer × Except SubmitError Unit :=
  match w.reserve path data.length with
  | (w, .error e) => (w, .error e)
  | (w, .ok ji) =>
    match w.submitReserved (some ji) data mode token with
    | (w, .ok ()) => (w, .ok ())
    | (w, .error e) => (w.cancel (some ji), .error e)

/-- The `read` of the eventfd that opens `opc_store_async_drain`. -/
def readEvent (w : Writer) : Writer := { w with eventFd := 0 }

/-- The completed slots in slot order. -/
def doneSlots (w : Writer) : List Slot :=
  (List.finRange queueDepth).filter fun i => (w.jobs i).state = .done

/-- The locked section of `opc_store_async_drain`: the first `cap` completed slots are handed
over and freed, and the eventfd is bumped again if some are left. -/
def harvest (w : Writer) (cap : Nat) : Writer × List Done :=
  let taken := w.doneSlots.take cap
  let w' := { w with
    jobs := fun i => if i ∈ taken then { w.jobs i with state := .free } else w.jobs i }
  (if cap < w.doneSlots.length then w'.notifyCompletion else w',
    taken.map fun i => (w.jobs i).record)

/-- `opc_store_async_drain` with no worker section in between. -/
def drain (w : Writer) (cap : Nat) : Writer × List Done :=
  if cap = 0 then (w, []) else w.readEvent.harvest cap

/-- The first section of `opc_store_async_finish`. -/
def requestShutdown (w : Writer) : Writer := { w with shutdown := true }

/-! ## Worker sections -/

/-- The head of the worker's loop, with the lock held: wait, leave, or pop the oldest job. -/
def loopHead (w : Writer) : Writer :=
  if w.ring.count = 0 then { w with worker := if w.shutdown then .exited else .waiting }
  else { w with worker := .writing w.ring.front, ring := w.ring.pop }

/-- The locked section after the file work, up to the loop head that follows it. -/
def publish (w : Writer) (ji : Slot) (r : WriteResult) : Writer :=
  let w := w.setJob ji
    { w.jobs ji with
      result := r.rc, savedErrno := r.savedErrno, outcome := r.outcome, state := .done }
  { w.notifyCompletion with worker := .waiting }

/-- The worker's next section, and the file write it makes, if any. `r` is what that write comes
to. -/
def workerStep (w : Writer) (r : WriteResult) : Writer × List FileWrite :=
  match w.worker with
  | .waiting => (w.loopHead, [])
  | .writing ji =>
    let j := w.jobs ji
    ({ w with worker := .echoing ji r }, [⟨j.path, j.bytes, j.mode, r⟩])
  | .echoing ji res =>
    let j := w.jobs ji
    ({ w with worker := .publishing ji res },
      if j.echoPath ≠ [] ∧ res.outcome ≠ .unchanged then [⟨j.echoPath, j.bytes, j.mode, r⟩]
      else [])
  | .publishing ji res => ((w.publish ji res).loopHead, [])
  | .exited => (w, [])

end Writer

end Opcd.Store
