import Opcd.Lib.Machine
import Opcd.Protocol.Messages
import Opcd.Startup

/-!
# The daemon

The main loop of `opcd.c` as a machine. An action is one turn of the loop or one section of the writer's
thread, with the answers of the environment; lists of actions are the runs of the daemon, in every
interleaving. The loop itself orders its turns more strictly than that, and stops taking datagrams
once an IP change is armed or a reset was asked for, so its runs are among these.

Dispatch is one action: the writer's sections that could fall inside it touch only a job that is
queued, which no handler looks at, so they may as well come before or after.
-/

namespace Opcd

open Bytes Protocol Store

namespace St

/-- A datagram of the UDP socket: intake, dispatch, the response, the notice after a Reset, and the
deferred radio revert. -/
def receive (st : St) (env : Env) (revert : ApplyResult) (ip : BitVec 32) (port : BitVec 16)
    (datagram : Bytes) : Turn Unit :=
  let rx := datagram.take frameMax
  let want := intakeFrameLen rx
  if want = 0 then ⟨st, st.rejectBadLength rx ip port, ()⟩
  else
    (st.dispatch env (rx.take want) ip port).bind fun st r =>
    (⟨st, if r.1 = 0 ∧ r.2 ≠ [] then [.send ip port r.2] else [], ()⟩ : Turn Unit).bind fun st _ =>
    (if r.1 = 0 then st.postAck else st.done ()).bind fun st _ => st.radioRevertDrain revert

/-- The next section of the writer's thread, if there is one. -/
def workerTurn (st : St) (r : WriteResult) : Turn Unit :=
  match st.storeAsync with
  | none => st.done ()
  | some w => ⟨st.setWriter (w.workerStep r).1, (w.workerStep r).2.map .write, ()⟩

end St

inductive Action
  | datagram (env : Env) (revert : ApplyResult) (ip : BitVec 32) (port : BitVec 16)
      (datagram : Bytes)
  /-- the one-second timer's idle check -/
  | timer (now : Nat)
  /-- the indication tick, a platform event or a roaming notice, which touch nothing but the
  indication settings -/
  | notices (ind : Indication) (sent : List (BitVec 32 × BitVec 16 × Bytes))
  /-- the writer's eventfd is readable -/
  | storeReady (env : ReadyEnv)
  /-- the writer's thread runs its next section -/
  | worker (r : WriteResult)
  /-- the end of a cycle of the loop, where an armed IP change is applied -/
  | endOfCycle (ok : Bool)

/-- What an action does. -/
def St.turn (st : St) : Action → Turn Unit
  | .datagram env revert ip port datagram => st.receive env revert ip port datagram
  | .timer now => st.idleCheck now
  | .notices ind sent => ⟨{ st with ind }, sent.map fun s => .indicate s.1 s.2.1 s.2.2, ()⟩
  | .storeReady env => st.storeAsyncOnReady env
  | .worker r => st.workerTurn r
  | .endOfCycle ok => st.applyPendingIpChange ok

/-- The daemon. -/
def daemon : Machine St Action Effect := ⟨fun st a => (st.turn a).st, fun st a => (st.turn a).out⟩

/-! ## Shutdown -/

namespace St

/-- The writer's thread alone, with these answers. -/
def workers (st : St) : List WriteResult → Turn Unit
  | [] => st.done ()
  | r :: rs => (st.workerTurn r).bind fun st _ => st.workers rs

/-- `opc_store_async_finish`: no more admissions, and the thread runs on. -/
def finish (st : St) (rs : List WriteResult) : Turn Unit :=
  match st.storeAsync with
  | none => st.done ()
  | some w => (st.setWriter w.requestShutdown).workers rs

/-- The end of `main`: the writer is finished and what it completed is reconciled. -/
def shutdown (st : St) (rs : List WriteResult) (env : ReadyEnv) : Turn Unit :=
  (st.finish rs).bind fun st _ => st.storeAsyncOnReady env

end St

/-! ## A session in which every call succeeds -/

/-- The answers to a start with a writer. -/
def StartEnv.allOk : StartEnv :=
  { radioWriteBack := Env.durableWrite
    load := ⟨Env.durableWrite, Env.durableWrite, Env.durableWrite, Env.durableWrite, true, true, false⟩
    writer := true
    opcConf := none }

/-- A daemon that found no file. -/
def firstBoot : St := (startup defaultConf defaultPaths (fun _ => .absent) .allOk).st

namespace Action

/-- A datagram of 192.168.0.1:50000 at time 0. -/
def fromHolder (frame : Option Bytes) : Action :=
  .datagram (.allOk 0) .ok 0xC0A80001 50000 (frame.getD [])

/-- Its Login with the default password. -/
def holderLogin : Action := fromHolder (loginReqPack frameMax 1 ⟨passwordDefault, true⟩)

/-- Its change of the password to "ab". -/
def holderSetPassword : Action :=
  fromHolder (setPasswordReqPack frameMax 2
    ⟨passwordDefault, Buf.ofBytes 128 (ofString "ab"), true, true⟩)

end Action

end Opcd
