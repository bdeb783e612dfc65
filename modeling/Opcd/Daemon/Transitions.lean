import Opcd.Daemon
import Opcd.IpList.RoundTrip
import Opcd.Lib.Transition

/-!
# What the daemon can do

`Trans` lists the transitions the daemon is made of: one constructor for each way a turn can change the
settings, the session, the acknowledgement slots or the writer, with its guard and its effects. What
a turn does beside that (idle deadlines, notices, responses) is `quiet`.

A state of the system is a `Loop`: the daemon's state and the completion records that
`opcd_store_async_on_ready` has drained and not yet reconciled. A transition that serves a request is
labelled with it (`Source`).
-/

namespace Opcd

open Bytes Protocol Store

/-- The daemon's state and the drained completions in hand. -/
structure Loop where
  st : St
  due : List Done

/-- The frame a datagram is cut to. -/
def frameOf (datagram : Bytes) : Bytes :=
  (datagram.take frameMax).take (St.intakeFrameLen (datagram.take frameMax))

/-- The request that is served: its client and its frame. -/
abbrev Source := Option (Client × Bytes)

/-- The request in a frame. -/
def requestOf (ip : BitVec 32) (port : BitVec 16) (frame : Bytes) : Source :=
  (frameParse frame).map fun p => (⟨ip, port, p.1.sequenceNumber⟩, frame)

/-- The request an action serves. -/
def Action.source : Action → Source
  | .datagram _ _ ip port d => requestOf ip port (frameOf d)
  | _ => none

/-- The states agree on everything but the clock of the session and the indication settings. -/
structure SameCore (st st' : St) : Prop where
  conf : st'.conf = st.conf
  paths : st'.paths = st.paths
  loggedIn : st'.session.loggedIn = st.session.loggedIn
  generation : st'.session.generation = st.session.generation
  pw : st'.pw = st.pw
  rad : st'.rad = st.rad
  ipl : st'.ipl = st.ipl
  chg : st'.chg = st.chg
  storeAsync : st'.storeAsync = st.storeAsync
  acks : st'.acks = st.acks

theorem SameCore.refl (st : St) : SameCore st st :=
  ⟨rfl, rfl, rfl, rfl, rfl, rfl, rfl, rfl, rfl, rfl⟩

/-- Effects that neither files nor the radio nor the writer nor the address see. -/
def Effect.quiet : Effect → Bool
  | .send .. => true
  | .indicate .. => true
  | .snapshot _ => true
  | .peerRouteRefresh .. => true
  | .reserve _ (.error e) => e ≠ .again
  | _ => false

/-- A write of `data` for resource `r` was admitted to the writer and queued in job slot `s` under
acknowledgement slot `k`; `w'` is the writer then. -/
structure Queued (st : St) (r : Resource) (path : Path) (len : Nat) (data : Bytes) (mode : Nat)
    (s : Slot) (k : AckIdx) (w' : Writer) : Prop where
  idle : st.persistResourceBusy r = false
  alloc : st.pendingAckAlloc = some k
  taken : ∃ w w₁, st.storeAsync = some w ∧ w.reserve path len = (w₁, .ok s) ∧
    w₁.submitReserved (some s) data mode k = (w', .ok ())

/-- The effects of a write that is queued, `before` its submission. -/
def queuedOut (r : Resource) (path : Path) (data : Bytes) (noAck : Bool) (reqId : BitVec 16)
    (cl : Client) (s : Slot) (k : AckIdx) (before : List Effect) : List Effect :=
  .reserve path (.ok s) :: before ++ [.ackAlloc (some k), .defer k r noAck reqId cl data]

/-- The state once a write is queued under slot `k`. -/
def St.enqueue (st : St) (w' : Writer) (k : AckIdx) (r : Resource) (noAck : Bool)
    (reqId : BitVec 16) (cl : Client) : St :=
  { st with
    storeAsync := some w'
    acks := Function.update st.acks k
      { inUse := true, noAck, resource := r, reqId, seq := cl.seq, radioGen := 0
        clientIp := cl.ip, clientPort := cl.port } }

/-- The session an ended one leaves. -/
structure Ended (s s' : Session) : Prop where
  was : s.loggedIn = true
  out : s'.loggedIn = false
  generation : s'.generation = s.generation + 1

/-- The change record a Login that opens a session leaves. -/
def IpChange.atLogin (c : IpChange) : IpChange :=
  if ¬ c.commitArmed ∧ ¬ c.logoutDeferred then
    { c with pending := false, listNo := 0, commitArmed := false }
  else c

/-- The old password of a SetPassword is the published one; or the write before was not synced, and
the request asks for what that write did. -/
def PasswordState.Admits (p : PasswordState) (req : SetPasswordReq) : Prop :=
  strncmpEq 127 req.oldPassword.toList p.password.toList ∨
    p.unsynced ∧ strncmpEq 127 req.oldPassword.toList p.unsyncedPrev.toList ∧
      strncmpEq 127 req.newPassword.toList p.password.toList

/-- A SetPassword that passed its checks, and the bytes it writes. -/
structure PasswordDue (src : Source) (p : PasswordState) (cl : Client) (req : SetPasswordReq)
    (data : Bytes) : Prop where
  source : ∃ frame, src = some (cl, frame) ∧ setPasswordReqUnpack frame = some req
  oldTerminated : req.oldPasswordTerminated = true
  newTerminated : req.newPasswordTerminated = true
  nonempty : strnlen req.newPassword.toList 127 ≠ 0
  admits : p.Admits req
  data : data = req.newPassword.toList.take (strnlen req.newPassword.toList 127)

/-- A SetIpConfigList of a session. -/
structure EntriesDue (src : Source) (loggedIn : Bool) (cl : Client) (es : List (Entry × Bool)) :
    Prop where
  source : ∃ frame, src = some (cl, frame) ∧ setIpConfigListReqUnpack frame = .ok es
  was : loggedIn = true

/-- A SetRadioConfig that passed its checks and is not answered from the committed configuration. -/
structure RadioDue (src : Source) (r : RadioState) (cl : Client) (req : RadioConfig) : Prop where
  source : ∃ frame, src = some (cl, frame) ∧ setRadioConfigReqUnpack frame = some req
  checked : ∃ env, St.setRadioError env req = none
  needed : ¬ (r.committed ∧ ¬ radioCfgDiffers req r.radio)

/-- The radio state once the write of an applied request was made in line; `base` is the state
before the apply. -/
def RadioState.written (r base : RadioState) (baselineValid : Bool) : Outcome → RadioState
  | .durable => { r with committed := true }
  | .replacedUnsynced => r
  | .unchanged => r.armRevert base.radio base.committed baselineValid

/-- The marker shows the request about to be applied, if there is a marker. -/
def St.MarkerArmed (st : St) (marker : WriteResult) : Prop :=
  st.paths.radioMarker = none ∨ marker.rc = 0

/-- One transition of the daemon. -/
inductive Trans (src : Source) : Loop → List Effect → Loop → Prop
  | quiet {st st' : St} {due : List Done} {out : List Effect} (same : SameCore st st')
      (hout : ∀ e ∈ out, e.quiet) : Trans src ⟨st, due⟩ out ⟨st', due⟩
  /-- a Login that found nobody logged in -/
  | login {st : St} {s : Session} {cl : Client} {frame : Bytes} (source : src = some (cl, frame))
      (login : (loginReqUnpack frame).isSome = true) (was : st.session.loggedIn = false)
      (now : s.loggedIn = true) (generation : s.generation = st.session.generation + 1) :
      Trans src ⟨st, []⟩ [] ⟨{ st with session := s, chg := st.chg.atLogin }, []⟩
  /-- the session ends, by a Logout, idleness or an IP change -/
  | close {st : St} {s : Session} (ended : Ended st.session s) :
      Trans src ⟨st, []⟩ []
        ⟨{ st with session := s, ipl.staging := IpList.empty, ipl.stagingActive := false }, []⟩
  /-- the ChangeIp decision of a Logout -/
  | decide {st : St} {cl : Client} {frame : Bytes} (source : src = some (cl, frame))
      (logout : logoutReqUnpack frame = true) (was : st.session.loggedIn = true) :
      Trans src ⟨st, []⟩ [] ⟨st.logoutDecision, []⟩
  /-- a ChangeIpAddress answered OK -/
  | stage {st : St} {cl : Client} {frame : Bytes} {other : Option (BitVec 32 × BitVec 32)}
      {n : BitVec 16} (source : src = some (cl, frame))
      (change : changeIpAddressReqUnpack frame = some n) (was : st.session.loggedIn = true)
      (ok : st.changeIpError other n = none) :
      Trans src ⟨st, []⟩ [] ⟨{ st with chg.pending := true, chg.listNo := n }, []⟩
  /-- an armed change is applied -/
  | apply {st : St} {ok : Bool} (armed : st.chg.commitArmed = true) :
      Trans src ⟨st, []⟩ [.applyIpChange st.chg.armedEntry st.mgmtIpIfaceIdx st.chg.armedNo ok]
        ⟨st.clearIpChange, []⟩
  /-- a reservation that is given back -/
  | probe {st : St} {w w' : Writer} {path : Path} {len : Nat} {s : Slot}
      (hw : st.storeAsync = some w) (taken : w.reserve path len = (w', .ok s)) :
      Trans src ⟨st, []⟩ [.reserve path (.ok s)] ⟨st.setWriter (w'.cancel (some s)), []⟩
  /-- a write finds no slot: no state that is reached allows it, so anything may follow -/
  | starved {st st' : St} {w : Writer} {path : Path} {len : Nat} {out : List Effect}
      (hw : st.storeAsync = some w)
      (short : st.pendingAckAlloc = none ∨ (w.reserve path len).2 = .error .again) :
      Trans src ⟨st, []⟩ out ⟨st', []⟩
  /-- entries that close no cycle -/
  | staging {st : St} {cl : Client} {es : List (Entry × Bool)}
      (idle : st.storeAsync = none ∨ st.persistResourceBusy .ipList = false)
      (due : EntriesDue src st.session.loggedIn cl es)
      (unclosed : (st.folded es).1.committed = false) :
      Trans src ⟨st, []⟩ []
        ⟨{ st with
          ipl.staging := (st.folded es).1.staging
          ipl.stagingActive := (st.folded es).1.active }, []⟩
  | passwordQueued {st : St} {cl : Client} {req : SetPasswordReq} {len : Nat} {data : Bytes}
      {s : Slot} {k : AckIdx} {w' : Writer} (due : PasswordDue src st.pw cl req data)
      (queued : Queued st .password st.paths.password len data 0o600 s k w') :
      Trans src ⟨st, []⟩
        (queuedOut .password st.paths.password data false Command.setPassword.id cl s k [])
        ⟨{ st.enqueue w' k .password false Command.setPassword.id cl with
          pw.pending := Buf.ofBytes 128 data }, []⟩
  | ipListQueued {st : St} {cl : Client} {es : List (Entry × Bool)} {s : Slot} {k : AckIdx}
      {w' : Writer} (due : EntriesDue src st.session.loggedIn cl es)
      (closed : (st.folded es).1.committed = true)
      (queued : Queued st .ipList st.paths.ipList IpList.textMax
        (IpList.listText (st.folded es).1.candidate) 0o644 s k w') :
      Trans src ⟨st, []⟩
        (queuedOut .ipList st.paths.ipList (IpList.listText (st.folded es).1.candidate)
          (st.folded es).2.isSome Command.setIpConfigList.id cl s k [])
        ⟨{ st.enqueue w' k .ipList (st.folded es).2.isSome Command.setIpConfigList.id cl with
          ipl.pending := (st.folded es).1.candidate
          ipl.pendingStaging := (st.folded es).1.staging
          ipl.pendingStagingActive := (st.folded es).1.active
          ipl.pendingGeneration := st.session.generation }, []⟩
  | radioQueued {st st₁ : St} {cl : Client} {req : RadioConfig} {marker : WriteResult} {s : Slot}
      {k : AckIdx} {w' : Writer} (due : RadioDue src st.rad cl req) (armed : st.MarkerArmed marker)
      (queued : Queued st .radio st.paths.radio radioConfLen (rawRadio req) 0o644 s k w')
      (h : st₁ = (st.radioApplied req).enqueue w' k .radio false Command.setRadioConfig.id cl) :
      Trans src ⟨st, []⟩
        (queuedOut .radio st.paths.radio (rawRadio req) false Command.setRadioConfig.id cl s k
          ((st.radioTxnArm marker req).1 ++ [.applyRadio req .ok]))
        ⟨{ st₁ with
          acks := st₁.stampRadio cl
          rad.revertCfg := st.rad.radio
          rad.revertCommitted := st.rad.committed
          rad.persistBaselineValid := radioBaselineCovers st.rad req }, []⟩
  | passwordWritten {st : St} {cl : Client} {req : SetPasswordReq} {data : Bytes} {r : WriteResult}
      (sync : st.storeAsync = none) (due : PasswordDue src st.pw cl req data) :
      Trans src ⟨st, []⟩ [.write ⟨st.paths.password, data, 0o600, r⟩]
        ⟨{ st with pw := st.pw.publish (Buf.ofBytes 128 data) r.outcome }, []⟩
  /-- a committed list whose write left the file as it was -/
  | ipListUnwritten {st : St} {cl : Client} {es : List (Entry × Bool)} {r : WriteResult}
      (sync : st.storeAsync = none) (due : EntriesDue src st.session.loggedIn cl es)
      (closed : (st.folded es).1.committed = true) (hr : r.outcome = .unchanged) :
      Trans src ⟨st, []⟩
        [.write ⟨st.paths.ipList, IpList.listText (st.folded es).1.candidate, 0o644, r⟩] ⟨st, []⟩
  | ipListWritten {st st' : St} {cl : Client} {es : List (Entry × Bool)} {r : WriteResult}
      {mirror : MirrorEnv} (sync : st.storeAsync = none) (due : EntriesDue src st.session.loggedIn cl es)
      (closed : (st.folded es).1.committed = true) (hr : r.outcome ≠ .unchanged)
      (h : st' = { st with
        ipl.list := (st.folded es).1.candidate
        ipl.staging := (st.folded es).1.staging
        ipl.stagingActive := (st.folded es).1.active }) :
      Trans src ⟨st, []⟩
        (.write ⟨st.paths.ipList, IpList.listText (st.folded es).1.candidate, 0o644, r⟩ ::
          st'.iplistWriteUser mirror) ⟨st', []⟩
  | radioWritten {st : St} {cl : Client} {req : RadioConfig} {marker r : WriteResult}
      {unlink : Bool} (sync : st.storeAsync = none) (due : RadioDue src st.rad cl req)
      (armed : st.MarkerArmed marker) :
      Trans src ⟨st, []⟩
        ((st.radioTxnArm marker req).1 ++
          [.applyRadio req .ok, .write ⟨st.paths.radio, rawRadio req, 0o644, r⟩] ++
          if r.outcome = .durable then st.radioTxnClear unlink else [])
        ⟨{ st with
          rad := (st.radioApplied req).rad.written st.rad (radioBaselineCovers st.rad req)
            r.outcome }, []⟩
  /-- the marker of a radio request could not be made durable -/
  | markerFailed {st : St} {cl : Client} {req : RadioConfig} {marker : WriteResult}
      (due : RadioDue src st.rad cl req) (failed : ¬ st.MarkerArmed marker) :
      Trans src ⟨st, []⟩ (st.radioTxnArm marker req).1 ⟨st, []⟩
  /-- the platform failed to apply a radio request -/
  | radioFailed {st : St} {cl : Client} {req : RadioConfig} {marker : WriteResult}
      {live : Option RadioConfig} (due : RadioDue src st.rad cl req) (armed : st.MarkerArmed marker) :
      Trans src ⟨st, []⟩ ((st.radioTxnArm marker req).1 ++ [.applyRadio req (.failed live)])
        ⟨{ st with
          rad :=
            if radioCfgDiffers req st.rad.radio then
              st.rad.armRevert st.rad.radio st.rad.committed (radioBaselineCovers st.rad req)
            else st.rad }, []⟩
  /-- the deferred return to the last good radio configuration -/
  | revert {st : St} {res : ApplyResult} (pending : st.rad.revertPending = true) :
      Trans src ⟨st, []⟩ [.applyRadio st.rad.revertCfg res]
        ⟨{ st with rad := st.rad.reverted res }, []⟩
  | worker {st : St} {w : Writer} {r : WriteResult} (hw : st.storeAsync = some w) :
      Trans src ⟨st, []⟩ ((w.workerStep r).2.map .write) ⟨st.setWriter (w.workerStep r).1, []⟩
  | drain {st : St} {w : Writer} (hw : st.storeAsync = some w) (ready : src = none) :
      Trans src ⟨st, []⟩ [] ⟨st.setWriter (w.drain queueDepth).1, (w.drain queueDepth).2⟩
  | complete {st : St} {d : Done} {ds : List Done} {env : ReadyEnv} {i : Nat} (ready : src = none) :
      Trans src ⟨st, d :: ds⟩ (st.complete env i d).out ⟨(st.complete env i d).st, ds⟩

end Opcd
