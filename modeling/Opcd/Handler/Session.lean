import Opcd.State

/-!
# The session and its notices

The session helpers of `handler.c` and the senders of `indication.c` that the handlers call: an
indication takes the next sequence number whenever its bit is set, and goes out only while
notifications are enabled and a recipient is known.
-/

namespace Opcd

open Bytes Protocol

/-- The size of the buffer responses and indications are packed into. -/
def txCap : Nat := frameMax

def cmdIndication : Byte := 3

/-- `OPC_IND_BIT_*`. -/
abbrev indBitInitComplete : Byte := 0x01
abbrev indBitResetNotice : Byte := 0x20

/-- `OPC_INIT_STATE_*`. -/
inductive InitState
  | ready | radioUp | loggedIn | loggedOut
  deriving DecidableEq, Repr

def InitState.code : InitState → BitVec 32
  | ready => 1
  | radioUp => 2
  | loggedIn => 3
  | loggedOut => 4

def indInitCompletePack (seq : BitVec 16) (status : BitVec 32) : Option Bytes :=
  frameBuild txCap cmdIndication 0x0001 seq 60 (be32Write status)

def indResetNoticePack (seq : BitVec 16) (cause : BitVec 32) : Option Bytes :=
  frameBuild txCap cmdIndication 0x0020 seq 60 (be32Write cause)

namespace St

/-- `send_indication_frame`. -/
def sendIndicationFrame (st : St) (frame : Option Bytes) : List Effect :=
  match frame with
  | none => []
  | some f =>
    if ¬ st.ind.enabled then []
    else if st.ind.recipientIp = 0 ∨ st.ind.recipientPort = 0 then []
    else [.indicate st.ind.recipientIp st.ind.recipientPort f]

/-- The state after `next_seq`. -/
def nextSeq (st : St) : St := { st with ind.seq := st.ind.seq + 1 }

/-- `opcd_ind_init_complete`. -/
def indInitComplete (st : St) (s : InitState) : Turn Unit :=
  if st.ind.infoBits &&& indBitInitComplete = 0 then st.done ()
  else ⟨st.nextSeq, st.sendIndicationFrame (indInitCompletePack st.ind.seq s.code), ()⟩

/-- `opcd_ind_reset_notice`. -/
def indResetNotice (st : St) (cause : BitVec 32) : Turn Unit :=
  if st.ind.infoBits &&& indBitResetNotice = 0 then st.done ()
  else ⟨st.nextSeq, st.sendIndicationFrame (indResetNoticePack st.ind.seq cause), ()⟩

/-- `opcd_ind_radio_up`. -/
def indRadioUp (st : St) : Turn Unit :=
  if ¬ st.ind.enabled ∨ st.ind.radioUpReported then st.done ()
  else { st with ind.radioUpReported := true }.indInitComplete .radioUp

/-- `opcd_ind_coalesce_reset`. -/
def indCoalesceReset (st : St) : St :=
  { st with
    ind.coalesce := fun _ => Coalesce.zero
    ind.faultProbe := st.ind.faultProbe.resetLatch }

/-- `session_touch` at time `now`. -/
def sessionTouch (st : St) (now : Nat) : St :=
  { st with session.idleDeadline := now + st.conf.loginIdleS }

/-- `session_owns`. -/
def sessionOwns (st : St) (ip : BitVec 32) : Bool :=
  st.session.loggedIn ∧ st.session.holderIp = ip

/-- `effective_station_type`. -/
def effectiveStationType (st : St) : BitVec 16 :=
  if st.rad.radio.stationType ≠ 0 then st.rad.radio.stationType else st.conf.defaultStationType

/-- `check_login_required`: the cause of refusal, or the state with its idle timer restarted. -/
def checkLoginRequired (st : St) (now : Nat) (ip : BitVec 32) : Except (BitVec 16) St :=
  if ¬ st.session.loggedIn then .error Err.loginViolation
  else if ¬ st.sessionOwns ip then .error Err.loginCondition
  else .ok (st.sessionTouch now)

/-- `mgmt_ip_iface_idx`. -/
def mgmtIpIfaceIdx (st : St) : Nat :=
  match st.conf.managementTopology, st.conf.deviceIpIface with
  | .peerRoute, _ => 1
  | .eth0Ip, .mlan0 => 1
  | .eth0Ip, .eth0 => 0

/-- The fields `opcd_session_logout` resets. -/
def endSession (st : St) : St :=
  { st with
    session.generation := st.session.generation + 1
    session.loggedIn := false
    bootStatus := .ready
    ipl.stagingActive := false
    ipl.staging := IpList.empty }

/-- `opcd_session_logout`. -/
def sessionLogout (st : St) : Turn Unit :=
  (st.indInitComplete .loggedOut).bind fun st _ => st.endSession.done ()

end St

end Opcd
