import Opcd.Handler.Settings

/-!
# Dispatch

`opcd_dispatch` and what the main loop calls around it: the intake of a datagram, the notice after a
Reset, the rejection of a bad length, and the apply of an armed IP change.
-/

namespace Opcd

open Bytes Protocol

/-- `opcd_dispatch_table`, in its order. -/
def dispatchTable : List Command :=
  [.login, .logout, .getBasicInfo, .getDeviceInfo, .setPassword, .setIpConfigList,
    .changeIpAddress, .setRadioConfig, .setIndicationConfig, .reset]

namespace St

/-- The handler of a command. -/
def handle (st : St) (env : Env) (frame : Bytes) (cl : Client) : Command → Turn Bytes
  | .login => st.handleLogin env.now frame cl
  | .logout => st.handleLogout frame cl
  | .getBasicInfo => st.handleGetBasicInfo env.now env.inventory frame cl
  | .getDeviceInfo => st.handleGetDeviceInfo env.now env.inventory env.info frame cl
  | .setPassword => st.handleSetPassword env frame cl
  | .setIpConfigList => st.handleSetIpConfigList env frame cl
  | .changeIpAddress => st.handleChangeIpAddress env frame cl
  | .setRadioConfig => st.handleSetRadioConfig env frame cl
  | .setIndicationConfig => st.handleSetIndicationConfig env frame cl
  | .reset => st.handleReset env frame cl

/-- The idle check, made before a request is served and by the one-second timer. -/
def idleCheck (st : St) (now : Nat) : Turn Unit :=
  if st.session.loggedIn ∧ st.session.idleDeadline ≤ now then st.sessionLogout else st.done ()

/-- `opcd_dispatch`: the return code and the response. -/
def dispatch (st : St) (env : Env) (frame : Bytes) (ip : BitVec 32) (port : BitVec 16) :
    Turn (Int × Bytes) :=
  match frameParse frame with
  | none => st.done (-1, [])
  | some (h, _) =>
    if h.commandType ≠ cmdRequest then st.done (-1, [])
    else
      (st.idleCheck env.now).bind fun st _ =>
      match dispatchTable.find? fun c => c.id = h.reqIndicationId with
      | none => st.done (-1, [])
      | some c =>
        (st.handle env frame ⟨ip, port, h.sequenceNumber⟩ c).bind fun st resp => st.done (0, resp)

/-- `OPC_RESET_CAUSE_USER`. -/
def resetCauseUser : BitVec 32 := 1

/-- `opcd_post_ack`. -/
def postAck (st : St) : Turn Unit :=
  if st.shouldReset ∧ ¬ st.resetNoticeSent then
    { st with resetNoticeSent := true }.indResetNotice resetCauseUser
  else st.done ()

/-- `opcd_intake_frame_len` of the bytes received, cut to the buffer; 0 is a bad length. -/
def intakeFrameLen (buf : Bytes) : Nat :=
  match fixedHeaderUnpack buf with
  | none => 0
  | some h =>
    let want := fixedHeaderSize + h.length.toNat
    if (want = fixedHeaderSize ∨ (headerSize ≤ want ∧ want ≤ frameMax)) ∧ want ≤ buf.length then
      want
    else 0

/-- `opcd_reject_bad_length`. -/
def rejectBadLength (st : St) (buf : Bytes) (ip : BitVec 32) (port : BitVec 16) : List Effect :=
  if ¬ st.sessionOwns ip then []
  else
    match fixedHeaderUnpack buf with
    | none => []
    | some h =>
      let packed :=
        if h.commandType = cmdRequest ∧ h.reqIndicationId = Command.getDeviceInfo.id then
          getDeviceInfoAckPack txCap h.sequenceNumber
            (deviceInfoAckZero resultNg Err.packetSize)
        else
          simpleAckPack txCap h.reqIndicationId h.sequenceNumber simpleAckLength resultNg
            Err.packetSize
      match packed with
      | none => []
      | some f => [.send ip port f]

/-- End the session, if somebody holds it. -/
def endHeldSession (st : St) : Turn Unit :=
  if st.session.loggedIn then st.sessionLogout else st.done ()

/-- The change record is cleared after its apply. -/
def clearIpChange (st : St) : St :=
  { st with
    chg.pending := false
    chg.commitArmed := false
    chg.listNo := 0
    chg.armedNo := 0
    chg.armedEntry := Entry.zero }

/-- `opcd_apply_pending_ip_change`. -/
def applyPendingIpChange (st : St) (ok : Bool) : Turn Unit :=
  if ¬ st.chg.commitArmed then st.done ()
  else
    let e := st.chg.armedEntry
    (⟨st, [.applyIpChange e st.mgmtIpIfaceIdx st.chg.armedNo ok], ()⟩ : Turn Unit).bind fun st _ =>
    if ¬ ok then st.clearIpChange.done ()
    else
      -- the notification target is gone with the address, and so is a session held there
      (endHeldSession { st with ind.enabled := false }).bind fun st _ =>
      ⟨st.clearIpChange, if st.conf.managementTopology = Topology.peerRoute then
          [.peerRouteRefresh e.ipAddress e.subnetMask] else [], ()⟩

end St

end Opcd
