import Opcd.Handler.Login

/-!
# The settings

`handle_set_password`, `handle_set_ip_config_list`, `handle_change_ip_address`,
`handle_set_radio_config`, `handle_set_indication_config` and `handle_reset` of `handler.c`.
-/

namespace Opcd

open Bytes Protocol Store

/-- What `validate_radio_config` may answer. Any other code aborts the daemon. -/
inductive RadioCapability
  | ok | mode | bandwidth
  deriving DecidableEq, Repr

/-- The answers of the environment during one dispatched datagram. -/
structure Env where
  /-- the monotonic clock, which stands still during a dispatch -/
  now : Nat
  inventory : Inventory
  info : InfoEnv
  /-- while completions are reconciled before a second admission attempt -/
  ready : ReadyEnv
  /-- the handler's own synchronous write -/
  write : WriteResult
  /-- the synchronous copy of a published IP list -/
  mirror : MirrorEnv
  validateRadio : RadioCapability
  /-- the write of the radio marker -/
  marker : WriteResult
  applyRadio : ApplyResult
  /-- the removal of the radio marker -/
  unlink : Bool
  /-- address and mask of the interface the management address is not on -/
  otherIpv4 : Option (BitVec 32 × BitVec 32)
  /-- the mask of the direct route to a notification recipient -/
  directRoute : Option (BitVec 32)
  /-- the polled link of WLAN#1 -/
  link : Option Link

namespace St

/-! ## SetPassword -/

/-- `password_resend_of_unsynced`. -/
def passwordResendOfUnsynced (st : St) (req : SetPasswordReq) : Bool :=
  st.pw.unsynced ∧ strncmpEq 127 req.oldPassword.toList st.pw.unsyncedPrev.toList ∧
    strncmpEq 127 req.newPassword.toList st.pw.password.toList

/-- The checks of a SetPassword on an idle resource. -/
def setPasswordError (st : St) (req : SetPasswordReq) : Option (BitVec 16) :=
  if ¬ req.oldPasswordTerminated then some Err.pwNul
  else if ¬ req.newPasswordTerminated then some Err.newPwNul
  else if ¬ validOpcCharset req.oldPassword.str then some Err.oldPwChar
  else if strnlen req.newPassword.toList 127 = 0 ∨ ¬ validOpcCharset req.newPassword.str then
    some Err.newPwChar
  else if ¬ strncmpEq 127 req.oldPassword.toList st.pw.password.toList ∧
      ¬ st.passwordResendOfUnsynced req then some Err.passwordMismatch
  else none

/-- A SetPassword that passed its checks and was admitted. -/
def commitPassword (st : St) (env : Env) (req : SetPasswordReq) (cl : Client)
    (reservation : Option Slot) : Turn Bytes :=
  let len := strnlen req.newPassword.toList 127
  let candidate := Buf.ofBytes 128 (req.newPassword.toList.take len)
  (st.persistPassword env.write candidate len cl reservation).bind fun st p =>
    let st := st.sessionTouch env.now
    if p.deferred then { st with pw.pending := candidate }.done []
    else
      { st with pw := st.pw.publish candidate p.outcome }.emitAck
        (if p.ok then setPasswordAckPack txCap cl.seq resultOk Err.none
          else setPasswordAckPack txCap cl.seq resultNg Err.nvram)

/-- `handle_set_password`. -/
def handleSetPassword (st : St) (env : Env) (frame : Bytes) (cl : Client) : Turn Bytes :=
  let ng (st : St) (cause : BitVec 16) := st.emitAck (setPasswordAckPack txCap cl.seq resultNg cause)
  match setPasswordReqUnpack frame with
  | none => ng st Err.packetSize
  | some req =>
    match st.checkLoginRequired env.now cl.ip with
    | .error cause => ng st cause
    | .ok st =>
      if st.persistResourceBusy .password then (st.sessionTouch env.now).done []
      else
        match st.setPasswordError req with
        | some cause => ng st cause
        | none =>
          (st.persistAdmit env.ready .password st.paths.password
            (strnlen req.newPassword.toList 127)).bind fun st a =>
          match a with
          | .unaccepted => (st.sessionTouch env.now).done []
          | .failed => ng st Err.nvram
          | .admitted reservation => st.commitPassword env req cl reservation

/-! ## SetIpConfigList -/

/-- The lists the entries of a request are folded into: what would be committed, the open cycle,
and whether a cycle was closed. -/
structure Fold where
  candidate : IpList
  staging : IpList
  active : Bool
  committed : Bool

end St

/-- The slot of a list number in range. -/
def slotIdx? (n : BitVec 16) : Option SlotIdx :=
  if h : 1 ≤ n.toNat ∧ n.toNat ≤ maxSlots then some ⟨n.toNat - 1, by omega⟩ else none

namespace IpList

/-- Overwrite a slot. -/
def setSlot (l : IpList) (i : SlotIdx) (e : Entry) : IpList :=
  ⟨Function.update l.slots i e, Function.update l.present i true⟩

/-- Zero a slot. -/
def clearSlot (l : IpList) (i : SlotIdx) : IpList :=
  ⟨Function.update l.slots i Entry.zero, Function.update l.present i false⟩

end IpList

namespace St

/-- Whether an entry opens a cycle. -/
def opens (flag : BitVec 16) : Bool := flag = Boundary.start ∨ flag = Boundary.startEnd

/-- Whether an entry closes a cycle. -/
def closes (flag : BitVec 16) : Bool := flag = Boundary.fin ∨ flag = Boundary.startEnd

/-- One turn of the loop over the entries, or the cause it stops with. -/
def foldEntry (f : Fold) (e : Entry) (essidTerminated : Bool) : Except (BitVec 16) Fold :=
  match slotIdx? e.listNumber with
  | none => .error Err.slotRange
  | some slot =>
    -- an address of 0.0.0.0 empties the slot, its other fields unchecked
    let clearing := decide (e.ipAddress = 0)
    let verr := if clearing then 0 else ipcfgEntryError e essidTerminated
    if verr ≠ 0 then .error verr
    else if ¬ opens e.boundaryFlag ∧ ¬ f.active then .error Err.listSequence
    else
      let seed := if opens e.boundaryFlag then f.candidate else f.staging
      let staging := if clearing then seed.clearSlot slot else seed.setSlot slot e
      if closes e.boundaryFlag then
        .ok { candidate := staging, staging := IpList.empty, active := false, committed := true }
      else .ok { f with staging, active := true }

/-- The loop over the entries: how far it came, and the cause it stopped with. -/
def foldEntries (f : Fold) : List (Entry × Bool) → Fold × Option (BitVec 16)
  | [] => (f, none)
  | (e, term) :: es =>
    match foldEntry f e term with
    | .error cause => (f, some cause)
    | .ok f => foldEntries f es

/-- The result and cause of a SetIpConfigList: that of its entries, or of its write. -/
def ipListAck (err : Option (BitVec 16)) (persisted : Bool) : BitVec 16 × BitVec 16 :=
  match err with
  | some cause => (resultNg, cause)
  | none => if persisted then (resultOk, Err.none) else (resultNg, Err.nvram)

/-- The write of a request that closed a cycle. -/
def commitIpList (st : St) (env : Env) (f : Fold) (err : Option (BitVec 16)) (cl : Client)
    (reservation : Option Slot) : Turn Bytes :=
  (st.persistIpList env.write f.candidate err.isSome cl reservation).bind fun st p =>
    let ack := setIpConfigListAckPack txCap cl.seq (ipListAck err p.ok).1 (ipListAck err p.ok).2
    if p.deferred then
      let st :=
        { st with
          ipl.pending := f.candidate
          ipl.pendingStaging := f.staging
          ipl.pendingStagingActive := f.active
          ipl.pendingGeneration := st.session.generation }
      if err.isSome then st.emitAck ack else st.done []
    else if p.outcome ≠ .unchanged then
      ({ st with
        ipl.list := f.candidate
        ipl.staging := f.staging
        ipl.stagingActive := f.active }.iplistMirrorUser env.mirror).bind fun st _ => st.emitAck ack
    else st.emitAck ack

/-- The lists a request's entries lead to from the state, and the cause they stop with. -/
def folded (st : St) (es : List (Entry × Bool)) : Fold × Option (BitVec 16) :=
  foldEntries ⟨st.ipl.list, st.ipl.staging, st.ipl.stagingActive, false⟩ es

/-- A SetIpConfigList that was admitted. -/
def applyEntries (st : St) (env : Env) (es : List (Entry × Bool)) (cl : Client)
    (reservation : Option Slot) : Turn Bytes :=
  let r := st.folded es
  let st := st.sessionTouch env.now
  if r.1.committed then st.commitIpList env r.1 r.2 cl reservation
  else
    ({ st with ipl.staging := r.1.staging, ipl.stagingActive := r.1.active }.cancelReservation
      reservation).emitAck
      (setIpConfigListAckPack txCap cl.seq (ipListAck r.2 true).1 (ipListAck r.2 true).2)

/-- `handle_set_ip_config_list`. -/
def handleSetIpConfigList (st : St) (env : Env) (frame : Bytes) (cl : Client) : Turn Bytes :=
  let ng (st : St) (cause : BitVec 16) :=
    st.emitAck (setIpConfigListAckPack txCap cl.seq resultNg cause)
  match setIpConfigListReqUnpack frame with
  | .error .listSize => ng st Err.ipcfgListSize
  | .error .malformed => ng st Err.packetSize
  | .ok es =>
    match st.checkLoginRequired env.now cl.ip with
    | .error cause => ng st cause
    | .ok st =>
      if st.isRequestRetransmission Command.setIpConfigList.id cl.ip cl.port then
        (st.sessionTouch env.now).done []
      else
        (st.persistAdmit env.ready .ipList st.paths.ipList IpList.textMax).bind fun st a =>
        match a with
        | .unaccepted => (st.sessionTouch env.now).done []
        | .failed => ng st Err.nvram
        | .admitted reservation => st.applyEntries env es cl reservation

/-! ## ChangeIpAddress -/

/-- `ipcfg_clashes_other_iface`. -/
def ipcfgClashesOtherIface (other : Option (BitVec 32 × BitVec 32)) (e : Entry) : Bool :=
  match other with
  | none => false
  | some (oip, omask) =>
    if oip = 0 ∨ omask = 0 ∨ omask = 0xFFFFFFFF then false
    else (e.ipAddress ^^^ oip) &&& e.subnetMask &&& omask = 0

/-- The checks of a ChangeIpAddress. -/
def changeIpError (st : St) (other : Option (BitVec 32 × BitVec 32)) (n : BitVec 16) :
    Option (BitVec 16) :=
  if st.chg.commitArmed ∨ st.chg.logoutDeferred then some Err.ipChangeConflict
  else if st.ipl.stagingActive then some Err.ipChangeConflict
  else
    match slotIdx? n with
    | none => some Err.slotRange
    | some i =>
      if ¬ st.ipl.list.present i then some Err.slotEmpty
      else if ipcfgClashesOtherIface other (st.ipl.list.slots i) then some Err.ipChangeClash
      else none

/-- `handle_change_ip_address`. -/
def handleChangeIpAddress (st : St) (env : Env) (frame : Bytes) (cl : Client) : Turn Bytes :=
  let ng (st : St) (cause : BitVec 16) :=
    st.emitAck (changeIpAddressAckPack txCap cl.seq resultNg cause)
  match changeIpAddressReqUnpack frame with
  | none => ng st Err.packetSize
  | some n =>
    match st.checkLoginRequired env.now cl.ip with
    | .error cause => ng st cause
    | .ok st =>
      match st.changeIpError env.otherIpv4 n with
      | some cause => ng st cause
      | none =>
        ({ st with chg.pending := true, chg.listNo := n }.sessionTouch env.now).emitAck
          (changeIpAddressAckPack txCap cl.seq resultOk Err.none)

/-! ## SetRadioConfig -/

/-- The value checks of a SetRadioConfig, in the source's order. Two stations are refused first, so
the checks of the second link are never reached. -/
def setRadioError (env : Env) (req : RadioConfig) : Option (BitVec 16) :=
  let dual := decide (req.stationType = stationDual)
  let prio := if dual then checkPriorityCh req.priorityCh else .ok
  if req.stationType ≠ stationSingle then some Err.stationType
  else if ¬ validWlanMode req.wlan1.mode then some Err.radioMode
  else if ¬ validWlanBw req.wlan1.bandwidth then some Err.radioBw
  else if dual ∧ ¬ validWlanMode req.wlan2.mode then some Err.radioMode
  else if dual ∧ ¬ validWlanBw req.wlan2.bandwidth then some Err.radioBw
  else if ¬ validScanBand req.wlan1.scanBand ∨ (dual ∧ ¬ validScanBand req.wlan2.scanBand) then
    some Err.radioFreq
  else if ¬ scanListValid req.wlan1.scanBand req.wlan1.scanChlist ∨
      (dual ∧ ¬ scanListValid req.wlan2.scanBand req.wlan2.scanChlist) then some Err.radioScanCh
  else
    match prio with
    | .badBand => some Err.radioPrioBand
    | .badCh => some Err.radioPrioCh
    | .ok =>
      match env.validateRadio with
      | .mode => some Err.radioMode
      | .bandwidth => some Err.radioBw
      | .ok => none

/-- `radio_txn_arm`: the marker write, and whether an apply may follow. -/
def radioTxnArm (st : St) (marker : WriteResult) (req : RadioConfig) : List Effect × Bool :=
  match st.paths.radioMarker with
  | none => ([], true)
  | some m => ([.write ⟨m, rawRadio req, 0o644, marker⟩], marker.rc = 0)

/-- The state once a request is applied, before its write. -/
def radioApplied (st : St) (req : RadioConfig) : St :=
  { st with
    rad.radio := req
    rad.appliedKnown := true
    rad.recovery := .healthy
    rad.gen := st.rad.gen + 1
    rad.committed := false }

/-- The acknowledgement slot of a queued radio write gets the generation of its apply. -/
def stampRadio (st : St) (cl : Client) : AckIdx → PendingAck :=
  match st.pendingSlotFor Command.setRadioConfig.id cl.ip cl.port with
  | none => st.acks
  | some i => Function.update st.acks i { st.acks i with radioGen := st.rad.gen }

/-- The write of a request that was applied over `base`. -/
def commitRadio (st : St) (env : Env) (base : RadioState) (baselineValid : Bool) (cl : Client)
    (reservation : Option Slot) : Turn Bytes :=
  (st.persistRadio env.write cl reservation).bind fun st p =>
    if ¬ p.ok then
      let st :=
        if p.outcome = .unchanged then
          { st with rad := st.rad.armRevert base.radio base.committed baselineValid }
        else st
      (st.sessionTouch env.now).emitAck (setRadioConfigAckPack txCap cl.seq resultNg Err.nvram)
    else if p.deferred then
      ({ st with
        acks := st.stampRadio cl
        rad.revertCfg := base.radio
        rad.revertCommitted := base.committed
        rad.persistBaselineValid := baselineValid }.sessionTouch env.now).done []
    else
      ⟨{ st with rad.committed := true }.sessionTouch env.now, st.radioTxnClear env.unlink,
        (setRadioConfigAckPack txCap cl.seq resultOk Err.none).getD []⟩

/-- A SetRadioConfig that was admitted: marker, apply, write. -/
def applyRadio (st : St) (env : Env) (req : RadioConfig) (cl : Client)
    (reservation : Option Slot) : Turn Bytes :=
  let ng (st : St) (cause : BitVec 16) :=
    (st.sessionTouch env.now).emitAck (setRadioConfigAckPack txCap cl.seq resultNg cause)
  let baselineValid := radioBaselineCovers st.rad req
  let arm := st.radioTxnArm env.marker req
  if ¬ arm.2 then
    (⟨st.cancelReservation reservation, arm.1, ()⟩ : Turn Unit).bind fun st _ => ng st Err.nvram
  else
    (⟨st, arm.1 ++ [.applyRadio req env.applyRadio], ()⟩ : Turn Unit).bind fun st _ =>
    match env.applyRadio with
    | .failed _ =>
      let st := st.cancelReservation reservation
      let st :=
        if radioCfgDiffers req st.rad.radio then
          { st with rad := st.rad.armRevert st.rad.radio st.rad.committed baselineValid }
        else st
      ng st Err.radioApply
    | .ok => (st.radioApplied req).commitRadio env st.rad baselineValid cl reservation

/-- `handle_set_radio_config`. -/
def handleSetRadioConfig (st : St) (env : Env) (frame : Bytes) (cl : Client) : Turn Bytes :=
  let ng (st : St) (cause : BitVec 16) :=
    st.emitAck (setRadioConfigAckPack txCap cl.seq resultNg cause)
  match setRadioConfigReqUnpack frame with
  | none => ng st Err.packetSize
  | some req =>
    match st.checkLoginRequired env.now cl.ip with
    | .error cause => ng st cause
    | .ok st =>
      if st.persistResourceBusy .radio then (st.sessionTouch env.now).done []
      else
        match setRadioError env req with
        | some cause => ng st cause
        | none =>
          if st.rad.committed ∧ ¬ radioCfgDiffers req st.rad.radio then
            (st.sessionTouch env.now).emitAck
              (setRadioConfigAckPack txCap cl.seq resultOk Err.none)
          else
            (st.persistAdmit env.ready .radio st.paths.radio radioConfLen).bind fun st a =>
            match a with
            | .unaccepted => (st.sessionTouch env.now).done []
            | .failed => ng st Err.nvram
            | .admitted reservation => st.applyRadio env req cl reservation

/-! ## SetIndicationConfig and Reset -/

/-- `indication_recipient_reachable`. -/
def indicationRecipientReachable (env : Env) (ip : BitVec 32) : Bool :=
  if ip >>> 24 = 127 then true
  else
    match env.directRoute with
    | none => false
    | some mask => ¬ (mask < 0xFFFFFFFE ∧ ip = ip ||| ~~~mask)

/-- `OPCD_ASSOC_LATCH_TTL_S`. -/
def assocLatchTtlS : Nat := 5

/-- Whether WLAN#1 counts as associated now: the event latch while it is fresh, else the poll. -/
def associatedNow (st : St) (env : Env) : Bool :=
  if st.ind.wlan0AssocKnown ∧ env.now - st.ind.wlan0AssocAt ≤ assocLatchTtlS then st.ind.wlan0Assoc
  else (associatedLink env.link).isSome

/-- The indication settings of a request. -/
def setIndication (st : St) (req : SetIndicationConfigReq) : St :=
  indCoalesceReset
    { st with
      ind.enabled := decide (req.infoBits ≠ 0)
      ind.recipientIp := req.recipientIp
      ind.recipientPort := req.recipientPort
      ind.infoBits := req.infoBits
      ind.periodS := req.periodSeconds
      ind.tickCounter := 0
      ind.radioUpReported := false }

/-- The state sequence a new recipient is told. -/
def announceState (st : St) (env : Env) : Turn Unit :=
  if ¬ st.ind.enabled then st.done ()
  else
    (st.indInitComplete .ready).bind fun st _ =>
    (if st.associatedNow env then st.indRadioUp else st.done ()).bind fun st _ =>
    if st.session.loggedIn then st.indInitComplete .loggedIn else st.done ()

/-- `handle_set_indication_config`. -/
def handleSetIndicationConfig (st : St) (env : Env) (frame : Bytes) (cl : Client) : Turn Bytes :=
  let ng (st : St) (cause : BitVec 16) :=
    st.emitAck (setIndicationConfigAckPack txCap cl.seq resultNg cause)
  match setIndicationConfigReqUnpack frame with
  | none => ng st Err.packetSize
  | some req =>
    match st.checkLoginRequired env.now cl.ip with
    | .error cause => ng st cause
    | .ok st =>
      if req.infoBits &&& 0x40 ≠ 0 then ng st Err.indBits
      else if req.infoBits ≠ 0 ∧ (¬ validUnicastIpv4 req.recipientIp ∨
          ¬ indicationRecipientReachable env req.recipientIp) then ng st Err.indRecipientIp
      else
        (((st.setIndication req).sessionTouch env.now).announceState env).bind fun st _ =>
          st.emitAck (setIndicationConfigAckPack txCap cl.seq resultOk Err.none)

/-- `handle_reset`. -/
def handleReset (st : St) (env : Env) (frame : Bytes) (cl : Client) : Turn Bytes :=
  let ng (st : St) (cause : BitVec 16) := st.emitAck (resetAckPack txCap cl.seq resultNg cause)
  if ¬ resetReqUnpack frame then ng st Err.packetSize
  else
    match st.checkLoginRequired env.now cl.ip with
    | .error cause => ng st cause
    | .ok st =>
      { st with shouldReset := true }.emitAck (resetAckPack txCap cl.seq resultOk Err.none)

end St

end Opcd
