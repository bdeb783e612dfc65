import Opcd.Handler.Persist

/-!
# Login, Logout and the two queries

`handle_login`, `handle_logout`, `handle_get_basic_info` and `handle_get_device_info` of `handler.c`.
A handler answers with the bytes of its response; no bytes mean that the response comes later, or
never.
-/

namespace Opcd

open Bytes Protocol

/-- `opcd_platform_link_t`, the fields the daemon reads. -/
structure Link where
  freqMhz : BitVec 16
  channel : BitVec 16
  bssid : Buf 6
  snr : Byte
  rssi : Byte
  snrValid : Bool
  rssiValid : Bool
  associated : Bool

/-- The platform's answers to GetDeviceInfo; a lookup that fails answers zeros. `cfg` is the mode
and bandwidth `wifi_init_conf.json` names for a link. -/
structure InfoEnv where
  firmwareVersion : Buf 32
  ntpServer : BitVec 32
  ethMac : Buf 6
  devIpv4 : Nat → BitVec 32 × BitVec 32 × BitVec 32
  wlanMac : Fin 2 → Buf 6
  essid : Buf 32
  link : Fin 2 → Option Link
  cfg : Fin 2 → Byte × Byte

namespace St

/-- The session a Login that passed its checks opens or goes on with. -/
def acceptLogin (st : St) (cl : Client) : St :=
  let wasActive := st.session.loggedIn
  let st :=
    { st with
      session.generation :=
        if wasActive then st.session.generation else st.session.generation + 1
      session.loggedIn := true
      session.holderIp := cl.ip
      session.holderPort := cl.port
      bootStatus := .loggedIn }
  -- a change an earlier session left unarmed and undecided is dropped
  if ¬ wasActive ∧ ¬ st.chg.commitArmed ∧ ¬ st.chg.logoutDeferred then
    { st with chg.pending := false, chg.listNo := 0, chg.commitArmed := false }
  else st

/-- `handle_login`. -/
def handleLogin (st : St) (now : Nat) (frame : Bytes) (cl : Client) : Turn Bytes :=
  let ng (cause : BitVec 16) := st.emitAck (loginAckPack txCap cl.seq resultNg cause)
  match loginReqUnpack frame with
  | none => ng Err.packetSize
  | some req =>
    if st.bootStatus = .booting then ng Err.loginViolation
    else if st.session.loggedIn ∧ st.session.holderIp ≠ cl.ip then ng Err.loginCondition
    else if ¬ req.passwordTerminated then ng Err.pwNul
    else if ¬ validOpcCharset req.password.str then ng Err.loginPwChar
    -- an empty stored password is never a match
    else if st.pw.password.toList.head? = some 0 then ng Err.passwordMismatch
    else if ¬ strncmpEq 127 req.password.toList st.pw.password.toList then ng Err.passwordMismatch
    else
      (((st.acceptLogin cl).sessionTouch now).indInitComplete .loggedIn).bind fun st _ =>
        st.emitAck (loginAckPack txCap cl.seq resultOk Err.none)

/-- The ChangeIp decision of an explicit Logout. -/
def logoutDecision (st : St) : St :=
  if st.chg.pending ∧ ¬ st.chg.commitArmed then
    if st.persistResourceBusy .ipList then { st with chg.logoutDeferred := true }
    else st.armIpChangeFromCommitted
  else st

/-- `handle_logout`. -/
def handleLogout (st : St) (frame : Bytes) (cl : Client) : Turn Bytes :=
  let ng (cause : BitVec 16) := st.emitAck (logoutAckPack txCap cl.seq resultNg cause)
  if ¬ logoutReqUnpack frame then ng Err.packetSize
  else if ¬ st.session.loggedIn then ng Err.loginViolation
  else if ¬ st.sessionOwns cl.ip then ng Err.loginCondition
  else
    st.logoutDecision.sessionLogout.bind fun st _ =>
      st.emitAck (logoutAckPack txCap cl.seq resultOk Err.none)

/-- `pack_basic_info_ack`. -/
def packBasicInfoAck (st : St) (inv : Inventory) (seq : BitVec 16) : Option Bytes :=
  getBasicInfoAckPack txCap seq
    { vendorCode := inv.vendorCode
      productCode := inv.productCode
      productSubcode := inv.productSubcode
      deviceStatus := st.bootStatus.code
      stationType := st.effectiveStationType }

/-- `handle_get_basic_info`. -/
def handleGetBasicInfo (st : St) (now : Nat) (inv : Inventory) (frame : Bytes) (cl : Client) :
    Turn Bytes :=
  if ¬ getBasicInfoReqUnpack frame then
    st.emitAck
      (simpleAckPack txCap Command.getBasicInfo.id cl.seq simpleAckLength resultNg Err.packetSize)
  else
    let st := if st.sessionOwns cl.ip then st.sessionTouch now else st
    st.emitAck (st.packBasicInfoAck inv cl.seq)

/-! ## GetDeviceInfo -/

abbrev wlanUnset16 : BitVec 16 := 0xFFFF

/-- `OPC_WLAN_SIGNAL_INVALID`, -128. -/
abbrev signalInvalid : Byte := 0x80

def wlanStateZero : WlanState :=
  { mac := Buf.zero 6, mode := 0, bandwidth := 0, freqMhz := 0, channel := 0, status := 0, snr := 0
    rssi := 0, connectApMac := Buf.zero 6, scanBand := 0, scanChlist := 0 }

/-- `devinfo_wlan_unassociated`. -/
def devinfoWlanUnassociated (w : WlanState) : WlanState :=
  { w with
    freqMhz := wlanUnset16, channel := wlanUnset16, status := 0, snr := signalInvalid
    rssi := signalInvalid, connectApMac := Buf.zero 6 }

/-- `devinfo_wlan_invalid`. -/
def devinfoWlanInvalid : WlanState :=
  { wlanStateZero with
    mode := 0xFF, bandwidth := 0xFF, freqMhz := wlanUnset16, channel := wlanUnset16
    status := 0xFFFF, snr := signalInvalid, rssi := signalInvalid, scanBand := scanBandUnset }

/-- `devinfo_wlan_cfg`: a received SetRadioConfig wins over the device's own configuration. -/
def devinfoWlanCfg (radio : WlanCfg) (cfg : Byte × Byte) (w : WlanState) : WlanState :=
  if radio.mode ≠ 0 ∧ radio.mode ≠ 0xFF then
    { w with mode := radio.mode, bandwidth := radio.bandwidth }
  else { w with mode := cfg.1, bandwidth := cfg.2 }

/-- `select_devinfo_freq_ch`. -/
def selectDevinfoFreqCh (src : FreqSource) (assoc : Bool) (liveFreq liveCh cfgFreq cfgCh : BitVec 16) :
    BitVec 16 × BitVec 16 :=
  let liveOk := assoc ∧ liveFreq ≠ 0
  let useLive := src = .live ∨ (src = .auto ∧ liveOk)
  if useLive ∧ liveOk then
    let field := chanField liveFreq.toNat liveCh.toNat
    (liveFreq, if field >>> 8 ≠ 0 then field else wlanUnset16)
  else if useLive ∨ cfgFreq = 0 then (wlanUnset16, wlanUnset16)
  else (cfgFreq, cfgCh)

/-- The link a WLAN is associated on. -/
def associatedLink (l : Option Link) : Option Link := l.filter Link.associated

/-- The measured part of a WLAN block. -/
def measuredWlan (mac : Buf 6) (l : Option Link) : WlanState :=
  let w := devinfoWlanUnassociated { wlanStateZero with mac }
  match associatedLink l with
  | none => w
  | some l =>
    { w with
      connectApMac := l.bssid
      snr := if l.snrValid then l.snr else w.snr
      rssi := if l.rssiValid then l.rssi else w.rssi
      status := 1 }

/-- The configured part of a WLAN block over its measured part. -/
def configuredWlan (src : FreqSource) (radio : WlanCfg) (cfg : Byte × Byte) (l : Option Link)
    (w : WlanState) : WlanState :=
  let band := scanBandOrUnset radio.scanBand
  let derived := scanDeriveFreqCh band radio.scanChlist
  let live := associatedLink l
  let sel := selectDevinfoFreqCh src live.isSome ((live.map Link.freqMhz).getD 0)
    ((live.map Link.channel).getD 0) derived.1 derived.2
  devinfoWlanCfg radio cfg
    { w with
      scanBand := band, scanChlist := radio.scanChlist, freqMhz := sel.1, channel := sel.2 }

/-- The zeroed answer with a result and a cause. -/
def deviceInfoAckZero (result cause : BitVec 16) : DeviceInfoAck :=
  { result, errorCause := cause, vendorCode := 0, productCode := 0, productSubcode := 0
    manufacture := ⟨0, 0, 0⟩, shipment := ⟨0, 0, 0⟩, firmwareVersion := Buf.zero 32
    hardwareVersion := Buf.zero 32, serialNumber := Buf.zero 32, ethernetMac := Buf.zero 6
    ipAddress := 0, subnetMask := 0, defaultGateway := 0, ntpServer := 0, essid := Buf.zero 32
    deviceStatus := 0, stationType := 0, priorityCh := 0, ieee11r := 0, ieee11ai := 0
    ieee11k := 0, ieee11v := 0, wlan1 := wlanStateZero, wlan2 := wlanStateZero }

/-- The answer to a GetDeviceInfo that is served. The second WLAN is measured when the configured
station type is Dual, and reported when the effective one is. -/
def deviceInfo (st : St) (inv : Inventory) (env : InfoEnv) : DeviceInfoAck :=
  let addr := env.devIpv4 st.mgmtIpIfaceIdx
  let station := st.effectiveStationType
  let measured2 :=
    if st.rad.radio.stationType = stationDual then measuredWlan (env.wlanMac 1) (env.link 1)
    else wlanStateZero
  let link2 := if st.rad.radio.stationType = stationDual then env.link 1 else none
  { deviceInfoAckZero resultOk Err.none with
    vendorCode := inv.vendorCode
    productCode := inv.productCode
    productSubcode := inv.productSubcode
    manufacture := inv.manufactureDate
    shipment := inv.shipmentDate
    firmwareVersion := env.firmwareVersion
    hardwareVersion := inv.hardwareVersion
    serialNumber := inv.serialNumber
    ethernetMac := env.ethMac
    ipAddress := addr.1
    subnetMask := addr.2.1
    defaultGateway := addr.2.2
    ntpServer := env.ntpServer
    essid := env.essid
    deviceStatus := st.bootStatus.code
    stationType := station
    priorityCh :=
      if station = stationDual ∧ st.rad.radio.priorityCh ≠ 0 then st.rad.radio.priorityCh
      else wlanUnset16
    ieee11r := inv.ieee11r
    ieee11ai := inv.ieee11ai
    ieee11k := inv.ieee11k
    ieee11v := inv.ieee11v
    wlan1 := configuredWlan st.conf.deviceInfoFreqSource st.rad.radio.wlan1 (env.cfg 0)
      (env.link 0) (measuredWlan (env.wlanMac 0) (env.link 0))
    wlan2 :=
      if station = stationDual then
        configuredWlan st.conf.deviceInfoFreqSource st.rad.radio.wlan2 (env.cfg 1) link2 measured2
      else devinfoWlanInvalid }

/-- `handle_get_device_info`. -/
def handleGetDeviceInfo (st : St) (now : Nat) (inv : Inventory) (env : InfoEnv) (frame : Bytes)
    (cl : Client) : Turn Bytes :=
  let answer (st : St) (a : DeviceInfoAck) : Turn Bytes :=
    ⟨st, [.snapshot a], (getDeviceInfoAckPack txCap cl.seq a).getD []⟩
  if ¬ getDeviceInfoReqUnpack frame then answer st (deviceInfoAckZero resultNg Err.packetSize)
  else
    match st.checkLoginRequired now cl.ip with
    | .error cause => answer st (deviceInfoAckZero resultNg cause)
    | .ok st =>
      if st.ind.enabled then
        answer st (deviceInfoAckZero resultNg Err.indicationSettingViolation)
      else
        let st := st.sessionTouch now
        answer st (st.deviceInfo inv env)

end St

end Opcd
