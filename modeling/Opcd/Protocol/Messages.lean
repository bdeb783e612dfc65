import Opcd.Protocol.Commands

/-!
# The client's side of the commands

The request packers and the acknowledgement unpackers of `commands.c`, which the daemon does not call but
shares with its clients, and the indications of `indications.c`.
-/

namespace Opcd.Protocol

open Bytes

/-! ## Requests -/

/-- `opc_empty_frame_build`. -/
def emptyFrameBuild (cap : Nat) (cmd : Byte) (req seq : BitVec 16) : Option Bytes :=
  if cap < fixedHeaderSize then none
  else some (fixedHeaderPack ⟨protocolVersion, cmd, req, seq, 0⟩)

/-- `empty_req_pack`, which does not look at the Length it is given. -/
def emptyReqPack (cap : Nat) (req seq : BitVec 16) : Option Bytes :=
  emptyFrameBuild cap cmdRequest req seq

def logoutReqPack (cap : Nat) (seq : BitVec 16) : Option Bytes := emptyReqPack cap Command.logout.id seq

def getBasicInfoReqPack (cap : Nat) (seq : BitVec 16) : Option Bytes :=
  emptyReqPack cap Command.getBasicInfo.id seq

def getDeviceInfoReqPack (cap : Nat) (seq : BitVec 16) : Option Bytes :=
  emptyReqPack cap Command.getDeviceInfo.id seq

def resetReqPack (cap : Nat) (seq : BitVec 16) : Option Bytes := emptyReqPack cap Command.reset.id seq

def loginReqPack (cap : Nat) (seq : BitVec 16) (r : LoginReq) : Option Bytes :=
  frameBuild cap cmdRequest Command.login.id seq 184 (copyWithNullPad 128 r.password.toList)

def setPasswordReqPack (cap : Nat) (seq : BitVec 16) (r : SetPasswordReq) : Option Bytes :=
  frameBuild cap cmdRequest Command.setPassword.id seq 312
    (copyWithNullPad 128 r.oldPassword.toList ++ copyWithNullPad 128 r.newPassword.toList)

/-- `pack_ipcfg_entry`. -/
def packIpcfgEntry (e : Entry) : Bytes :=
  be16Write e.boundaryFlag ++ be16Write e.listNumber ++ be32Write e.ipAddress ++
    be32Write e.subnetMask ++ be32Write e.defaultGateway ++ be32Write e.ntpServer ++
    copyWithNullPad 32 e.essid.toList ++ List.replicate 12 0

/-- `opc_set_ip_config_list_req_pack`, which does not look at `essid_terminated_mask`. -/
def setIpConfigListReqPack (cap : Nat) (seq : BitVec 16) (es : List (Entry × Bool)) : Option Bytes :=
  if es.length < 1 ∨ es.length > ipcfgListMaxPerReq then none
  else
    frameBuild cap cmdRequest Command.setIpConfigList.id seq
      (BitVec.ofNat 16 (56 + es.length * ipcfgEntryLen)) (es.flatMap fun e => packIpcfgEntry e.1)

def changeIpAddressReqPack (cap : Nat) (seq n : BitVec 16) : Option Bytes :=
  frameBuild cap cmdRequest Command.changeIpAddress.id seq 60 ([0, 0] ++ be16Write n)

def packWlanCfg (w : WlanCfg) : Bytes :=
  [w.mode, w.bandwidth] ++ be16Write w.scanBand ++ packChlist w.scanChlist

def setRadioConfigReqPack (cap : Nat) (seq : BitVec 16) (r : RadioConfig) : Option Bytes :=
  frameBuild cap cmdRequest Command.setRadioConfig.id seq 84
    (be16Write r.stationType ++ be16Write r.priorityCh ++ packWlanCfg r.wlan1 ++ packWlanCfg r.wlan2)

def setIndicationConfigReqPack (cap : Nat) (seq : BitVec 16) (r : SetIndicationConfigReq) :
    Option Bytes :=
  frameBuild cap cmdRequest Command.setIndicationConfig.id seq 64
    (be16Write r.recipientPort ++ [r.infoBits, r.periodSeconds] ++ be32Write r.recipientIp)

/-! ## Acknowledgements -/

def loginAckUnpack (frame : Bytes) : Option (BitVec 16 × BitVec 16) :=
  simpleAckUnpack frame Command.login.id

def logoutAckUnpack (frame : Bytes) : Option (BitVec 16 × BitVec 16) :=
  simpleAckUnpack frame Command.logout.id

def setPasswordAckUnpack (frame : Bytes) : Option (BitVec 16 × BitVec 16) :=
  simpleAckUnpack frame Command.setPassword.id

def setIpConfigListAckUnpack (frame : Bytes) : Option (BitVec 16 × BitVec 16) :=
  simpleAckUnpack frame Command.setIpConfigList.id

def changeIpAddressAckUnpack (frame : Bytes) : Option (BitVec 16 × BitVec 16) :=
  simpleAckUnpack frame Command.changeIpAddress.id

def setRadioConfigAckUnpack (frame : Bytes) : Option (BitVec 16 × BitVec 16) :=
  simpleAckUnpack frame Command.setRadioConfig.id

def setIndicationConfigAckUnpack (frame : Bytes) : Option (BitVec 16 × BitVec 16) :=
  simpleAckUnpack frame Command.setIndicationConfig.id

def resetAckUnpack (frame : Bytes) : Option (BitVec 16 × BitVec 16) :=
  simpleAckUnpack frame Command.reset.id

/-- The body of a frame of this type and id with at least `n` bytes of body. -/
def frameBody (cmd : Byte) (id : BitVec 16) (n : Nat) (frame : Bytes) : Option Bytes :=
  match frameParse frame with
  | none => none
  | some (h, body) =>
    if h.commandType ≠ cmd then none
    else if h.reqIndicationId ≠ id then none
    else if body.length < n then none
    else some body

def getBasicInfoAckUnpack (frame : Bytes) : Option BasicInfoAck :=
  (frameBody cmdAck Command.getBasicInfo.id 16 frame).map fun body =>
    { vendorCode := body.be32Read 0
      productCode := body.be16Read 4
      productSubcode := body.be16Read 6
      deviceStatus := body.be32Read 8
      stationType := body.be16Read 14 }

def unpackDate (b : Bytes) (i : Nat) : Date := ⟨b.be16Read i, b.byteAt (i + 2), b.byteAt (i + 3)⟩

def unpackRadioState (b : Bytes) (i : Nat) : WlanState :=
  { mac := Buf.read 6 b i
    mode := b.byteAt (i + 6)
    bandwidth := b.byteAt (i + 7)
    freqMhz := b.be16Read (i + 8)
    channel := b.be16Read (i + 10)
    status := b.be16Read (i + 12)
    snr := b.byteAt (i + 14)
    rssi := b.byteAt (i + 15)
    connectApMac := Buf.read 6 b (i + 16)
    scanBand := b.be16Read (i + 22)
    scanChlist := unpackChlist b (i + 24) }

def getDeviceInfoAckUnpack (frame : Bytes) : Option DeviceInfoAck :=
  (frameBody cmdAck Command.getDeviceInfo.id 352 frame).map fun body =>
    { result := body.be16Read 0
      errorCause := body.be16Read 2
      vendorCode := body.be32Read 4
      productCode := body.be16Read 8
      productSubcode := body.be16Read 10
      manufacture := unpackDate body 12
      shipment := unpackDate body 16
      firmwareVersion := (copyStringField 32 body 20).1
      hardwareVersion := (copyStringField 32 body 52).1
      serialNumber := (copyStringField 32 body 84).1
      ethernetMac := Buf.read 6 body 116
      ipAddress := body.be32Read 124
      subnetMask := body.be32Read 128
      defaultGateway := body.be32Read 132
      ntpServer := body.be32Read 136
      essid := (copyStringField 32 body 140).1
      deviceStatus := body.be32Read 172
      stationType := body.be16Read 176
      priorityCh := body.be16Read 178
      ieee11r := body.byteAt 180
      ieee11ai := body.byteAt 181
      ieee11k := body.byteAt 182
      ieee11v := body.byteAt 183
      wlan1 := unpackRadioState body 224
      wlan2 := unpackRadioState body 288 }

/-! ## Indications -/

/-- `OPC_CMD_INDICATION`. -/
def cmdInd : Byte := 3

/-- The indications of `indications.c`. -/
inductive IndKind
  | initComplete | wlanStatusChange | roaming | apDisconnect | faultDetect | resetNotice | keepAlive
  deriving DecidableEq, Repr

/-- The indication id on the wire, which is also its bit in `info_bits`. -/
def IndKind.id : IndKind → BitVec 16
  | initComplete => 0x0001
  | wlanStatusChange => 0x0002
  | roaming => 0x0004
  | apDisconnect => 0x0008
  | faultDetect => 0x0010
  | resetNotice => 0x0020
  | keepAlive => 0x0080

/-- `opc_ind_init_complete_t`. -/
structure InitComplete where
  status : BitVec 32
  deriving DecidableEq, Repr

def initCompletePack (cap : Nat) (seq : BitVec 16) (v : InitComplete) : Option Bytes :=
  frameBuild cap cmdInd IndKind.initComplete.id seq 60 (be32Write v.status)

def initCompleteUnpack (frame : Bytes) : Option InitComplete :=
  (frameBody cmdInd IndKind.initComplete.id 4 frame).map fun body => ⟨body.be32Read 0⟩

/-- `opc_ind_wlan_status_change_t`. -/
structure WlanStatusChange where
  wlanStatus : BitVec 16
  indicationCh : BitVec 16
  deriving DecidableEq, Repr

def wlanStatusChangePack (cap : Nat) (seq : BitVec 16) (v : WlanStatusChange) : Option Bytes :=
  frameBuild cap cmdInd IndKind.wlanStatusChange.id seq 60
    (be16Write v.wlanStatus ++ be16Write v.indicationCh)

def wlanStatusChangeUnpack (frame : Bytes) : Option WlanStatusChange :=
  (frameBody cmdInd IndKind.wlanStatusChange.id 4 frame).map fun body =>
    ⟨body.be16Read 0, body.be16Read 2⟩

/-- `opc_ind_roaming_t`; the two signals are signed bytes. -/
structure RoamingInd where
  currentSnr : Byte
  currentRssi : Byte
  connectApMac : Buf 6
  chNumber : BitVec 16
  deriving DecidableEq

/-- The signals go out sign-extended to two bytes. -/
def roamingPack (cap : Nat) (seq : BitVec 16) (v : RoamingInd) : Option Bytes :=
  frameBuild cap cmdInd IndKind.roaming.id seq 68
    (be16Write (v.currentSnr.signExtend 16) ++ be16Write (v.currentRssi.signExtend 16) ++
      v.connectApMac.toList ++ be16Write v.chNumber)

def roamingUnpack (frame : Bytes) : Option RoamingInd :=
  (frameBody cmdInd IndKind.roaming.id 12 frame).map fun body =>
    ⟨(body.be16Read 0).setWidth 8, (body.be16Read 2).setWidth 8, Buf.read 6 body 4, body.be16Read 10⟩

/-- `opc_ind_ap_disconnect_t`. -/
structure ApDisconnect where
  messageId : BitVec 16
  resultCode : BitVec 16
  disconnectApMac : Buf 6
  deriving DecidableEq

def apDisconnectPack (cap : Nat) (seq : BitVec 16) (v : ApDisconnect) : Option Bytes :=
  frameBuild cap cmdInd IndKind.apDisconnect.id seq 68
    (be16Write v.messageId ++ be16Write v.resultCode ++ v.disconnectApMac.toList ++ [0, 0])

def apDisconnectUnpack (frame : Bytes) : Option ApDisconnect :=
  (frameBody cmdInd IndKind.apDisconnect.id 12 frame).map fun body =>
    ⟨body.be16Read 0, body.be16Read 2, Buf.read 6 body 4⟩

/-- `opc_ind_fault_detect_t`. -/
structure FaultDetect where
  congestionId : BitVec 16
  currentVal : BitVec 16
  deriving DecidableEq, Repr

def faultDetectPack (cap : Nat) (seq : BitVec 16) (v : FaultDetect) : Option Bytes :=
  frameBuild cap cmdInd IndKind.faultDetect.id seq 60
    (be16Write v.congestionId ++ be16Write v.currentVal)

def faultDetectUnpack (frame : Bytes) : Option FaultDetect :=
  (frameBody cmdInd IndKind.faultDetect.id 4 frame).map fun body =>
    ⟨body.be16Read 0, body.be16Read 2⟩

/-- `opc_ind_reset_notice_t`. -/
structure ResetNotice where
  resetCause : BitVec 32
  deriving DecidableEq, Repr

def resetNoticePack (cap : Nat) (seq : BitVec 16) (v : ResetNotice) : Option Bytes :=
  frameBuild cap cmdInd IndKind.resetNotice.id seq 60 (be32Write v.resetCause)

def resetNoticeUnpack (frame : Bytes) : Option ResetNotice :=
  (frameBody cmdInd IndKind.resetNotice.id 4 frame).map fun body => ⟨body.be32Read 0⟩

/-- `opc_ind_keep_alive_t`. -/
structure KeepAlive where
  timestamp : Buf 32
  deriving DecidableEq

def keepAlivePack (cap : Nat) (seq : BitVec 16) (v : KeepAlive) : Option Bytes :=
  frameBuild cap cmdInd IndKind.keepAlive.id seq 88 (copyWithNullPad 32 v.timestamp.toList)

def keepAliveUnpack (frame : Bytes) : Option KeepAlive :=
  (frameBody cmdInd IndKind.keepAlive.id 32 frame).map fun body => ⟨(copyStringField 32 body 0).1⟩

end Opcd.Protocol
