import Opcd.Protocol.Frame

/-!
# Requests and acknowledgements

The ten commands of `commands.c`: the bodies the daemon unpacks and the acknowledgements it packs.
Wire strings are copied into fixed buffers whose last byte is forced to NUL; whether the wire field
itself held a NUL is kept beside the copy.

* `simpleAckUnpack_simpleAckPack`: the result and the cause an acknowledgement carries are read
  back from its bytes.
-/

namespace Opcd.Protocol

open Bytes

/-- The commands of the dispatch table. -/
inductive Command
  | login | logout | getBasicInfo | getDeviceInfo | setPassword | setIpConfigList
  | changeIpAddress | setRadioConfig | setIndicationConfig | reset
  deriving DecidableEq, Repr

/-- The request id on the wire. -/
def Command.id : Command → BitVec 16
  | login => 0xF001
  | logout => 0xF002
  | getBasicInfo => 0x0001
  | getDeviceInfo => 0x0002
  | setPassword => 0x1001
  | setIpConfigList => 0x1002
  | changeIpAddress => 0x1003
  | setRadioConfig => 0x1004
  | setIndicationConfig => 0x1005
  | reset => 0x2001

abbrev resultOk : BitVec 16 := 0

abbrev resultNg : BitVec 16 := 1

/-! ## Error causes (`proto.h`, `ids.h`) -/

namespace Err

abbrev none : BitVec 16 := 0x0000
abbrev loginViolation : BitVec 16 := 0x0001
abbrev loginCondition : BitVec 16 := 0x0002
abbrev packetSize : BitVec 16 := 0x0003
abbrev nvram : BitVec 16 := 0x0004
abbrev indicationSettingViolation : BitVec 16 := 0x0010
abbrev passwordMismatch : BitVec 16 := 0x0010
abbrev slotRange : BitVec 16 := 0x0010
abbrev stationType : BitVec 16 := 0x0010
abbrev indBits : BitVec 16 := 0x0010
abbrev slotEmpty : BitVec 16 := 0x0011
abbrev radioFreq : BitVec 16 := 0x0011
abbrev loginPwChar : BitVec 16 := 0x0011
abbrev oldPwChar : BitVec 16 := 0x0011
abbrev ipcfgIp : BitVec 16 := 0x0011
abbrev ipChangeConflict : BitVec 16 := 0x0012
abbrev radioScanCh : BitVec 16 := 0x0012
abbrev indRecipientIp : BitVec 16 := 0x0012
abbrev pwNul : BitVec 16 := 0x0012
abbrev ipcfgNetmask : BitVec 16 := 0x0012
abbrev radioMode : BitVec 16 := 0x0013
abbrev newPwChar : BitVec 16 := 0x0013
abbrev ipcfgGw : BitVec 16 := 0x0013
abbrev radioBw : BitVec 16 := 0x0014
abbrev newPwNul : BitVec 16 := 0x0014
abbrev ipcfgNtp : BitVec 16 := 0x0014
abbrev radioPrioBand : BitVec 16 := 0x0015
abbrev ipcfgEssidChar : BitVec 16 := 0x0015
abbrev radioPrioCh : BitVec 16 := 0x0016
abbrev ipcfgEssidNul : BitVec 16 := 0x0016
abbrev ipcfgListSize : BitVec 16 := 0x0017
abbrev listSequence : BitVec 16 := 0x0018
abbrev ipChangeClash : BitVec 16 := 0x0050
abbrev radioApply : BitVec 16 := 0x0050

end Err

/-! ## String fields -/

/-- `copy_with_null_pad`: at most `n - 1` characters of a C string, zero padded to `n` bytes. -/
def copyWithNullPad (n : Nat) (s : Bytes) : Bytes :=
  let t := cstr (s.take (n - 1))
  t ++ List.replicate (n - t.length) 0

/-- `copy_string_field` of the `n` bytes at an offset: the copy with its last byte zeroed, and
whether the field held a NUL. -/
def copyStringField (n : Nat) (src : Bytes) (off : Nat) : Buf n × Bool :=
  (Vector.ofFn fun i => if i.val + 1 = n then 0 else src.byteAt (off + i),
    decide (∃ i < n, src.byteAt (off + i) = 0))

/-- The copy is terminated, whether or not the field was. -/
theorem terminated_copyStringField {n : Nat} (hn : 0 < n) (src : Bytes) (off : Nat) :
    0#8 ∈ (copyStringField n src off).1.toList := by
  have hlast : (copyStringField n src off).1[n - 1] = 0#8 := by
    simp [copyStringField, Nat.sub_add_cancel hn]
  rw [← hlast, ← Vector.getElem_toList (by simp; omega)]
  exact List.getElem_mem _

/-! ## Acknowledgements -/

def simpleAckLength : BitVec 16 := 60

/-- `opc_simple_ack_pack`. -/
def simpleAckPack (cap : Nat) (req seq length result cause : BitVec 16) : Option Bytes :=
  frameBuild cap cmdAck req seq length (be16Write result ++ be16Write cause)

/-- `opc_simple_ack_unpack`. -/
def simpleAckUnpack (frame : Bytes) (req : BitVec 16) : Option (BitVec 16 × BitVec 16) :=
  match frameParse frame with
  | none => none
  | some (h, body) =>
    if h.commandType ≠ cmdAck then none
    else if h.reqIndicationId ≠ req then none
    else if body.length < 4 then none
    else some (body.be16Read 0, body.be16Read 2)

def loginAckPack (cap : Nat) (seq result cause : BitVec 16) : Option Bytes :=
  simpleAckPack cap Command.login.id seq simpleAckLength result cause

def logoutAckPack (cap : Nat) (seq result cause : BitVec 16) : Option Bytes :=
  simpleAckPack cap Command.logout.id seq simpleAckLength result cause

def setPasswordAckPack (cap : Nat) (seq result cause : BitVec 16) : Option Bytes :=
  simpleAckPack cap Command.setPassword.id seq simpleAckLength result cause

def setIpConfigListAckPack (cap : Nat) (seq result cause : BitVec 16) : Option Bytes :=
  simpleAckPack cap Command.setIpConfigList.id seq simpleAckLength result cause

def changeIpAddressAckPack (cap : Nat) (seq result cause : BitVec 16) : Option Bytes :=
  simpleAckPack cap Command.changeIpAddress.id seq simpleAckLength result cause

def setRadioConfigAckPack (cap : Nat) (seq result cause : BitVec 16) : Option Bytes :=
  simpleAckPack cap Command.setRadioConfig.id seq simpleAckLength result cause

def setIndicationConfigAckPack (cap : Nat) (seq result cause : BitVec 16) : Option Bytes :=
  simpleAckPack cap Command.setIndicationConfig.id seq simpleAckLength result cause

def resetAckPack (cap : Nat) (seq result cause : BitVec 16) : Option Bytes :=
  simpleAckPack cap Command.reset.id seq simpleAckLength result cause

theorem simpleAckUnpack_simpleAckPack {cap : Nat} {req seq result cause : BitVec 16} {f : Bytes}
    (h : simpleAckPack cap req seq simpleAckLength result cause = some f) :
    simpleAckUnpack f req = some (result, cause) := by
  have hp := frameParse_frameBuild h (by simp [simpleAckLength])
  have h2 : be16Read (be16Write result ++ be16Write cause) 2 = cause :=
    be16Read_be16Write cause []
  have h0 : be16Read (be16Write result ++ be16Write cause) 0 = result :=
    be16Read_be16Write result _
  simp [simpleAckUnpack, hp, h0, h2]

/-- A simple acknowledgement fits every buffer of the size of a frame. -/
theorem simpleAckPack_frameMax (req seq length result cause : BitVec 16) :
    ∃ f, simpleAckPack frameMax req seq length result cause = some f ∧ f ≠ [] := by
  refine ⟨headerPack ⟨protocolVersion, cmdAck, req, seq, length⟩ ++
    (be16Write result ++ be16Write cause), ?_, ?_⟩
  · rw [simpleAckPack, frameBuild, if_neg (by simp [payloadMax, frameMax, headerSize]),
      if_neg (by simp [frameMax, headerSize])]
  · simp [be16Write]

/-- What is read, as the acknowledgement of `req'`, from an acknowledgement the daemon packs. -/
theorem simpleAckUnpack_getD (req req' seq result cause : BitVec 16) :
    simpleAckUnpack ((simpleAckPack frameMax req seq simpleAckLength result cause).getD []) req' =
      if req = req' then some (result, cause) else none := by
  obtain ⟨f, hf, -⟩ := simpleAckPack_frameMax req seq simpleAckLength result cause
  rw [hf, Option.getD_some]
  split
  next h =>
    subst h
    exact simpleAckUnpack_simpleAckPack hf
  next h =>
    have hp := frameParse_frameBuild hf (by simp [simpleAckLength])
    simp [simpleAckUnpack, hp, h]

/-- `opc_get_basic_info_ack_t`. -/
structure BasicInfoAck where
  vendorCode : BitVec 32
  productCode : BitVec 16
  productSubcode : BitVec 16
  deviceStatus : BitVec 32
  stationType : BitVec 16
  deriving DecidableEq, Repr

def getBasicInfoAckPack (cap : Nat) (seq : BitVec 16) (a : BasicInfoAck) : Option Bytes :=
  frameBuild cap cmdAck Command.getBasicInfo.id seq 72
    (be32Write a.vendorCode ++ be16Write a.productCode ++ be16Write a.productSubcode ++
      be32Write a.deviceStatus ++ [0, 0] ++ be16Write a.stationType)

/-! ## Shared records -/

/-- `opc_date_t`. -/
structure Date where
  year : BitVec 16
  month : Byte
  day : Byte
  deriving DecidableEq, Repr

def packDate (d : Date) : Bytes := be16Write d.year ++ [d.month, d.day]

/-- `opc_wlan_radio_cfg_t`. The 8 bytes of the channel list are one word in wire byte order. -/
structure WlanCfg where
  mode : Byte
  bandwidth : Byte
  scanBand : BitVec 16
  scanChlist : BitVec 64
  deriving DecidableEq, Repr

/-- `opc_set_radio_config_req_t`. -/
structure RadioConfig where
  stationType : BitVec 16
  priorityCh : BitVec 16
  wlan1 : WlanCfg
  wlan2 : WlanCfg
  deriving DecidableEq, Repr

/-- `opc_wlan_radio_state_t`. -/
structure WlanState where
  mac : Buf 6
  mode : Byte
  bandwidth : Byte
  freqMhz : BitVec 16
  channel : BitVec 16
  status : BitVec 16
  snr : Byte
  rssi : Byte
  connectApMac : Buf 6
  scanBand : BitVec 16
  scanChlist : BitVec 64
  deriving DecidableEq

/-- A list of 8 bytes in wire order. -/
def packChlist (l : BitVec 64) : Bytes :=
  be32Write (l.extractLsb' 32 32) ++ be32Write (l.extractLsb' 0 32)

def unpackChlist (b : Bytes) (i : Nat) : BitVec 64 := b.be32Read i ++ b.be32Read (i + 4)

def packRadioState (r : WlanState) : Bytes :=
  r.mac.toList ++ [r.mode, r.bandwidth] ++ be16Write r.freqMhz ++ be16Write r.channel ++
    be16Write r.status ++ [r.snr, r.rssi] ++ r.connectApMac.toList ++ be16Write r.scanBand ++
    packChlist r.scanChlist

/-- `opc_get_device_info_ack_t`. -/
structure DeviceInfoAck where
  result : BitVec 16
  errorCause : BitVec 16
  vendorCode : BitVec 32
  productCode : BitVec 16
  productSubcode : BitVec 16
  manufacture : Date
  shipment : Date
  firmwareVersion : Buf 32
  hardwareVersion : Buf 32
  serialNumber : Buf 32
  ethernetMac : Buf 6
  ipAddress : BitVec 32
  subnetMask : BitVec 32
  defaultGateway : BitVec 32
  ntpServer : BitVec 32
  essid : Buf 32
  deviceStatus : BitVec 32
  stationType : BitVec 16
  priorityCh : BitVec 16
  ieee11r : Byte
  ieee11ai : Byte
  ieee11k : Byte
  ieee11v : Byte
  wlan1 : WlanState
  wlan2 : WlanState
  deriving DecidableEq

def getDeviceInfoAckPack (cap : Nat) (seq : BitVec 16) (a : DeviceInfoAck) : Option Bytes :=
  frameBuild cap cmdAck Command.getDeviceInfo.id seq 408
    (be16Write a.result ++ be16Write a.errorCause ++ be32Write a.vendorCode ++
      be16Write a.productCode ++ be16Write a.productSubcode ++ packDate a.manufacture ++
      packDate a.shipment ++ copyWithNullPad 32 a.firmwareVersion.toList ++
      copyWithNullPad 32 a.hardwareVersion.toList ++ copyWithNullPad 32 a.serialNumber.toList ++
      a.ethernetMac.toList ++ [0, 0] ++ be32Write a.ipAddress ++ be32Write a.subnetMask ++
      be32Write a.defaultGateway ++ be32Write a.ntpServer ++ copyWithNullPad 32 a.essid.toList ++
      be32Write a.deviceStatus ++ be16Write a.stationType ++ be16Write a.priorityCh ++
      [a.ieee11r, a.ieee11ai, a.ieee11k, a.ieee11v] ++ List.replicate 40 0 ++
      packRadioState a.wlan1 ++ List.replicate 32 0 ++ packRadioState a.wlan2 ++
      List.replicate 32 0)

/-! ## Requests -/

/-- The body of a request of this id with at least `n` bytes of body. -/
def requestBody (c : Command) (n : Nat) (frame : Bytes) : Option Bytes :=
  match frameParse frame with
  | none => none
  | some (h, body) =>
    if h.commandType ≠ cmdRequest then none
    else if h.reqIndicationId ≠ c.id then none
    else if body.length < n then none
    else some body

/-- `empty_req_unpack`. -/
def emptyReqUnpack (c : Command) (frame : Bytes) : Bool :=
  if frame.length ≠ fixedHeaderSize then false
  else
    match frameParse frame with
    | none => false
    | some (h, _) => h.commandType = cmdRequest ∧ h.reqIndicationId = c.id

def logoutReqUnpack : Bytes → Bool := emptyReqUnpack .logout

def getBasicInfoReqUnpack : Bytes → Bool := emptyReqUnpack .getBasicInfo

def getDeviceInfoReqUnpack : Bytes → Bool := emptyReqUnpack .getDeviceInfo

def resetReqUnpack : Bytes → Bool := emptyReqUnpack .reset

/-- `opc_login_req_t`. -/
structure LoginReq where
  password : Buf 128
  passwordTerminated : Bool

def loginReqUnpack (frame : Bytes) : Option LoginReq :=
  (requestBody .login 128 frame).map fun body =>
    ⟨(copyStringField 128 body 0).1, (copyStringField 128 body 0).2⟩

/-- `opc_set_password_req_t`. -/
structure SetPasswordReq where
  oldPassword : Buf 128
  newPassword : Buf 128
  oldPasswordTerminated : Bool
  newPasswordTerminated : Bool

def setPasswordReqUnpack (frame : Bytes) : Option SetPasswordReq :=
  (requestBody .setPassword 256 frame).map fun body =>
    let old := copyStringField 128 body 0
    let new := copyStringField 128 body 128
    ⟨old.1, new.1, old.2, new.2⟩

/-- `opc_ipcfg_entry_t`. -/
structure Entry where
  boundaryFlag : BitVec 16
  listNumber : BitVec 16
  ipAddress : BitVec 32
  subnetMask : BitVec 32
  defaultGateway : BitVec 32
  ntpServer : BitVec 32
  essid : Buf 32
  deriving DecidableEq

/-- The all-zero entry. -/
def Entry.zero : Entry := ⟨0, 0, 0, 0, 0, 0, Buf.zero 32⟩

namespace Boundary

abbrev start : BitVec 16 := 1
abbrev fin : BitVec 16 := 2
abbrev startEnd : BitVec 16 := 3

end Boundary

/-- `unpack_ipcfg_entry` of the 64 bytes at an offset, and whether its ESSID was terminated. -/
def unpackIpcfgEntry (b : Bytes) (i : Nat) : Entry × Bool :=
  let essid := copyStringField 32 b (i + 20)
  ({ boundaryFlag := b.be16Read i
     listNumber := b.be16Read (i + 2)
     ipAddress := b.be32Read (i + 4)
     subnetMask := b.be32Read (i + 8)
     defaultGateway := b.be32Read (i + 12)
     ntpServer := b.be32Read (i + 16)
     essid := essid.1 }, essid.2)

def ipcfgEntryLen : Nat := 64

def ipcfgListMaxPerReq : Nat := 20

inductive UnpackError
  | malformed
  | listSize
  deriving DecidableEq, Repr

/-- `opc_set_ip_config_list_req_unpack`: the entries, each with its bit of
`essid_terminated_mask`. -/
def setIpConfigListReqUnpack (frame : Bytes) : Except UnpackError (List (Entry × Bool)) :=
  match requestBody .setIpConfigList 0 frame with
  | none => .error .malformed
  | some body =>
    if body.length = 0 ∨ body.length % ipcfgEntryLen ≠ 0 then .error .listSize
    else
      let n := body.length / ipcfgEntryLen
      if n > ipcfgListMaxPerReq then .error .listSize
      else .ok ((List.range n).map fun i => unpackIpcfgEntry body (i * ipcfgEntryLen))

/-- `opc_change_ip_address_req_unpack`: the list number. -/
def changeIpAddressReqUnpack (frame : Bytes) : Option (BitVec 16) :=
  (requestBody .changeIpAddress 4 frame).map fun body => body.be16Read 2

def unpackWlanCfg (b : Bytes) (i : Nat) : WlanCfg :=
  { mode := b.byteAt i
    bandwidth := b.byteAt (i + 1)
    scanBand := b.be16Read (i + 2)
    scanChlist := unpackChlist b (i + 4) }

def setRadioConfigReqUnpack (frame : Bytes) : Option RadioConfig :=
  (requestBody .setRadioConfig 28 frame).map fun body =>
    { stationType := body.be16Read 0
      priorityCh := body.be16Read 2
      wlan1 := unpackWlanCfg body 4
      wlan2 := unpackWlanCfg body 16 }

/-- `opc_set_indication_config_req_t`. -/
structure SetIndicationConfigReq where
  recipientPort : BitVec 16
  infoBits : Byte
  periodSeconds : Byte
  recipientIp : BitVec 32

def setIndicationConfigReqUnpack (frame : Bytes) : Option SetIndicationConfigReq :=
  (requestBody .setIndicationConfig 8 frame).map fun body =>
    { recipientPort := body.be16Read 0
      infoBits := body.byteAt 2
      periodSeconds := body.byteAt 3
      recipientIp := body.be32Read 4 }

end Opcd.Protocol
