import Opcd.Fault.Probe
import Opcd.IpList.Text
import Opcd.Protocol.ScanList
import Opcd.Store.Writer

/-!
# The daemon's state and its effects

`St` is `opcd_state_t` in groups: the session, the password, the radio configuration, the IP list,
the deferred IP change, the indication settings and the pending acknowledgements. What the daemon
does outside its own memory (file writes, platform calls, datagrams) is an `Effect`; every function
of the daemon is a `Turn`: the state it leaves, the effects it has, in order, and its result.

The answers of the environment (results of calls, the clock) are arguments of each function, so a
function is deterministic once they are given. Log output and the receive timestamps that only feed it
are left out.
-/

namespace Opcd

open Bytes Protocol Store

/-! ## Configuration -/

/-- `opcd_freq_source_t`. -/
inductive FreqSource
  | live | auto | config
  deriving DecidableEq, Repr

/-- `opcd_ip_iface_t`. -/
inductive IpIface
  | eth0 | mlan0
  deriving DecidableEq, Repr

/-- `opcd_topology_t`. -/
inductive Topology
  | eth0Ip | peerRoute
  deriving DecidableEq, Repr

/-- `opcd_conf_t`, the keys the handlers read. -/
structure Conf where
  defaultStationType : BitVec 16
  loginIdleS : Nat
  deviceInfoFreqSource : FreqSource
  deviceIpIface : IpIface
  managementTopology : Topology
  deriving DecidableEq, Repr

/-- `opcd_paths_t`: the files the daemon keeps, each in its own place. -/
structure Paths where
  password : Path
  ipList : Path
  radio : Path
  ipListUser : Option Path
  ipListUserLast : Option Path
  ipListLegacy : Option Path
  radioMarker : Option Path
  nodup : (password :: ipList :: radio ::
    [ipListUser, ipListUserLast, ipListLegacy, radioMarker].reduceOption).Nodup

/-- `opcd_inventory_t`. -/
structure Inventory where
  vendorCode : BitVec 32
  productCode : BitVec 16
  productSubcode : BitVec 16
  hardwareVersion : Buf 32
  serialNumber : Buf 32
  manufactureDate : Date
  shipmentDate : Date
  ieee11r : Byte
  ieee11ai : Byte
  ieee11k : Byte
  ieee11v : Byte

/-! ## Groups of the state -/

/-- Two interfaces and four resources: that there is a first one, by name. -/
instance instNeZeroTwo : NeZero 2 := ⟨by decide⟩

instance instNeZeroFour : NeZero 4 := ⟨by decide⟩

/-- The login session. -/
structure Session where
  loggedIn : Bool
  holderIp : BitVec 32
  holderPort : BitVec 16
  idleDeadline : Nat
  generation : BitVec 32
  deriving DecidableEq, Repr

/-- The published password, the one a write that was not synced replaced, and the candidate of a
write in flight. -/
structure PasswordState where
  password : Buf 128
  unsynced : Bool
  unsyncedPrev : Buf 128
  pending : Buf 128
  deriving DecidableEq

/-- `opcd_radio_recovery_state_t`. -/
inductive Recovery
  | healthy | unknownBaseline | restoreFailed
  deriving DecidableEq, Repr

structure RadioState where
  radio : RadioConfig
  committed : Bool
  appliedKnown : Bool
  recovery : Recovery
  gen : BitVec 32
  revertPending : Bool
  revertCfg : RadioConfig
  revertCommitted : Bool
  persistBaselineValid : Bool
  deriving DecidableEq, Repr

structure IpListState where
  list : IpList
  staging : IpList
  stagingActive : Bool
  pending : IpList
  pendingStaging : IpList
  pendingStagingActive : Bool
  pendingGeneration : BitVec 32
  deriving DecidableEq

/-- A ChangeIpAddress waiting for its Logout, and the snapshot a Logout armed. -/
structure IpChange where
  pending : Bool
  commitArmed : Bool
  logoutDeferred : Bool
  listNo : BitVec 16
  armedNo : BitVec 16
  armedEntry : Entry
  deriving DecidableEq

/-- `struct opcd_ind_coalesce`. -/
structure Coalesce where
  wlanPending : Bool
  wlanStatus : BitVec 16
  wlanCh : BitVec 16
  roamPending : Bool
  roamSnr : Byte
  roamRssi : Byte
  roamMac : Buf 6
  roamCh : BitVec 16
  apdPending : Bool
  apdMsgId : BitVec 16
  apdReason : BitVec 16
  apdMac : Buf 6
  faultPending : Fin 4 → Bool
  faultVal : Fin 4 → BitVec 16

def Coalesce.zero : Coalesce :=
  { wlanPending := false, wlanStatus := 0, wlanCh := 0, roamPending := false, roamSnr := 0
    roamRssi := 0, roamMac := Buf.zero 6, roamCh := 0, apdPending := false, apdMsgId := 0
    apdReason := 0, apdMac := Buf.zero 6, faultPending := fun _ => false, faultVal := fun _ => 0 }

/-- The notification settings, what is staged under them, and the congestion probe. -/
structure Indication where
  enabled : Bool
  recipientIp : BitVec 32
  recipientPort : BitVec 16
  infoBits : Byte
  periodS : Byte
  tickCounter : Int
  seq : BitVec 16
  radioUpReported : Bool
  wlan0AssocKnown : Bool
  wlan0Assoc : Bool
  wlan0AssocAt : Nat
  coalesce : Fin 2 → Coalesce
  faultProbe : Fault.Probe

/-- `opcd_persist_resource_t`. -/
inductive Resource
  | none | password | ipList | radio
  deriving DecidableEq, Repr

/-- `OPCD_PENDING_ACK_MAX`. -/
abbrev pendingAckMax : Nat := 16

/-- An index into `pending_acks[]`. -/
abbrev AckIdx := Fin pendingAckMax

/-- `opcd_pending_ack_t`. -/
structure PendingAck where
  inUse : Bool
  noAck : Bool
  resource : Resource
  reqId : BitVec 16
  seq : BitVec 16
  radioGen : BitVec 32
  clientIp : BitVec 32
  clientPort : BitVec 16
  deriving DecidableEq, Repr

def PendingAck.zero : PendingAck := ⟨false, false, .none, 0, 0, 0, 0, 0⟩

/-- `OPC_DEVICE_*`. -/
inductive BootStatus
  | booting | ready | loggedIn
  deriving DecidableEq, Repr

def BootStatus.code : BootStatus → BitVec 32
  | booting => 0
  | ready => 1
  | loggedIn => 2

/-- `opcd_state_t`. -/
structure St where
  conf : Conf
  paths : Paths
  session : Session
  pw : PasswordState
  rad : RadioState
  ipl : IpListState
  chg : IpChange
  ind : Indication
  bootStatus : BootStatus
  storeAsync : Option Writer
  acks : AckIdx → PendingAck
  shouldReset : Bool
  resetNoticeSent : Bool

/-! ## Effects -/

/-- What `apply_radio_config` came to: on failure the live configuration may be anything. -/
inductive ApplyResult
  | ok
  | failed (live : Option RadioConfig)
  deriving DecidableEq, Repr

/-- The client a request came from and its sequence number. -/
structure Client where
  ip : BitVec 32
  port : BitVec 16
  seq : BitVec 16
  deriving DecidableEq, Repr

inductive Effect
  /-- a call of the atomic file writer -/
  | write (w : FileWrite)
  | unlink (path : Path) (ok : Bool)
  | rename (path dst : Path) (ok : Bool)
  | applyRadio (cfg : RadioConfig) (result : ApplyResult)
  | applyIpChange (e : Entry) (iface : Nat) (n : BitVec 16) (ok : Bool)
  | peerRouteRefresh (ip mask : BitVec 32)
  /-- a response to a datagram -/
  | send (ip : BitVec 32) (port : BitVec 16) (frame : Bytes)
  | indicate (ip : BitVec 32) (port : BitVec 16) (frame : Bytes)
  /-- the monitoring snapshot of a GetDeviceInfo answer -/
  | snapshot (ack : DeviceInfoAck)
  /-- a call of `opc_store_async_reserve` -/
  | reserve (path : Path) (result : Except SubmitError Slot)
  /-- a call of `opc_store_async_submit_echo` or `opc_store_async_submit` -/
  | submit (path : Path) (result : Except SubmitError Unit)
  /-- a call of `pending_ack_alloc` for an admitted write -/
  | ackAlloc (result : Option AckIdx)
  /-- `persist_blob` queued a write, to be acknowledged from this slot -/
  | defer (slot : AckIdx) (r : Resource) (noAck : Bool) (reqId : BitVec 16) (cl : Client)
      (data : Bytes)
  /-- a completed write was reconciled and its slot released, after this acknowledgement -/
  | settle (slot : AckIdx) (sent : Option (BitVec 32 × BitVec 16 × Bytes))
  /-- `persist_admit` drains completions and tries once more -/
  | retry

/-- What a function of the daemon leaves and does. -/
structure Turn (α : Type) where
  st : St
  out : List Effect
  val : α

namespace Turn

variable {α β : Type}

/-- Go on from where a turn ended. -/
def bind (t : Turn α) (f : St → α → Turn β) : Turn β :=
  ⟨(f t.st t.val).st, t.out ++ (f t.st t.val).out, (f t.st t.val).val⟩

@[simp] theorem bind_st (t : Turn α) (f : St → α → Turn β) : (t.bind f).st = (f t.st t.val).st := rfl

@[simp] theorem bind_out (t : Turn α) (f : St → α → Turn β) :
    (t.bind f).out = t.out ++ (f t.st t.val).out := rfl

@[simp] theorem bind_val (t : Turn α) (f : St → α → Turn β) :
    (t.bind f).val = (f t.st t.val).val := rfl

end Turn

namespace St

/-- A turn that has no effect outside. -/
def done {α : Type} (st : St) (a : α) : Turn α := ⟨st, [], a⟩

@[simp] theorem done_st {α : Type} (st : St) (a : α) : (st.done a).st = st := rfl

@[simp] theorem done_out {α : Type} (st : St) (a : α) : (st.done a).out = [] := rfl

@[simp] theorem done_val {α : Type} (st : St) (a : α) : (st.done a).val = a := rfl

/-- `emit_ack`: the bytes of a response, none when packing failed. -/
def emitAck (st : St) (packed : Option Bytes) : Turn Bytes := st.done (packed.getD [])

@[simp] theorem emitAck_st (st : St) (p : Option Bytes) : (st.emitAck p).st = st := rfl

@[simp] theorem emitAck_out (st : St) (p : Option Bytes) : (st.emitAck p).out = [] := rfl

end St

end Opcd
