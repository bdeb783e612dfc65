import Opcd.Fault.Latch
import Opcd.Handler.Settings
import Opcd.Lib.Machine
import Opcd.Protocol.Codec

/-!
# The notices

`indication.c` over the notification settings: the senders, what is staged under a reporting period, the
congestion watch and the tick that flushes. Whether a `sendto` took the whole frame is an answer of the
environment for each sequence number (`Sends`).

`notifier` is the machine of everything that reads or writes the settings. Its events are the datagrams,
the samples of the congestion probe and the period boundaries.
-/

namespace Opcd

open Bytes Protocol Fault

/-! ## Notices and events -/

/-- The contents of an indication. -/
inductive Notice
  | initComplete (v : InitComplete)
  | wlanStatusChange (v : WlanStatusChange)
  | roaming (v : RoamingInd)
  | apDisconnect (v : ApDisconnect)
  | faultDetect (v : FaultDetect)
  | resetNotice (v : ResetNotice)
  | keepAlive (v : KeepAlive)
  deriving DecidableEq

namespace Notice

def kind : Notice → IndKind
  | initComplete _ => .initComplete
  | wlanStatusChange _ => .wlanStatusChange
  | roaming _ => .roaming
  | apDisconnect _ => .apDisconnect
  | faultDetect _ => .faultDetect
  | resetNotice _ => .resetNotice
  | keepAlive _ => .keepAlive

/-- The frame with a sequence number. -/
def pack (seq : BitVec 16) : Notice → Option Bytes
  | initComplete v => initCompletePack txCap seq v
  | wlanStatusChange v => wlanStatusChangePack txCap seq v
  | roaming v => roamingPack txCap seq v
  | apDisconnect v => apDisconnectPack txCap seq v
  | faultDetect v => faultDetectPack txCap seq v
  | resetNotice v => resetNoticePack txCap seq v
  | keepAlive v => keepAlivePack txCap seq v

/-- Every notice fits its frame. -/
theorem isSome_pack (n : Notice) (seq : BitVec 16) : (n.pack seq).isSome = true := by
  have hbuild : ∀ (id seq length : BitVec 16) (body : Bytes), body.length ≤ 32 →
      (frameBuild txCap cmdInd id seq length body).isSome = true := by
    intro id seq length body hlen
    have h₁ : payloadMax = 1360 := rfl
    have h₂ : txCap = 1424 := rfl
    have h₃ : headerSize = 64 := rfl
    unfold frameBuild
    rw [if_neg (by omega), if_neg (by omega)]
    rfl
  cases n with
  | initComplete v => exact hbuild _ _ _ (be32Write v.status) (by simp)
  | wlanStatusChange v => exact hbuild _ _ _ (be16Write _ ++ be16Write _) (by simp)
  | roaming v =>
    exact hbuild _ _ _ (be16Write _ ++ be16Write _ ++ v.connectApMac.toList ++ be16Write _) (by simp)
  | apDisconnect v =>
    exact hbuild _ _ _ (be16Write _ ++ be16Write _ ++ v.disconnectApMac.toList ++ [0, 0]) (by simp)
  | faultDetect v => exact hbuild _ _ _ (be16Write _ ++ be16Write _) (by simp)
  | resetNotice v => exact hbuild _ _ _ (be32Write v.resetCause) (by simp)
  | keepAlive v => exact hbuild _ _ _ _ (length_copyWithNullPad (by decide) _).le

end Notice

/-- `OPC_IND_BIT_*`: the bit of a kind is its id. -/
def Protocol.IndKind.bit (k : IndKind) : Byte := k.id.setWidth 8

/-- A `sendto` of a notice, and whether it took the whole frame. -/
structure Datagram where
  ip : BitVec 32
  port : BitVec 16
  seq : BitVec 16
  notice : Notice
  ok : Bool

inductive Event
  /-- the congestion probe sampled: the percentages of the resources it takes as measured -/
  | sampled (pct : Res → Option Nat)
  | sent (d : Datagram)
  /-- the end of a reporting period -/
  | boundary

/-- Whether the datagram with a sequence number is taken. -/
abbrev Sends := BitVec 16 → Bool

/-- What a sender leaves and does, and whether it returns 0. -/
structure Told where
  ind : Indication
  out : List Event
  ok : Bool

/-- Go on from where a sender ended. -/
def Told.bind (t : Told) (f : Indication → Told) : Told :=
  ⟨(f t.ind).ind, t.out ++ (f t.ind).out, (f t.ind).ok⟩

@[simp] theorem Told.bind_ind (t : Told) (f : Indication → Told) : (t.bind f).ind = (f t.ind).ind := rfl

@[simp] theorem Told.bind_out (t : Told) (f : Indication → Told) :
    (t.bind f).out = t.out ++ (f t.ind).out := rfl

/-- The probed resources in the order the watch handles them. -/
def resources : List Res := [.cpu, .mem, .disk, .net]

/-- `OPC_CONGESTION_*`. -/
def Fault.Res.congestionId : Res → BitVec 16
  | .cpu => 1
  | .mem => 2
  | .disk => 3
  | .net => 4

/-- `fault_slot`. -/
def faultSlot (id : BitVec 16) : Option (Fin 4) :=
  if id = 1 then some 0 else if id = 2 then some 1 else if id = 3 then some 2
  else if id = 4 then some 3 else none

/-- The kinds of state change that a period coalesces. -/
inductive Stage
  | wlan | roam | apd
  | fault (k : Fin 4)
  deriving DecidableEq, Repr

/-- The order in which a boundary flushes them. -/
def stages : List Stage := [.wlan, .roam, .apd, .fault 0, .fault 1, .fault 2, .fault 3]

namespace Coalesce

/-- What is staged of a kind. -/
def staged (c : Coalesce) : Stage → Option Notice
  | .wlan => if c.wlanPending then some (.wlanStatusChange ⟨c.wlanStatus, c.wlanCh⟩) else none
  | .roam => if c.roamPending then some (.roaming ⟨c.roamSnr, c.roamRssi, c.roamMac, c.roamCh⟩) else none
  | .apd => if c.apdPending then some (.apDisconnect ⟨c.apdMsgId, c.apdReason, c.apdMac⟩) else none
  | .fault k => if c.faultPending k then some (.faultDetect ⟨BitVec.ofNat 16 (k + 1), c.faultVal k⟩) else none

/-- The pending flag of a kind is lowered. -/
def drop (c : Coalesce) : Stage → Coalesce
  | .wlan => { c with wlanPending := false }
  | .roam => { c with roamPending := false }
  | .apd => { c with apdPending := false }
  | .fault k => { c with faultPending := Function.update c.faultPending k false }

end Coalesce

namespace Indication

/-! ## Senders -/

/-- The bit of the kind is set in the Info bits. -/
def wants (ind : Indication) (k : IndKind) : Bool := ind.infoBits &&& k.bit ≠ 0

/-- There is a recipient to send to. -/
def reaches (ind : Indication) : Bool := ind.recipientIp ≠ 0 ∧ ind.recipientPort ≠ 0

/-- The packer of a notice with the next sequence number, and `send_indication_frame`. -/
def emit (ind : Indication) (sends : Sends) (n : Notice) : Told :=
  let next := { ind with seq := ind.seq + 1 }
  match n.pack ind.seq with
  | none => ⟨next, [], false⟩
  | some _ =>
    if ¬ ind.enabled then ⟨next, [], true⟩
    else if ind.recipientIp = 0 ∨ ind.recipientPort = 0 then ⟨next, [], true⟩
    else
      ⟨next, [.sent ⟨ind.recipientIp, ind.recipientPort, ind.seq, n, sends ind.seq⟩], sends ind.seq⟩

/-- Nothing to do. -/
def still (ind : Indication) : Told := ⟨ind, [], true⟩

/-- `opcd_ind_init_complete`. -/
def initComplete (ind : Indication) (sends : Sends) (status : BitVec 32) : Told :=
  if ¬ ind.wants .initComplete then ind.still else ind.emit sends (.initComplete ⟨status⟩)

/-- `opcd_ind_reset_notice`. -/
def resetNotice (ind : Indication) (sends : Sends) (cause : BitVec 32) : Told :=
  if ¬ ind.wants .resetNotice then ind.still else ind.emit sends (.resetNotice ⟨cause⟩)

/-- `opcd_ind_keep_alive`: at most 31 bytes of the timestamp. -/
def keepAlive (ind : Indication) (sends : Sends) (timestamp : Bytes) : Told :=
  if ¬ ind.wants .keepAlive then ind.still
  else ind.emit sends (.keepAlive ⟨Buf.ofBytes 32 ((cstr timestamp).take 31)⟩)

/-- `opcd_ind_radio_up`. -/
def radioUp (ind : Indication) (sends : Sends) : Told :=
  if ¬ ind.enabled ∨ ind.radioUpReported then ind.still
  else { ind with radioUpReported := true }.initComplete sends InitState.radioUp.code

/-- A link's staged state changes are replaced. -/
def stage (ind : Indication) (i : Fin 2) (f : Coalesce → Coalesce) : Indication :=
  { ind with coalesce := Function.update ind.coalesce i (f (ind.coalesce i)) }

/-- `OPC_WLAN_STATUS_CONNECTED`. -/
def wlanStatusConnected : BitVec 16 := 1

/-- `opcd_ind_wlan_status` at time `now`: the association is noted whatever the settings are. -/
def wlanStatus (ind : Indication) (sends : Sends) (now : Nat) (v : WlanStatusChange) : Told :=
  let connected := decide (v.wlanStatus = wlanStatusConnected)
  let noted := { ind with wlan0AssocKnown := true, wlan0Assoc := connected, wlan0AssocAt := now }
  (if connected then noted.radioUp sends else noted.still).bind fun ind =>
  if ¬ ind.wants .wlanStatusChange then ind.still
  else if ind.periodS > 0 then
    (ind.stage 0 fun c =>
      { c with wlanStatus := v.wlanStatus, wlanCh := v.indicationCh, wlanPending := true }).still
  else ind.emit sends (.wlanStatusChange v)

/-- `opcd_ind_roaming`. -/
def roaming (ind : Indication) (sends : Sends) (v : RoamingInd) : Told :=
  if ¬ ind.wants .roaming then ind.still
  else if ind.periodS > 0 then
    (ind.stage 0 fun c =>
      { c with
        roamSnr := v.currentSnr, roamRssi := v.currentRssi, roamCh := v.chNumber
        roamMac := v.connectApMac, roamPending := true }).still
  else ind.emit sends (.roaming v)

/-- `opcd_ind_ap_disconnect`. -/
def apDisconnect (ind : Indication) (sends : Sends) (v : ApDisconnect) : Told :=
  if ¬ ind.wants .apDisconnect then ind.still
  else if ind.periodS > 0 then
    (ind.stage 0 fun c =>
      { c with
        apdMsgId := v.messageId, apdReason := v.resultCode, apdMac := v.disconnectApMac
        apdPending := true }).still
  else ind.emit sends (.apDisconnect v)

/-! ## The congestion watch -/

/-- `opcd_ind_fault_clear`. -/
def faultClear (ind : Indication) (id : BitVec 16) : Indication :=
  if ind.periodS = 0 then ind
  else
    match faultSlot id with
    | none => ind
    | some k => ind.stage 0 fun c => { c with faultPending := Function.update c.faultPending k false }

/-- `opcd_ind_fault_detect`. -/
def faultDetect (ind : Indication) (sends : Sends) (v : FaultDetect) : Told :=
  if ¬ ind.wants .faultDetect then ind.still
  else if ind.periodS > 0 then
    match faultSlot v.congestionId with
    | none => ⟨ind, [], false⟩
    | some k =>
      (ind.stage 0 fun c =>
        { c with
          faultVal := Function.update c.faultVal k v.currentVal
          faultPending := Function.update c.faultPending k true }).still
  else ind.emit sends (.faultDetect v)

/-- The entry of a resource is notified; if that fails, its notify latch is reopened. -/
def announce (rep : Report) (sends : Sends) (ind : Indication) (r : Res) : Told :=
  if rep.entered r then
    let t := ind.faultDetect sends ⟨r.congestionId, rep.pct r⟩
    if t.ok then t else ⟨{ t.ind with faultProbe := t.ind.faultProbe.rearm r }, t.out, t.ok⟩
  else ind.still

/-- The staged entry of a resource that was released is withdrawn. -/
def withdraw (rep : Report) (ind : Indication) (r : Res) : Indication :=
  if rep.cleared r then ind.faultClear r.congestionId else ind

/-- One step after another over a list. -/
def each {α : Type} (f : Indication → α → Told) (ind : Indication) : List α → Told
  | [] => ind.still
  | a :: as => (f ind a).bind fun ind => ind.each f as

/-- `fault_probe_tick`. -/
def faultProbeTick (ind : Indication) (sends : Sends) (rd : Reading) (elapsed : Nat) : Told :=
  if ¬ ind.wants .faultDetect then ind.still
  else
    let due := ind.faultProbe.due elapsed
    if ¬ due.2 then { ind with faultProbe := due.1 }.still
    else
      let s := due.1.sample rd
      (⟨{ ind with faultProbe := s.1 }, [.sampled (due.1.percentages rd)], true⟩ : Told).bind fun ind =>
      (ind.each (announce s.2 sends) resources).bind fun ind =>
      (resources.foldl (withdraw s.2) ind).still

/-! ## The tick -/

/-- What is staged of a kind is sent, and stays staged if that fails. -/
def flushStage (sends : Sends) (i : Fin 2) (ind : Indication) (s : Stage) : Told :=
  match (ind.coalesce i).staged s with
  | none => ind.still
  | some n =>
    let t := ind.emit sends n
    if t.ok then { t with ind := t.ind.stage i (·.drop s) } else t

/-- A boundary: the state changes of both links, and the KeepAlive. -/
def flush (ind : Indication) (sends : Sends) (timestamp : Bytes) : Told :=
  (⟨ind, [.boundary], true⟩ : Told).bind fun ind =>
  (ind.each (flushStage sends 0) stages).bind fun ind =>
  (ind.each (flushStage sends 1) stages).bind fun ind =>
  ind.keepAlive sends timestamp

/-- The kinds that need the reporting period. -/
def periodic (ind : Indication) : Bool :=
  [IndKind.keepAlive, .faultDetect, .wlanStatusChange, .roaming, .apDisconnect].any ind.wants

/-- The answers to a tick: the sends, the sources of the probe and the time of day. -/
structure TickEnv where
  sends : Sends
  reading : Reading
  timestamp : Bytes

/-- `opcd_ind_tick_elapsed`. -/
def tickElapsed (ind : Indication) (env : TickEnv) (elapsed : BitVec 32) : Told :=
  if ¬ ind.enabled then ind.still
  else
    (ind.faultProbeTick env.sends env.reading elapsed.toNat).bind fun ind =>
    if ind.periodS = 0 then ind.still
    else if ¬ ind.periodic then ind.still
    else
      let period := ind.periodS.toNat
      let counter := ind.tickCounter + (min elapsed.toNat period : Nat)
      if counter < period then { ind with tickCounter := counter }.still
      else { ind with tickCounter := 0 }.flush env.sends env.timestamp

/-! ## The machine -/

/-- The settings of an accepted SetIndicationConfig. -/
def configure (ind : Indication) (req : SetIndicationConfigReq) : Indication :=
  { ind with
    enabled := decide (req.infoBits ≠ 0)
    recipientIp := req.recipientIp
    recipientPort := req.recipientPort
    infoBits := req.infoBits
    periodS := req.periodSeconds
    tickCounter := 0
    radioUpReported := false
    coalesce := fun _ => Coalesce.zero
    faultProbe := ind.faultProbe.resetLatch }

/-- What touches the settings. -/
inductive Input
  /-- an accepted SetIndicationConfig -/
  | config (req : SetIndicationConfigReq)
  /-- an applied IP change -/
  | ipChanged
  | initComplete (sends : Sends) (status : BitVec 32)
  | radioUp (sends : Sends)
  | resetNotice (sends : Sends) (cause : BitVec 32)
  | wlanStatus (sends : Sends) (now : Nat) (v : WlanStatusChange)
  | roaming (sends : Sends) (v : RoamingInd)
  | apDisconnect (sends : Sends) (v : ApDisconnect)
  /-- a FaultDetect that the platform reports -/
  | faultDetect (sends : Sends) (v : FaultDetect)
  | tick (env : TickEnv) (elapsed : BitVec 32)

/-- What an input does. -/
def take (ind : Indication) : Input → Told
  | .config req => (ind.configure req).still
  | .ipChanged => { ind with enabled := false }.still
  | .initComplete sends status => ind.initComplete sends status
  | .radioUp sends => ind.radioUp sends
  | .resetNotice sends cause => ind.resetNotice sends cause
  | .wlanStatus sends now v => ind.wlanStatus sends now v
  | .roaming sends v => ind.roaming sends v
  | .apDisconnect sends v => ind.apDisconnect sends v
  | .faultDetect sends v => ind.faultDetect sends v
  | .tick env elapsed => ind.tickElapsed env elapsed

/-- The notices as a machine. -/
def notifier : Machine Indication Input Event :=
  ⟨fun ind i => (ind.take i).ind, fun ind i => (ind.take i).out⟩

end Indication

/-! ## The handlers' senders -/

/-- The effect of a datagram. -/
def Event.effect? : Event → Option Effect
  | .sent d => some (.indicate d.ip d.port ((d.notice.pack d.seq).getD []))
  | _ => none

namespace St

open Indication

/-- The settings a request leaves. -/
theorem setIndication_ind (st : St) (req : SetIndicationConfigReq) :
    (st.setIndication req).ind = st.ind.configure req := rfl

theorem emit_effects (st : St) (sends : Sends) (n : Notice) :
    (st.ind.emit sends n).ind = st.nextSeq.ind ∧
      (st.ind.emit sends n).out.filterMap Event.effect? = st.sendIndicationFrame (n.pack st.ind.seq) := by
  unfold emit sendIndicationFrame nextSeq
  cases hpack : n.pack st.ind.seq with
  | none => exact ⟨rfl, rfl⟩
  | some f =>
    dsimp only
    by_cases he : st.ind.enabled
    · by_cases hr : st.ind.recipientIp = 0 ∨ st.ind.recipientPort = 0
      · rw [if_neg (by simpa using he), if_pos hr, if_neg (by simpa using he), if_pos hr]
        exact ⟨rfl, rfl⟩
      · rw [if_neg (by simpa using he), if_neg hr, if_neg (by simpa using he), if_neg hr]
        exact ⟨rfl, by simp [Event.effect?, hpack]⟩
    · simp [he]

end St

end Opcd
