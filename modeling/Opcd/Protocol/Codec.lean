import Opcd.Protocol.Messages

/-!
# What is packed is unpacked

The message kinds of the protocol with the pack and unpack function of each. Bodies are read at literal
offsets, so each layout is checked field by field; kinds are told apart by the type and the id in the
header.

* `frameParse_only`: a frame is accepted with its own size and no other.
* `Kind.unpack_other`: no kind takes the frame of another.
* `codec_roundtrip`: for every kind, every well-formed value and every buffer that holds the frame.
-/

namespace Opcd.Protocol

open Bytes

/-! ## Strings -/

theorem length_copyWithNullPad {n : Nat} (h : 0 < n) (s : Bytes) : (copyWithNullPad n s).length = n := by
  have hlen : (cstr (s.take (n - 1))).length ≤ n - 1 :=
    (List.takeWhile_prefix _).length_le.trans (List.length_take_le _ _)
  simp only [copyWithNullPad, List.length_append, List.length_replicate]
  omega

/-- A padded string is packed as it stands. -/
theorem copyWithNullPad_padded {n : Nat} {b : Buf n} (h : b.Padded) : copyWithNullPad n b.toList = b.toList := by
  obtain ⟨s, hs, h0, rfl⟩ := h
  have hcstr : cstr (Buf.ofBytes n s).toList = s := Buf.str_ofBytes (by omega) h0
  have htake : cstr ((Buf.ofBytes n s).toList.take (n - 1)) = s :=
    (cstr_take (by rw [hcstr]; omega)).trans hcstr
  rw [copyWithNullPad, htake, Buf.toList_ofBytes (by omega)]

theorem copyStringField_past {n : Nat} {a b : Bytes} {i : Nat} (h : a.length ≤ i) :
    copyStringField n (a ++ b) i = copyStringField n b (i - a.length) := by
  simp only [copyStringField, byteAt_past_add h]

/-- A padded string is read back, and was terminated. -/
theorem copyStringField_padded {n : Nat} {b : Buf n} (h : b.Padded) (rest : Bytes) :
    copyStringField n (copyWithNullPad n b.toList ++ rest) 0 = (b, true) := by
  rw [copyWithNullPad_padded h]
  have hread : ∀ i (hi : i < n), byteAt (b.toList ++ rest) (0 + i) = b[i] := fun i hi => by
    simp [byteAt, List.getD_eq_getElem?_getD, List.getElem?_append_left, hi]
  obtain ⟨s, hs, h0, rfl⟩ := h
  have hlast : ∀ i (hi : i < n), s.length ≤ i → (Buf.ofBytes n s)[i] = 0#8 := fun i hi hle => by
    simp [Buf.ofBytes, byteAt, hle]
  refine Prod.ext ?_ ?_
  · refine Vector.ext fun i hi => ?_
    simp only [copyStringField, Vector.getElem_ofFn, hread i hi]
    split
    · next he => rw [hlast i hi (by omega)]; rfl
    · rfl
  · simp only [copyStringField, decide_eq_true_eq]
    exact ⟨s.length, hs, by rw [hread _ hs, hlast _ hs le_rfl]; rfl⟩

/-! ## Fields -/

theorem unpackChlist_past {a b : Bytes} {i : Nat} (h : a.length ≤ i) :
    unpackChlist (a ++ b) i = unpackChlist b (i - a.length) := by
  rw [unpackChlist, unpackChlist, be32Read_past h, be32Read_past (by omega),
    show i + 4 - a.length = i - a.length + 4 by omega]

@[simp] theorem length_packChlist (l : BitVec 64) : (packChlist l).length = 8 := by simp [packChlist]

theorem unpackChlist_packChlist (l : BitVec 64) (b : Bytes) : unpackChlist (packChlist l ++ b) 0 = l := by
  have h0 : be32Read (packChlist l ++ b) 0 = l.extractLsb' 32 32 := be32Read_be32Write _ _
  have h4 : be32Read (packChlist l ++ b) 4 = l.extractLsb' 0 32 := be32Read_be32Write _ b
  rw [unpackChlist, h0, h4]
  ext i hi
  grind

theorem byteAt_singleton (x : Byte) (b : Bytes) : byteAt ([x] ++ b) 0 = x := rfl

theorem two_bytes (x y : Byte) (b : Bytes) : [x, y] ++ b = [x] ++ ([y] ++ b) := rfl

theorem four_bytes (x y z u : Byte) (b : Bytes) :
    [x, y, z, u] ++ b = [x] ++ ([y] ++ ([z] ++ ([u] ++ b))) := rfl

/-! ## Records -/

section

variable {a b rest : Bytes} {i : Nat}

theorem length_packDate (d : Date) : (packDate d).length = 4 := by simp [packDate]

theorem unpackDate_past (h : a.length ≤ i) : unpackDate (a ++ b) i = unpackDate b (i - a.length) := by
  simp only [unpackDate, be16Read_past h, byteAt_past_add h]

theorem unpackDate_packDate (d : Date) : unpackDate (packDate d ++ rest) 0 = d := by
  simp (disch := simp) only [unpackDate, packDate, List.append_assoc, two_bytes, be16Read_be16Write,
    byteAt_past, byteAt_singleton, length_be16Write, List.length_singleton, Nat.reduceSub,
    Nat.reduceAdd]

theorem length_packWlanCfg (w : WlanCfg) : (packWlanCfg w).length = 12 := by simp [packWlanCfg]

theorem unpackWlanCfg_past (h : a.length ≤ i) : unpackWlanCfg (a ++ b) i = unpackWlanCfg b (i - a.length) := by
  simp only [unpackWlanCfg, byteAt_past h, byteAt_past_add h]
  rw [be16Read_past (by omega), unpackChlist_past (by omega),
    show i + 2 - a.length = i - a.length + 2 by omega,
    show i + 4 - a.length = i - a.length + 4 by omega]

theorem unpackWlanCfg_packWlanCfg (w : WlanCfg) : unpackWlanCfg (packWlanCfg w ++ rest) 0 = w := by
  simp (disch := simp) only [unpackWlanCfg, packWlanCfg, List.append_assoc, two_bytes, byteAt_past,
    byteAt_singleton, be16Read_past, be16Read_be16Write, unpackChlist_past, unpackChlist_packChlist,
    length_be16Write, List.length_singleton, Nat.reduceSub, Nat.reduceAdd]

theorem length_packRadioState (r : WlanState) : (packRadioState r).length = 32 := by
  simp [packRadioState]

theorem unpackRadioState_packRadioState (r : WlanState) : unpackRadioState (packRadioState r ++ rest) 0 = r := by
  simp (disch := simp) only [unpackRadioState, packRadioState, List.append_assoc, two_bytes, byteAt_past,
    byteAt_singleton, be16Read_past, be16Read_be16Write, unpackChlist_past, unpackChlist_packChlist,
    Buf.read_past, Buf.read_toList, Vector.length_toList, length_be16Write, List.length_singleton,
    Nat.reduceSub, Nat.reduceAdd]

theorem unpackRadioState_past (h : a.length ≤ i) :
    unpackRadioState (a ++ b) i = unpackRadioState b (i - a.length) := by
  have hadd : ∀ k, i + k - a.length = i - a.length + k := fun k => by omega
  simp (disch := omega) only [unpackRadioState, byteAt_past, be16Read_past, unpackChlist_past, Buf.read_past, hadd]

theorem length_packIpcfgEntry (e : Entry) : (packIpcfgEntry e).length = 64 := by
  simp [packIpcfgEntry, length_copyWithNullPad]

theorem unpackIpcfgEntry_past (h : a.length ≤ i) :
    unpackIpcfgEntry (a ++ b) i = unpackIpcfgEntry b (i - a.length) := by
  have hadd : ∀ k, i + k - a.length = i - a.length + k := fun k => by omega
  simp (disch := omega) only [unpackIpcfgEntry, be16Read_past, be32Read_past, copyStringField_past, hadd]

theorem unpackIpcfgEntry_packIpcfgEntry {e : Entry} (h : e.essid.Padded) :
    unpackIpcfgEntry (packIpcfgEntry e ++ rest) 0 = (e, true) := by
  simp (disch := simp) only [unpackIpcfgEntry, packIpcfgEntry, List.append_assoc, be16Read_past,
    be16Read_be16Write, be32Read_past, be32Read_be32Write, copyStringField_past,
    copyStringField_padded h, length_be16Write, length_be32Write, Nat.reduceSub, Nat.reduceAdd]

theorem length_entries (es : List (Entry × Bool)) :
    (es.flatMap fun e => packIpcfgEntry e.1).length = 64 * es.length := by
  induction es with
  | nil => rfl
  | cons e es ih =>
    rw [List.flatMap_cons, List.length_append, ih, length_packIpcfgEntry, List.length_cons]
    omega

/-- The entries of a body are read back one after the other. -/
theorem unpack_entries {es : List (Entry × Bool)} (h : ∀ e ∈ es, e.1.essid.Padded ∧ e.2 = true) :
    (List.range es.length).map
      (fun i => unpackIpcfgEntry (es.flatMap fun e => packIpcfgEntry e.1) (i * ipcfgEntryLen)) = es := by
  induction es with
  | nil => rfl
  | cons e es ih =>
    obtain ⟨⟨hpad, hterm⟩, hrest⟩ := List.forall_mem_cons.mp h
    have hfirst : unpackIpcfgEntry (packIpcfgEntry e.1 ++ es.flatMap fun e => packIpcfgEntry e.1) 0 = e := by
      rw [unpackIpcfgEntry_packIpcfgEntry hpad, ← hterm]
    have hnext : ∀ i, unpackIpcfgEntry (packIpcfgEntry e.1 ++ es.flatMap fun e => packIpcfgEntry e.1)
        ((i + 1) * ipcfgEntryLen) =
        unpackIpcfgEntry (es.flatMap fun e => packIpcfgEntry e.1) (i * ipcfgEntryLen) := fun i => by
      rw [unpackIpcfgEntry_past (by rw [length_packIpcfgEntry, ipcfgEntryLen]; omega),
        length_packIpcfgEntry, ipcfgEntryLen, show (i + 1) * 64 - 64 = i * 64 by omega]
    rw [List.length_cons, List.range_succ_eq_map, List.map_cons, List.map_map, List.flatMap_cons]
    refine congrArg₂ List.cons (by simpa using hfirst) ?_
    refine Eq.trans (List.map_congr_left fun i _ => ?_) (ih hrest)
    exact hnext i

end

/-! ## Frames -/

/-- The first bytes of a datagram do not depend on what follows them or on where it is cut. -/
theorem byteAt_take_append {f tail : Bytes} {n i : Nat} (hi : i < n) (hf : i < f.length) :
    byteAt ((f ++ tail).take n) i = byteAt f i := by
  simp [byteAt, List.getD_eq_getElem?_getD, hi, List.getElem?_append_left hf]

/-- What an accepted frame is. -/
theorem frameParse_eq_some {f body : Bytes} {h : Header} (hf : frameParse f = some (h, body)) :
    8 ≤ f.length ∧ fixedHeaderUnpack f = some h ∧ h.length.toNat = f.length - 8 := by
  unfold frameParse at hf
  split at hf
  · cases hf
  next h8 =>
  split at hf
  · cases hf
  split at hf
  · cases hf
  split at hf
  · cases hf
  next h' hh =>
  split at hf
  · cases hf
  next hlen =>
  cases hf
  rw [fixedHeaderSize] at h8 hlen
  exact ⟨by omega, hh, by omega⟩

/-- **A frame is accepted with its own size and no other**, whatever bytes follow it in the buffer. -/
theorem frameParse_only {f body : Bytes} {h : Header} (hf : frameParse f = some (h, body)) (tail : Bytes)
    {n : Nat} (hn : n ≤ (f ++ tail).length) : (frameParse ((f ++ tail).take n)).isSome = true ↔ n = f.length := by
  constructor
  · intro hacc
    obtain ⟨⟨h', body'⟩, hg⟩ := Option.isSome_iff_exists.mp hacc
    obtain ⟨h8, hh, hlen⟩ := frameParse_eq_some hf
    obtain ⟨h8', hh', hlen'⟩ := frameParse_eq_some hg
    have hcut : ((f ++ tail).take n).length = n := by rw [List.length_take]; omega
    rw [hcut] at h8' hlen'
    -- the header, and so the Length in it, is that of the frame
    have hbytes : ∀ i < 8, byteAt ((f ++ tail).take n) i = byteAt f i := fun i hi =>
      byteAt_take_append (by omega) (by omega)
    have hun : fixedHeaderUnpack ((f ++ tail).take n) = fixedHeaderUnpack f := by
      unfold fixedHeaderUnpack
      rw [hcut, if_neg (by rw [fixedHeaderSize]; omega), if_neg (by rw [fixedHeaderSize]; omega)]
      simp only [be16Read, hbytes, Nat.reduceAdd, Nat.reduceLT]
    rw [hun, hh] at hh'
    obtain rfl := Option.some.inj hh'
    omega
  · rintro rfl
    rw [List.take_left, hf]
    rfl

theorem frameBody_eq_some {f body : Bytes} {cmd : Byte} {id seq len : BitVec 16} {v : Byte} {n : Nat}
    (hf : frameParse f = some (⟨v, cmd, id, seq, len⟩, body)) (hn : n ≤ body.length) :
    frameBody cmd id n f = some body := by
  simp [frameBody, hf, hn]

theorem frameBody_eq_none {f body : Bytes} {h : Header} {cmd : Byte} {id : BitVec 16} {n : Nat}
    (hf : frameParse f = some (h, body)) (hne : ¬ (h.commandType = cmd ∧ h.reqIndicationId = id)) :
    frameBody cmd id n f = none := by
  unfold frameBody
  rw [hf]
  dsimp only
  split
  · rfl
  · split
    · rfl
    · simp_all

theorem frameBody_le {f b : Bytes} {cmd : Byte} {id : BitVec 16} {m n : Nat}
    (h : frameBody cmd id n f = some b) (hm : m ≤ n) : frameBody cmd id m f = some b := by
  unfold frameBody at h ⊢
  cases hp : frameParse f with
  | none => rw [hp] at h; cases h
  | some p =>
    rw [hp] at h
    dsimp only at h ⊢
    split_ifs at h ⊢ with h₁ h₂ h₃ h₄ <;> first | exact h | omega

theorem simpleAckUnpack_eq (f : Bytes) (id : BitVec 16) :
    simpleAckUnpack f id = (frameBody cmdAck id 4 f).map fun body => (body.be16Read 0, body.be16Read 2) := by
  unfold simpleAckUnpack frameBody
  cases frameParse f with
  | none => rfl
  | some p =>
    dsimp only
    split_ifs <;> rfl

/-! ## Message kinds -/

theorem Command.id_inj {c c' : Command} (h : c.id = c'.id) : c = c' := by
  cases c <;> cases c' <;> first | rfl | exact absurd h (by decide)

theorem IndKind.id_inj {i i' : IndKind} (h : i.id = i'.id) : i = i' := by
  cases i <;> cases i' <;> first | rfl | exact absurd h (by decide)

/-- A message kind: the request or the acknowledgement of a command, or an indication. -/
inductive Kind
  | request (c : Command)
  | ack (c : Command)
  | indication (i : IndKind)
  deriving DecidableEq, Repr

namespace Kind

/-- The command type on the wire. -/
def type : Kind → Byte
  | request _ => cmdRequest
  | ack _ => cmdAck
  | indication _ => cmdInd

/-- The request or indication id on the wire. -/
def id : Kind → BitVec 16
  | request c => c.id
  | ack c => c.id
  | indication i => i.id

/-- A kind is told by its type and its id. -/
theorem eq_of_type_id {k k' : Kind} (ht : k.type = k'.type) (hi : k.id = k'.id) : k = k' := by
  cases k with
  | request c =>
    cases k' with
    | request c' => exact congrArg request (Command.id_inj hi)
    | ack _ => exact absurd (show cmdRequest = cmdAck from ht) (by decide)
    | indication _ => exact absurd (show cmdRequest = cmdInd from ht) (by decide)
  | ack c =>
    cases k' with
    | ack c' => exact congrArg ack (Command.id_inj hi)
    | request _ => exact absurd (show cmdAck = cmdRequest from ht) (by decide)
    | indication _ => exact absurd (show cmdAck = cmdInd from ht) (by decide)
  | indication i =>
    cases k' with
    | indication i' => exact congrArg indication (IndKind.id_inj hi)
    | request _ => exact absurd (show cmdInd = cmdRequest from ht) (by decide)
    | ack _ => exact absurd (show cmdInd = cmdAck from ht) (by decide)

/-- The struct a kind carries. Acknowledgements but two carry a result and an error cause; the flags
beside strings and entries are the terminated ones. -/
def Value : Kind → Type
  | request .login => LoginReq
  | request .logout => Unit
  | request .getBasicInfo => Unit
  | request .getDeviceInfo => Unit
  | request .setPassword => SetPasswordReq
  | request .setIpConfigList => List (Entry × Bool)
  | request .changeIpAddress => BitVec 16
  | request .setRadioConfig => RadioConfig
  | request .setIndicationConfig => SetIndicationConfigReq
  | request .reset => Unit
  | ack .getBasicInfo => BasicInfoAck
  | ack .getDeviceInfo => DeviceInfoAck
  | ack _ => BitVec 16 × BitVec 16
  | indication .initComplete => InitComplete
  | indication .wlanStatusChange => WlanStatusChange
  | indication .roaming => RoamingInd
  | indication .apDisconnect => ApDisconnect
  | indication .faultDetect => FaultDetect
  | indication .resetNotice => ResetNotice
  | indication .keepAlive => KeepAlive

/-- The pack function of a kind. -/
def pack (k : Kind) (cap : Nat) (seq : BitVec 16) : k.Value → Option Bytes :=
  match k with
  | request .login => loginReqPack cap seq
  | request .logout => fun _ => logoutReqPack cap seq
  | request .getBasicInfo => fun _ => getBasicInfoReqPack cap seq
  | request .getDeviceInfo => fun _ => getDeviceInfoReqPack cap seq
  | request .setPassword => setPasswordReqPack cap seq
  | request .setIpConfigList => setIpConfigListReqPack cap seq
  | request .changeIpAddress => changeIpAddressReqPack cap seq
  | request .setRadioConfig => setRadioConfigReqPack cap seq
  | request .setIndicationConfig => setIndicationConfigReqPack cap seq
  | request .reset => fun _ => resetReqPack cap seq
  | ack .login => fun v => loginAckPack cap seq v.1 v.2
  | ack .logout => fun v => logoutAckPack cap seq v.1 v.2
  | ack .getBasicInfo => getBasicInfoAckPack cap seq
  | ack .getDeviceInfo => getDeviceInfoAckPack cap seq
  | ack .setPassword => fun v => setPasswordAckPack cap seq v.1 v.2
  | ack .setIpConfigList => fun v => setIpConfigListAckPack cap seq v.1 v.2
  | ack .changeIpAddress => fun v => changeIpAddressAckPack cap seq v.1 v.2
  | ack .setRadioConfig => fun v => setRadioConfigAckPack cap seq v.1 v.2
  | ack .setIndicationConfig => fun v => setIndicationConfigAckPack cap seq v.1 v.2
  | ack .reset => fun v => resetAckPack cap seq v.1 v.2
  | indication .initComplete => initCompletePack cap seq
  | indication .wlanStatusChange => wlanStatusChangePack cap seq
  | indication .roaming => roamingPack cap seq
  | indication .apDisconnect => apDisconnectPack cap seq
  | indication .faultDetect => faultDetectPack cap seq
  | indication .resetNotice => resetNoticePack cap seq
  | indication .keepAlive => keepAlivePack cap seq

/-- The unpack function of a kind. -/
def unpack (k : Kind) (frame : Bytes) : Option k.Value :=
  match k with
  | request .login => loginReqUnpack frame
  | request .logout => if logoutReqUnpack frame then some () else none
  | request .getBasicInfo => if getBasicInfoReqUnpack frame then some () else none
  | request .getDeviceInfo => if getDeviceInfoReqUnpack frame then some () else none
  | request .setPassword => setPasswordReqUnpack frame
  | request .setIpConfigList => (setIpConfigListReqUnpack frame).toOption
  | request .changeIpAddress => changeIpAddressReqUnpack frame
  | request .setRadioConfig => setRadioConfigReqUnpack frame
  | request .setIndicationConfig => setIndicationConfigReqUnpack frame
  | request .reset => if resetReqUnpack frame then some () else none
  | ack .login => loginAckUnpack frame
  | ack .logout => logoutAckUnpack frame
  | ack .getBasicInfo => getBasicInfoAckUnpack frame
  | ack .getDeviceInfo => getDeviceInfoAckUnpack frame
  | ack .setPassword => setPasswordAckUnpack frame
  | ack .setIpConfigList => setIpConfigListAckUnpack frame
  | ack .changeIpAddress => changeIpAddressAckUnpack frame
  | ack .setRadioConfig => setRadioConfigAckUnpack frame
  | ack .setIndicationConfig => setIndicationConfigAckUnpack frame
  | ack .reset => resetAckUnpack frame
  | indication .initComplete => initCompleteUnpack frame
  | indication .wlanStatusChange => wlanStatusChangeUnpack frame
  | indication .roaming => roamingUnpack frame
  | indication .apDisconnect => apDisconnectUnpack frame
  | indication .faultDetect => faultDetectUnpack frame
  | indication .resetNotice => resetNoticeUnpack frame
  | indication .keepAlive => keepAliveUnpack frame

/-- The size of a frame of the kind. -/
def frameSize (k : Kind) : k.Value → Nat :=
  match k with
  | request .login => fun _ => 192
  | request .logout => fun _ => 8
  | request .getBasicInfo => fun _ => 8
  | request .getDeviceInfo => fun _ => 8
  | request .setPassword => fun _ => 320
  | request .setIpConfigList => fun es : List (Entry × Bool) => 64 + 64 * es.length
  | request .changeIpAddress => fun _ => 68
  | request .setRadioConfig => fun _ => 92
  | request .setIndicationConfig => fun _ => 72
  | request .reset => fun _ => 8
  | ack .getBasicInfo => fun _ => 80
  | ack .getDeviceInfo => fun _ => 416
  | ack _ => fun _ => 68
  | indication .initComplete => fun _ => 68
  | indication .wlanStatusChange => fun _ => 68
  | indication .roaming => fun _ => 76
  | indication .apDisconnect => fun _ => 76
  | indication .faultDetect => fun _ => 68
  | indication .resetNotice => fun _ => 68
  | indication .keepAlive => fun _ => 96

/-- The strings of a value are terminated and zero-padded, its flags say so, and a list has 1 to 20
entries. -/
def WellFormed (k : Kind) : k.Value → Prop :=
  match k with
  | request .login => fun v : LoginReq => v.password.Padded ∧ v.passwordTerminated = true
  | request .setPassword => fun v : SetPasswordReq =>
    (v.oldPassword.Padded ∧ v.oldPasswordTerminated = true) ∧
      v.newPassword.Padded ∧ v.newPasswordTerminated = true
  | request .setIpConfigList => fun es : List (Entry × Bool) =>
    (1 ≤ es.length ∧ es.length ≤ 20) ∧ ∀ e ∈ es, e.1.essid.Padded ∧ e.2 = true
  | ack .getDeviceInfo => fun v : DeviceInfoAck =>
    v.firmwareVersion.Padded ∧ v.hardwareVersion.Padded ∧ v.serialNumber.Padded ∧ v.essid.Padded
  | indication .keepAlive => fun v : KeepAlive => v.timestamp.Padded
  | _ => fun _ => True

/-! ## Other kinds -/

/-- An empty request takes nothing else. -/
theorem emptyReqUnpack_other {c : Command} {f body : Bytes} {h : Header} (hf : frameParse f = some (h, body))
    (hne : ¬ (h.commandType = cmdRequest ∧ h.reqIndicationId = c.id)) : emptyReqUnpack c f = false := by
  unfold emptyReqUnpack
  rw [hf]
  split
  · rfl
  · simpa using hne

/-- **No kind takes the frame of another.** -/
theorem unpack_other {k : Kind} {f body : Bytes} {h : Header} (hf : frameParse f = some (h, body))
    (hne : ¬ (h.commandType = k.type ∧ h.reqIndicationId = k.id)) : k.unpack f = none := by
  have hbody : ∀ n, frameBody k.type k.id n f = none := fun n => frameBody_eq_none hf hne
  cases k with
  | request c =>
    have hempty : emptyReqUnpack c f = false := emptyReqUnpack_other hf hne
    have hreq : ∀ n, requestBody c n f = none := fun n => hbody n
    cases c <;> simp only [unpack, loginReqUnpack, logoutReqUnpack, getBasicInfoReqUnpack,
      getDeviceInfoReqUnpack, setPasswordReqUnpack, setIpConfigListReqUnpack, changeIpAddressReqUnpack,
      setRadioConfigReqUnpack, setIndicationConfigReqUnpack, resetReqUnpack, hempty, hreq] <;> rfl
  | ack c =>
    have hack : ∀ n, frameBody cmdAck c.id n f = none := hbody
    have hsimple : simpleAckUnpack f c.id = none := by
      rw [simpleAckUnpack_eq, hack]
      rfl
    cases c <;> simp only [unpack, loginAckUnpack, logoutAckUnpack, getBasicInfoAckUnpack,
      getDeviceInfoAckUnpack, setPasswordAckUnpack, setIpConfigListAckUnpack, changeIpAddressAckUnpack,
      setRadioConfigAckUnpack, setIndicationConfigAckUnpack, resetAckUnpack, hsimple, hack] <;> rfl
  | indication i =>
    have hind : ∀ n, frameBody cmdInd i.id n f = none := hbody
    cases i <;> simp only [unpack, initCompleteUnpack, wlanStatusChangeUnpack, roamingUnpack,
      apDisconnectUnpack, faultDetectUnpack, resetNoticeUnpack, keepAliveUnpack, hind] <;> rfl

/-! ## Round trips -/

/-- A frame carries this value of this kind under this sequence number. -/
structure Carries (k : Kind) (seq : BitVec 16) (v : k.Value) (f : Bytes) : Prop where
  size : f.length = k.frameSize v
  /-- the frame is accepted, with its sequence number -/
  parse : ∃ h body, frameParse f = some (h, body) ∧ h.sequenceNumber = seq
  /-- whatever follows it in the buffer, it is accepted with exactly its size -/
  exact : ∀ tail n, n ≤ (f ++ tail).length →
    ((frameParse ((f ++ tail).take n)).isSome = true ↔ n = f.length)
  unpack : k.unpack f = some v
  other : ∀ k', k' ≠ k → k'.unpack f = none

theorem Carries.of_parse {k : Kind} {seq len : BitVec 16} {v : k.Value} {f body : Bytes}
    (hf : frameParse f = some (⟨protocolVersion, k.type, k.id, seq, len⟩, body))
    (hsize : f.length = k.frameSize v) (hun : k.unpack f = some v) : Carries k seq v f where
  size := hsize
  parse := ⟨_, _, hf, rfl⟩
  exact tail _ hn := frameParse_only hf tail hn
  unpack := hun
  other _ hne := unpack_other hf fun ⟨ht, hi⟩ => hne (eq_of_type_id ht.symm hi.symm)

/-- In every buffer that holds its frame the value is packed, and the frame carries it. -/
def RoundTrips (k : Kind) (v : k.Value) : Prop :=
  ∀ cap seq, k.frameSize v ≤ cap → ∃ f, k.pack cap seq v = some f ∧ Carries k seq v f

/-- A kind with a body `b`, packed with the Length `l` of its size. The body is given with nothing behind
it, so that its last field is read like the others. -/
theorem carries_of_build {k : Kind} {l : BitVec 16} {v : k.Value} {b : Bytes}
    (hpack : ∀ cap seq, k.pack cap seq v = frameBuild cap k.type k.id seq l b) {n : Nat} (hb : b.length = n)
    (hl : l.toNat = n + 56) (hmax : n ≤ payloadMax) (hsize : k.frameSize v = 64 + n)
    (hun : ∀ f, frameBody k.type k.id n f = some (b ++ []) → k.unpack f = some v) : RoundTrips k v := by
  intro cap seq hcap
  subst hb
  obtain ⟨f, hf, hfl⟩ : ∃ f, frameBuild cap k.type k.id seq l b = some f ∧
      f.length = 64 + b.length := by
    refine ⟨headerPack ⟨protocolVersion, k.type, k.id, seq, l⟩ ++ b, ?_, by simp⟩
    rw [frameBuild, if_neg (by omega), if_neg (by rw [headerSize]; omega)]
  have hp := frameParse_frameBuild hf hl
  have hbody : frameBody k.type k.id b.length f = some (b ++ []) := by
    rw [List.append_nil]
    exact frameBody_eq_some hp le_rfl
  exact ⟨f, (hpack cap seq).trans hf, .of_parse hp (by rw [hfl, hsize]) (hun f hbody)⟩

theorem requestBody_of {c : Command} {n : Nat} {f : Bytes} {b : Option Bytes}
    (h : frameBody (request c).type (request c).id n f = b) : requestBody c n f = b := h

theorem frameBody_of_ack {c : Command} {n : Nat} {f : Bytes} {b : Option Bytes}
    (h : frameBody (ack c).type (ack c).id n f = b) : frameBody cmdAck c.id n f = b := h

theorem frameBody_of_ind {i : IndKind} {n : Nat} {f : Bytes} {b : Option Bytes}
    (h : frameBody (indication i).type (indication i).id n f = b) : frameBody cmdInd i.id n f = b := h

/-- An empty request is its fixed header. -/
theorem carries_of_empty {c : Command} {v : (request c).Value}
    (hpack : ∀ cap seq, (request c).pack cap seq v = emptyReqPack cap c.id seq) (hsize : (request c).frameSize v = 8)
    (hun : ∀ f, emptyReqUnpack c f = true → (request c).unpack f = some v) : RoundTrips (request c) v := by
  intro cap seq hcap
  have hlen : (fixedHeaderPack ⟨protocolVersion, cmdRequest, c.id, seq, 0⟩).length = 8 := by simp
  have hp : frameParse (fixedHeaderPack ⟨protocolVersion, cmdRequest, c.id, seq, 0⟩)
      = some (⟨protocolVersion, cmdRequest, c.id, seq, 0⟩, []) := by
    have hh := fixedHeaderUnpack_pack ⟨protocolVersion, cmdRequest, c.id, seq, 0⟩ []
    rw [List.append_nil] at hh
    rw [frameParse, hh, hlen]
    simp [fixedHeaderSize, frameMax, headerSize]
  refine ⟨_, ?_, .of_parse hp (by rw [hlen, hsize]) (hun _ ?_)⟩
  · rw [hpack, emptyReqPack, emptyFrameBuild, if_neg (by rw [fixedHeaderSize]; omega)]
  · rw [emptyReqUnpack, hlen, if_neg (by simp [fixedHeaderSize]), hp]
    simp

/-- A simple acknowledgement. -/
theorem carries_of_simpleAck {c : Command} {result cause : BitVec 16} {v : (ack c).Value}
    (hpack : ∀ cap seq, (ack c).pack cap seq v = simpleAckPack cap c.id seq simpleAckLength result cause)
    (hsize : (ack c).frameSize v = 68)
    (hun : ∀ f, simpleAckUnpack f c.id = some (result, cause) → (ack c).unpack f = some v) : RoundTrips (ack c) v := by
  refine carries_of_build (n := 4) hpack (by simp) rfl (by decide) hsize fun f hf => hun f ?_
  rw [simpleAckUnpack_eq, frameBody_of_ack hf]
  simp (disch := simp) only [Option.map_some, List.append_assoc, be16Read_past, be16Read_be16Write,
    length_be16Write, Nat.reduceSub]

theorem carries_login {v : LoginReq} (h : WellFormed (request .login) v) : RoundTrips (request .login) v := by
  obtain ⟨hpad, hterm⟩ := h
  have hl : ∀ s, (copyWithNullPad 128 s).length = 128 := length_copyWithNullPad (by decide)
  refine carries_of_build (l := 184) (b := copyWithNullPad 128 v.password.toList) (fun _ _ => rfl) (hl _) rfl
    (by decide) rfl fun f hf => ?_
  show loginReqUnpack f = some v
  rw [loginReqUnpack, requestBody_of hf, Option.map_some, copyStringField_padded hpad, ← hterm]

theorem carries_setPassword {v : SetPasswordReq} (h : WellFormed (request .setPassword) v) :
    RoundTrips (request .setPassword) v := by
  obtain ⟨⟨hpo, hto⟩, hpn, htn⟩ := h
  have hl : ∀ s, (copyWithNullPad 128 s).length = 128 := length_copyWithNullPad (by decide)
  refine carries_of_build (l := 312) (b := copyWithNullPad 128 v.oldPassword.toList ++
    copyWithNullPad 128 v.newPassword.toList) (fun _ _ => rfl) (by simp [hl]) rfl (by decide) rfl fun f hf => ?_
  show setPasswordReqUnpack f = some v
  rw [setPasswordReqUnpack, requestBody_of hf]
  simp (disch := simp [hl]) only [Option.map_some, List.append_assoc, copyStringField_past,
    copyStringField_padded hpo, copyStringField_padded hpn, hl, Nat.reduceSub]
  obtain ⟨old, new, told, tnew⟩ := v
  simp_all

theorem carries_setIpConfigList {es : List (Entry × Bool)} (h : WellFormed (request .setIpConfigList) es) :
    RoundTrips (request .setIpConfigList) es := by
  obtain ⟨⟨hmin, hmax⟩, hes⟩ := h
  have hlen := length_entries es
  have hpack : ∀ cap seq, (request .setIpConfigList).pack cap seq es = frameBuild cap cmdRequest
      Command.setIpConfigList.id seq (BitVec.ofNat 16 (56 + es.length * ipcfgEntryLen))
      (es.flatMap fun e => packIpcfgEntry e.1) := by
    intro cap seq
    show setIpConfigListReqPack cap seq es = _
    rw [setIpConfigListReqPack, if_neg (by rw [ipcfgListMaxPerReq]; omega)]
  refine carries_of_build hpack hlen ?_ ?_ rfl fun f hf => ?_
  · rw [BitVec.toNat_ofNat, ipcfgEntryLen, Nat.mod_eq_of_lt (by omega)]
    omega
  · rw [payloadMax, frameMax, headerSize]
    omega
  · have hb : requestBody .setIpConfigList 0 f = some (es.flatMap fun e => packIpcfgEntry e.1) := by
      rw [List.append_nil] at hf
      exact frameBody_le hf (Nat.zero_le _)
    have hun : setIpConfigListReqUnpack f = .ok es := by
      rw [setIpConfigListReqUnpack, hb]
      dsimp only
      rw [hlen, if_neg (by rw [ipcfgEntryLen]; omega), ipcfgEntryLen,
        show 64 * es.length / 64 = es.length by omega, if_neg (by rw [ipcfgListMaxPerReq]; omega)]
      exact congrArg Except.ok (unpack_entries hes)
    show (setIpConfigListReqUnpack f).toOption = some es
    rw [hun]
    rfl

theorem carries_changeIpAddress (n : BitVec 16) : RoundTrips (request .changeIpAddress) n := by
  refine carries_of_build (l := 60) (b := [0, 0] ++ be16Write n) (fun _ _ => rfl) (by simp) rfl (by decide) rfl
    fun f hf => ?_
  show changeIpAddressReqUnpack f = some n
  rw [changeIpAddressReqUnpack, requestBody_of hf]
  simp (disch := simp) only [Option.map_some, List.append_assoc,
    be16Read_past, be16Read_be16Write, List.length_cons, List.length_nil, Nat.reduceAdd, Nat.reduceSub]

theorem carries_setRadioConfig (v : RadioConfig) : RoundTrips (request .setRadioConfig) v := by
  refine carries_of_build (l := 84) (b := be16Write v.stationType ++ be16Write v.priorityCh ++
    packWlanCfg v.wlan1 ++ packWlanCfg v.wlan2) (fun _ _ => rfl) (by simp [length_packWlanCfg]) rfl
    (by decide) rfl fun f hf => ?_
  show setRadioConfigReqUnpack f = some v
  rw [setRadioConfigReqUnpack, requestBody_of hf]
  simp (disch := simp [length_packWlanCfg]) only [Option.map_some,
    List.append_assoc, be16Read_past, be16Read_be16Write, unpackWlanCfg_past,
    unpackWlanCfg_packWlanCfg, length_packWlanCfg, length_be16Write, Nat.reduceSub]

theorem carries_setIndicationConfig (v : SetIndicationConfigReq) : RoundTrips (request .setIndicationConfig) v := by
  refine carries_of_build (l := 64) (b := be16Write v.recipientPort ++ [v.infoBits, v.periodSeconds] ++
    be32Write v.recipientIp) (fun _ _ => rfl) (by simp) rfl (by decide) rfl fun f hf => ?_
  show setIndicationConfigReqUnpack f = some v
  rw [setIndicationConfigReqUnpack, requestBody_of hf]
  simp (disch := simp) only [Option.map_some,
    List.append_assoc, two_bytes, byteAt_past, byteAt_singleton, be16Read_be16Write, be32Read_past,
    be32Read_be32Write, length_be16Write, List.length_singleton, Nat.reduceSub]

theorem carries_getBasicInfo (v : BasicInfoAck) : RoundTrips (ack .getBasicInfo) v := by
  refine carries_of_build (l := 72) (b := be32Write v.vendorCode ++ be16Write v.productCode ++
    be16Write v.productSubcode ++ be32Write v.deviceStatus ++ [0, 0] ++ be16Write v.stationType) (fun _ _ => rfl)
    (by simp) rfl (by decide) rfl fun f hf => ?_
  show getBasicInfoAckUnpack f = some v
  rw [getBasicInfoAckUnpack, frameBody_of_ack hf]
  simp (disch := simp) only [Option.map_some, List.append_assoc,
    two_bytes, be16Read_past, be16Read_be16Write, be32Read_past, be32Read_be32Write, length_be16Write,
    length_be32Write, List.length_singleton, Nat.reduceSub]

/-- The body of a GetDeviceInfo acknowledgement in four blocks: up to the dates, the strings, up to the
flags, and the radios. -/
def deviceInfoHead (v : DeviceInfoAck) : Bytes :=
  be16Write v.result ++ be16Write v.errorCause ++ be32Write v.vendorCode ++ be16Write v.productCode ++
    be16Write v.productSubcode ++ packDate v.manufacture ++ packDate v.shipment

def deviceInfoStrings (v : DeviceInfoAck) : Bytes :=
  copyWithNullPad 32 v.firmwareVersion.toList ++ copyWithNullPad 32 v.hardwareVersion.toList ++
    copyWithNullPad 32 v.serialNumber.toList

def deviceInfoNet (v : DeviceInfoAck) : Bytes :=
  v.ethernetMac.toList ++ [0, 0] ++ be32Write v.ipAddress ++ be32Write v.subnetMask ++
    be32Write v.defaultGateway ++ be32Write v.ntpServer ++ copyWithNullPad 32 v.essid.toList ++
    be32Write v.deviceStatus ++ be16Write v.stationType ++ be16Write v.priorityCh ++
    [v.ieee11r, v.ieee11ai, v.ieee11k, v.ieee11v]

def deviceInfoRadios (v : DeviceInfoAck) : Bytes :=
  List.replicate 40 0 ++ packRadioState v.wlan1 ++ List.replicate 32 0 ++ packRadioState v.wlan2 ++
    List.replicate 32 0

theorem length_deviceInfoHead (v : DeviceInfoAck) : (deviceInfoHead v).length = 20 := by
  simp [deviceInfoHead, length_packDate]

theorem length_deviceInfoStrings (v : DeviceInfoAck) : (deviceInfoStrings v).length = 96 := by
  simp [deviceInfoStrings, length_copyWithNullPad]

theorem length_deviceInfoNet (v : DeviceInfoAck) : (deviceInfoNet v).length = 68 := by
  simp [deviceInfoNet, length_copyWithNullPad]

theorem length_deviceInfoRadios (v : DeviceInfoAck) : (deviceInfoRadios v).length = 168 := by
  simp [deviceInfoRadios, length_packRadioState]

theorem getDeviceInfoAckPack_eq (cap : Nat) (seq : BitVec 16) (v : DeviceInfoAck) :
    getDeviceInfoAckPack cap seq v = frameBuild cap cmdAck Command.getDeviceInfo.id seq 408
      (deviceInfoHead v ++ (deviceInfoStrings v ++ (deviceInfoNet v ++ deviceInfoRadios v))) := by
  simp only [getDeviceInfoAckPack, deviceInfoHead, deviceInfoStrings, deviceInfoNet, deviceInfoRadios,
    List.append_assoc]

section DeviceInfo

variable {v : DeviceInfoAck} {rest : Bytes}

theorem read_deviceInfoHead :
    be16Read (deviceInfoHead v ++ rest) 0 = v.result ∧ be16Read (deviceInfoHead v ++ rest) 2 = v.errorCause ∧
      be32Read (deviceInfoHead v ++ rest) 4 = v.vendorCode ∧ be16Read (deviceInfoHead v ++ rest) 8 = v.productCode ∧
      be16Read (deviceInfoHead v ++ rest) 10 = v.productSubcode ∧
      unpackDate (deviceInfoHead v ++ rest) 12 = v.manufacture ∧
      unpackDate (deviceInfoHead v ++ rest) 16 = v.shipment := by
  simp (disch := simp [length_packDate]) only [deviceInfoHead, List.append_assoc, be16Read_past,
    be16Read_be16Write, be32Read_past, be32Read_be32Write, unpackDate_past, unpackDate_packDate,
    length_packDate, length_be16Write, length_be32Write, Nat.reduceSub, and_self]

theorem read_deviceInfoStrings (hfw : v.firmwareVersion.Padded) (hhw : v.hardwareVersion.Padded)
    (hsn : v.serialNumber.Padded) :
    copyStringField 32 (deviceInfoStrings v ++ rest) 0 = (v.firmwareVersion, true) ∧
      copyStringField 32 (deviceInfoStrings v ++ rest) 32 = (v.hardwareVersion, true) ∧
      copyStringField 32 (deviceInfoStrings v ++ rest) 64 = (v.serialNumber, true) := by
  have hl : ∀ s, (copyWithNullPad 32 s).length = 32 := length_copyWithNullPad (by decide)
  simp (disch := simp [hl]) only [deviceInfoStrings, List.append_assoc, copyStringField_past,
    copyStringField_padded hfw, copyStringField_padded hhw, copyStringField_padded hsn, hl,
    Nat.reduceSub, and_self]

theorem read_deviceInfoNet (hes : v.essid.Padded) :
    Buf.read 6 (deviceInfoNet v ++ rest) 0 = v.ethernetMac ∧ be32Read (deviceInfoNet v ++ rest) 8 = v.ipAddress ∧
      be32Read (deviceInfoNet v ++ rest) 12 = v.subnetMask ∧
      be32Read (deviceInfoNet v ++ rest) 16 = v.defaultGateway ∧ be32Read (deviceInfoNet v ++ rest) 20 = v.ntpServer ∧
      copyStringField 32 (deviceInfoNet v ++ rest) 24 = (v.essid, true) ∧
      be32Read (deviceInfoNet v ++ rest) 56 = v.deviceStatus ∧ be16Read (deviceInfoNet v ++ rest) 60 = v.stationType ∧
      be16Read (deviceInfoNet v ++ rest) 62 = v.priorityCh ∧ byteAt (deviceInfoNet v ++ rest) 64 = v.ieee11r ∧
      byteAt (deviceInfoNet v ++ rest) 65 = v.ieee11ai ∧ byteAt (deviceInfoNet v ++ rest) 66 = v.ieee11k ∧
      byteAt (deviceInfoNet v ++ rest) 67 = v.ieee11v := by
  have hl : ∀ s, (copyWithNullPad 32 s).length = 32 := length_copyWithNullPad (by decide)
  simp (disch := simp [hl]) only [deviceInfoNet, List.append_assoc, two_bytes, four_bytes,
    be16Read_past, be16Read_be16Write, be32Read_past, be32Read_be32Write, copyStringField_past,
    copyStringField_padded hes, Buf.read_toList, byteAt_past, byteAt_singleton, hl,
    Vector.length_toList, length_be16Write, length_be32Write, List.length_singleton, Nat.reduceSub,
    and_self]

theorem read_deviceInfoRadios :
    unpackRadioState (deviceInfoRadios v ++ rest) 40 = v.wlan1 ∧
      unpackRadioState (deviceInfoRadios v ++ rest) 104 = v.wlan2 := by
  simp (disch := simp [length_packRadioState]) only [deviceInfoRadios, List.append_assoc,
    unpackRadioState_past, unpackRadioState_packRadioState, length_packRadioState,
    List.length_replicate, Nat.reduceSub, and_self]

end DeviceInfo

theorem carries_getDeviceInfo {v : DeviceInfoAck} (h : WellFormed (ack .getDeviceInfo) v) :
    RoundTrips (ack .getDeviceInfo) v := by
  obtain ⟨hfw, hhw, hsn, hes⟩ := h
  refine carries_of_build (fun cap seq => getDeviceInfoAckPack_eq cap seq v) (n := 352)
    (by simp [length_deviceInfoHead, length_deviceInfoStrings, length_deviceInfoNet,
      length_deviceInfoRadios]) rfl (by decide) rfl fun f hf => ?_
  show getDeviceInfoAckUnpack f = some v
  rw [getDeviceInfoAckUnpack, frameBody_of_ack hf]
  simp (disch := simp [length_deviceInfoHead, length_deviceInfoStrings, length_deviceInfoNet]) only
    [Option.map_some, List.append_assoc, be16Read_past, be32Read_past, copyStringField_past, Buf.read_past,
      byteAt_past, unpackRadioState_past, read_deviceInfoHead, read_deviceInfoStrings hfw hhw hsn,
      read_deviceInfoNet hes, read_deviceInfoRadios, length_deviceInfoHead, length_deviceInfoStrings,
      length_deviceInfoNet, Nat.reduceSub]

/-! ### Indications -/

/-- A signal that is sign-extended is cut back to itself. -/
theorem setWidth_signExtend (x : Byte) : (x.signExtend 16).setWidth 8 = x := by
  ext i hi
  simp only [BitVec.getElem_setWidth, BitVec.getLsbD_signExtend]
  simp [hi, show i < 16 by omega]

theorem carries_initComplete (v : InitComplete) : RoundTrips (indication .initComplete) v := by
  refine carries_of_build (l := 60) (b := be32Write v.status) (fun _ _ => rfl) (by simp) rfl (by decide) rfl
    fun f hf => ?_
  show initCompleteUnpack f = some v
  rw [initCompleteUnpack, frameBody_of_ind hf, Option.map_some, be32Read_be32Write]

theorem carries_resetNotice (v : ResetNotice) : RoundTrips (indication .resetNotice) v := by
  refine carries_of_build (l := 60) (b := be32Write v.resetCause) (fun _ _ => rfl) (by simp) rfl (by decide) rfl
    fun f hf => ?_
  show resetNoticeUnpack f = some v
  rw [resetNoticeUnpack, frameBody_of_ind hf, Option.map_some, be32Read_be32Write]

theorem carries_wlanStatusChange (v : WlanStatusChange) : RoundTrips (indication .wlanStatusChange) v := by
  refine carries_of_build (l := 60) (b := be16Write v.wlanStatus ++ be16Write v.indicationCh) (fun _ _ => rfl)
    (by simp) rfl (by decide) rfl fun f hf => ?_
  show wlanStatusChangeUnpack f = some v
  rw [wlanStatusChangeUnpack, frameBody_of_ind hf]
  simp (disch := simp) only [Option.map_some, List.append_assoc, be16Read_past, be16Read_be16Write,
    length_be16Write, Nat.reduceSub]

theorem carries_faultDetect (v : FaultDetect) : RoundTrips (indication .faultDetect) v := by
  refine carries_of_build (l := 60) (b := be16Write v.congestionId ++ be16Write v.currentVal) (fun _ _ => rfl)
    (by simp) rfl (by decide) rfl fun f hf => ?_
  show faultDetectUnpack f = some v
  rw [faultDetectUnpack, frameBody_of_ind hf]
  simp (disch := simp) only [Option.map_some, List.append_assoc, be16Read_past, be16Read_be16Write,
    length_be16Write, Nat.reduceSub]

theorem carries_roaming (v : RoamingInd) : RoundTrips (indication .roaming) v := by
  refine carries_of_build (l := 68) (b := be16Write (v.currentSnr.signExtend 16) ++
    be16Write (v.currentRssi.signExtend 16) ++ v.connectApMac.toList ++ be16Write v.chNumber) (fun _ _ => rfl)
    (by simp) rfl (by decide) rfl fun f hf => ?_
  show roamingUnpack f = some v
  rw [roamingUnpack, frameBody_of_ind hf]
  simp (disch := simp) only [Option.map_some, List.append_assoc, be16Read_past, be16Read_be16Write,
    Buf.read_past, Buf.read_toList, setWidth_signExtend, Vector.length_toList, length_be16Write,
    Nat.reduceSub]

theorem carries_apDisconnect (v : ApDisconnect) : RoundTrips (indication .apDisconnect) v := by
  refine carries_of_build (l := 68) (b := be16Write v.messageId ++ be16Write v.resultCode ++
    v.disconnectApMac.toList ++ [0, 0]) (fun _ _ => rfl) (by simp) rfl (by decide) rfl fun f hf => ?_
  show apDisconnectUnpack f = some v
  rw [apDisconnectUnpack, frameBody_of_ind hf]
  simp (disch := simp) only [Option.map_some, List.append_assoc, be16Read_past, be16Read_be16Write,
    Buf.read_past, Buf.read_toList, length_be16Write, Nat.reduceSub]

theorem carries_keepAlive {v : KeepAlive} (h : WellFormed (indication .keepAlive) v) :
    RoundTrips (indication .keepAlive) v := by
  have hl : ∀ s, (copyWithNullPad 32 s).length = 32 := length_copyWithNullPad (by decide)
  refine carries_of_build (l := 88) (b := copyWithNullPad 32 v.timestamp.toList) (fun _ _ => rfl) (hl _) rfl
    (by decide) rfl fun f hf => ?_
  show keepAliveUnpack f = some v
  rw [keepAliveUnpack, frameBody_of_ind hf, Option.map_some, copyStringField_padded h]

end Kind

open Kind in
/-- **What is packed is unpacked.** For every message kind, every sequence number, every well-formed
value and every buffer that holds its frame, the pack function fills a frame that carries the value. -/
theorem codec_roundtrip (k : Kind) (seq : BitVec 16) (v : k.Value) (hv : k.WellFormed v) (cap : Nat)
    (hcap : k.frameSize v ≤ cap) : ∃ f, k.pack cap seq v = some f ∧ Carries k seq v f := by
  suffices h : RoundTrips k v from h cap seq hcap
  cases k with
  | request c =>
    cases c with
    | login => exact carries_login hv
    | setPassword => exact carries_setPassword hv
    | setIpConfigList => exact carries_setIpConfigList hv
    | changeIpAddress => exact carries_changeIpAddress v
    | setRadioConfig => exact carries_setRadioConfig v
    | setIndicationConfig => exact carries_setIndicationConfig v
    | _ => exact carries_of_empty (fun _ _ => rfl) rfl fun f hf => if_pos hf
  | ack c =>
    cases c with
    | getBasicInfo => exact carries_getBasicInfo v
    | getDeviceInfo => exact carries_getDeviceInfo hv
    | _ => exact carries_of_simpleAck (fun _ _ => rfl) rfl fun _ hf => hf
  | indication i =>
    cases i with
    | initComplete => exact carries_initComplete v
    | wlanStatusChange => exact carries_wlanStatusChange v
    | roaming => exact carries_roaming v
    | apDisconnect => exact carries_apDisconnect v
    | faultDetect => exact carries_faultDetect v
    | resetNotice => exact carries_resetNotice v
    | keepAlive => exact carries_keepAlive hv

/-- A Login with the password "ab" in a buffer of 192 bytes. -/
theorem codec_roundtrip_login :
    Kind.WellFormed (.request .login) (⟨Buf.ofBytes 128 [0x61, 0x62], true⟩ : LoginReq) ∧
      ∃ f, loginReqPack 192 7 ⟨Buf.ofBytes 128 [0x61, 0x62], true⟩ = some f ∧
        loginReqUnpack f = some ⟨Buf.ofBytes 128 [0x61, 0x62], true⟩ := by
  have hv : Kind.WellFormed (.request .login) (⟨Buf.ofBytes 128 [0x61, 0x62], true⟩ : LoginReq) :=
    ⟨⟨[0x61, 0x62], by decide, by decide, rfl⟩, rfl⟩
  obtain ⟨f, hf, hc⟩ := codec_roundtrip (.request .login) 7 _ hv 192 le_rfl
  exact ⟨hv, f, hf, hc.unpack⟩

end Opcd.Protocol
