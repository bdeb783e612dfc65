import Opcd.Handler.Dispatch
import Opcd.Protocol.Codec

/-!
# Responses

Every response is an acknowledgement with the id and the sequence number of its request, in the size
its command has. The handlers of eight commands answer in the plain form of a result and a cause
(`Plain`); GetBasicInfo and GetDeviceInfo have forms of their own.

* `acknowledges_handle`: whatever exit a handler takes.
* `acknowledges_dispatch`, `dispatch_fails_iff`: the responses of `opcd_dispatch`, and when there is
  none.
* `acknowledges_reject`: the answer to a bad length.
-/

namespace Opcd

open Bytes Protocol Store

/-- The bytes are an acknowledgement of a request with this id and sequence number, in this size. -/
structure Acknowledges (resp : Bytes) (id seq : BitVec 16) (size : Nat) : Prop where
  parsed : ∃ h body, frameParse resp = some (h, body) ∧ h.commandType = cmdAck ∧
    h.reqIndicationId = id ∧ h.sequenceNumber = seq
  size : resp.length = size

theorem acknowledges_frameBuild {cap : Nat} {id seq length : BitVec 16} {body f : Bytes}
    (h : frameBuild cap cmdAck id seq length body = some f) (hlen : length.toNat = body.length + 56) :
    Acknowledges f id seq (64 + body.length) := by
  refine ⟨⟨_, _, frameParse_frameBuild h hlen, rfl, rfl, rfl⟩, ?_⟩
  unfold frameBuild at h
  split_ifs at h
  obtain rfl := Option.some.inj h
  simp

/-- A response in the plain form, or none. -/
def Plain (c : Command) (seq : BitVec 16) (resp : Bytes) : Prop :=
  resp = [] ∨ ∃ result cause, simpleAckPack txCap c.id seq simpleAckLength result cause = some resp

theorem acknowledges_simpleAck {id seq result cause : BitVec 16} {f : Bytes}
    (h : simpleAckPack txCap id seq simpleAckLength result cause = some f) :
    Acknowledges f id seq 68 :=
  acknowledges_frameBuild h rfl

theorem Plain.acknowledges {c : Command} {seq : BitVec 16} {resp : Bytes} (h : Plain c seq resp)
    (hne : resp ≠ []) : Acknowledges resp c.id seq 68 := by
  obtain ⟨result, cause, hpack⟩ := h.resolve_left hne
  exact acknowledges_simpleAck hpack

theorem plain_packed (c : Command) (seq result cause : BitVec 16) :
    Plain c seq ((simpleAckPack txCap c.id seq simpleAckLength result cause).getD []) := by
  cases h : simpleAckPack txCap c.id seq simpleAckLength result cause with
  | none => exact .inl rfl
  | some f => exact .inr ⟨result, cause, h⟩

theorem plain_none (c : Command) (seq : BitVec 16) : Plain c seq [] := .inl rfl

/-! ## Handlers -/

section Handlers

variable (st : St) (env : Env) (frame : Bytes) (cl : Client)

theorem plain_handleLogin (now : Nat) : Plain .login cl.seq (st.handleLogin now frame cl).val := by
  unfold St.handleLogin
  dsimp only
  split
  · exact plain_packed .login _ _ _
  · split_ifs <;> exact plain_packed .login _ _ _

theorem plain_handleLogout : Plain .logout cl.seq (st.handleLogout frame cl).val := by
  unfold St.handleLogout
  dsimp only
  split_ifs <;> exact plain_packed .logout _ _ _

theorem plain_commitPassword (req : SetPasswordReq) (res : Option Slot) :
    Plain .setPassword cl.seq (st.commitPassword env req cl res).val := by
  unfold St.commitPassword
  rw [Turn.bind_val]
  split
  · exact plain_none _ _
  · split_ifs <;> exact plain_packed .setPassword _ _ _

theorem plain_handleSetPassword : Plain .setPassword cl.seq (st.handleSetPassword env frame cl).val := by
  unfold St.handleSetPassword
  dsimp only
  split
  · exact plain_packed .setPassword _ _ _
  split
  · exact plain_packed .setPassword _ _ _
  split_ifs
  · exact plain_none _ _
  split
  · exact plain_packed .setPassword _ _ _
  rw [Turn.bind_val]
  split
  · exact plain_none _ _
  · exact plain_packed .setPassword _ _ _
  · exact plain_commitPassword _ env cl _ _

theorem plain_commitIpList (f : St.Fold) (err : Option (BitVec 16)) (res : Option Slot) :
    Plain .setIpConfigList cl.seq (st.commitIpList env f err cl res).val := by
  unfold St.commitIpList
  rw [Turn.bind_val]
  dsimp only
  split_ifs
  · exact plain_packed .setIpConfigList _ _ _
  · exact plain_none _ _
  · exact plain_packed .setIpConfigList _ _ _
  · exact plain_packed .setIpConfigList _ _ _

theorem plain_applyEntries (es : List (Entry × Bool)) (res : Option Slot) :
    Plain .setIpConfigList cl.seq (st.applyEntries env es cl res).val := by
  unfold St.applyEntries
  dsimp only
  split
  · exact plain_commitIpList _ env cl _ _ _
  · exact plain_packed .setIpConfigList _ _ _

theorem plain_handleSetIpConfigList : Plain .setIpConfigList cl.seq (st.handleSetIpConfigList env frame cl).val := by
  unfold St.handleSetIpConfigList
  dsimp only
  split
  · exact plain_packed .setIpConfigList _ _ _
  · exact plain_packed .setIpConfigList _ _ _
  split
  · exact plain_packed .setIpConfigList _ _ _
  split_ifs
  · exact plain_none _ _
  rw [Turn.bind_val]
  split
  · exact plain_none _ _
  · exact plain_packed .setIpConfigList _ _ _
  · exact plain_applyEntries _ env cl _ _

theorem plain_handleChangeIpAddress : Plain .changeIpAddress cl.seq (st.handleChangeIpAddress env frame cl).val := by
  unfold St.handleChangeIpAddress
  dsimp only
  split
  · exact plain_packed .changeIpAddress _ _ _
  split
  · exact plain_packed .changeIpAddress _ _ _
  split <;> exact plain_packed .changeIpAddress _ _ _

theorem plain_commitRadio (base : RadioState) (valid : Bool) (res : Option Slot) :
    Plain .setRadioConfig cl.seq (st.commitRadio env base valid cl res).val := by
  unfold St.commitRadio
  rw [Turn.bind_val]
  split
  · exact plain_packed .setRadioConfig _ _ _
  split
  · exact plain_none _ _
  · exact plain_packed .setRadioConfig _ _ _

theorem plain_applyRadio (req : RadioConfig) (res : Option Slot) :
    Plain .setRadioConfig cl.seq (st.applyRadio env req cl res).val := by
  unfold St.applyRadio
  dsimp only
  split
  · exact plain_packed .setRadioConfig _ _ _
  · rw [Turn.bind_val]
    split
    · exact plain_packed .setRadioConfig _ _ _
    · exact plain_commitRadio _ env cl _ _ _

theorem plain_handleSetRadioConfig : Plain .setRadioConfig cl.seq (st.handleSetRadioConfig env frame cl).val := by
  unfold St.handleSetRadioConfig
  dsimp only
  split
  · exact plain_packed .setRadioConfig _ _ _
  split
  · exact plain_packed .setRadioConfig _ _ _
  split
  · exact plain_none _ _
  split
  · exact plain_packed .setRadioConfig _ _ _
  split
  · exact plain_packed .setRadioConfig _ _ _
  rw [Turn.bind_val]
  split
  · exact plain_none _ _
  · exact plain_packed .setRadioConfig _ _ _
  · exact plain_applyRadio _ env cl _ _

theorem plain_handleSetIndicationConfig :
    Plain .setIndicationConfig cl.seq (st.handleSetIndicationConfig env frame cl).val := by
  unfold St.handleSetIndicationConfig
  dsimp only
  split
  · exact plain_packed .setIndicationConfig _ _ _
  split
  · exact plain_packed .setIndicationConfig _ _ _
  split_ifs <;> exact plain_packed .setIndicationConfig _ _ _

theorem plain_handleReset : Plain .reset cl.seq (st.handleReset env frame cl).val := by
  unfold St.handleReset
  dsimp only
  split_ifs
  · split <;> exact plain_packed .reset _ _ _
  · exact plain_packed .reset _ _ _

end Handlers

/-! ## Dispatch -/

/-- The size of the response to a request. -/
def responseSize (id : BitVec 16) (frame : Bytes) : Nat :=
  if id = Command.getDeviceInfo.id then 416
  else if id = Command.getBasicInfo.id ∧ getBasicInfoReqUnpack frame = true then 80
  else 68

theorem acknowledges_deviceInfo {seq : BitVec 16} {a : DeviceInfoAck} {f : Bytes}
    (h : getDeviceInfoAckPack txCap seq a = some f) : Acknowledges f Command.getDeviceInfo.id seq 416 := by
  rw [Kind.getDeviceInfoAckPack_eq] at h
  have hlen : (Kind.deviceInfoHead a ++ (Kind.deviceInfoStrings a ++ (Kind.deviceInfoNet a ++ Kind.deviceInfoRadios a))).length
      = 352 := by
    simp [Kind.length_deviceInfoHead, Kind.length_deviceInfoStrings, Kind.length_deviceInfoNet,
      Kind.length_deviceInfoRadios]
  have hack := acknowledges_frameBuild h (by rw [hlen]; rfl)
  rwa [hlen] at hack

theorem acknowledges_basicInfo {seq : BitVec 16} {a : BasicInfoAck} {f : Bytes}
    (h : getBasicInfoAckPack txCap seq a = some f) :
    Acknowledges f Command.getBasicInfo.id seq 80 :=
  acknowledges_frameBuild h rfl

/-- A GetDeviceInfo is answered in its own form, whatever the answer. -/
theorem handleGetDeviceInfo_val (st : St) (now : Nat) (inv : Inventory) (env : InfoEnv) (frame : Bytes)
    (cl : Client) : ∃ a, (st.handleGetDeviceInfo now inv env frame cl).val =
      (getDeviceInfoAckPack txCap cl.seq a).getD [] := by
  unfold St.handleGetDeviceInfo
  -- which answer is packed matters here, not what its bytes are
  generalize getDeviceInfoAckPack txCap cl.seq = pack
  dsimp only
  split
  · exact ⟨_, rfl⟩
  · split
    · exact ⟨_, rfl⟩
    · split
      · exact ⟨_, rfl⟩
      · exact ⟨_, rfl⟩

/-- **Every exit of every handler** acknowledges the request, if it answers. -/
theorem acknowledges_handle (st : St) (env : Env) (frame : Bytes) (cl : Client) (c : Command)
    (hne : (st.handle env frame cl c).val ≠ []) :
    Acknowledges (st.handle env frame cl c).val c.id cl.seq (responseSize c.id frame) := by
  have hplain : ∀ {c : Command} {resp : Bytes}, Plain c cl.seq resp → resp ≠ [] →
      c ≠ .getDeviceInfo → c ≠ .getBasicInfo →
      Acknowledges resp c.id cl.seq (responseSize c.id frame) := by
    intro c resp h hne hd hb
    have hsize : responseSize c.id frame = 68 := by
      cases c <;> first | exact absurd rfl hd | exact absurd rfl hb | rfl
    rw [hsize]
    exact h.acknowledges hne
  cases c with
  | getDeviceInfo =>
    obtain ⟨a, ha⟩ := handleGetDeviceInfo_val st env.now env.inventory env.info frame cl
    simp only [St.handle, ha] at hne ⊢
    cases hp : getDeviceInfoAckPack txCap cl.seq a with
    | none => simp [hp] at hne
    | some f => exact acknowledges_deviceInfo hp
  | getBasicInfo =>
    simp only [St.handle, St.handleGetBasicInfo] at hne ⊢
    by_cases hu : getBasicInfoReqUnpack frame = true
    · simp only [hu, not_true_eq_false, if_false, St.emitAck, St.done, St.packBasicInfoAck] at hne ⊢
      have hsize : responseSize Command.getBasicInfo.id frame = 80 := by simp [responseSize, hu, Command.id]
      rw [hsize]
      cases hp : getBasicInfoAckPack txCap cl.seq _ with
      | none => simp [hp] at hne
      | some f => exact acknowledges_basicInfo hp
    · rw [if_pos hu] at hne ⊢
      have hsize : responseSize Command.getBasicInfo.id frame = 68 := by simp [responseSize, hu, Command.id]
      rw [hsize]
      exact (plain_packed .getBasicInfo _ _ _).acknowledges hne
  | login => exact hplain (plain_handleLogin st frame cl env.now) hne (by decide) (by decide)
  | logout => exact hplain (plain_handleLogout st frame cl) hne (by decide) (by decide)
  | setPassword => exact hplain (plain_handleSetPassword st env frame cl) hne (by decide) (by decide)
  | setIpConfigList =>
    exact hplain (plain_handleSetIpConfigList st env frame cl) hne (by decide) (by decide)
  | changeIpAddress =>
    exact hplain (plain_handleChangeIpAddress st env frame cl) hne (by decide) (by decide)
  | setRadioConfig =>
    exact hplain (plain_handleSetRadioConfig st env frame cl) hne (by decide) (by decide)
  | setIndicationConfig =>
    exact hplain (plain_handleSetIndicationConfig st env frame cl) hne (by decide) (by decide)
  | reset => exact hplain (plain_handleReset st env frame cl) hne (by decide) (by decide)

theorem find_dispatchTable (id : BitVec 16) :
    (∃ c, dispatchTable.find? (fun c => c.id = id) = some c ∧ c.id = id) ∨
      dispatchTable.find? (fun c => c.id = id) = none ∧ ∀ c : Command, c.id ≠ id := by
  cases h : dispatchTable.find? (fun c => c.id = id) with
  | some c => exact .inl ⟨c, rfl, by simpa using List.find?_some h⟩
  | none =>
    refine .inr ⟨rfl, fun c => ?_⟩
    have := List.find?_eq_none.mp h c (by cases c <;> decide)
    simpa using this

/-- **The responses of `opcd_dispatch`.** -/
theorem acknowledges_dispatch (st : St) (env : Env) (frame : Bytes) (ip : BitVec 32) (port : BitVec 16)
    (hne : (st.dispatch env frame ip port).val.2 ≠ []) :
    ∃ h body, frameParse frame = some (h, body) ∧
      Acknowledges (st.dispatch env frame ip port).val.2 h.reqIndicationId h.sequenceNumber
        (responseSize h.reqIndicationId frame) := by
  unfold St.dispatch at hne ⊢
  cases hparse : frameParse frame with
  | none => simp [hparse] at hne
  | some p =>
    obtain ⟨h, body⟩ := p
    refine ⟨h, body, rfl, ?_⟩
    simp only [hparse] at hne ⊢
    split_ifs at hne ⊢
    · simp at hne
    · simp only [Turn.bind_val] at hne ⊢
      rcases find_dispatchTable h.reqIndicationId with ⟨c, hfind, hid⟩ | ⟨hfind, -⟩
      · simp only [hfind, Turn.bind_val, St.done_val] at hne ⊢
        rw [← hid]
        exact acknowledges_handle _ env frame ⟨ip, port, h.sequenceNumber⟩ c hne
      · simp [hfind] at hne

/-- The frame is no request with a handler. -/
def Undispatched (frame : Bytes) : Prop :=
  ∀ h body, frameParse frame = some (h, body) → h.commandType = cmdRequest →
    ∀ c : Command, c.id ≠ h.reqIndicationId

/-- **When `opcd_dispatch` fails**: it answers nothing then. -/
theorem dispatch_fails_iff (st : St) (env : Env) (frame : Bytes) (ip : BitVec 32) (port : BitVec 16) :
    ((st.dispatch env frame ip port).val.1 ≠ 0 ↔ Undispatched frame) ∧
      ((st.dispatch env frame ip port).val.1 ≠ 0 → (st.dispatch env frame ip port).val.2 = []) := by
  unfold St.dispatch Undispatched
  cases hparse : frameParse frame with
  | none => simp
  | some p =>
    obtain ⟨h, body⟩ := p
    by_cases htype : h.commandType = cmdRequest
    · rcases find_dispatchTable h.reqIndicationId with ⟨c, hfind, hid⟩ | ⟨hfind, hnone⟩
      · simp only [htype, ne_eq, not_true_eq_false, if_false, Turn.bind_val, hfind, St.done_val,
          false_iff, false_implies, and_true]
        intro hall
        exact hall h body rfl htype c hid
      · simp only [htype, ne_eq, not_true_eq_false, if_false, Turn.bind_val, hfind, St.done_val,
          implies_true, and_true]
        refine ⟨fun _ h' body' heq _ c => ?_, fun _ => by decide⟩
        obtain ⟨rfl, -⟩ := Prod.mk.inj (Option.some.inj heq)
        exact hnone c
    · simp only [htype, ne_eq, not_false_eq_true, if_true, St.done_val, implies_true, and_true]
      refine ⟨fun _ h' body' heq ht => ?_, fun _ => by decide⟩
      obtain ⟨rfl, -⟩ := Prod.mk.inj (Option.some.inj heq)
      exact absurd ht htype

/-- **The answer to a bad length.** -/
theorem acknowledges_reject (st : St) (buf : Bytes) (ip : BitVec 32) (port : BitVec 16) {e : Effect}
    (he : e ∈ st.rejectBadLength buf ip port) :
    ∃ f h, e = .send ip port f ∧ fixedHeaderUnpack buf = some h ∧
      Acknowledges f h.reqIndicationId h.sequenceNumber
        (if h.commandType = cmdRequest ∧ h.reqIndicationId = Command.getDeviceInfo.id then 416 else 68) := by
  unfold St.rejectBadLength at he
  split_ifs at he
  · cases hh : fixedHeaderUnpack buf with
    | none => simp [hh] at he
    | some h =>
      simp only [hh] at he
      split at he
      · cases he
      next f hf =>
      refine ⟨f, h, List.mem_singleton.mp he, rfl, ?_⟩
      split_ifs at hf ⊢ with hd
      · rw [hd.2]
        exact acknowledges_deviceInfo hf
      · exact acknowledges_simpleAck hf
  · cases he

end Opcd
