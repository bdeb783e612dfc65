import Opcd.Startup

/-!
# What an outsider can do and see

A datagram from an address that does not hold the session is answered from public data alone: the
boot status, the station type and the inventory (`View`). `outsiderHandle` says what the answer is;
`dispatch_outsider` says that dispatch does that and nothing else.

* **`outsider_noninterference`**: an outsider changes nothing, causes nothing but the monitoring
  snapshot, and sees the same bytes in any two states that agree on the public data; and while nobody
  is logged in only a Login answered OK changes the state.
-/

namespace Opcd

open Bytes Protocol

/-- Somebody else holds a session that has not expired. -/
structure Outsider (st : St) (now : Nat) (ip : BitVec 32) : Prop where
  loggedIn : st.session.loggedIn
  notExpired : now < st.session.idleDeadline
  notHolder : ip ≠ st.session.holderIp

/-- What is public. -/
structure View where
  bootStatus : BootStatus
  stationType : BitVec 16
  inventory : Inventory

/-- The public data of a state. -/
def St.view (st : St) (inv : Inventory) : View := ⟨st.bootStatus, st.effectiveStationType, inv⟩

/-! ## Refused commands -/

/-- Whether a request of a command that needs a login unpacks; if not, the cause it is refused
with. -/
def unpackError (frame : Bytes) : Command → Option (BitVec 16)
  | .getDeviceInfo => if getDeviceInfoReqUnpack frame then none else some Err.packetSize
  | .setPassword => if (setPasswordReqUnpack frame).isSome then none else some Err.packetSize
  | .setIpConfigList =>
    match setIpConfigListReqUnpack frame with
    | .ok _ => none
    | .error .listSize => some Err.ipcfgListSize
    | .error .malformed => some Err.packetSize
  | .changeIpAddress =>
    if (changeIpAddressReqUnpack frame).isSome then none else some Err.packetSize
  | .setRadioConfig =>
    if (setRadioConfigReqUnpack frame).isSome then none else some Err.packetSize
  | .setIndicationConfig =>
    if (setIndicationConfigReqUnpack frame).isSome then none else some Err.packetSize
  | .reset => if resetReqUnpack frame then none else some Err.packetSize
  | _ => none

/-- The commands that need a login. -/
def guarded : Command → Bool
  | .login => false
  | .logout => false
  | .getBasicInfo => false
  | _ => true

/-- A refusal: the effects and the response. -/
def refusal (seq cause : BitVec 16) : Command → List Effect × Bytes
  | .getDeviceInfo =>
    ([.snapshot (St.deviceInfoAckZero resultNg cause)],
      (getDeviceInfoAckPack txCap seq (St.deviceInfoAckZero resultNg cause)).getD [])
  | c => ([], (simpleAckPack txCap c.id seq simpleAckLength resultNg cause).getD [])

/-- A guarded command from a client the login check turns away is refused, and nothing else. -/
theorem handle_refused {st : St} {env : Env} {frame : Bytes} {cl : Client} {cause : BitVec 16}
    (h : st.checkLoginRequired env.now cl.ip = .error cause) {c : Command} (hc : guarded c) :
    st.handle env frame cl c = ⟨st, (refusal cl.seq ((unpackError frame c).getD cause) c).1,
        (refusal cl.seq ((unpackError frame c).getD cause) c).2⟩ := by
  cases c <;> try exact absurd hc (by decide)
  case getDeviceInfo =>
    simp only [St.handle, St.handleGetDeviceInfo, h, unpackError]
    split <;> simp_all [refusal]
  case setPassword =>
    simp only [St.handle, St.handleSetPassword, h, unpackError]
    split <;> simp_all [refusal, setPasswordAckPack, St.emitAck, St.done]
  case setIpConfigList =>
    simp only [St.handle, St.handleSetIpConfigList, h, unpackError]
    split <;> simp_all [refusal, setIpConfigListAckPack, St.emitAck, St.done]
  case changeIpAddress =>
    simp only [St.handle, St.handleChangeIpAddress, h, unpackError]
    split <;> simp_all [refusal, changeIpAddressAckPack, St.emitAck, St.done]
  case setRadioConfig =>
    simp only [St.handle, St.handleSetRadioConfig, h, unpackError]
    split <;> simp_all [refusal, setRadioConfigAckPack, St.emitAck, St.done]
  case setIndicationConfig =>
    simp only [St.handle, St.handleSetIndicationConfig, h, unpackError]
    split <;> simp_all [refusal, setIndicationConfigAckPack, St.emitAck, St.done]
  case reset =>
    simp only [St.handle, St.handleReset, h, unpackError]
    split <;> simp_all [refusal, resetAckPack, St.emitAck, St.done]

/-! ## The answer to an outsider -/

/-- The effects and the response of a command from an outsider. -/
def outsiderHandle (v : View) (frame : Bytes) (seq : BitVec 16) : Command → List Effect × Bytes
  | .login =>
    ([], (loginAckPack txCap seq resultNg
      (if (loginReqUnpack frame).isNone then Err.packetSize
        else if v.bootStatus = .booting then Err.loginViolation
        else Err.loginCondition)).getD [])
  | .logout =>
    ([], (logoutAckPack txCap seq resultNg
      (if logoutReqUnpack frame then Err.loginCondition else Err.packetSize)).getD [])
  | .getBasicInfo =>
    ([], (if getBasicInfoReqUnpack frame then
        getBasicInfoAckPack txCap seq
          ⟨v.inventory.vendorCode, v.inventory.productCode, v.inventory.productSubcode,
            v.bootStatus.code, v.stationType⟩
      else
        simpleAckPack txCap Command.getBasicInfo.id seq simpleAckLength resultNg
          Err.packetSize).getD [])
  | c => refusal seq ((unpackError frame c).getD Err.loginCondition) c

/-- What dispatch does with an outsider's datagram: effects, return code and response. -/
def outsiderDispatch (v : View) (frame : Bytes) : List Effect × Int × Bytes :=
  match frameParse frame with
  | none => ([], -1, [])
  | some (h, _) =>
    if h.commandType ≠ cmdRequest then ([], -1, [])
    else
      match dispatchTable.find? fun c => c.id = h.reqIndicationId with
      | none => ([], -1, [])
      | some c =>
        let r := outsiderHandle v frame h.sequenceNumber c
        (r.1, 0, r.2)

theorem Outsider.not_owns {st : St} {now : Nat} {ip : BitVec 32} (h : Outsider st now ip) :
    st.sessionOwns ip = false := by
  simp only [St.sessionOwns, decide_eq_false_iff_not, not_and]
  exact fun _ e => h.notHolder e.symm

theorem handle_outsider {st : St} {env : Env} {cl : Client} (h : Outsider st env.now cl.ip)
    (frame : Bytes) (c : Command) :
    st.handle env frame cl c = ⟨st, (outsiderHandle (st.view env.inventory) frame cl.seq c).1,
        (outsiderHandle (st.view env.inventory) frame cl.seq c).2⟩ := by
  have hin := h.loggedIn
  have howns := h.not_owns
  have hne : st.session.holderIp ≠ cl.ip := h.notHolder.symm
  have hcheck : st.checkLoginRequired env.now cl.ip = .error Err.loginCondition := by
    simp [St.checkLoginRequired, hin, howns]
  cases c with
  | login =>
    simp only [St.handle, St.handleLogin, outsiderHandle, St.view]
    cases loginReqUnpack frame with
    | none => simp [St.emitAck, St.done]
    | some req =>
      by_cases hb : st.bootStatus = .booting <;> simp [hb, hin, hne, St.emitAck, St.done]
  | logout =>
    simp only [St.handle, St.handleLogout, outsiderHandle]
    by_cases hu : logoutReqUnpack frame <;> simp [hu, hin, howns, St.emitAck, St.done]
  | getBasicInfo =>
    simp only [St.handle, St.handleGetBasicInfo, outsiderHandle, St.view, St.packBasicInfoAck]
    by_cases hu : getBasicInfoReqUnpack frame <;> simp [hu, howns, St.emitAck, St.done]
  | _ => exact handle_refused hcheck rfl

/-- Dispatch answers an outsider from the public data and leaves the state as it is. -/
theorem dispatch_outsider {st : St} {env : Env} {ip : BitVec 32} (h : Outsider st env.now ip)
    (frame : Bytes) (port : BitVec 16) :
    st.dispatch env frame ip port = ⟨st, (outsiderDispatch (st.view env.inventory) frame).1,
        (outsiderDispatch (st.view env.inventory) frame).2⟩ := by
  have hidle : st.idleCheck env.now = st.done () := by
    rw [St.idleCheck, if_neg]
    have := h.notExpired
    omega
  unfold St.dispatch outsiderDispatch
  cases frameParse frame with
  | none => rfl
  | some p =>
    obtain ⟨hd, body⟩ := p
    by_cases hreq : hd.commandType = cmdRequest
    · simp only [hreq, hidle, Turn.bind, St.done, ne_eq, not_true_eq_false, if_false]
      cases dispatchTable.find? fun c => decide (c.id = hd.reqIndicationId) with
      | none => rfl
      | some c =>
        have := @handle_outsider st env ⟨ip, port, hd.sequenceNumber⟩ h frame c
        simp only [this]
        simp
    · simp [hreq, St.done]

theorem snapshot_of_mem_outsiderDispatch {v : View} {frame : Bytes} {e : Effect}
    (h : e ∈ (outsiderDispatch v frame).1) : ∃ a, e = .snapshot a := by
  unfold outsiderDispatch at h
  split at h
  · simp at h
  split at h
  · simp at h
  split at h
  · simp at h
  next c _ => cases c <;> simp_all [outsiderHandle, refusal]

/-! ## Nobody logged in -/

/-- The request was a Login and the response acknowledges it. -/
def LoginAnsweredOk (frame resp : Bytes) : Prop :=
  (∃ h body, frameParse frame = some (h, body) ∧ h.reqIndicationId = Command.login.id) ∧
    simpleAckUnpack resp Command.login.id = some (resultOk, Err.none)

theorem handleLogin_cases (st : St) (now : Nat) (frame : Bytes) (cl : Client) :
    (st.handleLogin now frame cl).st = st ∨
      (st.handleLogin now frame cl).val = (loginAckPack txCap cl.seq resultOk Err.none).getD [] := by
  unfold St.handleLogin
  cases loginReqUnpack frame with
  | none => exact .inl rfl
  | some req =>
    dsimp only
    split_ifs
    all_goals first | exact .inl rfl | exact .inr rfl

theorem handle_nobody {st : St} (h : st.session.loggedIn = false) (env : Env) (frame : Bytes)
    (cl : Client) {c : Command} (hc : c ≠ .login) : (st.handle env frame cl c).st = st := by
  have howns : st.sessionOwns cl.ip = false := by simp [St.sessionOwns, h]
  have hcheck : st.checkLoginRequired env.now cl.ip = .error Err.loginViolation := by
    simp [St.checkLoginRequired, h]
  cases c with
  | login => exact absurd rfl hc
  | logout =>
    simp only [St.handle, St.handleLogout]
    by_cases hu : logoutReqUnpack frame <;> simp [hu, h]
  | getBasicInfo =>
    simp only [St.handle, St.handleGetBasicInfo]
    by_cases hu : getBasicInfoReqUnpack frame <;> simp [hu, howns]
  | _ => rw [handle_refused hcheck rfl]

theorem dispatch_nobody {st : St} (h : st.session.loggedIn = false) (env : Env) (frame : Bytes)
    (ip : BitVec 32) (port : BitVec 16) (hlogin : ¬ LoginAnsweredOk frame (st.dispatch env frame ip port).val.2) :
    (st.dispatch env frame ip port).st = st := by
  have hidle : st.idleCheck env.now = st.done () := by simp [St.idleCheck, h]
  unfold St.dispatch at hlogin ⊢
  cases hp : frameParse frame with
  | none => rfl
  | some p =>
    obtain ⟨hd, body⟩ := p
    simp only [hp] at hlogin ⊢
    split
    · rfl
    next hreq =>
    rw [if_neg hreq] at hlogin
    simp only [hidle, Turn.bind_st, Turn.bind_val, St.done_st] at hlogin ⊢
    cases hf : dispatchTable.find? fun c => decide (c.id = hd.reqIndicationId) with
    | none => rfl
    | some c =>
      simp only [hf, Turn.bind_st, Turn.bind_val, St.done_st, St.done_val] at hlogin ⊢
      by_cases hc : c = .login
      · subst hc
        have hid : hd.reqIndicationId = Command.login.id := by
          have hsome := List.find?_some hf
          exact (of_decide_eq_true hsome).symm
        rcases handleLogin_cases st env.now frame ⟨ip, port, hd.sequenceNumber⟩ with hs | hv
        · exact hs
        · refine absurd ⟨⟨hd, body, hp, hid⟩, ?_⟩ hlogin
          obtain ⟨f, hpack, -⟩ := simpleAckPack_frameMax Command.login.id hd.sequenceNumber
            simpleAckLength resultOk Err.none
          rw [St.handle, hv, loginAckPack, txCap, hpack]
          exact simpleAckUnpack_simpleAckPack hpack
      · exact handle_nobody h env frame _ hc

/-- **Noninterference.** A datagram from outside a held session changes nothing and causes nothing
but a monitoring snapshot; its answer is the same in any two such states with the same boot status,
effective station type and inventory. With nobody logged in, only a Login answered OK changes the
state. -/
theorem outsider_noninterference (frame : Bytes) (ip : BitVec 32) (port : BitVec 16) :
    (∀ (st : St) (env : Env), Outsider st env.now ip → (st.dispatch env frame ip port).st = st ∧
        ∀ e ∈ (st.dispatch env frame ip port).out, ∃ a, e = .snapshot a) ∧
    (∀ (st₁ st₂ : St) (env₁ env₂ : Env), Outsider st₁ env₁.now ip → Outsider st₂ env₂.now ip →
      st₁.bootStatus = st₂.bootStatus → st₁.effectiveStationType = st₂.effectiveStationType →
      env₁.inventory = env₂.inventory →
      (st₁.dispatch env₁ frame ip port).val = (st₂.dispatch env₂ frame ip port).val) ∧
    (∀ (st : St) (env : Env), st.session.loggedIn = false →
      ¬ LoginAnsweredOk frame (st.dispatch env frame ip port).val.2 → (st.dispatch env frame ip port).st = st) := by
  refine ⟨fun st env h => ?_, fun st₁ st₂ env₁ env₂ h₁ h₂ hboot hstation hinv => ?_,
    fun st env h hlogin => dispatch_nobody h env frame ip port hlogin⟩
  · rw [dispatch_outsider h]
    exact ⟨rfl, fun e he => snapshot_of_mem_outsiderDispatch he⟩
  · have hview : st₁.view env₁.inventory = st₂.view env₂.inventory := by
      simp only [St.view, hboot, hstation, hinv]
    rw [dispatch_outsider h₁, dispatch_outsider h₂, hview]

/-- A fresh daemon with address 1 logged in and this password stored. -/
def heldState (password : Buf 128) : St :=
  { stateSetDefaults defaultConf defaultPaths with
    session := ⟨true, 1, 5000, 300, 1⟩
    pw := ⟨password, false, Buf.zero 128, Buf.zero 128⟩
    bootStatus := .loggedIn }

/-- Two daemons with different passwords answer any frame of address 2 alike, unchanged. -/
theorem outsider_noninterference_held :
    passwordDefault ≠ Buf.zero 128 ∧ ∀ frame : Bytes,
      ((heldState passwordDefault).dispatch (.allOk 10) frame 2 5001).st = heldState passwordDefault ∧
        ((heldState passwordDefault).dispatch (.allOk 10) frame 2 5001).val =
          ((heldState (Buf.zero 128)).dispatch (.allOk 10) frame 2 5001).val := by
  have hout : ∀ p, Outsider (heldState p) (Env.allOk 10).now 2 := fun p =>
    ⟨rfl, by simp [heldState, Env.allOk], by simp [heldState]⟩
  refine ⟨by decide +kernel, fun frame => ⟨?_, ?_⟩⟩
  · exact ((outsider_noninterference frame 2 5001).1 _ _ (hout _)).1
  · exact (outsider_noninterference frame 2 5001).2.1 _ _ _ _ (hout _) (hout _)
      (by simp only [heldState]) (by simp [St.effectiveStationType, heldState,
        stateSetDefaults, RadioConfig.unset]) rfl

end Opcd
