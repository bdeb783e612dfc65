import Opcd.Daemon.Unseen
import Opcd.Session.Outsider

/-!
# The idle timer

A request of the holder that unpacks restarts the idle timer, whatever its answer; nothing else does,
a Login and a Logout apart. The handlers do this in some twenty places, so what they keep is stated
as a relation: `KeepsTouch` for a handler once the login check has restarted the timer, over `Unseen`
for everything below it.

* **`idle_timer_law`**: the law for one datagram, and what follows for a run: a session whose holder
  stays silent is found expired, whatever anybody else sends.
-/

namespace Opcd

open Bytes Protocol Store

/-- The effects a client sees at once: a datagram, or the address applied. -/
@[simp] def Effect.outward : Effect → Bool
  | .send .. => true
  | .indicate .. => true
  | .applyIpChange _ _ _ ok => ok
  | _ => false

/-- The states agree on the session and the configuration. -/
structure SameSession (st st' : St) : Prop where
  session : st'.session = st.session
  conf : st'.conf = st.conf

namespace SameSession

variable {st st' st'' : St}

theorem refl (st : St) : SameSession st st := ⟨rfl, rfl⟩

theorem trans (h : SameSession st st') (h' : SameSession st' st'') : SameSession st st'' :=
  ⟨h'.session.trans h.session, h'.conf.trans h.conf⟩

/-- A turn from a state in which other fields were changed first. -/
theorem after (h : SameSession st' st'') (hs : st'.session = st.session) (hc : st'.conf = st.conf) :
    SameSession st st'' := trans ⟨hs, hc⟩ h

/-- A turn and whatever follows it. -/
theorem bind {α β : Type} {t : Turn α} {f : St → α → Turn β} (h : SameSession st t.st)
    (hf : ∀ u a, SameSession u (f u a).st) : SameSession st (t.bind f).st :=
  h.trans (hf t.st t.val)

/-! ### Notices -/

theorem indInitComplete (st : St) (s : InitState) : SameSession st (st.indInitComplete s).st := by
  unfold St.indInitComplete
  split <;> exact ⟨rfl, rfl⟩

theorem indRadioUp (st : St) : SameSession st st.indRadioUp.st := by
  unfold St.indRadioUp
  split
  · exact refl st
  · exact (indInitComplete _ _).after rfl rfl

theorem announceState (st : St) (env : Env) : SameSession st (st.announceState env).st := by
  unfold St.announceState
  split
  · exact refl st
  · refine bind (indInitComplete st .ready) fun u _ => bind ?_ fun u _ => ?_
    · split
      · exact indRadioUp u
      · exact refl u
    · split
      · exact indInitComplete u _
      · exact refl u

theorem postAck (st : St) : SameSession st st.postAck.st := by
  unfold St.postAck
  split
  · unfold St.indResetNotice
    split <;> exact ⟨rfl, rfl⟩
  · exact refl st

end SameSession

theorem Unseen.same {submits : Bool} {α : Type} {st : St} {t : Turn α} (h : Unseen submits st t) :
    SameSession st t.st := ⟨h.session, h.conf⟩

/-! ## The holder's requests -/

/-- A timer that was restarted at `now` still says so. -/
structure KeepsTouch (now : Nat) (st st' : St) : Prop where
  conf : st'.conf = st.conf
  deadline : st.session.idleDeadline = now + st.conf.loginIdleS →
    st'.session.idleDeadline = now + st.conf.loginIdleS

namespace KeepsTouch

variable {now : Nat} {st st' st'' : St}

theorem of_same (h : SameSession st st') : KeepsTouch now st st' :=
  ⟨h.conf, fun hd => by rw [h.session, hd]⟩

theorem refl (now : Nat) (st : St) : KeepsTouch now st st := ⟨rfl, id⟩

theorem trans (h : KeepsTouch now st st') (h' : KeepsTouch now st' st'') : KeepsTouch now st st'' := by
  refine ⟨h'.conf.trans h.conf, fun hd => ?_⟩
  have := h'.deadline (by rw [h.conf]; exact h.deadline hd)
  rwa [h.conf] at this

theorem touch (now : Nat) (st : St) : KeepsTouch now st (st.sessionTouch now) := ⟨rfl, fun _ => rfl⟩

/-- A turn and whatever follows it. -/
theorem bind {α β : Type} {t : Turn α} {f : St → α → Turn β} (h : KeepsTouch now st t.st)
    (hf : ∀ u a, KeepsTouch now u (f u a).st) : KeepsTouch now st (t.bind f).st :=
  h.trans (hf t.st t.val)

/-- The timer is restarted after other fields were changed. -/
theorem touch_after {u : St} (hs : u.session = st.session) (hc : u.conf = st.conf) :
    KeepsTouch now st (u.sessionTouch now) := trans (of_same ⟨hs, hc⟩) (touch now u)

end KeepsTouch

/-- The turn sends nothing, and does nothing to the notices. -/
structure Quiet {α : Type} (st : St) (t : Turn α) : Prop where
  ind : t.st.ind = st.ind
  out : ∀ e ∈ t.out, e.outward = false

namespace Quiet

variable {α β : Type} {st st' : St} {t : Turn α} {f : St → α → Turn β}

theorem done (st : St) (a : α) : Quiet st (st.done a) := ⟨rfl, by simp⟩

/-- A turn and whatever follows it. -/
theorem bind (h : Quiet st t) (hf : ∀ u a, Quiet u (f u a)) : Quiet st (t.bind f) := by
  refine ⟨(hf t.st t.val).ind.trans h.ind, fun e he => ?_⟩
  rcases List.mem_append.mp he with he | he
  · exact h.out e he
  · exact (hf t.st t.val).out e he

/-- A turn from a state in which other fields were changed first. -/
theorem after (h : Quiet st' t) (hind : st'.ind = st.ind) : Quiet st t := ⟨h.ind.trans hind, h.out⟩

end Quiet

theorem Effect.unseen.outward {submits : Bool} {p : Paths} {e : Effect} (h : e.unseen submits p) :
    e.outward = false := by
  cases e with
  | send | indicate | applyIpChange => cases h
  | _ => rfl

theorem Unseen.quiet {submits : Bool} {α : Type} {st : St} {t : Turn α} (h : Unseen submits st t) : Quiet st t :=
  ⟨h.ind, fun e he => (h.out e he).outward⟩

/-- A request that was admitted: the notices wait, and a restarted timer stays so. -/
structure Granted {α : Type} (now : Nat) (st : St) (t : Turn α) : Prop where
  keeps : KeepsTouch now st t.st
  quiet : Quiet st t

namespace Granted

section Turns

variable {α β : Type} {now : Nat} {st st' : St} {t : Turn α} {f : St → α → Turn β}

theorem bind (h : Granted now st t) (hf : ∀ u a, Granted now u (f u a)) : Granted now st (t.bind f) :=
  ⟨h.keeps.bind fun u a => (hf u a).keeps, h.quiet.bind fun u a => (hf u a).quiet⟩

theorem of_unseen (h : Unseen true st t) : Granted now st t := ⟨.of_same h.same, h.quiet⟩

/-- A turn from a state in which the timer was restarted or other fields were changed first. -/
theorem after (h : Granted now st' t) (hk : KeepsTouch now st st') (hind : st'.ind = st.ind) : Granted now st t :=
  ⟨hk.trans h.keeps, h.quiet.after hind⟩

/-- The timer is restarted at the end. -/
theorem touched {u : St} (ht : t.st = u.sessionTouch now) (hu : u.outer = st.outer)
    (hout : ∀ e ∈ t.out, e.outward = false) : Granted now st t := by
  have hkeeps : KeepsTouch now st (u.sessionTouch now) := .touch_after (congrArg (·.1) hu) (congrArg (·.2.1) hu)
  have hind : u.ind = st.ind := congrArg (·.2.2.1) hu
  exact ⟨ht ▸ hkeeps, ht ▸ hind, hout⟩

end Turns

variable (st : St) (env : Env) (cl : Client)

theorem commitPassword (req : SetPasswordReq) (res : Option Slot) :
    Granted env.now st (st.commitPassword env req cl res) := by
  unfold St.commitPassword St.persistPassword
  refine bind (of_unseen (.persistBlob st _ _ _ _ _ _ _ cl res)) fun u p => ?_
  refine after ?_ (.touch env.now u) rfl
  dsimp only
  split <;> exact ⟨.of_same ⟨rfl, rfl⟩, rfl, by simp⟩

theorem commitIpList (f : St.Fold) (err : Option (BitVec 16)) (res : Option Slot) :
    Granted env.now st (st.commitIpList env f err cl res) := by
  unfold St.commitIpList
  refine bind (of_unseen (.persistIpList st _ _ _ cl res)) fun u p => of_unseen ?_
  dsimp only
  split_ifs
  · exact ⟨rfl, by simp⟩
  · exact ⟨rfl, by simp⟩
  · exact .bind ((Unseen.iplistMirrorUser true _ env.mirror).after rfl) fun u _ => .done u _
  · exact .done u _

theorem applyEntries (es : List (Entry × Bool)) (res : Option Slot) :
    Granted env.now st (st.applyEntries env es cl res) := by
  unfold St.applyEntries
  refine after ?_ (.touch env.now st) rfl
  dsimp only
  split
  · exact commitIpList _ env cl _ _ res
  · exact of_unseen ⟨Unseen.cancelReservation _ res, by simp⟩

theorem commitRadio (base : RadioState) (valid : Bool) (res : Option Slot) :
    Granted env.now st (st.commitRadio env base valid cl res) := by
  unfold St.commitRadio St.persistRadio
  refine bind (of_unseen (.persistBlob st _ _ _ _ _ _ _ cl res)) fun u p => ?_
  dsimp only
  split
  · split <;> exact touched rfl rfl (by simp)
  · split
    · exact touched rfl rfl (by simp)
    · exact touched rfl rfl fun e he => (Unseen.radioTxnClear true u env.unlink e he).outward

theorem radioTxnArm (m : WriteResult) (req : RadioConfig) : ∀ e ∈ (st.radioTxnArm m req).1, e.unseen true st.paths := by
  unfold St.radioTxnArm
  split <;> simp

theorem applyRadio (req : RadioConfig) (res : Option Slot) : Granted env.now st (st.applyRadio env req cl res) := by
  have harm := radioTxnArm st env.marker req
  unfold St.applyRadio
  dsimp only
  split
  · exact bind (of_unseen ⟨Unseen.cancelReservation st res, harm⟩) fun u _ => touched rfl rfl (by simp)
  · refine bind (of_unseen ⟨rfl, fun e he => ?_⟩) fun u _ => ?_
    · rcases List.mem_append.mp he with he | he
      · exact harm e he
      · obtain rfl := List.mem_singleton.mp he
        trivial
    · split
      · have hu := Unseen.cancelReservation u res
        generalize u.cancelReservation res = v at hu
        split <;> exact touched rfl hu (by simp)
      · exact (commitRadio _ env cl _ _ res).after (.of_same ⟨rfl, rfl⟩) rfl

end Granted

/-- A frame of the command unpacks. -/
def unpacks (frame : Bytes) : Command → Bool
  | .login => (loginReqUnpack frame).isSome
  | .logout => logoutReqUnpack frame
  | .getBasicInfo => getBasicInfoReqUnpack frame
  | c => (unpackError frame c).isNone

theorem checkLoginRequired_holder {st : St} (hin : st.session.loggedIn = true) (now : Nat) :
    st.checkLoginRequired now st.session.holderIp = .ok (st.sessionTouch now) := by
  simp [St.checkLoginRequired, hin, St.sessionOwns]

/-- A request of the holder that unpacks restarts the timer. -/
theorem handle_touches {st : St} {env : Env} {frame : Bytes} {cl : Client} {c : Command}
    (hin : st.session.loggedIn = true) (hip : cl.ip = st.session.holderIp)
    (hu : unpacks frame c = true) (h1 : c ≠ .login) (h2 : c ≠ .logout) :
    KeepsTouch env.now (st.sessionTouch env.now) (st.handle env frame cl c).st := by
  have hcheck := checkLoginRequired_holder hin env.now
  rw [← hip] at hcheck
  have hadm := fun r path len =>
    @KeepsTouch.of_same env.now _ _ (Unseen.persistAdmit (st.sessionTouch env.now) env.ready r path len).same
  cases c with
  | login => exact absurd rfl h1
  | logout => exact absurd rfl h2
  | getBasicInfo =>
    have howns : st.sessionOwns cl.ip = true := by simp [St.sessionOwns, hin, hip]
    have hbasic : getBasicInfoReqUnpack frame = true := hu
    simp only [St.handle, St.handleGetBasicInfo, hbasic, howns, not_true_eq_false, if_false, if_true]
    exact .refl _ _
  | getDeviceInfo =>
    have hdev : getDeviceInfoReqUnpack frame = true := by simpa [unpacks, unpackError] using hu
    simp only [St.handle, St.handleGetDeviceInfo, hdev, hcheck, not_true_eq_false, if_false]
    split
    · exact .refl _ _
    · exact .touch _ _
  | setPassword =>
    obtain ⟨req, hreq⟩ : ∃ req, setPasswordReqUnpack frame = some req := by
      simpa [unpacks, unpackError, Option.isSome_iff_exists] using hu
    simp only [St.handle, St.handleSetPassword, hreq, hcheck]
    split
    · exact .touch _ _
    · split
      · exact .refl _ _
      · refine .bind (hadm _ _ _) fun u a => ?_
        split
        · exact .touch _ _
        · exact .refl _ _
        · exact (Granted.commitPassword _ env cl _ _).keeps
  | setIpConfigList =>
    obtain ⟨es, hes⟩ : ∃ es, setIpConfigListReqUnpack frame = .ok es := by
      simp only [unpacks, unpackError] at hu
      split at hu <;> simp_all
    simp only [St.handle, St.handleSetIpConfigList, hes, hcheck]
    split
    · exact .touch _ _
    · refine .bind (hadm _ _ _) fun u a => ?_
      split
      · exact .touch _ _
      · exact .refl _ _
      · exact (Granted.applyEntries _ env cl es _).keeps
  | changeIpAddress =>
    obtain ⟨n, hn⟩ : ∃ n, changeIpAddressReqUnpack frame = some n := by
      simpa [unpacks, unpackError, Option.isSome_iff_exists] using hu
    simp only [St.handle, St.handleChangeIpAddress, hn, hcheck]
    split
    · exact .refl _ _
    · exact .touch_after rfl rfl
  | setRadioConfig =>
    obtain ⟨req, hreq⟩ : ∃ req, setRadioConfigReqUnpack frame = some req := by
      simpa [unpacks, unpackError, Option.isSome_iff_exists] using hu
    simp only [St.handle, St.handleSetRadioConfig, hreq, hcheck]
    split
    · exact .touch _ _
    · split
      · exact .refl _ _
      · split
        · exact .touch _ _
        · refine .bind (hadm _ _ _) fun u a => ?_
          split
          · exact .touch _ _
          · exact .refl _ _
          · exact (Granted.applyRadio _ env cl req _).keeps
  | setIndicationConfig =>
    obtain ⟨req, hreq⟩ : ∃ req, setIndicationConfigReqUnpack frame = some req := by
      simpa [unpacks, unpackError, Option.isSome_iff_exists] using hu
    simp only [St.handle, St.handleSetIndicationConfig, hreq, hcheck]
    split
    · exact .refl _ _
    · split
      · exact .refl _ _
      · have hset : KeepsTouch env.now (st.sessionTouch env.now)
            (((st.sessionTouch env.now).setIndication req).sessionTouch env.now) :=
          .touch_after rfl rfl
        exact hset.trans (.of_same (.announceState _ env))
  | reset =>
    have hreset : resetReqUnpack frame = true := by simpa [unpacks, unpackError] using hu
    simp only [St.handle, St.handleReset, hreset, hcheck, not_true_eq_false, if_false]
    exact .of_same ⟨rfl, rfl⟩

/-! ## One datagram -/

/-- The command a frame asks for. -/
def requested (frame : Bytes) : Option Command :=
  match frameParse frame with
  | none => none
  | some (h, _) =>
    if h.commandType ≠ cmdRequest then none
    else dispatchTable.find? fun c => c.id = h.reqIndicationId

/-- What dispatch comes to before the session expires. -/
theorem dispatch_live {st : St} {env : Env}
    (h : ¬ (st.session.loggedIn ∧ st.session.idleDeadline ≤ env.now)) (frame : Bytes) (ip : BitVec 32) (port : BitVec 16) :
    (requested frame = none ∧ st.dispatch env frame ip port = st.done (-1, [])) ∨ ∃ c seq, requested frame = some c ∧
      (st.dispatch env frame ip port).st = (st.handle env frame ⟨ip, port, seq⟩ c).st ∧
      (st.dispatch env frame ip port).val = (0, (st.handle env frame ⟨ip, port, seq⟩ c).val) := by
  have hidle : st.idleCheck env.now = st.done () := by rw [St.idleCheck, if_neg h]
  unfold requested St.dispatch
  cases frameParse frame with
  | none => exact .inl ⟨rfl, rfl⟩
  | some p =>
    obtain ⟨hd, body⟩ := p
    dsimp only
    split
    · exact .inl ⟨rfl, rfl⟩
    · rw [hidle]
      cases hf : dispatchTable.find? fun c => decide (c.id = hd.reqIndicationId) with
      | none => exact .inl ⟨rfl, by simp [Turn.bind, St.done]⟩
      | some c => exact .inr ⟨c, hd.sequenceNumber, rfl, by simp, by simp⟩

/-- A frame that does not unpack changes nothing. -/
theorem handle_malformed (st : St) (env : Env) {frame : Bytes} (cl : Client) {c : Command}
    (hu : unpacks frame c = false) : (st.handle env frame cl c).st = st := by
  cases c with
  | login =>
    have hreq : loginReqUnpack frame = none := by simpa [unpacks] using hu
    simp [St.handle, St.handleLogin, hreq]
  | logout =>
    have hreq : logoutReqUnpack frame = false := hu
    simp [St.handle, St.handleLogout, hreq]
  | getBasicInfo =>
    have hreq : getBasicInfoReqUnpack frame = false := hu
    simp [St.handle, St.handleGetBasicInfo, hreq]
  | getDeviceInfo =>
    have hreq : getDeviceInfoReqUnpack frame = false := by simpa [unpacks, unpackError] using hu
    simp [St.handle, St.handleGetDeviceInfo, hreq]
  | setPassword =>
    have hreq : setPasswordReqUnpack frame = none := by simpa [unpacks, unpackError] using hu
    simp [St.handle, St.handleSetPassword, hreq]
  | setIpConfigList =>
    simp only [St.handle, St.handleSetIpConfigList]
    split
    · rfl
    · rfl
    · next es hes => simp [unpacks, unpackError, hes] at hu
  | changeIpAddress =>
    have hreq : changeIpAddressReqUnpack frame = none := by simpa [unpacks, unpackError] using hu
    simp [St.handle, St.handleChangeIpAddress, hreq]
  | setRadioConfig =>
    have hreq : setRadioConfigReqUnpack frame = none := by simpa [unpacks, unpackError] using hu
    simp [St.handle, St.handleSetRadioConfig, hreq]
  | setIndicationConfig =>
    have hreq : setIndicationConfigReqUnpack frame = none := by
      simpa [unpacks, unpackError] using hu
    simp [St.handle, St.handleSetIndicationConfig, hreq]
  | reset =>
    have hreq : resetReqUnpack frame = false := by simpa [unpacks, unpackError] using hu
    simp [St.handle, St.handleReset, hreq]

/-- A Login that is not answered OK changes nothing. -/
theorem handleLogin_refused {st : St} {now : Nat} {frame : Bytes} {cl : Client}
    (h : simpleAckUnpack (st.handleLogin now frame cl).val Command.login.id ≠
      some (resultOk, Err.none)) : (st.handleLogin now frame cl).st = st := by
  rcases handleLogin_cases st now frame cl with hs | hv
  · exact hs
  · refine absurd ?_ h
    obtain ⟨f, hpack, -⟩ := simpleAckPack_frameMax Command.login.id cl.seq simpleAckLength resultOk
      Err.none
    rw [hv, loginAckPack, txCap, hpack]
    exact simpleAckUnpack_simpleAckPack hpack

/-- The datagrams that leave the timer alone. -/
def LeavesTimer (st : St) (env : Env) (frame : Bytes) (ip : BitVec 32) (port : BitVec 16) : Prop :=
  ip ≠ st.session.holderIp ∨ requested frame = none ∨
    (∃ c, requested frame = some c ∧ unpacks frame c = false) ∨
    (requested frame = some .login ∧
      simpleAckUnpack (st.dispatch env frame ip port).val.2 Command.login.id ≠
        some (resultOk, Err.none))

theorem dispatch_leavesTimer {st : St} {env : Env} {frame : Bytes} {ip : BitVec 32}
    {port : BitVec 16} (hin : st.session.loggedIn = true)
    (hlive : env.now < st.session.idleDeadline) (h : LeavesTimer st env frame ip port) :
    (st.dispatch env frame ip port).st = st := by
  by_cases hip : ip = st.session.holderIp
  · have hlive' : ¬ (st.session.loggedIn ∧ st.session.idleDeadline ≤ env.now) := by omega
    rcases dispatch_live hlive' frame ip port with ⟨-, hd⟩ | ⟨c, seq, hc, hst, hval⟩
    · rw [hd]
      rfl
    · rcases h with hne | hnone | ⟨c', hc', hu⟩ | ⟨hlogin, hng⟩
      · exact absurd hip hne
      · simp [hnone] at hc
      · obtain rfl : c' = c := Option.some.inj (hc'.symm.trans hc)
        rw [hst, handle_malformed st env _ hu]
      · obtain rfl : Command.login = c := Option.some.inj (hlogin.symm.trans hc)
        rw [hval] at hng
        rw [hst]
        exact handleLogin_refused hng
  · rw [dispatch_outsider ⟨hin, hlive, hip⟩]

/-! ## Runs -/

/-- The frame reaches the idle check of dispatch. -/
def IsRequest (frame : Bytes) : Prop :=
  ∃ h body, frameParse frame = some (h, body) ∧ h.commandType = cmdRequest

/-- An action that is no request of the holder, and no request or timer check once the deadline is
reached. -/
def Action.Spares (holder : BitVec 32) (deadline : Nat) : Action → Prop
  | .datagram env _ ip _ d => IsRequest (frameOf d) → ip ≠ holder ∧ env.now < deadline
  | .timer now => now < deadline
  | _ => True

theorem dispatch_not_request (st : St) (env : Env) {frame : Bytes} (h : ¬ IsRequest frame)
    (ip : BitVec 32) (port : BitVec 16) : st.dispatch env frame ip port = st.done (-1, []) := by
  unfold St.dispatch
  cases hp : frameParse frame with
  | none => rfl
  | some p =>
    obtain ⟨hd, body⟩ := p
    dsimp only
    rw [if_pos fun hc => h ⟨hd, body, hp, hc⟩]

theorem sameSession_receive {st : St} {env : Env} {revert : ApplyResult} {ip : BitVec 32}
    {port : BitVec 16} {datagram : Bytes} (h : (st.dispatch env (frameOf datagram) ip port).st = st) :
    SameSession st (st.receive env revert ip port datagram).st := by
  unfold St.receive
  dsimp only
  split
  · exact .refl st
  · refine .bind (by rw [← frameOf, h]; exact .refl st) fun u r => ?_
    refine .bind (.refl u) fun u _ => .bind ?_ fun u _ => (Unseen.radioRevertDrain true u revert).same
    split
    · exact .postAck u
    · exact .refl u

/-- An action that spares the session leaves it as it is or ends it. -/
theorem spares_step {st : St} {a : Action} (hin : st.session.loggedIn = true)
    (h : a.Spares st.session.holderIp st.session.idleDeadline) :
    (daemon.step st a).session.loggedIn = false ∨ (daemon.step st a).session = st.session := by
  cases a with
  | datagram env revert ip port d =>
    refine .inr (sameSession_receive ?_).session
    by_cases hreq : IsRequest (frameOf d)
    · obtain ⟨hip, hlive⟩ := h hreq
      exact dispatch_leavesTimer hin hlive (.inl hip)
    · rw [dispatch_not_request st env hreq]
      rfl
  | timer now =>
    have hlt : now < st.session.idleDeadline := h
    refine .inr ?_
    show (st.idleCheck now).st.session = st.session
    rw [St.idleCheck, if_neg (by omega)]
    rfl
  | notices ind sent => exact .inr rfl
  | storeReady env => exact .inr (Unseen.storeAsyncOnReady true st env).session
  | worker r => exact .inr (Unseen.workerTurn st r).session
  | endOfCycle ok =>
    show (st.applyPendingIpChange ok).st.session.loggedIn = false ∨
      (st.applyPendingIpChange ok).st.session = st.session
    unfold St.applyPendingIpChange
    dsimp only
    split
    · exact .inr rfl
    · simp only [Turn.bind_st]
      split
      · exact .inr rfl
      · refine .inl ?_
        simp only [Turn.bind_st, St.endHeldSession, hin, if_true]
        rfl

/-- A session nobody uses keeps its deadline until it ends. -/
theorem spares_run {st : St} (hin : st.session.loggedIn = true) (as : List Action)
    (h : ∀ a ∈ as, a.Spares st.session.holderIp st.session.idleDeadline) :
    (∃ bs, bs <+: as ∧ (daemon.run st bs).session.loggedIn = false) ∨ (daemon.run st as).session = st.session := by
  induction as generalizing st with
  | nil => exact .inr rfl
  | cons a as ih =>
    have ha := h a List.mem_cons_self
    rcases spares_step hin ha with hout | hsame
    · exact .inl ⟨[a], by simp, hout⟩
    · have hrest := @ih (daemon.step st a) (by rw [hsame]; exact hin)
        (by rw [hsame]; exact fun b hb => h b (List.mem_cons_of_mem _ hb))
      rcases hrest with ⟨bs, hbs, hout⟩ | heq
      · exact .inl ⟨a :: bs, List.prefix_cons_inj a |>.mpr hbs, hout⟩
      · exact .inr (heq.trans hsame)

/-- A request that finds the session expired ends it first. -/
theorem dispatch_expired {st : St} {env : Env} {frame : Bytes} (hin : st.session.loggedIn = true)
    (hexp : st.session.idleDeadline ≤ env.now) (hreq : IsRequest frame) (ip : BitVec 32) (port : BitVec 16) :
    st.dispatch env frame ip port = st.sessionLogout.bind fun st _ => st.dispatch env frame ip port := by
  obtain ⟨hd, body, hp, ht⟩ := hreq
  have hout : st.sessionLogout.st.idleCheck env.now = st.sessionLogout.st.done () := by
    rw [St.idleCheck, if_neg]
    simp [St.sessionLogout, St.endSession]
  have hidle : st.idleCheck env.now = st.sessionLogout := by rw [St.idleCheck, if_pos ⟨hin, hexp⟩]
  simp [St.dispatch, hp, ht, hidle, Turn.bind, hout, St.done]

/-- **The idle timer.** While a session is held and has not expired, a request of the holder that
unpacks and is no Login or Logout restarts the timer, and a datagram from elsewhere, one that does not
parse or unpack, an unknown or a refused one leaves it alone. Hence a session whose holder stays silent
keeps its deadline until it ends, and the next timer check or request after the deadline finds it
expired. -/
theorem idle_timer_law (st : St) (hin : st.session.loggedIn = true) :
    (∀ env frame ip port, env.now < st.session.idleDeadline →
      (ip = st.session.holderIp → ∀ c, requested frame = some c → c ≠ .login → c ≠ .logout → unpacks frame c = true →
        (st.dispatch env frame ip port).st.session.idleDeadline = env.now + st.conf.loginIdleS) ∧
      (LeavesTimer st env frame ip port →
        (st.dispatch env frame ip port).st.session.idleDeadline = st.session.idleDeadline)) ∧
    ∀ as : List Action, (∀ a ∈ as, a.Spares st.session.holderIp st.session.idleDeadline) →
      (∃ bs, bs <+: as ∧ (daemon.run st bs).session.loggedIn = false) ∨ (daemon.run st as).session = st.session ∧
      (∀ now, st.session.idleDeadline ≤ now → (daemon.run st (as ++ [.timer now])).session.loggedIn = false) ∧
      ∀ env frame ip port, IsRequest frame → st.session.idleDeadline ≤ env.now →
        (daemon.run st as).dispatch env frame ip port =
          (daemon.run st as).sessionLogout.bind fun st _ => st.dispatch env frame ip port := by
  refine ⟨fun env frame ip port hlive => ⟨fun hip c hc h1 h2 hu => ?_, fun h => ?_⟩, fun as h => ?_⟩
  · have hlive' : ¬ (st.session.loggedIn ∧ st.session.idleDeadline ≤ env.now) := by omega
    rcases dispatch_live hlive' frame ip port with ⟨hnone, -⟩ | ⟨c', seq, hc', hst, -⟩
    · simp [hnone] at hc
    · obtain rfl : c' = c := Option.some.inj (hc'.symm.trans hc)
      rw [hst]
      exact (@handle_touches st env frame ⟨ip, port, seq⟩ c' hin hip hu h1 h2).deadline rfl
  · rw [dispatch_leavesTimer hin hlive h]
  · rcases spares_run hin as h with hout | hsame
    · exact .inl hout
    · refine .inr ⟨hsame, fun now hnow => ?_, fun env frame ip port hreq hnow => ?_⟩
      · rw [daemon.run_append, daemon.run_cons, daemon.run_nil]
        show ((daemon.run st as).idleCheck now).st.session.loggedIn = false
        rw [St.idleCheck, if_pos (by rw [hsame]; exact ⟨hin, hnow⟩)]
        rfl
      · exact dispatch_expired (by rw [hsame]; exact hin) (by rw [hsame]; exact hnow) hreq ip port

/-- A GetBasicInfo of the holder at second 10 moves the deadline to 310; without it the timer ends the
session at second 300. -/
theorem idle_timer_law_held :
    ((heldState passwordDefault).dispatch (.allOk 10) [1, 1, 0, 1, 0, 7, 0, 0] 1
        5000).st.session.idleDeadline = 10 + 300 ∧
      (daemon.run (heldState passwordDefault) [.timer 300]).session.loggedIn = false := by
  obtain ⟨hone, hrun⟩ := idle_timer_law (heldState passwordDefault) rfl
  refine ⟨(hone (.allOk 10) _ 1 5000 (by simp [heldState, Env.allOk])).1 rfl .getBasicInfo
    (by decide) (by decide) (by decide) (by decide), ?_⟩
  rcases hrun [] (by simp) with ⟨bs, hbs, hout⟩ | ⟨-, htimer, -⟩
  · rw [List.prefix_nil.mp hbs] at hout
    exact absurd hout (by simp [heldState])
  · exact htimer 300 le_rfl

end Opcd
