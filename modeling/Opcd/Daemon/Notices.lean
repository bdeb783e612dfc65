import Opcd.Daemon.Addressing
import Opcd.Indication.Lifetime

/-!
# The daemon's notices

What a turn of the loop does to the indication settings, and every datagram it sends as an indication, is what the
notifier does with a few inputs: the senders a handler calls, the configuration of a SetIndicationConfig that is
answered OK, and the end of the configuration with an applied IP change. The other inputs (events of the platform and
the tick) come to the notifier alone. So the whole daemon's indications are those of a run of the notifier, and what
holds along its journal holds of them.

* `Notifies`: what each function of the handlers does to the notices.
* `exists_turnInputs`: every turn is a list of inputs of the notifier.
* **`indication_config_lifetime`**: over every run of the daemon from its start.
-/

namespace Opcd

open Bytes Protocol Store Indication

/-! ## Inputs of a turn -/

def Effect.isIndicate : Effect → Bool
  | .indicate .. => true
  | _ => false

/-- The effect of a journal entry. -/
def Logged.effect? : Logged → Option Effect
  | .event e => e.effect?
  | _ => none

/-- The handlers' senders. -/
def Indication.Input.isSender : Input → Bool
  | .initComplete .. | .radioUp .. | .resetNotice .. => true
  | _ => false

/-- The turn does to the notices what these inputs do. -/
structure Notifies {α : Type} (st : St) (is : List Input) (t : Turn α) : Prop where
  ind : t.st.ind = journal.run st.ind is
  sent : t.out.filter Effect.isIndicate = (journal.trace st.ind is).filterMap Logged.effect?
  changed : .ipChanged ∈ is ↔ ∃ e iface n, .applyIpChange e iface n true ∈ t.out

section Notifying

variable {α β : Type} {st st' : St} {is js : List Input} {t : Turn α} {f : St → α → Turn β}

/-- A turn and whatever follows it. -/
theorem Notifies.bind (h : Notifies st is t) (hf : Notifies t.st js (f t.st t.val)) :
    Notifies st (is ++ js) (t.bind f) := by
  refine ⟨?_, ?_, ?_⟩
  · rw [Turn.bind_st, hf.ind, h.ind, Machine.run_append]
  · rw [Turn.bind_out, List.filter_append, h.sent, hf.sent, h.ind, Machine.trace_append, List.filterMap_append]
  · simp only [List.mem_append, Turn.bind_out, h.changed, hf.changed]
    constructor
    · rintro (⟨e, iface, n, he⟩ | ⟨e, iface, n, he⟩)
      · exact ⟨e, iface, n, .inl he⟩
      · exact ⟨e, iface, n, .inr he⟩
    · rintro ⟨e, iface, n, he | he⟩
      · exact .inl ⟨e, iface, n, he⟩
      · exact .inr ⟨e, iface, n, he⟩

/-- The same after fields other than the indication settings were changed. -/
theorem Notifies.after (h : Notifies st' is t) (hind : st'.ind = st.ind) : Notifies st is t :=
  ⟨hind ▸ h.ind, hind ▸ h.sent, h.changed⟩

theorem Quiet.notifies (h : Quiet st t) : Notifies st [] t := by
  refine ⟨h.ind, ?_, ?_⟩
  · refine List.filter_eq_nil_iff.mpr fun e he => ?_
    have hout := h.out e he
    cases e <;> simp_all [Effect.outward, Effect.isIndicate]
  · simp only [List.not_mem_nil, false_iff]
    rintro ⟨e, iface, n, he⟩
    cases h.out _ he

end Notifying

namespace Quiet

/-! ### Handlers -/

section Handlers

variable (st : St) (env : Env) (frame : Bytes) (cl : Client)

theorem emitAck (st : St) (p : Option Bytes) : Quiet st (st.emitAck p) := done st _

theorem checkLogin {st st' : St} {now : Nat} {ip : BitVec 32} (h : st.checkLoginRequired now ip = .ok st') :
    st'.ind = st.ind := by
  unfold St.checkLoginRequired at h
  split_ifs at h
  obtain rfl := Except.ok.inj h
  rfl

theorem handleGetBasicInfo (now : Nat) (inv : Inventory) : Quiet st (st.handleGetBasicInfo now inv frame cl) := by
  unfold St.handleGetBasicInfo
  dsimp only
  split_ifs <;> exact ⟨rfl, by simp⟩

theorem handleGetDeviceInfo (now : Nat) (inv : Inventory) (info : InfoEnv) :
    Quiet st (st.handleGetDeviceInfo now inv info frame cl) := by
  unfold St.handleGetDeviceInfo
  dsimp only
  split
  · exact ⟨rfl, by simp⟩
  · split
    · exact ⟨rfl, by simp⟩
    next h =>
      have hind := checkLogin h
      split_ifs
      · exact ⟨hind, by simp⟩
      · exact ⟨hind, by simp⟩

theorem handleSetPassword : Quiet st (st.handleSetPassword env frame cl) := by
  unfold St.handleSetPassword
  dsimp only
  split
  · exact emitAck st _
  split
  · exact emitAck st _
  next h =>
    refine after ?_ (checkLogin h)
    split
    · exact ⟨rfl, by simp⟩
    split
    · exact emitAck _ _
    refine bind (Unseen.persistAdmit _ _ _ _ _).quiet fun u a => ?_
    split
    · exact ⟨rfl, by simp⟩
    · exact emitAck _ _
    · exact (Granted.commitPassword _ env cl _ _).quiet

theorem handleSetIpConfigList : Quiet st (st.handleSetIpConfigList env frame cl) := by
  unfold St.handleSetIpConfigList
  dsimp only
  split
  · exact emitAck st _
  · exact emitAck st _
  split
  · exact emitAck st _
  next h =>
    refine after ?_ (checkLogin h)
    split
    · exact ⟨rfl, by simp⟩
    refine bind (Unseen.persistAdmit _ _ _ _ _).quiet fun u a => ?_
    split
    · exact ⟨rfl, by simp⟩
    · exact emitAck _ _
    · exact (Granted.applyEntries _ env cl _ _).quiet

theorem handleChangeIpAddress : Quiet st (st.handleChangeIpAddress env frame cl) := by
  unfold St.handleChangeIpAddress
  dsimp only
  split
  · exact emitAck st _
  split
  · exact emitAck st _
  next h =>
    refine after ?_ (checkLogin h)
    split
    · exact emitAck _ _
    · exact ⟨rfl, by simp⟩

theorem handleSetRadioConfig : Quiet st (st.handleSetRadioConfig env frame cl) := by
  unfold St.handleSetRadioConfig
  dsimp only
  split
  · exact emitAck st _
  split
  · exact emitAck st _
  next h =>
    refine after ?_ (checkLogin h)
    split
    · exact ⟨rfl, by simp⟩
    split
    · exact emitAck _ _
    split
    · exact ⟨rfl, by simp⟩
    refine bind (Unseen.persistAdmit _ _ _ _ _).quiet fun u a => ?_
    split
    · exact ⟨rfl, by simp⟩
    · exact emitAck _ _
    · exact (Granted.applyRadio _ env cl _ _).quiet

theorem handleReset : Quiet st (st.handleReset env frame cl) := by
  unfold St.handleReset
  dsimp only
  split
  · exact emitAck st _
  split
  · exact emitAck st _
  next h =>
    have hind := checkLogin h
    exact ⟨hind, by simp⟩

end Handlers

end Quiet

/-! ## The handlers' senders -/

section Senders

variable (sends : Sends) (st : St)

/-- A turn that does what one sender does. -/
theorem notifies_sender {st : St} {t : Turn Unit} {i : Input} (hi : i.isSender = true) (hind : t.st.ind = (st.ind.take i).ind)
    (hout : t.out = (st.ind.take i).out.filterMap Event.effect?) : Notifies st [i] t := by
  have hall : ∀ es : List Event, (es.filterMap Event.effect?).filter Effect.isIndicate = es.filterMap Event.effect? := by
    intro es
    refine List.filter_eq_self.mpr fun e he => ?_
    obtain ⟨ev, -, hev⟩ := List.mem_filterMap.mp he
    cases ev <;> cases hev
    rfl
  have hlogged : i.logged = [] := by cases i <;> first | rfl | cases hi
  refine ⟨hind, ?_, ?_⟩
  · have htrace : journal.trace st.ind [i] = (st.ind.take i).out.map Logged.event := by
      change (i.logged ++ (st.ind.take i).log) ++ [] = _
      rw [hlogged, List.append_nil]
      rfl
    rw [hout, hall, htrace, List.filterMap_map]
    rfl
  · refine ⟨fun h => ?_, ?_⟩
    · obtain rfl := List.mem_singleton.mp h
      cases hi
    · rintro ⟨e, iface, n, he⟩
      rw [hout] at he
      obtain ⟨ev, -, hev⟩ := List.mem_filterMap.mp he
      cases ev <;> cases hev

/-- A sender that packs a notice when its bit is set. -/
theorem notifies_notice {st : St} {i : Input} {n : Notice} (hi : i.isSender = true)
    (htake : st.ind.take i = if ¬ st.ind.wants n.kind then st.ind.still else st.ind.emit sends n) {t : Turn Unit}
    (hset : st.ind.wants n.kind = true → t = ⟨st.nextSeq, st.sendIndicationFrame (n.pack st.ind.seq), ()⟩)
    (hclear : st.ind.wants n.kind = false → t = st.done ()) : Notifies st [i] t := by
  obtain ⟨hind, hout⟩ := St.emit_effects st sends n
  cases hw : st.ind.wants n.kind with
  | true =>
    rw [if_neg (by simp [hw])] at htake
    rw [hset hw]
    exact notifies_sender hi (by rw [htake]; exact hind.symm) (by rw [htake]; exact hout.symm)
  | false =>
    rw [if_pos (by simp [hw])] at htake
    rw [hclear hw]
    exact notifies_sender hi (by rw [htake]; rfl) (by rw [htake]; rfl)

theorem notifies_indInitComplete (s : InitState) :
    Notifies st [.initComplete sends s.code] (st.indInitComplete s) := by
  refine notifies_notice (n := .initComplete ⟨s.code⟩) sends rfl rfl (fun hw => ?_) fun hw => ?_
  · exact if_neg (of_decide_eq_true hw)
  · exact if_pos (not_not.mp (of_decide_eq_false hw))

theorem notifies_indResetNotice (cause : BitVec 32) :
    Notifies st [.resetNotice sends cause] (st.indResetNotice cause) := by
  refine notifies_notice (n := .resetNotice ⟨cause⟩) sends rfl rfl (fun hw => ?_) fun hw => ?_
  · exact if_neg (of_decide_eq_true hw)
  · exact if_pos (not_not.mp (of_decide_eq_false hw))

theorem notifies_indRadioUp : Notifies st [.radioUp sends] st.indRadioUp := by
  unfold St.indRadioUp
  by_cases h : ¬ st.ind.enabled = true ∨ st.ind.radioUpReported = true
  · rw [if_pos h]
    have htake : st.ind.take (.radioUp sends) = st.ind.still := if_pos h
    exact notifies_sender rfl (by rw [htake]; rfl) (by rw [htake]; rfl)
  · rw [if_neg h]
    have htake : st.ind.take (.radioUp sends) =
        { st.ind with radioUpReported := true }.initComplete sends InitState.radioUp.code := if_neg h
    have hinit := notifies_indInitComplete sends { st with ind.radioUpReported := true } .radioUp
    refine ⟨?_, ?_, ?_⟩
    · rw [hinit.ind]
      exact (congrArg Told.ind htake).symm
    · rw [hinit.sent]
      have hlog : ∀ t : Told, ([] ++ t.log) ++ [] = t.out.map Logged.event := fun t => List.append_nil _
      change ((([] ++ Told.log _) ++ []) : List Logged).filterMap _ = (([] ++ Told.log _) ++ []).filterMap _
      rw [hlog, hlog, htake]
      rfl
    · exact ⟨fun h => absurd h (by simp), fun h => absurd (hinit.changed.mpr h) (by simp)⟩

end Senders

/-- The turn calls senders only. -/
def Announces {α : Type} (st : St) (t : Turn α) : Prop := ∃ is, (∀ i ∈ is, i.isSender = true) ∧ Notifies st is t

namespace Announces

variable {α β : Type} {st st' : St} {t : Turn α} {f : St → α → Turn β}

theorem bind (h : Announces st t) (hf : ∀ u a, Announces u (f u a)) : Announces st (t.bind f) := by
  obtain ⟨is, his, hn⟩ := h
  obtain ⟨js, hjs, hm⟩ := hf t.st t.val
  refine ⟨is ++ js, fun i hi => ?_, hn.bind hm⟩
  exact (List.mem_append.mp hi).elim (his i) (hjs i)

theorem after (h : Announces st' t) (hind : st'.ind = st.ind) : Announces st t := by
  obtain ⟨is, his, hn⟩ := h
  exact ⟨is, his, hn.after hind⟩

end Announces

theorem Quiet.announces {α : Type} {st : St} {t : Turn α} (h : Quiet st t) : Announces st t := ⟨[], by simp, h.notifies⟩

/-- Responses are no notices. -/
theorem announces_send (st : St) {out : List Effect} (h : ∀ e ∈ out, ∃ ip port f, e = .send ip port f) :
    Announces st (⟨st, out, ()⟩ : Turn Unit) := by
  refine ⟨[], by simp, rfl, List.filter_eq_nil_iff.mpr fun e he => ?_, ?_⟩
  · obtain ⟨ip, port, f, rfl⟩ := h e he
    exact Bool.false_ne_true
  · simp only [List.not_mem_nil, false_iff]
    rintro ⟨e, iface, n, he⟩
    obtain ⟨ip, port, f, heq⟩ := h _ he
    cases heq

theorem Notifies.announces {α : Type} {st : St} {t : Turn α} {i : Input} (h : Notifies st [i] t) (hi : i.isSender = true) :
    Announces st t := ⟨[i], by simpa using hi, h⟩

section Announcing

variable (st : St)

theorem announces_indInitComplete (s : InitState) : Announces st (st.indInitComplete s) :=
  (notifies_indInitComplete (fun _ => true) st s).announces rfl

theorem announces_announceState (env : Env) : Announces st (st.announceState env) := by
  unfold St.announceState
  split
  · exact (Quiet.done st ()).announces
  · refine (announces_indInitComplete st .ready).bind fun u _ => Announces.bind ?_ fun u _ => ?_
    · split
      · exact (notifies_indRadioUp (fun _ => true) u).announces rfl
      · exact (Quiet.done u ()).announces
    · split
      · exact announces_indInitComplete u .loggedIn
      · exact (Quiet.done u ()).announces

theorem announces_sessionLogout : Announces st st.sessionLogout :=
  (announces_indInitComplete st .loggedOut).bind fun _ _ => Quiet.announces ⟨rfl, by simp⟩

theorem announces_idleCheck (now : Nat) : Announces st (st.idleCheck now) := by
  unfold St.idleCheck
  split
  · exact announces_sessionLogout st
  · exact (Quiet.done st ()).announces

theorem announces_postAck : Announces st st.postAck := by
  unfold St.postAck
  split
  · exact ((notifies_indResetNotice (fun _ => true) _ _).announces rfl).after rfl
  · exact (Quiet.done st ()).announces

theorem announces_conclude (revert : ApplyResult) (ip : BitVec 32) (port : BitVec 16) (resp : Bytes) :
    Announces st (st.conclude revert ip port resp) := by
  refine (announces_send st fun e he => ?_).bind fun u _ =>
    (announces_postAck u).bind fun v _ => (Unseen.radioRevertDrain true v revert).quiet.announces
  split at he
  · exact ⟨ip, port, resp, List.mem_singleton.mp he⟩
  · cases he

theorem announces_handleLogin (now : Nat) (frame : Bytes) (cl : Client) :
    Announces st (st.handleLogin now frame cl) := by
  have hng : ∀ cause, Announces st (st.emitAck (loginAckPack txCap cl.seq resultNg cause)) := fun _ =>
    (Quiet.emitAck st _).announces
  have hind : (st.acceptLogin cl).ind = st.ind := by
    unfold St.acceptLogin
    dsimp only
    split_ifs <;> rfl
  unfold St.handleLogin
  dsimp only
  split
  · exact hng _
  · split_ifs
    · exact hng _
    · exact hng _
    · exact hng _
    · refine ((announces_indInitComplete _ .loggedIn).after ?_).bind fun u _ => (Quiet.emitAck u _).announces
      exact hind
    · exact hng _
    · exact hng _
    · exact hng _

theorem announces_handleLogout (frame : Bytes) (cl : Client) : Announces st (st.handleLogout frame cl) := by
  have hng : ∀ cause, Announces st (st.emitAck (logoutAckPack txCap cl.seq resultNg cause)) := fun _ =>
    (Quiet.emitAck st _).announces
  have hind : st.logoutDecision.ind = st.ind := by
    unfold St.logoutDecision
    split_ifs
    · rfl
    · exact congrArg (·.2.2.1) (Unseen.armIpChangeFromCommitted st)
    · rfl
  unfold St.handleLogout
  dsimp only
  split_ifs
  · exact ((announces_sessionLogout _).after hind).bind fun u _ => (Quiet.emitAck u _).announces
  all_goals exact hng _

/-- Every handler but that of SetIndicationConfig calls senders only. -/
theorem announces_handle {c : Command} (hc : c ≠ .setIndicationConfig) (env : Env) (frame : Bytes) (cl : Client) :
    Announces st (st.handle env frame cl c) := by
  cases c with
  | login => exact announces_handleLogin st env.now frame cl
  | logout => exact announces_handleLogout st frame cl
  | getBasicInfo => exact (Quiet.handleGetBasicInfo st frame cl env.now env.inventory).announces
  | getDeviceInfo => exact (Quiet.handleGetDeviceInfo st frame cl env.now env.inventory env.info).announces
  | setPassword => exact (Quiet.handleSetPassword st env frame cl).announces
  | setIpConfigList => exact (Quiet.handleSetIpConfigList st env frame cl).announces
  | changeIpAddress => exact (Quiet.handleChangeIpAddress st env frame cl).announces
  | setRadioConfig => exact (Quiet.handleSetRadioConfig st env frame cl).announces
  | setIndicationConfig => exact absurd rfl hc
  | reset => exact (Quiet.handleReset st env frame cl).announces

/-- A SetIndicationConfig is refused, or it is in force and announced. -/
theorem notifies_handleSetIndicationConfig (env : Env) (frame : Bytes) (cl : Client) :
    (∃ cause, (st.handleSetIndicationConfig env frame cl).val =
        (setIndicationConfigAckPack txCap cl.seq resultNg cause).getD [] ∧
      sends (st.handleSetIndicationConfig env frame cl).out = [] ∧
      Quiet st (st.handleSetIndicationConfig env frame cl)) ∨
    ∃ req is, setIndicationConfigReqUnpack frame = some req ∧ (∀ i ∈ is, i.isSender = true) ∧
      Notifies st (.config req :: is) (st.handleSetIndicationConfig env frame cl) ∧
      sends (st.handleSetIndicationConfig env frame cl).out = [] ∧
      (st.handleSetIndicationConfig env frame cl).val =
        (setIndicationConfigAckPack txCap cl.seq resultOk Err.none).getD [] := by
  unfold St.handleSetIndicationConfig
  dsimp only
  split
  · exact .inl ⟨_, rfl, rfl, Quiet.emitAck st _⟩
  next req hreq =>
    split
    · exact .inl ⟨_, rfl, rfl, Quiet.emitAck st _⟩
    next u hlogin =>
      have hind : u.ind = st.ind := Quiet.checkLogin hlogin
      split_ifs
      · exact .inl ⟨_, rfl, rfl, (Quiet.emitAck u _).after hind⟩
      · exact .inl ⟨_, rfl, rfl, (Quiet.emitAck u _).after hind⟩
      · obtain ⟨is, his, hn⟩ := announces_announceState ((u.setIndication req).sessionTouch env.now) env
        refine .inr ⟨req, is, hreq, his, ?_, ?_, rfl⟩
        · have hconf : Notifies st [.config req] (((u.setIndication req).sessionTouch env.now).done ()) := by
            refine ⟨?_, rfl, by simp⟩
            change (u.setIndication req).ind = st.ind.configure req
            rw [St.setIndication_ind, hind]
          have hrest := hn.bind (f := fun v _ => v.emitAck (setIndicationConfigAckPack txCap cl.seq resultOk Err.none))
            (Quiet.emitAck _ _).notifies
          rw [List.append_nil] at hrest
          exact hconf.bind (f := fun v _ => (v.announceState env).bind fun v _ =>
            v.emitAck (setIndicationConfigAckPack txCap cl.seq resultOk Err.none)) hrest
        · rw [Turn.bind_out, sends_append, sends_aside (sameCore_announceState _ env).2]
          rfl

end Announcing

/-! ## Turns -/

/-- What the platform and the timer bring to the notifier alone. -/
def Indication.Input.isReport : Input → Bool
  | .wlanStatus .. | .roaming .. | .apDisconnect .. | .faultDetect .. | .tick .. => true
  | _ => false

theorem Indication.Input.not_isReport {i : Input} (h : i.isSender = true) : i.isReport = false := by
  cases i <;> first | rfl | cases h

def Action.isNotices : Action → Bool
  | .notices .. => true
  | _ => false

/-- The action is a SetIndicationConfig that is answered OK. -/
def Accepts (st : St) (a : Action) (req : SetIndicationConfigReq) : Prop :=
  ∃ cl frame, a.source = some (cl, frame) ∧ setIndicationConfigReqUnpack frame = some req ∧
    AnsweredOk st a cl Command.setIndicationConfig.id

/-- The inputs of a turn: a configuration where one is accepted, its end where an IP change is applied, and senders. -/
structure TurnInputs (st : St) (a : Action) (is : List Input) : Prop where
  turn : Notifies st is (st.turn a)
  config : ∀ req, .config req ∈ is ↔ Accepts st a req
  report : ∀ i ∈ is, i.isReport = false

theorem requested_of_setIndicationConfig {frame : Bytes} {req : SetIndicationConfigReq}
    (h : setIndicationConfigReqUnpack frame = some req) : requested frame = some .setIndicationConfig := by
  obtain ⟨body, hb, -⟩ := Option.map_eq_some_iff.mp h
  exact requested_of_requestBody hb

/-- A turn of senders only that accepts nothing. -/
theorem Announces.turnInputs {st : St} {a : Action} (h : Announces st (st.turn a)) (ha : ∀ req, ¬ Accepts st a req) :
    ∃ is, TurnInputs st a is := by
  obtain ⟨is, his, hn⟩ := h
  refine ⟨is, hn, fun req => ⟨fun hmem => ?_, fun hacc => absurd hacc (ha req)⟩, fun i hi => ?_⟩
  · cases his _ hmem
  · exact Input.not_isReport (his i hi)

section Datagrams

variable {st : St} {env : Env} {revert : ApplyResult} {ip : BitVec 32} {port : BitVec 16} {d : Bytes}

/-- A datagram that brings no SetIndicationConfig. -/
theorem announces_receive
    (h : ∀ cl frame, requestOf ip port (frameOf d) = some (cl, frame) → requested frame ≠ some .setIndicationConfig) :
    Announces st (st.receive env revert ip port d) := by
  have hdispatch : Announces st (st.dispatch env (frameOf d) ip port) := by
    unfold St.dispatch
    cases hp : frameParse (frameOf d) with
    | none => exact (Quiet.done st _).announces
    | some p =>
      dsimp only
      split
      · exact (Quiet.done st _).announces
      next htype =>
        refine (announces_idleCheck st env.now).bind fun u _ => ?_
        split
        · exact (Quiet.done u _).announces
        next c hc =>
          have hne : c ≠ .setIndicationConfig := by
            rintro rfl
            have hreq : requested (frameOf d) = some .setIndicationConfig := by
              unfold requested
              rw [hp]
              dsimp only
              rw [if_neg htype]
              exact hc
            exact h ⟨ip, port, p.1.sequenceNumber⟩ (frameOf d) (by rw [requestOf, hp]; rfl) hreq
          exact (announces_handle u hne env _ _).bind fun v _ => (Quiet.done v _).announces
  unfold St.receive
  dsimp only
  split
  · refine announces_send st fun e he => ?_
    unfold St.rejectBadLength at he
    split at he
    · cases he
    · split at he
      · cases he
      · dsimp only at he
        split at he
        · cases he
        · exact ⟨ip, port, _, List.mem_singleton.mp he⟩
  · refine hdispatch.bind fun u r => (announces_send u fun e he => ?_).bind fun u _ =>
      Announces.bind ?_ fun u _ => (Unseen.radioRevertDrain true u revert).quiet.announces
    · split at he
      · exact ⟨ip, port, r.2, List.mem_singleton.mp he⟩
      · cases he
    · split
      · exact announces_postAck u
      · exact (Quiet.done u ()).announces

/-- A datagram with a SetIndicationConfig. -/
theorem turnInputs_setIndicationConfig {cl : Client} {frame : Bytes}
    (hsrc : requestOf ip port (frameOf d) = some (cl, frame)) (hreq : requested frame = some .setIndicationConfig) :
    ∃ is, TurnInputs st (.datagram env revert ip port d) is := by
  have hsends := sends_served hsrc hreq st env revert
  have hturn := receive_request hsrc hreq st env revert
  obtain ⟨is₁, his₁, hn₁⟩ := announces_idleCheck st env.now
  generalize (st.idleCheck env.now) = t at hsends hturn hn₁
  obtain ⟨is₃, his₃, hn₃⟩ :=
    announces_conclude (t.st.handleSetIndicationConfig env frame cl).st revert ip port
      (t.st.handleSetIndicationConfig env frame cl).val
  have hsenders : ∀ {is₂ : List Input}, (∀ i ∈ is₂, i.isSender = true) → ∀ i ∈ is₁ ++ (is₂ ++ is₃), i.isSender = true := by
    intro is₂ his₂ i hi
    simp only [List.mem_append] at hi
    exact hi.elim (his₁ i) fun hi => hi.elim (his₂ i) (his₃ i)
  have hwhole : ∀ {is₂ : List Input}, Notifies t.st is₂ (t.st.handleSetIndicationConfig env frame cl) →
      Notifies st (is₁ ++ (is₂ ++ is₃)) (st.turn (.datagram env revert ip port d)) := by
    intro is₂ hn₂
    change Notifies st _ (st.receive env revert ip port d)
    rw [hturn]
    exact hn₁.bind (hn₂.bind hn₃)
  have hframe : ∀ {cl' frame'}, Action.source (.datagram env revert ip port d) = some (cl', frame') →
      cl' = cl ∧ frame' = frame := by
    intro cl' frame' h
    obtain ⟨rfl, rfl⟩ := Prod.mk.inj (Option.some.inj (h.symm.trans hsrc))
    exact ⟨rfl, rfl⟩
  have hval : ∀ {result cause : BitVec 16}, sends (t.st.handleSetIndicationConfig env frame cl).out = [] →
      (t.st.handleSetIndicationConfig env frame cl).val =
        (setIndicationConfigAckPack txCap cl.seq result cause).getD [] →
      ∃ f, simpleAckPack txCap Command.setIndicationConfig.id cl.seq simpleAckLength result cause = some f ∧
        sends (daemon.out st (.datagram env revert ip port d)) = [(cl.ip, cl.port, f)] := by
    intro result cause hout hval
    obtain ⟨f, hf, hne⟩ := simpleAckPack_frameMax Command.setIndicationConfig.id cl.seq simpleAckLength result cause
    refine ⟨f, hf, ?_⟩
    have hack : (t.st.handle env frame cl .setIndicationConfig).val = f := by
      change (t.st.handleSetIndicationConfig env frame cl).val = f
      rw [hval, setIndicationConfigAckPack, txCap, hf, Option.getD_some]
    have hnone : sends (t.st.handle env frame cl .setIndicationConfig).out = [] := hout
    rw [hsends, hnone, hack, List.nil_append, response, if_pos hne]
  rcases notifies_handleSetIndicationConfig t.st env frame cl with
    ⟨cause, hng, hout, hq⟩ | ⟨req, is₂, hunpack, his₂, hn₂, hout, hok⟩
  · refine ⟨_, hwhole hq.notifies, fun req => ⟨fun hmem => ?_, ?_⟩, fun i hi => ?_⟩
    · cases hsenders (by simp) _ hmem
    · -- the response says NG
      rintro ⟨cl', frame', hsrc', -, f, hf, -, hread⟩
      obtain ⟨rfl, rfl⟩ := hframe hsrc'
      obtain ⟨f', hpack, hf'⟩ := hval hout hng
      obtain rfl : f' = f := by
        rw [hf] at hf'
        cases hf'
        rfl
      rw [simpleAckUnpack_simpleAckPack hpack] at hread
      cases hread
    · exact Input.not_isReport (hsenders (by simp) i hi)
  · have hmem : ∀ i ∈ is₁ ++ (.config req :: is₂ ++ is₃), i = .config req ∨ i ∈ is₁ ++ (is₂ ++ is₃) := by
      intro i hi
      simp only [List.mem_append, List.cons_append, List.mem_cons] at hi ⊢
      tauto
    refine ⟨_, hwhole hn₂, fun req' => ⟨fun hin => ?_, ?_⟩, fun i hi => ?_⟩
    · rcases hmem _ hin with heq | hin
      · cases heq
        obtain ⟨f, hpack, hf⟩ := hval hout hok
        exact ⟨cl, frame, hsrc, hunpack, f, hf, acknowledges_simpleAck hpack, simpleAckUnpack_simpleAckPack hpack⟩
      · cases hsenders his₂ _ hin
    · rintro ⟨cl', frame', hsrc', hunpack', -⟩
      obtain ⟨rfl, rfl⟩ := hframe hsrc'
      obtain rfl := Option.some.inj (hunpack'.symm.trans hunpack)
      simp
    · rcases hmem i hi with rfl | hi
      · rfl
      · exact Input.not_isReport (hsenders his₂ i hi)

end Datagrams

/-- The end of a cycle, where an IP change that is applied ends the configuration. -/
theorem turnInputs_endOfCycle (st : St) (ok : Bool) : ∃ is, TurnInputs st (.endOfCycle ok) is := by
  have hnone : ∀ req, ¬ Accepts st (.endOfCycle ok) req := by
    rintro req ⟨cl, frame, hsrc, -⟩
    cases hsrc
  by_cases harm : ¬ st.chg.commitArmed = true
  · refine Announces.turnInputs (Quiet.announces ?_) hnone
    change Quiet st (st.applyPendingIpChange ok)
    unfold St.applyPendingIpChange
    rw [if_pos harm]
    exact Quiet.done st ()
  · cases ok with
    | false =>
      refine Announces.turnInputs (Quiet.announces ?_) hnone
      change Quiet st (st.applyPendingIpChange false)
      unfold St.applyPendingIpChange
      rw [if_neg harm]
      exact Quiet.bind ⟨rfl, by simp⟩ fun u _ => ⟨rfl, by simp⟩
    | true =>
      have hheld : Announces { st with ind.enabled := false } (St.endHeldSession { st with ind.enabled := false }) := by
        unfold St.endHeldSession
        split
        · exact announces_sessionLogout _
        · exact (Quiet.done _ ()).announces
      obtain ⟨is, his, hn⟩ := hheld
      refine ⟨.ipChanged :: is, ?_, fun req => ⟨fun hmem => ?_, fun h => absurd h (hnone req)⟩, fun i hi => ?_⟩
      · have hends : Notifies st [.ipChanged] (⟨{ st with ind.enabled := false },
            [.applyIpChange st.chg.armedEntry st.mgmtIpIfaceIdx st.chg.armedNo true], ()⟩ : Turn Unit) :=
          ⟨rfl, rfl, by simp⟩
        have hroute : ∀ (u : St) (e : Entry), Quiet u (⟨u.clearIpChange,
            if u.conf.managementTopology = .peerRoute then [.peerRouteRefresh e.ipAddress e.subnetMask] else [], ()⟩ :
              Turn Unit) := by
          intro u e
          refine ⟨rfl, ?_⟩
          dsimp only
          split <;> simp
        change Notifies st _ (st.applyPendingIpChange true)
        have hall := hends.bind (f := fun u _ => (St.endHeldSession u).bind fun v _ => _)
          (hn.bind (hroute _ st.chg.armedEntry).notifies)
        rw [List.append_nil] at hall
        unfold St.applyPendingIpChange
        rw [if_neg harm]
        exact hall
      · rcases List.mem_cons.mp hmem with heq | hmem
        · cases heq
        · cases his _ hmem
      · rcases List.mem_cons.mp hi with rfl | hi
        · rfl
        · exact Input.not_isReport (his i hi)

/-- **Every turn** is a list of inputs of the notifier. -/
theorem exists_turnInputs (st : St) {a : Action} (ha : a.isNotices = false) : ∃ is, TurnInputs st a is := by
  have hnone : a.source = none → ∀ req, ¬ Accepts st a req := by
    rintro hsrc req ⟨cl, frame, hsome, -⟩
    rw [hsrc] at hsome
    cases hsome
  cases a with
  | datagram env revert ip port d =>
    by_cases h : ∃ cl frame, requestOf ip port (frameOf d) = some (cl, frame) ∧
        requested frame = some .setIndicationConfig
    · obtain ⟨cl, frame, hsrc, hreq⟩ := h
      exact turnInputs_setIndicationConfig hsrc hreq
    · refine Announces.turnInputs (announces_receive fun cl frame hsrc hreq => h ⟨cl, frame, hsrc, hreq⟩) ?_
      rintro req ⟨cl, frame, hsrc, hunpack, -⟩
      exact h ⟨cl, frame, hsrc, requested_of_setIndicationConfig hunpack⟩
  | timer now => exact Announces.turnInputs (announces_idleCheck st now) (hnone rfl)
  | notices ind sent => cases ha
  | storeReady env => exact Announces.turnInputs (Unseen.storeAsyncOnReady true st env).quiet.announces (hnone rfl)
  | worker r => exact Announces.turnInputs (Unseen.workerTurn st r).quiet.announces (hnone rfl)
  | endOfCycle ok => exact turnInputs_endOfCycle st ok

/-! ## Runs -/

/-- What happens to the daemon: a turn of the loop or of the writer's thread, or a report to the notifier. -/
inductive Happening
  | turn (a : Action) (ha : a.isNotices = false)
  | report (i : Input) (hi : i.isReport = true)

/-- The datagram of an event. -/
def Event.datagram? : Event → Option (BitVec 32 × BitVec 16 × Bytes)
  | .sent d => some (d.ip, d.port, (d.notice.pack d.seq).getD [])
  | _ => none

/-- A report is the action that does to the notices what the notifier does. -/
def Happening.action (st : St) : Happening → Action
  | .turn a _ => a
  | .report i _ => .notices (st.ind.take i).ind ((st.ind.take i).out.filterMap Event.datagram?)

/-- The daemon with its reports. -/
def reportingDaemon : Machine St Happening Effect :=
  ⟨fun st x => daemon.step st (x.action st), fun st x => daemon.out st (x.action st)⟩

/-- What comes to the notifier when something happens. -/
inductive Inputs (st : St) : Happening → List Input → Prop
  | turn {a : Action} {is : List Input} (ha : a.isNotices = false) (h : TurnInputs st a is) : Inputs st (.turn a ha) is
  | report {i : Input} (hi : i.isReport = true) : Inputs st (.report i hi) [i]

/-- What comes to the notifier in a run. -/
inductive RunInputs : St → List Happening → List Input → Prop
  | nil (st : St) : RunInputs st [] []
  | cons {st : St} {x : Happening} {xs : List Happening} {is js : List Input} (h : Inputs st x is)
      (rest : RunInputs (reportingDaemon.step st x) xs js) : RunInputs st (x :: xs) (is ++ js)

theorem exists_runInputs (st : St) (xs : List Happening) : ∃ is, RunInputs st xs is := by
  induction xs generalizing st with
  | nil => exact ⟨[], .nil st⟩
  | cons x xs ih =>
    obtain ⟨js, hjs⟩ := ih (reportingDaemon.step st x)
    cases x with
    | turn a ha =>
      obtain ⟨is, his⟩ := exists_turnInputs st ha
      exact ⟨is ++ js, .cons (.turn ha his) hjs⟩
    | report i hi => exact ⟨[i] ++ js, .cons (.report hi) hjs⟩

/-- Whatever happens, the notices are those of its inputs. -/
theorem Inputs.notices {st : St} {x : Happening} {is : List Input} (h : Inputs st x is) :
    (reportingDaemon.step st x).ind = journal.run st.ind is ∧
      (reportingDaemon.out st x).filter Effect.isIndicate = (journal.trace st.ind is).filterMap Logged.effect? := by
  cases h with
  | turn ha h => exact ⟨h.turn.ind, h.turn.sent⟩
  | @report i hi =>
    refine ⟨rfl, ?_⟩
    have hlogged : i.logged.filterMap Logged.effect? = [] := by cases i <;> rfl
    have hevents : ∀ es : List Event, ((es.filterMap Event.datagram?).map fun s => Effect.indicate s.1 s.2.1 s.2.2).filter
        Effect.isIndicate = (es.map Logged.event).filterMap Logged.effect? := by
      intro es
      induction es with
      | nil => rfl
      | cons e es ih =>
        cases e with
        | sent d => exact congrArg (List.cons _) ih
        | _ => exact ih
    change _ = ((i.logged ++ (st.ind.take i).log) ++ []).filterMap Logged.effect?
    rw [List.append_nil, List.filterMap_append, hlogged, List.nil_append]
    exact hevents (st.ind.take i).out

/-- Over a run. -/
theorem RunInputs.notices {st : St} {xs : List Happening} {is : List Input} (h : RunInputs st xs is) :
    (reportingDaemon.run st xs).ind = journal.run st.ind is ∧
      (reportingDaemon.trace st xs).filter Effect.isIndicate = (journal.trace st.ind is).filterMap Logged.effect? := by
  induction h with
  | nil st => exact ⟨rfl, rfl⟩
  | cons h rest ih =>
    obtain ⟨hind, hsent⟩ := h.notices
    rw [hind] at ih
    refine ⟨?_, ?_⟩
    · rw [Machine.run_cons, ih.1, Machine.run_append]
    · rw [Machine.trace_cons, List.filter_append, hsent, ih.2, Machine.trace_append, List.filterMap_append]

/-- **The life of an indication configuration.** In every run of the daemon from its start, with any requests, reports,
ticks and outcomes of the sends, its indications are those of a journal in which

* a configuration is accepted where a SetIndicationConfig is answered OK and ended where an IP change is applied,
* every datagram goes to the recipient of the configuration in force and is of a kind it asks for; under a period, a
  state change goes out at a boundary, as the first of its kind there, and is the latest that was received under this
  configuration and not sent,
* every state change that is still to be sent at a boundary goes out there. -/
theorem indication_config_lifetime (conf : Conf) (paths : Paths) (d : Disk) (env : StartEnv) (xs : List Happening) :
    (∃ is, RunInputs (startup conf paths d env).st xs is) ∧
    ∀ is log, RunInputs (startup conf paths d env).st xs is → log = journal.trace (startup conf paths d env).st.ind is →
      (reportingDaemon.trace (startup conf paths d env).st xs).filter Effect.isIndicate = log.filterMap Logged.effect? ∧
      (∀ b d c, log = b ++ .event (.sent d) :: c → Fair b d) ∧
      ∀ b c req k n, log = b ++ .event .boundary :: c → inForce b = some req →
        req.recipientIp ≠ 0 ∧ req.recipientPort ≠ 0 → IsChange k → req.infoBits &&& k.bit ≠ 0 → owed k b = some n →
        ∃ c₁ d c₂, c = c₁ ++ .event (.sent d) :: c₂ ∧ d.notice = n ∧ ∀ l ∈ c₁, ∃ d, l = .event (.sent d) := by
  refine ⟨exists_runInputs _ xs, fun is log h hlog => ?_⟩
  subst hlog
  have hoff : (startup conf paths d env).st.ind.enabled = false := rfl
  refine ⟨h.notices.2, fun b d c hsplit => ?_, fun b c req k n hsplit hreq hreach hk hbit howed => ?_⟩
  · obtain ⟨-, halong⟩ := journal_run hoff is
    rw [hsplit] at halong
    exact halong.split d rfl
  · exact journal_boundary hoff hsplit hreq hreach hk hbit howed

end Opcd
