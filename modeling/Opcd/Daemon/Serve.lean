import Opcd.Abstract.Simulation
import Opcd.Session.IdleTimer

/-!
# Serving a request

What the main loop does around the handler of a request: the idle check before it, the response, the
notice after a Reset and the deferred radio revert after it (`receive_request`). None of that touches
more than the session, its open cycle, the notices and the radio (`Around`), so the settings a handler
leaves are those the action leaves.
-/

namespace Opcd

open Bytes Protocol Store

theorem requested_of_requestBody {c : Command} {n : Nat} {frame body : Bytes}
    (h : requestBody c n frame = some body) : requested frame = some c := by
  unfold requestBody at h
  unfold requested
  cases hp : frameParse frame with
  | none => simp [hp] at h
  | some p =>
    obtain ⟨hd, b⟩ := p
    simp only [hp] at h ⊢
    split_ifs at h with htype hid
    rw [if_neg htype]
    have hid : hd.reqIndicationId = c.id := not_not.mp hid
    rw [hid]
    cases c <;> rfl

/-- The end of a turn that served a request. -/
def St.conclude (st : St) (revert : ApplyResult) (ip : BitVec 32) (port : BitVec 16) (resp : Bytes) :
    Turn Unit :=
  (⟨st, if resp ≠ [] then [.send ip port resp] else [], ()⟩ : Turn Unit).bind fun st _ =>
    st.postAck.bind fun st _ => st.radioRevertDrain revert

/-- **A datagram with a request**: the idle check, the handler of its command, the end. -/
theorem receive_request {ip : BitVec 32} {port : BitVec 16} {d frame : Bytes} {cl : Client}
    {c : Command} (hsrc : requestOf ip port (frameOf d) = some (cl, frame))
    (hc : requested frame = some c) (st : St) (env : Env) (revert : ApplyResult) :
    st.receive env revert ip port d =
      (st.idleCheck env.now).bind fun st _ =>
      (st.handle env frame cl c).bind fun st resp => st.conclude revert ip port resp := by
  unfold requestOf at hsrc
  obtain ⟨⟨hd, body⟩, hparse, heq⟩ := Option.map_eq_some_iff.mp hsrc
  obtain ⟨rfl, rfl⟩ := Prod.mk.inj heq
  have hwant : St.intakeFrameLen (d.take frameMax) ≠ 0 := by
    intro hzero
    rw [frameOf, hzero] at hparse
    cases hparse
  unfold requested at hc
  rw [hparse] at hc
  dsimp only at hc
  split_ifs at hc with htype
  unfold St.receive
  dsimp only
  rw [if_neg hwant, ← frameOf]
  unfold St.dispatch
  rw [hparse]
  dsimp only
  rw [if_neg htype, hc]
  simp [Turn.bind, St.conclude, St.done]

/-- What the idle check and the end of a turn leave alone. -/
structure Around (st st' : St) : Prop where
  conf : st'.conf = st.conf
  paths : st'.paths = st.paths
  pw : st'.pw = st.pw
  list : st'.ipl.list = st.ipl.list
  chg : st'.chg = st.chg
  storeAsync : st'.storeAsync = st.storeAsync
  acks : st'.acks = st.acks

theorem Around.trans {st st' st'' : St} (h : Around st st') (h' : Around st' st'') : Around st st'' :=
  ⟨h'.conf.trans h.conf, h'.paths.trans h.paths, h'.pw.trans h.pw, h'.list.trans h.list,
    h'.chg.trans h.chg, h'.storeAsync.trans h.storeAsync, h'.acks.trans h.acks⟩

theorem persistResourceBusy_congr {st st' : St} (h : st'.acks = st.acks) (r : Resource) :
    st'.persistResourceBusy r = st.persistResourceBusy r := by
  unfold St.persistResourceBusy
  rw [h]

theorem Around.busy {st st' : St} (h : Around st st') (r : Resource) :
    st'.persistResourceBusy r = st.persistResourceBusy r := persistResourceBusy_congr h.acks r

theorem SameCore.around {st st' : St} (h : SameCore st st') : Around st st' :=
  ⟨h.conf, h.paths, h.pw, congrArg IpListState.list h.ipl, h.chg, h.storeAsync, h.acks⟩

/-- Effects that are no write, no admission and no settlement: notices and the radio revert. -/
def Effect.aside : Effect → Prop
  | .indicate .. => True
  | .applyRadio .. => True
  | _ => False

theorem aside_sendIndicationFrame (st : St) (f : Option Bytes) : ∀ e ∈ st.sendIndicationFrame f, e.aside := by
  unfold St.sendIndicationFrame
  cases f with
  | none => simp
  | some f =>
    dsimp only
    split_ifs <;> simp [Effect.aside]

theorem sameCore_indInitComplete (st : St) (s : InitState) :
    SameCore st (st.indInitComplete s).st ∧ ∀ e ∈ (st.indInitComplete s).out, e.aside := by
  unfold St.indInitComplete
  split
  · exact ⟨SameCore.refl st, by simp⟩
  · exact ⟨sameCore_nextSeq st, by dsimp only; exact aside_sendIndicationFrame st _⟩

theorem around_idleCheck (st : St) (now : Nat) :
    Around st (st.idleCheck now).st ∧ ∀ e ∈ (st.idleCheck now).out, e.aside := by
  unfold St.idleCheck
  split
  · obtain ⟨same, hout⟩ := sameCore_indInitComplete st .loggedOut
    have hend : Around (st.indInitComplete .loggedOut).st (st.indInitComplete .loggedOut).st.endSession :=
      ⟨rfl, rfl, rfl, rfl, rfl, rfl, rfl⟩
    exact ⟨same.around.trans hend, by simpa [St.sessionLogout] using hout⟩
  · exact ⟨(SameCore.refl st).around, by simp⟩

theorem sameCore_postAck (st : St) : SameCore st st.postAck.st ∧ ∀ e ∈ st.postAck.out, e.aside := by
  unfold St.postAck
  split
  · have same : SameCore st { st with resetNoticeSent := true } := by constructor <;> rfl
    unfold St.indResetNotice
    split
    · exact ⟨same, by simp⟩
    · exact ⟨same.trans (sameCore_nextSeq _), by dsimp only; exact aside_sendIndicationFrame _ _⟩
  · exact ⟨SameCore.refl st, by simp⟩

theorem around_radioRevertDrain (st : St) (res : ApplyResult) :
    Around st (st.radioRevertDrain res).st ∧ ∀ e ∈ (st.radioRevertDrain res).out, e.aside := by
  unfold St.radioRevertDrain
  split
  · exact ⟨(SameCore.refl st).around, by simp⟩
  · exact ⟨⟨rfl, rfl, rfl, rfl, rfl, rfl, rfl⟩, by simp [Effect.aside]⟩

/-- The end of a turn leaves the settings, and sends nothing but the response. -/
theorem around_conclude (st : St) (revert : ApplyResult) (ip : BitVec 32) (port : BitVec 16) (resp : Bytes) :
    Around st (st.conclude revert ip port resp).st ∧ ∀ e ∈ (st.conclude revert ip port resp).out,
        e.aside ∨ e = .send ip port resp ∧ resp ≠ [] := by
  obtain ⟨same, hpost⟩ := sameCore_postAck st
  obtain ⟨haround, hdrain⟩ := around_radioRevertDrain st.postAck.st revert
  refine ⟨same.around.trans haround, fun e he => ?_⟩
  simp only [St.conclude, Turn.bind_out, List.mem_append] at he
  rcases he with he | he | he
  · split at he
    next hne => exact .inr ⟨by simpa using he, hne⟩
    · cases he
  · exact .inl (hpost e he)
  · exact .inl (hdrain e he)

/-- The action is a datagram whose handler is run from `u` and comes to `t`. -/
structure Served (st : St) (a : Action) (cl : Client) (u : St) (t : Turn Bytes) : Prop where
  before : Around st u
  after : Around t.st (daemon.step st a)
  /-- nothing but the handler's effects, its response, and others aside -/
  out : ∀ e ∈ daemon.out st a, e.aside ∨ e ∈ t.out ∨ e = .send cl.ip cl.port t.val ∧ t.val ≠ []
  mem : ∀ e ∈ t.out, e ∈ daemon.out st a

/-- **A request is served** by the handler of its command. -/
theorem served {a : Action} {cl : Client} {frame : Bytes} {c : Command}
    (hsrc : a.source = some (cl, frame)) (hc : requested frame = some c) (st : St) :
    ∃ env : Env, (∃ revert ip port d, a = .datagram env revert ip port d) ∧
      Served st a cl (st.idleCheck env.now).st ((st.idleCheck env.now).st.handle env frame cl c) := by
  cases a with
  | datagram env revert ip port d =>
    change requestOf ip port (frameOf d) = some (cl, frame) at hsrc
    obtain ⟨hip, hport⟩ : cl.ip = ip ∧ cl.port = port := by
      obtain ⟨p, -, hp⟩ := Option.map_eq_some_iff.mp hsrc
      rw [← (Prod.mk.inj hp).1]
      exact ⟨rfl, rfl⟩
    refine ⟨env, ⟨revert, ip, port, d, rfl⟩, (around_idleCheck st env.now).1, ?_, ?_, ?_⟩
    · change Around _ (st.receive env revert ip port d).st
      rw [receive_request hsrc hc]
      exact (around_conclude _ revert ip port _).1
    · intro e he
      change e ∈ (st.receive env revert ip port d).out at he
      rw [receive_request hsrc hc] at he
      simp only [Turn.bind_out, List.mem_append] at he
      rw [hip, hport]
      rcases he with he | he | he
      · exact .inl ((around_idleCheck st env.now).2 e he)
      · exact .inr (.inl he)
      · exact ((around_conclude _ revert ip port _).2 e he).imp_right .inr
    · intro e he
      change e ∈ (st.receive env revert ip port d).out
      rw [receive_request hsrc hc]
      simp only [Turn.bind_out, List.mem_append]
      exact .inr (.inl he)
  | _ => cases hsrc

/-- The responses among the effects. -/
def sends (out : List Effect) : List (BitVec 32 × BitVec 16 × Bytes) :=
  out.filterMap fun
    | .send ip port f => some (ip, port, f)
    | _ => none

theorem sends_append (out out' : List Effect) : sends (out ++ out') = sends out ++ sends out' :=
  List.filterMap_append

theorem sends_eq_nil {out : List Effect} (h : ∀ e ∈ out, ∀ ip port f, e ≠ .send ip port f) : sends out = [] := by
  refine List.filterMap_eq_nil_iff.mpr fun e he => ?_
  cases e with
  | send ip port f => exact absurd rfl (h _ he ip port f)
  | _ => rfl

theorem sends_aside {out : List Effect} (h : ∀ e ∈ out, e.aside) : sends out = [] := by
  refine sends_eq_nil fun e he ip port f heq => ?_
  have haside := h e he
  rw [heq] at haside
  exact haside

/-- The response of a turn that served a request. -/
def response (cl : Client) (resp : Bytes) : List (BitVec 32 × BitVec 16 × Bytes) :=
  if resp ≠ [] then [(cl.ip, cl.port, resp)] else []

/-- **What is sent while a request is served**: what its handler sends, and its response. -/
theorem sends_served {ip : BitVec 32} {port : BitVec 16} {d frame : Bytes} {cl : Client} {c : Command}
    (hsrc : requestOf ip port (frameOf d) = some (cl, frame)) (hc : requested frame = some c) (st : St)
    (env : Env) (revert : ApplyResult) :
    sends (daemon.out st (.datagram env revert ip port d)) =
      sends ((st.idleCheck env.now).st.handle env frame cl c).out ++
        response cl ((st.idleCheck env.now).st.handle env frame cl c).val := by
  obtain ⟨rfl, rfl⟩ : cl.ip = ip ∧ cl.port = port := by
    obtain ⟨p, -, hp⟩ := Option.map_eq_some_iff.mp hsrc
    rw [← (Prod.mk.inj hp).1]
    exact ⟨rfl, rfl⟩
  change sends (st.receive env revert cl.ip cl.port d).out = _
  rw [receive_request hsrc hc]
  simp only [Turn.bind_out, St.conclude, sends_append, sends_aside (around_idleCheck st env.now).2,
    sends_aside (sameCore_postAck _).2, sends_aside (around_radioRevertDrain _ _).2, List.nil_append,
    List.append_nil]
  generalize (st.idleCheck env.now).st.handle env frame cl c = t
  unfold response
  split <;> rfl

/-- A request finds room for its write, whatever the idle check did. -/
theorem Served.room {st u : St} {a : Action} {cl : Client} {t : Turn Bytes} (h : Served st a cl u t)
    {closing : Bool} {x : Sys} (hx : Shows closing x ⟨st, []⟩) (w : Writer) (path : Path) (len : Nat)
    (hw : u.storeAsync = some w) : ¬ (u.pendingAckAlloc = none ∨ (w.reserve path len).2 = .error .again) := by
  obtain ⟨txn, copy, -, ht⟩ := hx
  have halloc : u.pendingAckAlloc = st.pendingAckAlloc := by
    unfold St.pendingAckAlloc
    rw [h.before.acks]
  rw [halloc]
  exact ht.not_starved (h.before.storeAsync ▸ hw)

end Opcd
