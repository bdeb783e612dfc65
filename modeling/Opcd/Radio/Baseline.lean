import Opcd.Abstract.Table
import Opcd.Radio.Request

/-!
# The radio baseline

What the daemon records of the radio: whether the published configuration is the one applied last
(`appliedKnown`), and whether a failure left it unknown (`recovery`). `Sound` says that the record agrees
with the calls of `apply_radio_config` so far. Every action keeps it but one (`SilentFailure`): the apply of
a request that is equal to the published configuration fails, which arms no revert and is recorded nowhere.

* `Move.radio`: what a move does to the radio state.
* `rested_run`: no revert is pending between actions.
* `radio_baseline_truthful`: the record is truthful along a run exactly if no such failure occurs in it.
-/

namespace Opcd

open Bytes Protocol Store

/-! ## Calls -/

/-- The call of `apply_radio_config` in an effect. -/
def Effect.apply? : Effect → Option (RadioConfig × ApplyResult)
  | .applyRadio cfg res => some (cfg, res)
  | _ => none

/-- The calls of `apply_radio_config`, in order. -/
def applies (out : List Effect) : List (RadioConfig × ApplyResult) := out.filterMap Effect.apply?

theorem applies_append (out out' : List Effect) : applies (out ++ out') = applies out ++ applies out' :=
  List.filterMap_append

theorem applies_eq_nil {out : List Effect} (h : ∀ e ∈ out, e.apply? = none) : applies out = [] :=
  List.filterMap_eq_nil_iff.mpr h

theorem apply?_of_quiet {e : Effect} (h : e.quiet) : e.apply? = none := by
  cases e <;> first | rfl | cases h

theorem applies_write (w : FileWrite) (out : List Effect) : applies (.write w :: out) = applies out := rfl

theorem applies_armMarker (p : Paths) (marker : WriteResult) (req : RadioConfig) :
    applies (p.armMarker marker req) = [] := by
  unfold Paths.armMarker
  split <;> rfl

theorem applies_clearMarker (p : Paths) (ok : Bool) : applies (p.clearMarker ok) = [] := by
  unfold Paths.clearMarker
  split <;> rfl

theorem applies_writeUser (p : Paths) (l : IpList) (env : MirrorEnv) : applies (p.writeUser l env) = [] := by
  unfold Paths.writeUser
  split
  · rfl
  · split
    · split <;> rfl
    · rfl

theorem CopyStart.applies {x : Sys} {l : IpList} {out : List Effect} {c : Option Copy}
    (h : CopyStart x l out c) : applies out = [] := by
  cases h with
  | nowhere => rfl
  | queued => rfl
  | refused => exact applies_writeUser _ _ _

theorem applies_radioAdmission (st : St) (s : Option Slot) : applies (st.radioAdmission s) = [] := by
  cases s <;> rfl

theorem applies_queuedOut (r : Resource) (path : Path) (data : Bytes) (noAck : Bool) (id : BitVec 16)
    (cl : Client) (s : Slot) (k : AckIdx) (before : List Effect) :
    applies (queuedOut r path data noAck id cl s k before) = applies before := by
  have hlast : applies [.ackAlloc (some k), .defer k r noAck id cl data] = [] := rfl
  unfold queuedOut
  rw [applies_append, hlast, List.append_nil]
  rfl

/-- The apply that a pending revert makes. -/
def RadioState.revertCalls (r : RadioState) (res : ApplyResult) : List (RadioConfig × ApplyResult) :=
  if r.revertPending then [(r.revertCfg, res)] else []

/-- The radio state once a pending revert was made. -/
def RadioState.drained (r : RadioState) (res : ApplyResult) : RadioState :=
  if r.revertPending then r.reverted res else r

theorem RadioState.drained_idle (r : RadioState) (res : ApplyResult) : (r.drained res).revertPending = false := by
  unfold RadioState.drained
  split
  · cases res <;> rfl
  next hp => simpa using hp

/-! ## Moves -/

/-- What a move does to the radio state. -/
inductive RadioMove (src : Source) (x : Sys) (out : List Effect) (x' : Sys) : Prop
  | aside (hrad : x'.rad = x.rad) (hout : applies out = [])
  /-- a SetRadioConfig is gone through with -/
  | due {cl : Client} {req : RadioConfig} (due : RadioDue src x.rad cl req)
  | reverted {res : ApplyResult} (pending : x.rad.revertPending = true)
      (hrad : x'.rad = x.rad.reverted res) (hout : applies out = [(x.rad.revertCfg, res)])
  | settled {o : Outcome} (shown : o ≠ .unchanged) (hrad : x'.rad =
        { x.rad with committed := decide (o = .durable), persistBaselineValid := false })
      (hout : applies out = [])
  | unwritten {res : ApplyResult}
      (hrad : x'.rad = { x.rad.unwritten.drained res with persistBaselineValid := false })
      (hout : applies out = x.rad.unwritten.revertCalls res)

/-- **What a move does to the radio state.** -/
theorem Move.radio {src : Source} {x x' : Sys} {out : List Effect} (h : Move src x out x') :
    RadioMove src x out x' := by
  cases h with
  | quiet hout => exact .aside rfl (applies_eq_nil fun e he => apply?_of_quiet (hout e he))
  | probe => exact .aside rfl rfl
  | login => exact .aside rfl rfl
  | close => exact .aside rfl rfl
  | decide => exact .aside rfl rfl
  | stage => exact .aside rfl rfl
  | apply => exact .aside rfl rfl
  | staging => exact .aside rfl rfl
  | passwordQueued =>
    refine .aside ?_ ?_
    · simp only [Sys.setTxn]
    · rw [applies_queuedOut]
      rfl
  | ipListQueued => exact .aside rfl (applies_queuedOut _ _ _ _ _ _ _ _ _)
  | radioQueued due => exact .due due
  | passwordWritten => exact .aside rfl (applies_write _ [])
  | ipListUnwritten => exact .aside rfl (applies_write _ [])
  | ipListWritten =>
    refine .aside rfl ?_
    rw [applies_write]
    exact applies_writeUser _ _ _
  | radioWritten _ due => exact .due due
  | markerFailed due => exact .due due
  | radioFailed due => exact .due due
  | revert pending => exact .reverted pending rfl rfl
  | write => exact .aside rfl (applies_write _ [])
  | settlePassword => exact .aside rfl rfl
  | settleUnwritten => exact .aside rfl rfl
  | settleIpList _ _ _ copy =>
    refine .aside rfl ?_
    rw [applies_append, copy.applies]
    rfl
  | @settleRadio t res revert unlink =>
    have hout : applies (x.rad.settleOut x.paths revert unlink res.outcome ++
        [.settle t.slot (t.answer .radio res)]) =
        applies (x.rad.settleOut x.paths revert unlink res.outcome) := by
      rw [applies_append]
      exact List.append_nil _
    cases ho : res.outcome with
    | durable =>
      refine .settled (o := .durable) (by decide) (by simp [RadioState.settle, Sys.setTxn]) ?_
      rw [← ho, hout, ho]
      exact applies_clearMarker _ _
    | replacedUnsynced =>
      refine .settled (o := .replacedUnsynced) (by decide) (by simp [RadioState.settle, Sys.setTxn]) ?_
      rw [← ho, hout, ho]
      rfl
    | unchanged =>
      refine @RadioMove.unwritten _ _ _ _ revert ?_ ?_
      · simp only [RadioState.settle, RadioState.drained]
        split <;> rfl
      · rw [← ho, hout, ho]
        simp only [RadioState.settleOut, RadioState.revertCalls]
        split <;> rfl
  | copyShown => exact .aside rfl (applies_write _ [])
  | copyRecorded => exact .aside rfl (applies_write _ [])
  | copyUnrecorded => exact .aside rfl rfl
  | copyOver => exact .aside rfl rfl

/-! ## The record and the calls -/

/-- The record agrees with the calls of `apply_radio_config` so far. -/
structure Sound (calls : List (RadioConfig × ApplyResult)) (r : RadioState) : Prop where
  known : r.appliedKnown = true → calls.getLast? = some (r.radio, .ok)
  healthy : r.appliedKnown = true → r.recovery = .healthy
  failed : ∀ cfg live, calls.getLast? = some (cfg, .failed live) → r.recovery ≠ .healthy

namespace Sound

variable {calls : List (RadioConfig × ApplyResult)} {r r' : RadioState}

theorem congr (h : Sound calls r) (hradio : r'.radio = r.radio) (hknown : r'.appliedKnown = r.appliedKnown)
    (hrec : r'.recovery = r.recovery) : Sound calls r' :=
  ⟨by rw [hknown, hradio]; exact h.known, by rw [hknown, hrec]; exact h.healthy,
    by rw [hrec]; exact h.failed⟩

/-- A configuration that was applied. -/
theorem applied {cfg : RadioConfig} (hlast : calls.getLast? = some (cfg, .ok)) (hradio : r.radio = cfg)
    (hrec : r.recovery = .healthy) : Sound calls r := by
  refine ⟨fun _ => by rw [hradio, hlast], fun _ => hrec, fun cfg' live h => ?_⟩
  rw [hlast] at h
  cases h

/-- A baseline that is known to be unknown. -/
theorem unknown (hknown : r.appliedKnown = false) (hrec : r.recovery ≠ .healthy) : Sound calls r :=
  ⟨by simp [hknown], by simp [hknown], fun _ _ _ => hrec⟩

/-- Once the pending revert is made. -/
theorem drained (h : r.revertPending = false → Sound calls r) (res : ApplyResult) :
    Sound (calls ++ r.revertCalls res) (r.drained res) := by
  unfold RadioState.revertCalls RadioState.drained
  cases hp : r.revertPending with
  | false => simpa using h hp
  | true =>
    cases res with
    | ok => exact .applied (by simp [RadioState.reverted]) rfl rfl
    | failed live => exact .unknown rfl (by simp [RadioState.reverted])

/-- A revert is armed, or the baseline is unknown from now on. -/
theorem armRevert (base : RadioConfig) (committed valid : Bool)
    (hidle : (r.armRevert base committed valid).revertPending = false) :
    Sound calls (r.armRevert base committed valid) := by
  unfold RadioState.armRevert at hidle ⊢
  split
  · exact .unknown rfl (by simp)
  next hv =>
    rw [if_neg hv] at hidle
    cases hidle

/-- **A move that serves no SetRadioConfig** leaves the record sound. -/
theorem move {src : Source} {x x' : Sys} {out : List Effect} (hm : Move src x out x')
    (hsrc : ∀ cl req, ¬ RadioDue src x.rad cl req) (h : Sound calls x.rad)
    (hidle : x.rad.revertPending = false) : Sound (calls ++ applies out) x'.rad := by
  cases hm.radio with
  | aside hrad hout =>
    rw [hout, hrad, List.append_nil]
    exact h
  | due due => exact absurd due (hsrc _ _)
  | reverted pending =>
    rw [hidle] at pending
    cases pending
  | settled _ hrad hout =>
    rw [hout, hrad, List.append_nil]
    exact h.congr rfl rfl rfl
  | @unwritten res hrad hout =>
    rw [hout, hrad]
    exact (@drained calls x.rad.unwritten (armRevert _ _ _) res).congr rfl rfl rfl

end Sound

/-- A move that serves no SetRadioConfig leaves no revert pending. -/
theorem Move.rested {src : Source} {x x' : Sys} {out : List Effect} (hm : Move src x out x')
    (hsrc : ∀ cl req, ¬ RadioDue src x.rad cl req) (hidle : x.rad.revertPending = false) :
    x'.rad.revertPending = false := by
  cases hm.radio with
  | aside hrad => rw [hrad, hidle]
  | due due => exact absurd due (hsrc _ _)
  | reverted pending =>
    rw [hidle] at pending
    cases pending
  | settled _ hrad =>
    rw [hrad]
    exact hidle
  | unwritten hrad =>
    rw [hrad]
    exact RadioState.drained_idle _ _

/-! ## Actions -/

/-- The action brings no SetRadioConfig. -/
def Action.NoRadio (a : Action) : Prop :=
  ∀ cl frame, a.source = some (cl, frame) → setRadioConfigReqUnpack frame = none

theorem Action.NoRadio.undue {a : Action} (h : a.NoRadio) (r : RadioState) (cl : Client)
    (req : RadioConfig) : ¬ RadioDue a.source r cl req := by
  intro due
  obtain ⟨frame, hsrc, hreq⟩ := due.source
  rw [h cl frame hsrc] at hreq
  cases hreq

section Aside

variable {st : St} {x : Sys} {a : Action}

theorem rested_aside (hx : Shows false x ⟨st, []⟩) (ha : a.NoRadio)
    (hidle : st.rad.revertPending = false) : (daemon.step st a).rad.revertPending = false := by
  obtain ⟨x', hsteps, hx'⟩ := daemon_simulated x st a hx
  obtain ⟨txn, copy, rfl, -⟩ := hx
  obtain ⟨txn', copy', rfl, -⟩ := hx'
  exact hsteps.inv (P := fun x => x.rad.revertPending = false)
    (fun x _ _ hidle hm => hm.rested (ha.undue x.rad) hidle) hidle

/-- An action that brings no SetRadioConfig. -/
theorem sound_aside {calls : List (RadioConfig × ApplyResult)} (hx : Shows false x ⟨st, []⟩)
    (ha : a.NoRadio) (h : Sound calls st.rad) (hidle : st.rad.revertPending = false) :
    Sound (calls ++ applies (daemon.out st a)) (daemon.step st a).rad := by
  obtain ⟨x', hsteps, hx'⟩ := daemon_simulated x st a hx
  obtain ⟨txn, copy, rfl, -⟩ := hx
  obtain ⟨txn', copy', rfl, -⟩ := hx'
  refine (hsteps.trace_inv (P := fun tr x => Sound (calls ++ applies tr) x.rad ∧
    x.rad.revertPending = false) ?_ [] ⟨(List.append_nil calls).symm ▸ h, hidle⟩).1
  rintro tr x es x' ⟨h, hidle⟩ hm
  rw [applies_append, ← List.append_assoc]
  exact ⟨h.move hm (ha.undue x.rad) hidle, hm.rested (ha.undue x.rad) hidle⟩

end Aside

/-! ### A SetRadioConfig -/

theorem applies_sendIndicationFrame (st : St) (f : Option Bytes) : applies (st.sendIndicationFrame f) = [] := by
  unfold St.sendIndicationFrame
  cases f with
  | none => rfl
  | some f =>
    dsimp only
    split_ifs <;> rfl

theorem rad_idleCheck (st : St) (now : Nat) :
    (st.idleCheck now).st.rad = st.rad ∧ applies (st.idleCheck now).out = [] := by
  unfold St.idleCheck
  split
  · unfold St.sessionLogout St.indInitComplete
    split
    · exact ⟨rfl, rfl⟩
    · refine ⟨rfl, ?_⟩
      rw [Turn.bind_out, applies_append, applies_sendIndicationFrame]
      rfl
  · exact ⟨rfl, rfl⟩

theorem rad_postAck (st : St) : st.postAck.st.rad = st.rad ∧ applies st.postAck.out = [] := by
  unfold St.postAck
  split
  · unfold St.indResetNotice
    split
    · exact ⟨rfl, rfl⟩
    · exact ⟨rfl, by dsimp only; exact applies_sendIndicationFrame _ _⟩
  · exact ⟨rfl, rfl⟩

theorem rad_radioRevertDrain (st : St) (res : ApplyResult) :
    (st.radioRevertDrain res).st.rad = st.rad.drained res ∧
      applies (st.radioRevertDrain res).out = st.rad.revertCalls res := by
  unfold St.radioRevertDrain RadioState.drained RadioState.revertCalls
  cases st.rad.revertPending <;> exact ⟨rfl, rfl⟩

theorem rad_conclude (st : St) (revert : ApplyResult) (ip : BitVec 32) (port : BitVec 16) (resp : Bytes) :
    (st.conclude revert ip port resp).st.rad = st.rad.drained revert ∧
      applies (st.conclude revert ip port resp).out = st.rad.revertCalls revert := by
  obtain ⟨hpost, hpostOut⟩ := rad_postAck st
  obtain ⟨hdrain, hdrainOut⟩ := rad_radioRevertDrain st.postAck.st revert
  have hsend : applies (if resp ≠ [] then [Effect.send ip port resp] else []) = [] := by
    split <;> rfl
  unfold St.conclude
  simp only [Turn.bind_st, Turn.bind_out, applies_append, hsend, hpostOut, List.nil_append]
  rw [hdrain, hdrainOut, hpost]
  exact ⟨rfl, rfl⟩

/-- **A SetRadioConfig**: the turn of its handler, and the revert after it. -/
theorem radio_served {a : Action} {cl : Client} {frame : Bytes} {req : RadioConfig} {x : Sys} {st : St}
    (hx : Shows false x ⟨st, []⟩) (hsrc : a.source = some (cl, frame))
    (hreq : setRadioConfigReqUnpack frame = some req) :
    ∃ (u : St) (env : Env) (t : Turn Bytes) (revert : ApplyResult), u.rad = st.rad ∧
      RadioTurn u env (some (cl, frame)) cl req t ∧ (daemon.step st a).rad = t.st.rad.drained revert ∧
      applies (daemon.out st a) = applies t.out ++ t.st.rad.revertCalls revert := by
  obtain ⟨body, hbody, -⟩ := Option.map_eq_some_iff.mp hreq
  have hc := requested_of_requestBody hbody
  obtain ⟨env, ⟨revert, ip, port, d, rfl⟩, hserved⟩ := served hsrc hc st
  obtain ⟨hidle, hidleOut⟩ := rad_idleCheck st env.now
  have hturn := radioTurn hreq (hserved.room hx) env cl
  refine ⟨_, env, _, revert, hidle, hturn, ?_, ?_⟩
  · change (st.receive env revert ip port d).st.rad = _
    rw [receive_request hsrc hc, Turn.bind_st, Turn.bind_st]
    exact (rad_conclude _ revert ip port _).1
  · change applies (st.receive env revert ip port d).out = _
    rw [receive_request hsrc hc, Turn.bind_out, Turn.bind_out, applies_append, applies_append, hidleOut,
      List.nil_append, (rad_conclude _ revert ip port _).2]
    rfl

/-- The apply of a request that is equal to the published configuration fails, and nothing is recorded
of it. -/
def SilentFailure (st : St) (a : Action) : Prop :=
  ∃ cl frame req live rest, a.source = some (cl, frame) ∧ setRadioConfigReqUnpack frame = some req ∧
    applies (daemon.out st a) = (req, .failed live) :: rest ∧
    radioCfgDiffers req st.rad.radio = false ∧ st.rad.recovery = .healthy

section Request

variable {u : St} {env : Env} {src : Source} {cl : Client} {req : RadioConfig} {t : Turn Bytes}

/-- The calls of a SetRadioConfig, and the radio state it leaves before the revert. -/
theorem RadioTurn.calls (h : RadioTurn u env src cl req t) :
    (applies t.out = [] ∧ t.st.rad = u.rad) ∨
    (∃ live, applies t.out = [(req, .failed live)] ∧ t.st.rad = u.rad.refused req) ∨ applies t.out = [(req, .ok)] ∧
      (t.st.rad = u.rad.pend req ∨
        ∃ o, t.st.rad = (u.rad.applied req).written u.rad (radioBaselineCovers u.rad req) o) := by
  cases h with
  | refused same hout => exact .inl ⟨by rw [hout]; rfl, same.rad⟩
  | dropped _ same hout => exact .inl ⟨by rw [hout]; rfl, same.rad⟩
  | answered _ _ same hout => exact .inl ⟨by rw [hout]; rfl, same.rad⟩
  | unreserved _ same hout => exact .inl ⟨by rw [hout]; rfl, same.rad⟩
  | unarmed _ _ _ _ hrad hout =>
    refine .inl ⟨?_, hrad⟩
    rw [hout, applies_append, applies_radioAdmission, applies_armMarker]
    rfl
  | @failed s live _ _ _ _ _ hrad hout =>
    refine .inr (.inl ⟨live, ?_, hrad⟩)
    rw [hout, applies_append, applies_append, applies_radioAdmission, applies_armMarker]
    rfl
  | written _ _ _ _ _ _ hrad hout =>
    refine .inr (.inr ⟨?_, .inr ⟨_, hrad⟩⟩)
    have hclear : applies (if env.write.outcome = .durable then u.paths.clearMarker env.unlink else [])
        = [] := by
      split
      · exact applies_clearMarker _ _
      · rfl
    rw [hout, applies_append, applies_append, applies_armMarker, hclear]
    rfl
  | queued _ _ _ _ _ hrad hout =>
    refine .inr (.inr ⟨?_, .inl hrad⟩)
    rw [hout, applies_queuedOut, applies_append, applies_armMarker]
    rfl

/-- A request that is applied. -/
theorem Sound.request {calls : List (RadioConfig × ApplyResult)} {r r' : RadioState}
    (h : r' = r.pend req ∨ ∃ o, r' = (r.applied req).written r (radioBaselineCovers r req) o)
    (hidle : r'.revertPending = false) : Sound (calls ++ [(req, .ok)]) r' := by
  have hlast : (calls ++ [(req, ApplyResult.ok)]).getLast? = some (req, .ok) := by simp
  rcases h with rfl | ⟨o, rfl⟩
  · exact .applied hlast rfl rfl
  · cases o with
    | durable => exact .applied hlast rfl rfl
    | replacedUnsynced => exact .applied hlast rfl rfl
    | unchanged => exact .armRevert _ _ _ hidle

end Request

section Step

variable {st : St} {x : Sys} {a : Action} {calls : List (RadioConfig × ApplyResult)}

/-- The action brings a SetRadioConfig or it does not. -/
theorem Action.radio_or_noRadio (a : Action) :
    a.NoRadio ∨ ∃ cl frame req, a.source = some (cl, frame) ∧ setRadioConfigReqUnpack frame = some req := by
  by_cases h : a.NoRadio
  · exact .inl h
  · simp only [Action.NoRadio, not_forall] at h
    obtain ⟨cl, frame, hsrc, hreq⟩ := h
    obtain ⟨req, hreq⟩ := Option.ne_none_iff_exists'.mp hreq
    exact .inr ⟨cl, frame, req, hsrc, hreq⟩

/-- **No action leaves a revert pending.** -/
theorem rested_step (hx : Shows false x ⟨st, []⟩) (hidle : st.rad.revertPending = false) (a : Action) :
    (daemon.step st a).rad.revertPending = false := by
  rcases a.radio_or_noRadio with ha | ⟨cl, frame, req, hsrc, hreq⟩
  · exact rested_aside hx ha hidle
  · obtain ⟨u, env, t, revert, -, -, hrad, -⟩ := radio_served hx hsrc hreq
    rw [hrad]
    exact RadioState.drained_idle _ _

/-- **An action that is no silent failure leaves the record sound.** -/
theorem sound_step (hx : Shows false x ⟨st, []⟩) (h : Sound calls st.rad)
    (hidle : st.rad.revertPending = false) (hns : ¬ SilentFailure st a) :
    Sound (calls ++ applies (daemon.out st a)) (daemon.step st a).rad := by
  rcases a.radio_or_noRadio with ha | ⟨cl, frame, req, hsrc, hreq⟩
  · exact sound_aside hx ha h hidle
  · obtain ⟨u, env, t, revert, hu, hturn, hrad, hout⟩ := radio_served hx hsrc hreq
    rw [hrad, hout, ← List.append_assoc]
    refine Sound.drained (fun hp => ?_) revert
    rcases hturn.calls with ⟨hcalls, ht⟩ | ⟨live, hcalls, ht⟩ | ⟨hcalls, ht⟩
    · rw [hcalls, ht, hu, List.append_nil]
      exact h
    · rw [ht, hu] at hp ⊢
      unfold RadioState.refused at hp ⊢
      split
      next hd =>
        rw [if_pos hd] at hp
        exact .armRevert _ _ _ hp
      next hd =>
        have hrec : st.rad.recovery ≠ .healthy := fun hh =>
          hns ⟨cl, frame, req, live, _, hsrc, hreq, by rw [hout, hcalls]; rfl, by simpa using hd, hh⟩
        refine .unknown ?_ hrec
        cases hk : st.rad.appliedKnown with
        | false => rfl
        | true => exact absurd (h.healthy hk) hrec
    · rw [hu] at ht
      rw [hcalls]
      exact .request ht hp

end Step

/-- A silent failure is the last call, and recorded nowhere. -/
theorem SilentFailure.unrecorded {st : St} {x : Sys} {a : Action} (h : SilentFailure st a)
    (hx : Shows false x ⟨st, []⟩) (hidle : st.rad.revertPending = false) :
    (∃ req live, applies (daemon.out st a) = [(req, .failed live)]) ∧ (daemon.step st a).rad.recovery = .healthy := by
  obtain ⟨cl, frame, req, live, rest, hsrc, hreq, hfirst, hequal, hrec⟩ := h
  obtain ⟨u, env, t, revert, hu, hturn, hrad, hout⟩ := radio_served hx hsrc hreq
  have hnone : st.rad.revertCalls revert = [] := by simp [RadioState.revertCalls, hidle]
  rcases hturn.calls with ⟨hcalls, ht⟩ | ⟨live', hcalls, ht⟩ | ⟨hcalls, -⟩
  · rw [hout, hcalls, ht, hu, hnone] at hfirst
    cases hfirst
  · have hkept : t.st.rad = st.rad := by
      rw [ht, hu, RadioState.refused, if_neg (by simp [hequal])]
    refine ⟨⟨req, live', ?_⟩, ?_⟩
    · rw [hout, hcalls, hkept, hnone]
      rfl
    · rw [hrad, hkept, RadioState.drained, if_neg (by simp [hidle])]
      exact hrec
  · rw [hout, hcalls] at hfirst
    cases hfirst

/-! ## Runs -/

section Runs

variable (conf : Conf) (paths : Paths) (d : Disk) (env : StartEnv)

theorem rested_startup : (startup conf paths d env).st.rad.revertPending = false := rfl

/-- **No revert is pending between actions.** -/
theorem rested_run (as : List Action) : (daemon.run (startup conf paths d env).st as).rad.revertPending = false := by
  induction as using List.reverseRecOn with
  | nil => exact rested_startup conf paths d env
  | append_singleton as a ih =>
    obtain ⟨x, hx⟩ := shows_run conf paths d env as
    rw [daemon.run_snoc]
    exact rested_step hx ih a

/-- A run in which no action is a silent failure leaves the record sound. -/
theorem sound_run (as : List Action)
    (hns : ∀ bs a cs, as = bs ++ a :: cs → ¬ SilentFailure (daemon.run (startup conf paths d env).st bs) a) :
    Sound (applies (daemon.trace (startup conf paths d env).st as))
      (daemon.run (startup conf paths d env).st as).rad := by
  induction as using List.reverseRecOn with
  | nil => exact ⟨fun h => (by cases h), fun h => (by cases h), fun _ _ h => (by cases h)⟩
  | append_singleton as a ih =>
    obtain ⟨x, hx⟩ := shows_run conf paths d env as
    have h := ih fun bs b cs hsplit => hns bs b (cs ++ [a]) (by simp [hsplit])
    rw [daemon.run_snoc, daemon.trace_snoc, applies_append]
    exact sound_step hx h (rested_run conf paths d env as) (hns as a [] rfl)

end Runs

/-- The record is truthful: a known baseline is what was applied last, and a failed apply that none made
good is reported. -/
structure Truthful (calls : List (RadioConfig × ApplyResult)) (r : RadioState) : Prop where
  known : r.appliedKnown = true →
    ∃ cfg, calls.getLast? = some (cfg, .ok) ∧ radioCfgDiffers cfg r.radio = false
  degraded : ∀ before cfg live after, calls = before ++ (cfg, .failed live) :: after →
    (∀ c ∈ after, c.2 ≠ .ok) → r.recovery = .unknownBaseline ∨ r.recovery = .restoreFailed

theorem radioCfgDiffers_self (c : RadioConfig) : radioCfgDiffers c c = false := by
  simp [radioCfgDiffers, wlanCfgDiffers]

theorem Sound.truthful {calls : List (RadioConfig × ApplyResult)} {r : RadioState} (h : Sound calls r) :
    Truthful calls r where
  known hk := ⟨r.radio, h.known hk, radioCfgDiffers_self _⟩
  degraded before cfg live after hsplit hno := by
    have hlast : ∃ cfg' live', calls.getLast? = some (cfg', .failed live') := by
      rcases List.eq_nil_or_concat after with rfl | ⟨after', ⟨cfg', res⟩, rfl⟩
      · exact ⟨cfg, live, by simp [hsplit]⟩
      · cases res with
        | ok => exact absurd rfl (hno (cfg', .ok) (by simp))
        | failed live' =>
          have hend : calls = (before ++ (cfg, .failed live) :: after') ++ [(cfg', .failed live')] := by
            simp [hsplit]
          exact ⟨cfg', live', by rw [hend, List.getLast?_concat]⟩
    obtain ⟨cfg', live', hlast⟩ := hlast
    have hrec := h.failed cfg' live' hlast
    cases hr : r.recovery with
    | healthy => exact absurd hr hrec
    | unknownBaseline => exact .inl rfl
    | restoreFailed => exact .inr rfl

/-- **The record is truthful along a run exactly if no apply fails in it for a request that is equal to the
published configuration while nothing is reported.** -/
theorem radio_baseline_truthful (conf : Conf) (paths : Paths) (d : Disk) (env : StartEnv) (as : List Action) :
    (∀ bs cs, as = bs ++ cs → Truthful (applies (daemon.trace (startup conf paths d env).st bs))
        (daemon.run (startup conf paths d env).st bs).rad) ↔ ∀ bs a cs, as = bs ++ a :: cs →
        ¬ SilentFailure (daemon.run (startup conf paths d env).st bs) a := by
  constructor
  · intro htrue bs a cs hsplit hsilent
    obtain ⟨x, hx⟩ := shows_run conf paths d env bs
    obtain ⟨⟨req, live, hcalls⟩, hrec⟩ := hsilent.unrecorded hx (rested_run conf paths d env bs)
    have htruth := htrue (bs ++ [a]) cs (by simp [hsplit])
    rw [daemon.run_snoc, daemon.trace_snoc, applies_append, hcalls] at htruth
    rcases htruth.degraded _ req live [] rfl (by simp) with h | h <;>
    · rw [hrec] at h
      cases h
  · intro hns bs cs hsplit
    refine (sound_run conf paths d env bs fun bs' a cs' hsplit' => ?_).truthful
    exact hns bs' a (cs' ++ cs) (by simp [hsplit, hsplit'])

/-- A configuration with one station that passes the checks. -/
def oneStation : RadioConfig :=
  { stationType := stationSingle, priorityCh := 0
    wlan1 := ⟨5, 0, scanBandUnset, 0⟩, wlan2 := ⟨0, 0, scanBandUnset, 0⟩ }

/-- The holder's request for it, with these answers. -/
def Action.holderSetRadio (write : WriteResult) (apply : ApplyResult) : Action :=
  .datagram { Env.allOk 0 with write, applyRadio := apply } .ok 0xC0A80001 50000
    ((setRadioConfigReqPack frameMax 2 oneStation).getD [])

/-- The request is applied but its write is not synced; it is sent once more, and the apply fails. -/
def unsyncedThenFailed : List Action :=
  [.holderLogin, .holderSetRadio ⟨.replacedUnsynced, 5⟩ .ok, .holderSetRadio Env.durableWrite (.failed none)]

/-- The daemon without a writer, on a device with no files. -/
def bootSync : St :=
  (startup defaultConf defaultPaths (fun _ => .absent) { StartEnv.allOk with writer := false }).st

/-- A failed apply that is recorded nowhere: the baseline is still called known and healthy. -/
theorem radio_failure_unreported :
    (daemon.run bootSync unsyncedThenFailed).rad.appliedKnown = true ∧
      (daemon.run bootSync unsyncedThenFailed).rad.recovery = .healthy ∧
      (applies (daemon.trace bootSync unsyncedThenFailed)).getLast? = some (oneStation, .failed none) ∧
      ¬ Truthful (applies (daemon.trace bootSync unsyncedThenFailed))
        (daemon.run bootSync unsyncedThenFailed).rad := by
  have hknown : (daemon.run bootSync unsyncedThenFailed).rad.appliedKnown = true := by decide +kernel
  have hlast : (applies (daemon.trace bootSync unsyncedThenFailed)).getLast? =
      some (oneStation, .failed none) := by decide +kernel
  refine ⟨hknown, by decide +kernel, hlast, fun h => ?_⟩
  obtain ⟨cfg, hok, -⟩ := h.known hknown
  rw [hlast] at hok
  cases hok

end Opcd
