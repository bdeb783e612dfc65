import Opcd.Abstract.Table
import Opcd.Password.Request

/-!
# How the password changes

* `Move.password`: what a move does to the password group (`PasswordMove`).
* `passwordStep`: what an action does (`PasswordStep`). It leaves the group alone, settles a write in
  flight, or admits the SetPassword it brings.
-/

namespace Opcd

open Bytes Protocol Store

/-! ## Moves -/

/-- The answer to a SetPassword whose write came to `o`. -/
def passwordAnswer (o : Outcome) : BitVec 16 × BitVec 16 :=
  if o = .durable then (resultOk, Err.none) else (resultNg, Err.nvram)

/-- Every SetPassword acknowledged after a completed write got this answer. -/
def SettledWith (out : List Effect) (answer : Option (BitVec 16 × BitVec 16)) : Prop :=
  ∀ k ip port f a, Effect.settle k (some (ip, port, f)) ∈ out → setPasswordAckUnpack f = some a →
    answer = some a

theorem SettledWith.nil (answer : Option (BitVec 16 × BitVec 16)) : SettledWith [] answer := by
  intro k ip port f a h
  cases h

theorem SettledWith.append {out out' : List Effect} {answer : Option (BitVec 16 × BitVec 16)}
    (h : SettledWith out answer) (h' : SettledWith out' answer) : SettledWith (out ++ out') answer := by
  intro k ip port f a hmem
  rcases List.mem_append.mp hmem with hmem | hmem
  · exact h k ip port f a hmem
  · exact h' k ip port f a hmem

variable {src : Source} {x x' : Sys} {out : List Effect}

/-- Nothing was acknowledged. -/
theorem SettledWith.mono (h : SettledWith out none)
    (answer : Option (BitVec 16 × BitVec 16)) : SettledWith out answer := by
  intro k ip port f a hmem ha
  cases h k ip port f a hmem ha

theorem settledWith_of_unsettled (h : ∀ k s, Effect.settle k s ∉ out) :
    SettledWith out none :=
  fun k _ _ _ _ hmem => absurd hmem (h k _)

/-- What the acknowledgement of a transaction says. -/
theorem unpack_answer {r : Resource} {t : Txn} {res : WriteResult} {ip : BitVec 32} {port : BitVec 16}
    {f : Bytes} (h : t.answer r res = some (ip, port, f)) :
    setPasswordAckUnpack f =
      if r.reqId = Command.setPassword.id then some (passwordAnswer res.outcome) else none := by
  unfold Txn.answer at h
  split at h
  · cases h
  · obtain ⟨-, -, rfl⟩ := Prod.mk.inj (Option.some.inj h) |>.imp_right Prod.mk.inj
    have hack := simpleAckUnpack_getD r.reqId Command.setPassword.id t.cl.seq
      (if res.outcome = .durable then resultOk else resultNg)
      (if res.outcome = .durable then Err.none else Err.nvram)
    refine hack.trans ?_
    unfold passwordAnswer
    split_ifs <;> rfl

theorem settledWith_answer {out : List Effect} (h : ∀ k s, Effect.settle k s ∉ out) {t : Txn}
    {r : Resource} {res : WriteResult} : SettledWith (out ++ [.settle t.slot (t.answer r res)])
      (if r.reqId = Command.setPassword.id then some (passwordAnswer res.outcome) else none) := by
  intro k ip port f a hmem ha
  rcases List.mem_append.mp hmem with hmem | hmem
  · exact absurd hmem (h k _)
  · have heq := (Effect.settle.inj (List.mem_singleton.mp hmem)).2
    rw [unpack_answer heq.symm] at ha
    exact ha

/-- What a move does to the password group. -/
inductive PasswordMove (src : Source) (x : Sys) (out : List Effect) (x' : Sys) : Prop
  | aside (hpw : x'.pw = x.pw) (htxn : x'.txn .password = x.txn .password)
      (hacks : SettledWith out none) (hwrites : outcomes x.paths.password out = [])
  | made {t : Txn} {res : WriteResult} (opened : x.txn .password = some t) (unmade : t.result = none)
      (hpw : x'.pw = x.pw) (htxn : x'.txn .password = some { t with result := some res })
      (hacks : SettledWith out none) (hwrites : outcomes x.paths.password out = [res.outcome])
  | settled {t : Txn} {res : WriteResult} (opened : x.txn .password = some t)
      (made : t.result = some res)
      (hpw : x'.pw = x.pw.settled x.pw.pending res.outcome (Buf.zero 128))
      (htxn : x'.txn .password = none)
      (hacks : SettledWith out (some (passwordAnswer res.outcome)))
      (hwrites : outcomes x.paths.password out = [])
  | queued {cl : Client} {req : SetPasswordReq} {data : Bytes} {t : Txn} (async : x.async = true)
      (due : PasswordDue src x.pw cl req data) (idle : x.txn .password = none)
      (hpw : x'.pw = { x.pw with pending := Buf.ofBytes 128 data })
      (htxn : x'.txn .password = some t) (unmade : t.result = none) (hacks : SettledWith out none)
      (hwrites : outcomes x.paths.password out = [])
  | written {cl : Client} {req : SetPasswordReq} {data : Bytes} {r : WriteResult}
      (sync : x.async = false) (due : PasswordDue src x.pw cl req data)
      (hpw : x'.pw = x.pw.publish (Buf.ofBytes 128 data) r.outcome)
      (htxn : x'.txn .password = x.txn .password) (hacks : SettledWith out none)
      (hwrites : outcomes x.paths.password out = [r.outcome])

/-! A move beside the password group: nothing of the password is written or acknowledged. -/

theorem settledWith_tableEvents {p : Paths}
    {answer : Option (BitVec 16 × BitVec 16)} (h : SettledWith (tableEvents p out) answer) :
    SettledWith out answer :=
  fun k ip port f a hmem => h k ip port f a (mem_tableEvents rfl hmem)

theorem outcomes_password (p : Paths) (out : List Effect) :
    outcomes p.password (tableEvents p out) = outcomes p.password out :=
  outcomes_tableEvents (r := .password) (by decide) out

theorem PasswordMove.of_off (hpw : x'.pw = x.pw)
    (htxn : x'.txn .password = x.txn .password) (hout : ∀ e ∈ out, e.onTable x.paths = false) :
    PasswordMove src x out x' := by
  have hev := tableEvents_eq_nil hout
  refine .aside hpw htxn (settledWith_tableEvents (p := x.paths) ?_) ?_
  · rw [hev]
    exact SettledWith.nil _
  · rw [← outcomes_password, hev]
    rfl

/-- A write that is queued. -/
theorem PasswordMove.of_defer {k : AckIdx} {r : Resource}
    {noAck : Bool} {reqId : BitVec 16} {cl : Client} {data : Bytes} (hpw : x'.pw = x.pw)
    (htxn : x'.txn .password = x.txn .password)
    (hev : tableEvents x.paths out = [.defer k r noAck reqId cl data]) : PasswordMove src x out x' := by
  refine .aside hpw htxn (settledWith_tableEvents (p := x.paths) ?_) ?_
  · rw [hev]
    exact settledWith_of_unsettled (by simp)
  · rw [← outcomes_password, hev]
    rfl

/-- A write of another resource. -/
theorem PasswordMove.of_write {r : Resource}
    {w : FileWrite} (hr : r ≠ .none) (hne : r ≠ .password) (hw : w.path = r.path x.paths)
    (hpw : x'.pw = x.pw) (htxn : x'.txn .password = x.txn .password)
    (hev : tableEvents x.paths out = [.write w]) : PasswordMove src x out x' := by
  refine .aside hpw htxn (settledWith_tableEvents (p := x.paths) ?_) ?_
  · rw [hev]
    exact settledWith_of_unsettled (by simp)
  · have hother : w.path ≠ x.paths.password :=
      fun h => hne (x.paths.path_inj hr (by decide) (hw.symm.trans h))
    rw [← outcomes_password, hev]
    simp [outcomes, hother]

/-- A settlement of another resource. -/
theorem PasswordMove.of_answer {r : Resource} {t : Txn}
    {res : WriteResult} (hr : r.reqId ≠ Command.setPassword.id) (hpw : x'.pw = x.pw)
    (htxn : x'.txn .password = x.txn .password) (hev : tableEvents x.paths out = [.settle t.slot (t.answer r res)]) :
    PasswordMove src x out x' := by
  have hacks := @settledWith_answer [] (by simp) t r res
  rw [if_neg hr] at hacks
  refine .aside hpw htxn (settledWith_tableEvents (p := x.paths) (hev ▸ hacks)) ?_
  rw [← outcomes_password, hev]
  rfl

/-- **What a move does to the password group.** -/
theorem Move.password (h : Move src x out x') (hnone : x.txn .none = none) : PasswordMove src x out x' := by
  cases h with
  | quiet hout => exact .of_off rfl rfl fun e he => offTable_of_quiet (hout e he)
  | probe => exact .of_off rfl rfl (by simp [Effect.onTable])
  | login => exact .of_off rfl rfl (by simp)
  | close => exact .of_off rfl rfl (by simp)
  | decide => exact .of_off rfl rfl (by simp)
  | stage => exact .of_off rfl rfl (by simp)
  | apply => exact .of_off rfl rfl (by simp [Effect.onTable])
  | staging => exact .of_off rfl rfl (by simp)
  | passwordQueued due ready =>
    exact .queued ready.async due ready.idle rfl (Sys.setTxn_txn_self _ _ _) rfl
      (settledWith_of_unsettled (by simp [queuedOut])) (by simp [outcomes, queuedOut])
  | ipListQueued => exact .of_defer rfl rfl (tableEvents_queuedOut (by simp))
  | radioQueued => exact .of_defer rfl rfl (tableEvents_queuedOut (offTable_applied _ _ _))
  | passwordWritten sync due =>
    exact .written sync due rfl rfl (settledWith_of_unsettled (by simp)) (by simp [outcomes])
  | ipListUnwritten =>
    exact .of_write (r := .ipList) (by decide) (by decide) rfl rfl rfl
      (tableEvents_write (l := []) (m := []) (r := .ipList) (by decide) rfl (by simp) (by simp))
  | ipListWritten =>
    exact .of_write (r := .ipList) (by decide) (by decide) rfl rfl rfl
      (tableEvents_write (l := []) (r := .ipList) (by decide) rfl (by simp) (offTable_writeUser _ _))
  | radioWritten =>
    exact .of_write (r := .radio) (by decide) (by decide) rfl rfl rfl (tableEvents_radioWritten _ _ _ _)
  | markerFailed => exact .of_off rfl rfl (offTable_armMarker _ _)
  | radioFailed => exact .of_off rfl rfl (offTable_applied _ _ _)
  | revert => exact .of_off rfl rfl (by simp [Effect.onTable])
  | @write r t res opened unmade turn =>
    by_cases hpw : r = .password
    · subst hpw
      exact .made opened unmade rfl (Sys.setTxn_txn_self _ _ _)
        (settledWith_of_unsettled (by simp)) (by simp [outcomes, Resource.path])
    · have hr : r ≠ .none := by
        rintro rfl
        rw [hnone] at opened
        cases opened
      exact .of_write hr hpw rfl rfl (Sys.setTxn_txn_of_ne _ (Ne.symm hpw) _)
        (tableEvents_write (l := []) (m := []) hr rfl (by simp) (by simp))
  | @settlePassword t res opened made =>
    have hacks := @settledWith_answer [] (by simp) t .password res
    exact .settled opened made rfl (Sys.setTxn_txn_self _ _ _) hacks rfl
  | settleUnwritten =>
    exact .of_answer (by decide) rfl rfl (tableEvents_settle (l := []) (by simp) _ _)
  | settleIpList _ _ _ copy =>
    exact .of_answer (by decide) rfl rfl (tableEvents_settle copy.offTable _ _)
  | settleRadio =>
    exact .of_answer (by decide) rfl rfl (tableEvents_settle (offTable_settleOut _ _ _ _) _ _)
  | copyShown huser => exact .of_off rfl rfl (offTable_user huser)
  | copyRecorded hlast => exact .of_off rfl rfl (offTable_last hlast)
  | copyUnrecorded => exact .of_off rfl rfl (by simp)
  | copyOver => exact .of_off rfl rfl (by simp)

/-- What happens to the password group while no SetPassword is admitted. -/
inductive PasswordKept (x : Sys) (out : List Effect) (x' : Sys) : Prop
  | same (hpw : x'.pw = x.pw) (htxn : (x'.txn .password).isSome = (x.txn .password).isSome)
      (hacks : SettledWith out none)
  | settled {o : Outcome} (was : (x.txn .password).isSome = true)
      (now : (x'.txn .password).isSome = false)
      (hpw : x'.pw = x.pw.settled x.pw.pending o (Buf.zero 128))
      (hacks : SettledWith out (some (passwordAnswer o)))

/-- **A chain of moves that brings no SetPassword** leaves the group alone or settles the write in
flight. -/
theorem passwordKept_of_steps (hsrc : ∀ cl frame, src = some (cl, frame) → setPasswordReqUnpack frame = none)
    (h : Steps (Move src) x out x') (hnone : x.txn .none = none) : PasswordKept x out x' := by
  induction h with
  | refl => exact .same rfl rfl (SettledWith.nil _)
  | @cons x x₁ x' out out' hmove _ ih =>
    have hundue : ∀ cl req data, ¬ PasswordDue src x.pw cl req data := by
      intro cl req data hdue
      obtain ⟨frame, hs, hreq⟩ := hdue.source
      rw [hsrc cl frame hs] at hreq
      cases hreq
    have hrest := ih (hmove.noFile hnone)
    cases hmove.password hnone with
    | aside hpw htxn hacks =>
      cases hrest with
      | same hpw' htxn' hacks' =>
        exact .same (hpw'.trans hpw) (htxn'.trans (by rw [htxn])) (hacks.append hacks')
      | settled was now hpw' hacks' =>
        refine .settled (by rw [← htxn]; exact was) now ?_ ((hacks.mono _).append hacks')
        rw [hpw', hpw]
    | made opened _ hpw htxn hacks =>
      cases hrest with
      | same hpw' htxn' hacks' =>
        exact .same (hpw'.trans hpw) (htxn'.trans (by rw [htxn, opened]; rfl)) (hacks.append hacks')
      | settled was now hpw' hacks' =>
        refine .settled (by rw [opened]; rfl) now ?_ ((hacks.mono _).append hacks')
        rw [hpw', hpw]
    | settled opened _ hpw htxn hacks =>
      cases hrest with
      | same hpw' htxn' hacks' =>
        refine .settled (by rw [opened]; rfl) (by rw [htxn', htxn]; rfl) (hpw'.trans hpw) ?_
        exact hacks.append (hacks'.mono _)
      | settled was =>
        rw [htxn] at was
        cases was
    | queued _ due => exact absurd due (hundue _ _ _)
    | written _ due => exact absurd due (hundue _ _ _)

/-! ## Actions -/

/-- The SetPassword an action brings. -/
def Action.setPassword (a : Action) : Option (Client × SetPasswordReq) :=
  a.source.bind fun s => (setPasswordReqUnpack s.2).map fun req => (s.1, req)

/-- The effect starts the write of a password: it is queued, or made in line. -/
def Effect.startsPassword (p : Paths) : Effect → Prop
  | .defer _ r _ _ _ _ => r = .password
  | .write w => w.path = p.password
  | _ => False

theorem Effect.aside.not_startsPassword {e : Effect} {p : Paths} (h : e.aside) : ¬ e.startsPassword p := by
  cases e with
  | indicate => exact id
  | applyRadio => exact id
  | _ => cases h

/-- The action brings a SetPassword, and its write is started. -/
def Admitted (st : St) (a : Action) (cl : Client) (req : SetPasswordReq) : Prop :=
  a.setPassword = some (cl, req) ∧ ∃ e ∈ daemon.out st a, e.startsPassword st.paths

/-- What an action does to the password group. -/
inductive PasswordStep (st : St) (a : Action) : Prop
  | kept (hpw : (daemon.step st a).pw = st.pw)
      (hbusy : (daemon.step st a).persistResourceBusy .password = st.persistResourceBusy .password)
      (unadmitted : ∀ cl req, ¬ Admitted st a cl req) (hacks : SettledWith (daemon.out st a) none)
      (mismatch : ∀ cl req f, a.setPassword = some (cl, req) → st.pw.Admits req →
        .send cl.ip cl.port f ∈ daemon.out st a →
          setPasswordAckUnpack f ≠ some (resultNg, Err.passwordMismatch))
      (nvram : ∀ cl req f, a.setPassword = some (cl, req) →
        .send cl.ip cl.port f ∈ daemon.out st a → setPasswordAckUnpack f = some (resultNg, Err.nvram) →
          st.pw.Admits req ∧ st.persistResourceBusy .password = false)
  | settled {o : Outcome} (hnone : a.setPassword = none)
      (was : st.persistResourceBusy .password = true)
      (now : (daemon.step st a).persistResourceBusy .password = false)
      (hpw : (daemon.step st a).pw = st.pw.settled st.pw.pending o (Buf.zero 128))
      (hacks : SettledWith (daemon.out st a) (some (passwordAnswer o)))
  | written {cl : Client} {req : SetPasswordReq} {o : Outcome} (admitted : Admitted st a cl req)
      (due : PasswordDue a.source st.pw cl req
        (req.newPassword.toList.take (strnlen req.newPassword.toList 127)))
      (idle : st.persistResourceBusy .password = false)
      (now : (daemon.step st a).persistResourceBusy .password = false)
      (hpw : (daemon.step st a).pw = st.pw.publish req.candidate o)
      (hsend : ∀ ip port f, .send ip port f ∈ daemon.out st a →
        setPasswordAckUnpack f = some (passwordAnswer o))
  | queued {cl : Client} {req : SetPasswordReq} (admitted : Admitted st a cl req)
      (due : PasswordDue a.source st.pw cl req
        (req.newPassword.toList.take (strnlen req.newPassword.toList 127)))
      (idle : st.persistResourceBusy .password = false)
      (now : (daemon.step st a).persistResourceBusy .password = true)
      (hpw : (daemon.step st a).pw = { st.pw with pending := req.candidate })
      (hsend : ∀ ip port f, .send ip port f ∉ daemon.out st a)

/-- An action that brings no SetPassword. -/
theorem passwordStep_of_none {st : St} {a : Action} {x : Sys} (hx : Shows false x ⟨st, []⟩)
    (hnone : a.setPassword = none) : PasswordStep st a := by
  have hsrc : ∀ cl frame, a.source = some (cl, frame) → setPasswordReqUnpack frame = none := by
    intro cl frame hs
    rw [Action.setPassword, hs, Option.bind_some, Option.map_eq_none_iff] at hnone
    exact hnone
  obtain ⟨x', hsteps, hx'⟩ := daemon_simulated x st a hx
  obtain ⟨txn, copy, rfl, ht⟩ := hx
  obtain ⟨txn', copy', rfl, ht'⟩ := hx'
  have hbusy : st.persistResourceBusy .password = _ := ht.acked.busy .password
  have hbusy' : (daemon.step st a).persistResourceBusy .password = _ := ht'.acked.busy .password
  have hun : ∀ cl req, ¬ Admitted st a cl req := by
    intro cl req hadm
    rw [hadm.1] at hnone
    cases hnone
  cases passwordKept_of_steps hsrc hsteps ht.noFile with
  | same hpw htxn hacks =>
    refine .kept hpw (by rw [hbusy, hbusy']; exact htxn) hun hacks ?_ ?_
    · intro cl req f ha
      rw [hnone] at ha
      cases ha
    · intro cl req f ha
      rw [hnone] at ha
      cases ha
  | settled was now hpw hacks =>
    exact .settled hnone (by rw [hbusy]; exact was) (by rw [hbusy']; exact now) hpw hacks

section Bringing

variable {st u : St} {a : Action} {cl : Client} {req : SetPasswordReq} {t : Turn Bytes}

/-- A SetPassword that writes nothing: all it does is answer, if that. -/
theorem passwordStep_of_kept (hs : Served st a cl u t) (ha : a.setPassword = some (cl, req))
    (hsame : Around u t.st) (hout : ∀ e ∈ t.out, ∃ p e', e = .reserve p (.error e'))
    (hval : t.val = [] ∨ ∃ cause, t.val = passwordAck cl resultNg cause ∧
      (cause = Err.passwordMismatch → ¬ st.pw.Admits req) ∧
      (cause = Err.nvram → st.pw.Admits req ∧ st.persistResourceBusy .password = false)) : PasswordStep st a := by
  have hall := (hs.before.trans hsame).trans hs.after
  have hself : ∀ {cl' req'}, a.setPassword = some (cl', req') → cl' = cl ∧ req' = req := by
    intro cl' req' h
    rw [ha] at h
    exact ⟨(Prod.mk.inj (Option.some.inj h)).1.symm, (Prod.mk.inj (Option.some.inj h)).2.symm⟩
  have hreply : ∀ {f r}, Effect.send cl.ip cl.port f ∈ daemon.out st a →
      setPasswordAckUnpack f = some (resultNg, r) →
      (r = Err.passwordMismatch → ¬ st.pw.Admits req) ∧
      (r = Err.nvram → st.pw.Admits req ∧ st.persistResourceBusy .password = false) := by
    intro f r hf hr
    rcases hs.out _ hf with h | h | ⟨h, hne⟩
    · cases h
    · obtain ⟨p, e', he'⟩ := hout _ h
      cases he'
    · obtain ⟨cause, hc, himp⟩ := hval.resolve_left hne
      obtain rfl := (Effect.send.inj h).2.2
      rw [hc, setPasswordAckUnpack_passwordAck] at hr
      obtain rfl := (Prod.mk.inj (Option.some.inj hr)).2
      exact himp
  refine .kept hall.pw (hall.busy _) ?_ ?_ ?_ ?_
  · rintro cl' req' ⟨-, e, he, hstart⟩
    rcases hs.out e he with h | h | ⟨rfl, -⟩
    · exact h.not_startsPassword hstart
    · obtain ⟨p, e', rfl⟩ := hout e h
      cases hstart
    · cases hstart
  · refine settledWith_of_unsettled fun k s hmem => ?_
    rcases hs.out _ hmem with h | h | ⟨h, -⟩
    · cases h
    · obtain ⟨p, e', he'⟩ := hout _ h
      cases he'
    · cases h
  · intro cl' req' f ha' hadm hf hmis
    obtain ⟨rfl, rfl⟩ := hself ha'
    exact (hreply hf hmis).1 rfl hadm
  · intro cl' req' f ha' hf hnv
    obtain ⟨rfl, rfl⟩ := hself ha'
    exact (hreply hf hnv).2 rfl

/-- An action that brings a SetPassword. -/
theorem passwordStep_of_turn {frame : Bytes} {x : Sys} (hx : Shows false x ⟨st, []⟩)
    (hsrc : a.source = some (cl, frame)) (hs : Served st a cl u t)
    (ha : a.setPassword = some (cl, req)) (hturn : PasswordTurn u (some (cl, frame)) cl req t) :
    PasswordStep st a := by
  have hpw := hs.before.pw
  have hbusy := hs.before.busy .password
  cases hturn with
  | refused hsame hout hval mismatch hne =>
    refine passwordStep_of_kept hs ha hsame (by simp [hout]) (.inr ⟨_, hval, ?_, fun e => absurd e hne⟩)
    rwa [hpw] at mismatch
  | dropped hsame hout hval => exact passwordStep_of_kept hs ha hsame (by simp [hout]) (.inl hval)
  | @unreserved e hsame hout hval idle due =>
    rw [hpw] at due
    rw [hbusy] at idle
    refine passwordStep_of_kept hs ha hsame (fun e he => ?_) (.inr ⟨_, hval, ?_, ?_⟩)
    · exact ⟨_, _, List.mem_singleton.mp (hout ▸ he)⟩
    · exact fun e => absurd e (by decide)
    · exact fun _ => ⟨due.admits, idle⟩
  | @written r sync hsame due hout hpub hval =>
    rw [hpw] at due hpub
    rw [hs.before.paths] at hout
    have hidle : st.persistResourceBusy .password = false := by
      obtain ⟨txn, copy, -, ht⟩ := hx
      have hkept := ht.kept
      rw [← hs.before.storeAsync, sync] at hkept
      have hb : st.persistResourceBusy .password = _ := ht.acked.busy .password
      rw [hb, hkept.1]
      rfl
    have hadm : Admitted st a cl req :=
      ⟨ha, _, hs.mem (.write ⟨st.paths.password, req.newPassword.toList.take
        (strnlen req.newPassword.toList 127), 0o600, r⟩) (by rw [hout]; exact List.mem_singleton_self _),
        rfl⟩
    refine .written (o := r.outcome) hadm (hsrc ▸ due) hidle ?_ ?_ ?_
    · rw [hs.after.busy, ← hidle, ← hbusy]
      exact persistResourceBusy_congr hsame.acks _
    · rw [hs.after.pw, hpub]
    · intro ip port f hf
      rcases hs.out _ hf with h | h | ⟨h, -⟩
      · cases h
      · rw [hout] at h
        cases List.mem_singleton.mp h
      · rw [(Effect.send.inj h).2.2, hval]
        unfold passwordAnswer
        split_ifs <;> exact setPasswordAckUnpack_passwordAck _ _ _
  | @queued s k idle due hout hpend hpaths busy hval =>
    rw [hpw] at due hpend
    rw [hbusy] at idle
    have hadm : Admitted st a cl req :=
      ⟨ha, _, hs.mem (.defer k .password false Command.setPassword.id cl (req.newPassword.toList.take
        (strnlen req.newPassword.toList 127))) (by rw [hout, queuedOut]; simp), rfl⟩
    refine .queued hadm (hsrc ▸ due) idle ?_ ?_ ?_
    · rw [hs.after.busy, busy]
    · rw [hs.after.pw, hpend]
    · intro ip port f hf
      rcases hs.out _ hf with h | h | ⟨-, hne⟩
      · cases h
      · rw [hout] at h
        simp [queuedOut] at h
      · exact hne hval

end Bringing

/-- **What an action does to the password group.** -/
theorem passwordStep {st : St} {x : Sys} (hx : Shows false x ⟨st, []⟩) (a : Action) : PasswordStep st a := by
  cases ha : a.setPassword with
  | none => exact passwordStep_of_none hx ha
  | some p =>
    obtain ⟨⟨cl, frame⟩, hsrc, hmap⟩ := Option.bind_eq_some_iff.mp ha
    obtain ⟨req, hreq, rfl⟩ := Option.map_eq_some_iff.mp hmap
    obtain ⟨body, hbody, -⟩ := Option.map_eq_some_iff.mp hreq
    obtain ⟨env, -, hs⟩ := served hsrc (requested_of_requestBody hbody) st
    exact passwordStep_of_turn hx hsrc hs ha (passwordTurn hreq (hs.room hx) env cl)

end Opcd
