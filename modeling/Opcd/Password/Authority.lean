import Opcd.Password.Step

/-!
# Who changes the password

By induction over runs, from what an action does to the password group (`passwordStep`):

* `password_changed`: the published password changes only by a request that named it.
* `no_mismatch`: a request that was answered NG for its write is not refused when it is sent again.
* `password_synced`: once a write is durable, a request has to name the published password.
* `password_authority`: the four rules together.
-/

namespace Opcd

open Bytes Protocol Store

/-! ## Runs -/

/-- No SetPassword is admitted along the actions. -/
def Unadmitted : St → List Action → Prop
  | _, [] => True
  | st, a :: as => (∀ cl req, ¬ Admitted st a cl req) ∧ Unadmitted (daemon.step st a) as

theorem Unadmitted.snoc {st : St} {as : List Action} (h : Unadmitted st as) {a : Action}
    (ha : ∀ cl req, ¬ Admitted (daemon.run st as) a cl req) : Unadmitted st (as ++ [a]) := by
  induction as generalizing st with
  | nil => exact ⟨ha, trivial⟩
  | cons b bs ih => exact ⟨h.1, ih h.2 ha⟩

section

variable {st : St} {x : Sys}

/-- While no write is in flight and none is admitted, nothing changes. -/
theorem password_at_rest {as : List Action} (hx : Shows false x ⟨st, []⟩)
    (hidle : st.persistResourceBusy .password = false) (hun : Unadmitted st as) :
    (daemon.run st as).pw = st.pw ∧ (daemon.run st as).persistResourceBusy .password = false ∧
      SettledWith (daemon.trace st as) none := by
  induction as generalizing st x with
  | nil => exact ⟨rfl, hidle, SettledWith.nil _⟩
  | cons a as ih =>
    obtain ⟨x', -, hx'⟩ := daemon_simulated x st a hx
    cases passwordStep hx a with
    | kept hpw hbusy _ hacks =>
      obtain ⟨hpw', hidle', hacks'⟩ := ih hx' (hbusy.trans hidle) hun.2
      exact ⟨hpw'.trans hpw, hidle', hacks.append hacks'⟩
    | settled _ was =>
      rw [hidle] at was
      cases was
    | written hadm => exact absurd hadm (hun.1 _ _)
    | queued hadm => exact absurd hadm (hun.1 _ _)

/-- While a write of `c` is in flight and no other is admitted: it is still in flight, or it came to an
end and was acknowledged accordingly. -/
theorem password_in_flight {as : List Action} (hx : Shows false x ⟨st, []⟩)
    (hbusy : st.persistResourceBusy .password = true) (hun : Unadmitted st as) :
    ((daemon.run st as).pw = st.pw ∧ (daemon.run st as).persistResourceBusy .password = true ∧
      SettledWith (daemon.trace st as) none) ∨
    ∃ o, (daemon.run st as).pw = st.pw.settled st.pw.pending o (Buf.zero 128) ∧
      (daemon.run st as).persistResourceBusy .password = false ∧
      SettledWith (daemon.trace st as) (some (passwordAnswer o)) := by
  induction as generalizing st x with
  | nil => exact .inl ⟨rfl, hbusy, SettledWith.nil _⟩
  | cons a as ih =>
    obtain ⟨x', -, hx'⟩ := daemon_simulated x st a hx
    cases passwordStep hx a with
    | kept hpw hsame _ hacks =>
      rcases ih hx' (hsame.trans hbusy) hun.2 with ⟨hpw', hbusy', hacks'⟩ | ⟨o, hpw', hidle', hacks'⟩
      · exact .inl ⟨hpw'.trans hpw, hbusy', hacks.append hacks'⟩
      · refine .inr ⟨o, ?_, hidle', (hacks.mono _).append hacks'⟩
        rw [daemon.run_cons, hpw', hpw]
    | @settled o _ _ now hpw hacks =>
      obtain ⟨hpw', hidle', hacks'⟩ := password_at_rest hx' now hun.2
      exact .inr ⟨o, hpw'.trans hpw, hidle', hacks.append (hacks'.mono _)⟩
    | written _ _ idle =>
      rw [hbusy] at idle
      cases idle
    | queued _ _ idle =>
      rw [hbusy] at idle
      cases idle

end

/-- The stored passwords are terminated, and so is one being written. -/
structure St.Terminated (st : St) : Prop where
  stored : st.pw.Terminated
  pending : st.persistResourceBusy .password = true → 0#8 ∈ st.pw.pending.toList

theorem St.Terminated.step {st : St} {x : Sys} (h : st.Terminated) (hx : Shows false x ⟨st, []⟩)
    (a : Action) : (daemon.step st a).Terminated := by
  cases passwordStep hx a with
  | kept hpw hbusy =>
    refine ⟨hpw ▸ h.stored, fun hb => ?_⟩
    rw [hpw]
    exact h.pending (hbusy ▸ hb)
  | settled _ was now hpw =>
    refine ⟨?_, fun hb => ?_⟩
    · rw [hpw]
      exact h.stored.settled (h.pending was) _ _
    · rw [now] at hb
      cases hb
  | @written _ req o _ due idle now hpw =>
    obtain ⟨frame, -, hreq⟩ := due.source
    have hcand := terminated_candidate (terminated_of_setPassword hreq).2
    refine ⟨?_, fun hb => ?_⟩
    · rw [hpw]
      exact h.stored.settled hcand o _
    · rw [now] at hb
      cases hb
  | queued _ due _ _ hpw =>
    obtain ⟨frame, -, hreq⟩ := due.source
    refine ⟨?_, fun _ => ?_⟩
    · rw [hpw]
      exact ⟨h.stored.password, h.stored.prev⟩
    · rw [hpw]
      exact terminated_candidate (terminated_of_setPassword hreq).2

theorem terminated_loadPassword (f : File) : 0#8 ∈ (loadPassword f passwordDefault).toList := by
  have hdefault : 0#8 ∈ passwordDefault.toList := terminated_ofBytes (by decide)
  unfold loadPassword
  split
  · exact hdefault
  · exact hdefault
  next b _ hb =>
    refine terminated_ofBytes ?_
    cases f with
    | bytes b' =>
      obtain rfl := Option.some.inj hb
      exact (List.length_take_le 127 b').trans_lt (by decide)
    | _ => cases hb

/-- **Every password the daemon stores is terminated.** -/
theorem terminated_run (conf : Conf) (paths : Paths) (d : Disk) (env : StartEnv) (as : List Action) :
    (daemon.run (startup conf paths d env).st as).Terminated := by
  induction as using List.reverseRecOn with
  | nil =>
    have hstart : (startup conf paths d env).st.persistResourceBusy .password = false := by
      simp [St.persistResourceBusy, startup, stateSetDefaults, PendingAck.zero]
    refine ⟨⟨terminated_loadPassword _, by simp [startup, stateSetDefaults, Buf.zero]⟩, fun hb => ?_⟩
    rw [daemon.run_nil, hstart] at hb
    cases hb
  | append_singleton as a ih =>
    obtain ⟨x, hx⟩ := shows_run conf paths d env as
    rw [daemon.run_snoc]
    exact ih.step hx a

/-! ## A change and its request -/

section Changes

variable {s₀ : St}

/-- The request whose write is in flight or just came to an end: admitted before the last actions, in
which no other was. -/
structure AdmittedBy (s₀ : St) (as : List Action) (before : List Action) (a : Action) (since : List Action)
    (cl : Client) (req : SetPasswordReq) : Prop where
  split : as = before ++ a :: since
  admitted : Admitted (daemon.run s₀ before) a cl req
  unadmitted : Unadmitted (daemon.run s₀ (before ++ [a])) since
  due : PasswordDue a.source (daemon.run s₀ before).pw cl req
    (req.newPassword.toList.take (strnlen req.newPassword.toList 127))

theorem AdmittedBy.snoc {as before since : List Action} {a b : Action} {cl : Client}
    {req : SetPasswordReq} (h : AdmittedBy s₀ as before a since cl req)
    (hb : ∀ cl req, ¬ Admitted (daemon.run s₀ as) b cl req) :
    AdmittedBy s₀ (as ++ [b]) before a (since ++ [b]) cl req where
  split := by rw [h.split]; simp
  admitted := h.admitted
  unadmitted := by
    refine h.unadmitted.snoc ?_
    have hrun : daemon.run (daemon.run s₀ (before ++ [a])) since = daemon.run s₀ as := by
      rw [← daemon.run_append, h.split]
      simp
    rwa [hrun]
  due := h.due

/-- A write in flight is that of a request, and the password it was checked against is still published. -/
theorem admittedBy_of_busy (hshows : ∀ as, ∃ x, Shows false x ⟨daemon.run s₀ as, []⟩)
    (hstart : s₀.persistResourceBusy .password = false) (as : List Action)
    (hbusy : (daemon.run s₀ as).persistResourceBusy .password = true) :
    ∃ before a since cl req, AdmittedBy s₀ as before a since cl req ∧
      (daemon.run s₀ as).pw = { (daemon.run s₀ before).pw with pending := req.candidate } := by
  induction as using List.reverseRecOn with
  | nil =>
    rw [daemon.run_nil, hstart] at hbusy
    cases hbusy
  | append_singleton as b ih =>
    obtain ⟨x, hx⟩ := hshows as
    rw [daemon.run_snoc] at hbusy ⊢
    cases passwordStep hx b with
    | kept hpw hsame hun =>
      obtain ⟨before, a, since, cl, req, hby, hpend⟩ := ih (hsame ▸ hbusy)
      exact ⟨before, a, since ++ [b], cl, req, hby.snoc hun, hpw.trans hpend⟩
    | settled _ _ now =>
      rw [now] at hbusy
      cases hbusy
    | written _ _ _ now =>
      rw [now] at hbusy
      cases hbusy
    | @queued cl req hadm due _ _ hpw =>
      exact ⟨as, b, [], cl, req, ⟨rfl, hadm, trivial, due⟩, hpw⟩

/-- What a request that was due makes of the password it was checked against. -/
theorem PasswordDue.changed {p : PasswordState} {src : Source} {cl : Client} {req : SetPasswordReq}
    {data : Bytes} (due : PasswordDue src p cl req data) (hp : p.Terminated) {o : Outcome} {pending : Buf 128}
    (hchanged : (p.settled req.candidate o pending).password.str ≠ p.password.str) :
    req.oldPassword.str = p.password.str ∧ req.newPassword.str ≠ [] ∧
      (p.settled req.candidate o pending).password.str = req.newPassword.str := by
  obtain ⟨frame, -, hreq⟩ := due.source
  obtain ⟨hold, hnew⟩ := terminated_of_setPassword hreq
  have hpub := p.settled_password req.candidate o pending
  by_cases ho : o = .unchanged
  · rw [if_pos ho] at hpub
    exact absurd (congrArg Buf.str hpub) hchanged
  · rw [if_neg ho] at hpub
    have hstr := (congrArg Buf.str hpub).trans (str_candidate hnew)
    refine ⟨?_, ?_, hstr⟩
    · rcases (p.admits_iff hp hold hnew).mp due.admits with h | ⟨-, -, h⟩
      · exact h
      · exact absurd (hstr.trans h) hchanged
    · intro hempty
      have hnonempty := due.nonempty
      rw [strnlen, cstr_take (Nat.le_of_lt_succ (Buf.length_str_lt hnew))] at hnonempty
      exact hnonempty (by rw [← Buf.str, hempty]; rfl)

/-- **The published password changes only by a request that named it**, and becomes the new password of
that request. -/
theorem password_changed (hshows : ∀ as, ∃ x, Shows false x ⟨daemon.run s₀ as, []⟩)
    (hterm : ∀ as, (daemon.run s₀ as).Terminated)
    (hstart : s₀.persistResourceBusy .password = false) (as : List Action) (a : Action)
    (hne : (daemon.run s₀ (as ++ [a])).pw.password.str ≠ (daemon.run s₀ as).pw.password.str) :
    ∃ before b since cl req, AdmittedBy s₀ (as ++ [a]) before b since cl req ∧
      req.oldPassword.str = (daemon.run s₀ before).pw.password.str ∧ req.newPassword.str ≠ [] ∧
      (daemon.run s₀ (as ++ [a])).pw.password.str = req.newPassword.str := by
  obtain ⟨x, hx⟩ := hshows as
  rw [daemon.run_snoc] at hne ⊢
  cases passwordStep hx a with
  | kept hpw => exact absurd (by rw [hpw]) hne
  | queued _ _ _ _ hpw => exact absurd (by rw [hpw]) hne
  | @written cl req o hadm due _ _ hpw =>
    rw [hpw, ← PasswordState.settled_self] at hne ⊢
    obtain ⟨hold, hnew, heq⟩ := due.changed (hterm as).stored hne
    exact ⟨as, a, [], cl, req, ⟨rfl, hadm, trivial, due⟩, hold, hnew, heq⟩
  | @settled o hnone was _ hpw =>
    obtain ⟨before, b, since, cl, req, hby, hpend⟩ := admittedBy_of_busy hshows hstart as was
    have hun : ∀ cl req, ¬ Admitted (daemon.run s₀ as) a cl req := by
      intro cl req h
      have := h.1
      rw [hnone] at this
      cases this
    rw [hpw, hpend, PasswordState.settled_pending] at hne ⊢
    obtain ⟨hold, hnew, heq⟩ := hby.due.changed (hterm before).stored hne
    exact ⟨before, b, since ++ [a], cl, req, hby.snoc hun, hold, hnew, heq⟩

end Changes

/-! ## Sending a request again -/

/-- The request the action brought was answered NG for its write: at once, or when the write it
started came to an end during `bs`. -/
def AnsweredNvram (st : St) (a : Action) (bs : List Action) (cl : Client) (req : SetPasswordReq) : Prop :=
  (∃ f, .send cl.ip cl.port f ∈ daemon.out st a ∧
    setPasswordAckUnpack f = some (resultNg, Err.nvram)) ∨
  Admitted st a cl req ∧ ∃ k f,
    .settle k (some (cl.ip, cl.port, f)) ∈ daemon.trace (daemon.step st a) bs ∧
      setPasswordAckUnpack f = some (resultNg, Err.nvram)

theorem passwordAnswer_nvram {o : Outcome} (h : passwordAnswer o = (resultNg, Err.nvram)) : o ≠ .durable := by
  rintro rfl
  exact absurd h (by decide)

theorem passwordAnswer_ne_mismatch (o : Outcome) : passwordAnswer o ≠ (resultNg, Err.passwordMismatch) := by
  cases o <;> decide

section Resend

variable {st : St} {x : Sys} {a : Action} {cl : Client} {req : SetPasswordReq} {bs : List Action}

theorem Admitted.eq {cl' : Client} {req' : SetPasswordReq} (h : Admitted st a cl' req')
    (ha : a.setPassword = some (cl, req)) : cl' = cl ∧ req' = req := by
  have := h.1.symm.trans ha
  exact ⟨(Prod.mk.inj (Option.some.inj this)).1, (Prod.mk.inj (Option.some.inj this)).2⟩

/-- The request would be admitted again after its answer. -/
theorem admits_of_answeredNvram (hx : Shows false x ⟨st, []⟩) (ht : st.Terminated)
    (ha : a.setPassword = some (cl, req)) (hun : Unadmitted (daemon.step st a) bs)
    (hng : AnsweredNvram st a bs cl req) : (daemon.run (daemon.step st a) bs).pw.Admits req := by
  obtain ⟨x', -, hx'⟩ := daemon_simulated x st a hx
  cases passwordStep hx a with
  | kept hpw hbusy hnone _ _ nvram =>
    rcases hng with ⟨f, hf, hack⟩ | ⟨hadm, -⟩
    · obtain ⟨hadm, hidle⟩ := nvram cl req f ha hf hack
      obtain ⟨hrest, -, -⟩ := password_at_rest hx' (hbusy.trans hidle) hun
      rwa [hrest, hpw]
    · exact absurd hadm (hnone _ _)
  | settled hnone =>
    rw [hnone] at ha
    cases ha
  | @written cl' req' o hadm due _ now hpw hsend =>
    obtain ⟨rfl, rfl⟩ := hadm.eq ha
    obtain ⟨frame, -, hreq⟩ := due.source
    obtain ⟨hold, hnew⟩ := terminated_of_setPassword hreq
    obtain ⟨hrest, -, hacks⟩ := password_at_rest hx' now hun
    rcases hng with ⟨f, hf, hack⟩ | ⟨-, k, f, hf, hack⟩
    · rw [hsend _ _ f hf] at hack
      rw [hrest, hpw, ← PasswordState.settled_self]
      exact PasswordState.admits_settled ht.stored hold hnew due.admits
        (passwordAnswer_nvram (Option.some.inj hack)) _
    · cases hacks _ _ _ _ _ hf hack
  | @queued cl' req' hadm due _ now hpw hsend =>
    obtain ⟨rfl, rfl⟩ := hadm.eq ha
    obtain ⟨frame, -, hreq⟩ := due.source
    obtain ⟨hold, hnew⟩ := terminated_of_setPassword hreq
    rcases hng with ⟨f, hf, -⟩ | ⟨-, k, f, hf, hack⟩
    · exact absurd hf (hsend _ _ f)
    · rcases password_in_flight hx' now hun with ⟨-, -, hacks⟩ | ⟨o, hset, -, hacks⟩
      · cases hacks _ _ _ _ _ hf hack
      · have ho := Option.some.inj (hacks _ _ _ _ _ hf hack)
        rw [hset, hpw, PasswordState.settled_pending]
        exact PasswordState.admits_settled ht.stored hold hnew due.admits (passwordAnswer_nvram ho) _

/-- An admitted request passed its checks, with no write in flight. -/
theorem Admitted.due (hadm : Admitted st a cl req) (hx : Shows false x ⟨st, []⟩) :
    st.persistResourceBusy .password = false ∧ ∃ data, PasswordDue a.source st.pw cl req data := by
  cases passwordStep hx a with
  | kept _ _ hun => exact absurd hadm (hun _ _)
  | settled hnone =>
    have := hadm.1
    rw [hnone] at this
    cases this
  | written hadm' due idle =>
    obtain ⟨rfl, rfl⟩ := hadm'.eq hadm.1
    exact ⟨idle, _, due⟩
  | queued hadm' due idle =>
    obtain ⟨rfl, rfl⟩ := hadm'.eq hadm.1
    exact ⟨idle, _, due⟩

/-- Until the next request is admitted, the password is the one before or the new one. -/
theorem password_after_admitted (hadm : Admitted st a cl req) (hx : Shows false x ⟨st, []⟩)
    (hun : Unadmitted (daemon.step st a) bs) :
    (daemon.run (daemon.step st a) bs).pw.password.str = st.pw.password.str ∨
      (daemon.run (daemon.step st a) bs).pw.password.str = req.newPassword.str := by
  obtain ⟨x', -, hx'⟩ := daemon_simulated x st a hx
  have hpub : ∀ o pending, 0#8 ∈ req.newPassword.toList →
      (st.pw.settled req.candidate o pending).password.str = st.pw.password.str ∨
        (st.pw.settled req.candidate o pending).password.str = req.newPassword.str := by
    intro o pending hnew
    rw [PasswordState.settled_password]
    split
    · exact .inl rfl
    · exact .inr (str_candidate hnew)
  cases passwordStep hx a with
  | kept _ _ hun => exact absurd hadm (hun _ _)
  | settled hnone =>
    have := hadm.1
    rw [hnone] at this
    cases this
  | @written _ _ o hadm' due _ now hpw =>
    obtain ⟨rfl, rfl⟩ := hadm'.eq hadm.1
    obtain ⟨frame, -, hreq⟩ := due.source
    obtain ⟨hrest, -, -⟩ := password_at_rest hx' now hun
    rw [hrest, hpw, ← PasswordState.settled_self]
    exact hpub o _ (terminated_of_setPassword hreq).2
  | queued hadm' due _ now hpw =>
    obtain ⟨rfl, rfl⟩ := hadm'.eq hadm.1
    obtain ⟨frame, -, hreq⟩ := due.source
    rcases password_in_flight hx' now hun with ⟨hsame, -, -⟩ | ⟨o, hset, -, -⟩
    · exact .inl (by rw [hsame, hpw])
    · rw [hset, hpw, PasswordState.settled_pending]
      exact hpub o _ (terminated_of_setPassword hreq).2

/-- **A request that would be admitted is not refused for its old password.** -/
theorem no_mismatch (hx : Shows false x ⟨st, []⟩) (hadm : st.pw.Admits req)
    (ha : a.setPassword = some (cl, req)) {f : Bytes} (hf : .send cl.ip cl.port f ∈ daemon.out st a) :
    setPasswordAckUnpack f ≠ some (resultNg, Err.passwordMismatch) := by
  cases passwordStep hx a with
  | kept _ _ _ _ mismatch => exact mismatch cl req f ha hadm hf
  | settled hnone =>
    rw [hnone] at ha
    cases ha
  | written _ _ _ _ _ hsend =>
    rw [hsend _ _ f hf]
    exact fun h => passwordAnswer_ne_mismatch _ (Option.some.inj h)
  | queued _ _ _ _ _ hsend => exact absurd hf (hsend _ _ f)

end Resend

/-! ## After a durable write -/

/-- A write ended durable, and none after it was replaced without a sync. -/
def Synced (os : List Outcome) : Prop :=
  ∃ os₁ os₂, os = os₁ ++ .durable :: os₂ ∧ .replacedUnsynced ∉ os₂

theorem Synced.of_append_singleton {os : List Outcome} {o : Outcome} (h : Synced (os ++ [o])) :
    o = .durable ∨ o = .unchanged ∧ Synced os := by
  obtain ⟨os₁, os₂, heq, hmem⟩ := h
  rcases os₂.eq_nil_or_concat with rfl | ⟨os₂, o', rfl⟩
  · exact .inl (List.append_inj_right' heq rfl |> List.singleton_inj.mp)
  · rw [List.concat_eq_append, ← List.cons_append, ← List.append_assoc] at heq
    obtain ⟨rfl, ho⟩ := List.append_inj' heq rfl
    obtain rfl := List.singleton_inj.mp ho
    rw [List.concat_eq_append, List.mem_append, not_or, List.mem_singleton] at hmem
    cases o with
    | durable => exact .inl rfl
    | unchanged => exact .inr ⟨rfl, os₁, os₂, rfl, hmem.1⟩
    | replacedUnsynced => exact absurd rfl hmem.2

/-- Whether a password that was not synced will be remembered, once the write that was made is settled. -/
def Sys.unsyncedSoon (x : Sys) : Bool :=
  match (x.txn .password).bind Txn.result with
  | some res => (x.pw.settled x.pw.pending res.outcome (Buf.zero 128)).unsynced
  | none => x.pw.unsynced

theorem PasswordState.settled_unsynced {p : PasswordState} {candidate pending : Buf 128} {o : Outcome}
    (h : o = .durable ∨ o = .unchanged ∧ p.unsynced = false) : (p.settled candidate o pending).unsynced = false := by
  rcases h with rfl | ⟨rfl, h⟩
  · rfl
  · exact h

/-- The password writes so far and what is remembered of them. -/
structure Remembers (paths : Paths) (tr : List Effect) (x : Sys) : Prop where
  samePaths : x.paths = paths
  noFile : x.txn .none = none
  sync : x.async = false → x.txn .password = none
  synced : Synced (outcomes paths.password tr) → x.unsyncedSoon = false

theorem Remembers.move {paths : Paths} {tr out : List Effect} {src : Source} {x x' : Sys}
    (h : Remembers paths tr x) (hmove : Move src x out x') : Remembers paths (tr ++ out) x' := by
  obtain ⟨rfl, hnone, hsync, hsynced⟩ := h
  have hsetup := hmove.sameSetup
  refine ⟨hsetup.paths, hmove.noFile hnone, fun ha => ?_, fun hs => ?_⟩
  · have ha := hsetup.async.symm.trans ha
    cases hmove.password hnone with
    | aside _ htxn => exact htxn.trans (hsync ha)
    | made opened =>
      rw [hsync ha] at opened
      cases opened
    | settled _ _ _ htxn => exact htxn
    | queued async =>
      rw [ha] at async
      cases async
    | written _ _ _ htxn => exact htxn.trans (hsync ha)
  · rw [outcomes_append] at hs
    cases hmove.password hnone with
    | aside hpw htxn _ hwrites =>
      rw [hwrites, List.append_nil] at hs
      rw [Sys.unsyncedSoon, htxn, hpw]
      exact hsynced hs
    | @made t res opened unmade hpw htxn _ hwrites =>
      rw [hwrites] at hs
      rw [Sys.unsyncedSoon, htxn, hpw]
      refine PasswordState.settled_unsynced (hs.of_append_singleton.imp_right fun ⟨ho, hs⟩ => ⟨ho, ?_⟩)
      simpa [Sys.unsyncedSoon, opened, unmade] using hsynced hs
    | @settled t res opened made hpw htxn _ hwrites =>
      rw [hwrites, List.append_nil] at hs
      rw [Sys.unsyncedSoon, htxn, hpw]
      simpa [Sys.unsyncedSoon, opened, made] using hsynced hs
    | queued _ _ idle hpw htxn unmade _ hwrites =>
      rw [hwrites, List.append_nil] at hs
      rw [Sys.unsyncedSoon, htxn, hpw]
      simpa [Sys.unsyncedSoon, idle, unmade] using hsynced hs
    | @written cl req data r sync _ hpw htxn _ hwrites =>
      rw [hwrites] at hs
      rw [Sys.unsyncedSoon, htxn, hsync sync, hpw, ← PasswordState.settled_self]
      refine PasswordState.settled_unsynced (hs.of_append_singleton.imp_right fun ⟨ho, hs⟩ => ⟨ho, ?_⟩)
      simpa [Sys.unsyncedSoon, hsync sync] using hsynced hs

/-- **After a durable write nothing unsynced is remembered**, until a write is replaced without a
sync. -/
theorem password_synced (conf : Conf) (paths : Paths) (d : Disk) (env : StartEnv) (as : List Action)
    (hidle : (daemon.run (startup conf paths d env).st as).persistResourceBusy .password = false)
    (hs : Synced (outcomes paths.password (daemon.trace (startup conf paths d env).st as))) :
    (daemon.run (startup conf paths d env).st as).pw.unsynced = false := by
  have hstart : Remembers paths [] ((startup conf paths d env).st.sys false (fun _ => none) none) :=
    ⟨rfl, rfl, fun _ => rfl, fun _ => rfl⟩
  obtain ⟨_, ⟨txn, copy, rfl, ht⟩, hrem⟩ := daemon_simulated.trace_inv
    (fun _ _ _ _ _ h hmove => Remembers.move h hmove) (shows_startup conf paths d env) hstart as
  have hbusy : (daemon.run (startup conf paths d env).st as).persistResourceBusy .password = _ :=
    ht.acked.busy .password
  have htxn : txn .password = none := by
    rw [hidle] at hbusy
    simpa using hbusy.symm
  have := hrem.synced hs
  simpa [Sys.unsyncedSoon, St.sys, htxn] using this

/-! ## Deferred answers -/

/-- An acknowledgement of a SetPassword after its write says OK or names the write. -/
theorem Move.settle_password {src : Source} {x x' : Sys} {out : List Effect} (h : Move src x out x')
    (hnone : x.txn .none = none) {k : AckIdx} {ip : BitVec 32} {port : BitVec 16} {f : Bytes}
    {answer : BitVec 16 × BitVec 16} (hmem : .settle k (some (ip, port, f)) ∈ out)
    (hack : setPasswordAckUnpack f = some answer) : ∃ o, answer = passwordAnswer o := by
  cases h.password hnone with
  | aside _ _ hacks => cases hacks _ _ _ _ _ hmem hack
  | made _ _ _ _ hacks => cases hacks _ _ _ _ _ hmem hack
  | settled _ _ _ _ hacks => exact ⟨_, (Option.some.inj (hacks _ _ _ _ _ hmem hack)).symm⟩
  | queued _ _ _ _ _ _ hacks => cases hacks _ _ _ _ _ hmem hack
  | written _ _ _ _ hacks => cases hacks _ _ _ _ _ hmem hack

theorem settle_ne_mismatch (conf : Conf) (paths : Paths) (d : Disk) (env : StartEnv)
    (as : List Action) {k : AckIdx} {ip : BitVec 32} {port : BitVec 16} {f : Bytes}
    (hmem : .settle k (some (ip, port, f)) ∈ daemon.trace (startup conf paths d env).st as) :
    setPasswordAckUnpack f ≠ some (resultNg, Err.passwordMismatch) := by
  have hstep : ∀ (a : Action) (tr : List Effect) (x : Sys) (es : List Effect) (x' : Sys),
      (x.txn .none = none ∧ ∀ k ip port f, .settle k (some (ip, port, f)) ∈ tr →
        setPasswordAckUnpack f ≠ some (resultNg, Err.passwordMismatch)) → Move a.source x es x' →
      (x'.txn .none = none ∧ ∀ k ip port f, .settle k (some (ip, port, f)) ∈ tr ++ es →
        setPasswordAckUnpack f ≠ some (resultNg, Err.passwordMismatch)) := by
    rintro a tr x es x' ⟨hnone, htr⟩ hmove
    refine ⟨hmove.noFile hnone, fun k ip port f hmem hack => ?_⟩
    rcases List.mem_append.mp hmem with hmem | hmem
    · exact htr k ip port f hmem hack
    · obtain ⟨o, ho⟩ := hmove.settle_password hnone hmem hack
      exact passwordAnswer_ne_mismatch o ho.symm
  obtain ⟨x, -, -, htr⟩ := daemon_simulated.trace_inv hstep (shows_startup conf paths d env)
    ⟨rfl, by simp⟩ as
  exact htr k ip port f hmem

/-- **The authority to change the password.** In every run of the daemon, with or without a writer:

* the published password changes only as the effect of a request that named the one published when it
  was handled, and becomes the non-empty new password of that request;
* a request with another old password is admitted only if its new password is the published one, and
  changes nothing;
* a request that was answered NG for its write and is sent again, with none admitted in between, is not
  refused for its old password, at once or later;
* after a write that ended durable a request is admitted only with the published password, until a write
  is replaced without a sync. -/
theorem password_authority (conf : Conf) (paths : Paths) (d : Disk) (env : StartEnv) :
    let s (as : List Action) := daemon.run (startup conf paths d env).st as
    (∀ as a, (s (as ++ [a])).pw.password.str ≠ (s as).pw.password.str →
      ∃ before b since cl req, as ++ [a] = before ++ b :: since ∧ Admitted (s before) b cl req ∧
        Unadmitted (s (before ++ [b])) since ∧
        req.oldPassword.str = (s before).pw.password.str ∧ req.newPassword.str ≠ [] ∧
        (s (as ++ [a])).pw.password.str = req.newPassword.str) ∧
    (∀ as a cl req, Admitted (s as) a cl req → req.oldPassword.str ≠ (s as).pw.password.str →
      req.newPassword.str = (s as).pw.password.str ∧
        ∀ bs, Unadmitted (s (as ++ [a])) bs →
          (s (as ++ a :: bs)).pw.password.str = (s as).pw.password.str) ∧
    (∀ as a bs b cl cl' req, a.setPassword = some (cl, req) → b.setPassword = some (cl', req) →
      Unadmitted (s (as ++ [a])) bs → AnsweredNvram (s as) a bs cl req →
      ∀ f, .send cl'.ip cl'.port f ∈ daemon.out (s (as ++ a :: bs)) b →
        setPasswordAckUnpack f ≠ some (resultNg, Err.passwordMismatch)) ∧
    (∀ as k ip port f,
      .settle k (some (ip, port, f)) ∈ daemon.trace (startup conf paths d env).st as →
        setPasswordAckUnpack f ≠ some (resultNg, Err.passwordMismatch)) ∧
    ∀ as a cl req, Admitted (s as) a cl req →
      Synced (outcomes paths.password (daemon.trace (startup conf paths d env).st as)) →
        req.oldPassword.str = (s as).pw.password.str := by
  intro s
  have hshows : ∀ as, ∃ x, Shows false x ⟨s as, []⟩ := shows_run conf paths d env
  have hterm : ∀ as, (s as).Terminated := terminated_run conf paths d env
  have hstart : (startup conf paths d env).st.persistResourceBusy .password = false := by
    simp [St.persistResourceBusy, startup, stateSetDefaults, PendingAck.zero]
  refine ⟨?_, ?_, ?_, ?_, ?_⟩
  · intro as a hne
    obtain ⟨before, b, since, cl, req, hby, hold, hnew, heq⟩ :=
      password_changed hshows hterm hstart as a hne
    exact ⟨before, b, since, cl, req, hby.split, hby.admitted, hby.unadmitted, hold, hnew, heq⟩
  · intro as a cl req hadm hne
    obtain ⟨x, hx⟩ := hshows as
    obtain ⟨-, data, due⟩ := hadm.due hx
    obtain ⟨frame, -, hreq⟩ := due.source
    obtain ⟨hold, hnew⟩ := terminated_of_setPassword hreq
    have hsame : req.newPassword.str = (s as).pw.password.str := by
      rcases ((s as).pw.admits_iff (hterm as).stored hold hnew).mp due.admits with h | ⟨-, -, h⟩
      · exact absurd h hne
      · exact h
    refine ⟨hsame, fun bs hun => ?_⟩
    have hun : Unadmitted (daemon.step (s as) a) bs := by
      rw [← daemon.run_snoc]
      exact hun
    have hrun : s (as ++ a :: bs) = daemon.run (daemon.step (s as) a) bs := daemon.run_append _ _ _
    rw [hrun]
    exact (password_after_admitted hadm hx hun).elim id fun h => h.trans hsame
  · intro as a bs b cl cl' req ha hb hun hng f hf
    obtain ⟨x, hx⟩ := hshows as
    obtain ⟨y, hy⟩ := hshows (as ++ a :: bs)
    have hrun : s (as ++ a :: bs) = daemon.run (daemon.step (s as) a) bs := daemon.run_append _ _ _
    have hun : Unadmitted (daemon.step (s as) a) bs := by
      rw [← daemon.run_snoc]
      exact hun
    refine no_mismatch hy ?_ hb hf
    rw [hrun]
    exact admits_of_answeredNvram hx (hterm as) ha hun hng
  · intro as k ip port f hmem
    exact settle_ne_mismatch conf paths d env as hmem
  · intro as a cl req hadm hs
    obtain ⟨x, hx⟩ := hshows as
    obtain ⟨hidle, data, due⟩ := hadm.due hx
    obtain ⟨frame, -, hreq⟩ := due.source
    obtain ⟨hold, hnew⟩ := terminated_of_setPassword hreq
    have hclean : (s as).pw.unsynced = false := password_synced conf paths d env as hidle hs
    rcases ((s as).pw.admits_iff (hterm as).stored hold hnew).mp due.admits with h | ⟨h, -⟩
    · exact h
    · rw [hclean] at h
      cases h

-- the default password is replaced by "ab" once the queued write is made and settled
example : (daemon.run firstBoot ([.holderLogin, .holderSetPassword] ++
    List.replicate 4 (.worker Env.durableWrite) ++ [.storeReady (Env.allOk 0).ready])).pw.password.str =
      ofString "ab" := by decide +kernel

end Opcd
