import Opcd.Daemon.Transitions
import Opcd.Store.Queue

/-!
# The daemon is made of its transitions

* **`daemon_refines`**: every action of the daemon is a chain of transitions.

A turn that is such a chain is `Lawful`. There is one lemma for each function of the handlers; the three
that write a setting share `persistAdmit_cases` and `persistBlob_queued`.
-/

namespace Opcd

open Bytes Protocol Store

/-- The turn, which serves the request, is a chain of transitions from the state. -/
def Lawful {α : Type} (src : Source) (st : St) (t : Turn α) : Prop :=
  Steps (Trans src) ⟨st, []⟩ t.out ⟨t.st, []⟩

namespace Lawful

variable {α β : Type} {src : Source} {st : St}

theorem done (st : St) (a : α) : Lawful src st (st.done a) := .refl _

theorem emitAck (st : St) (p : Option Bytes) : Lawful src st (st.emitAck p) := .refl _

theorem of_trans {t : Turn α} (h : Trans src ⟨st, []⟩ t.out ⟨t.st, []⟩) : Lawful src st t := .single h

theorem bind {t : Turn α} {f : St → α → Turn β} (h : Lawful src st t)
    (h' : Lawful src t.st (f t.st t.val)) : Lawful src st (t.bind f) := h.trans h'

/-- A turn that has no effect outside, and one from the state it leaves. -/
theorem andThen {st' : St} {t : Turn β} (h : Lawful src st (st'.done ())) (h' : Lawful src st' t) :
    Lawful src st t := Steps.trans h h'

theorem of_quiet {t : Turn α} (same : SameCore st t.st) (hout : ∀ e ∈ t.out, e.quiet) :
    Lawful src st t := of_trans (.quiet same hout)

/-- What a turn leaves may be replaced by a state with the same core. -/
theorem to_quiet {t : Turn α} {st' : St} {b : β} (h : Lawful src st t) (same : SameCore t.st st') :
    Lawful src st (⟨st', t.out, b⟩ : Turn β) := by
  have hq : Steps (Trans src) ⟨t.st, []⟩ [] ⟨st', []⟩ := .single (.quiet same (by simp))
  simpa [Lawful] using h.trans hq

end Lawful

section

variable {src : Source}

/-- A turn from a state with the same core. -/
theorem SameCore.lawful {α : Type} {st st' : St} {t : Turn α} (same : SameCore st st')
    (h : Lawful src st' t) : Lawful src st t := by
  have hq : Steps (Trans src) ⟨st, []⟩ [] ⟨st', []⟩ := .single (.quiet same (by simp))
  simpa [Lawful] using hq.trans h

/-! ## The session and its notices -/

namespace SameCore

theorem trans {a b c : St} (h : SameCore a b) (h' : SameCore b c) : SameCore a c :=
  ⟨h'.conf.trans h.conf, h'.paths.trans h.paths, h'.loggedIn.trans h.loggedIn,
    h'.generation.trans h.generation, h'.pw.trans h.pw, h'.rad.trans h.rad, h'.ipl.trans h.ipl,
    h'.chg.trans h.chg, h'.storeAsync.trans h.storeAsync, h'.acks.trans h.acks⟩

theorem sessionTouch (st : St) (now : Nat) : SameCore st (st.sessionTouch now) :=
  ⟨rfl, rfl, rfl, rfl, rfl, rfl, rfl, rfl, rfl, rfl⟩

end SameCore

theorem quiet_sendIndicationFrame (st : St) (f : Option Bytes) : ∀ e ∈ st.sendIndicationFrame f, e.quiet := by
  unfold St.sendIndicationFrame
  cases f with
  | none => simp
  | some f => dsimp only; split_ifs <;> simp [Effect.quiet]

theorem sameCore_nextSeq (st : St) : SameCore st st.nextSeq :=
  ⟨rfl, rfl, rfl, rfl, rfl, rfl, rfl, rfl, rfl, rfl⟩

theorem lawful_indInitComplete (st : St) (s : InitState) : Lawful src st (st.indInitComplete s) := by
  unfold St.indInitComplete
  split
  · exact .done st ()
  · exact .of_quiet (sameCore_nextSeq st) (by dsimp only; exact quiet_sendIndicationFrame st _)

theorem lawful_indResetNotice (st : St) (cause : BitVec 32) : Lawful src st (st.indResetNotice cause) := by
  unfold St.indResetNotice
  split
  · exact .done st ()
  · exact .of_quiet (sameCore_nextSeq st) (by dsimp only; exact quiet_sendIndicationFrame st _)

theorem lawful_indRadioUp (st : St) : Lawful src st st.indRadioUp := by
  unfold St.indRadioUp
  split
  · exact .done st ()
  · have same : SameCore st { st with ind.radioUpReported := true } := by constructor <;> rfl
    exact same.lawful (lawful_indInitComplete _ _)

theorem indInitComplete_session (st : St) (s : InitState) : (st.indInitComplete s).st.session = st.session := by
  unfold St.indInitComplete
  split <;> rfl

theorem lawful_endSession {st : St} (h : st.session.loggedIn = true) : Lawful src st (st.endSession.done ()) := by
  have hclose := @Trans.close src st st.endSession.session ⟨h, rfl, rfl⟩
  have same : SameCore { st with
      session := st.endSession.session, ipl.staging := IpList.empty, ipl.stagingActive := false }
      st.endSession := by constructor <;> rfl
  exact Steps.cons hclose (.single (.quiet same (by simp)))

theorem lawful_sessionLogout {st : St} (h : st.session.loggedIn = true) :
    Lawful src st st.sessionLogout :=
  (lawful_indInitComplete st .loggedOut).bind
    (lawful_endSession (by rw [indInitComplete_session, h]))

theorem lawful_idleCheck (st : St) (now : Nat) : Lawful src st (st.idleCheck now) := by
  unfold St.idleCheck
  split
  · next h => exact lawful_sessionLogout h.1
  · exact .done st ()

/-! ## Login, Logout and the queries -/

theorem lawful_acceptLogin (st : St) (cl : Client) {frame : Bytes} (hreq : (loginReqUnpack frame).isSome = true) :
    Lawful (some (cl, frame)) st ((st.acceptLogin cl).done ()) := by
  by_cases h : st.session.loggedIn = true
  · refine .of_quiet ?_ (by simp)
    constructor <;> simp [St.acceptLogin, h]
  · have hlogin := @Trans.login _ st (st.acceptLogin cl).session cl frame rfl hreq (by simpa using h)
      (by simp only [St.acceptLogin]; split_ifs <;> rfl) (by simp [St.acceptLogin, h]; split_ifs <;> rfl)
    refine (Lawful.of_trans (t := (⟨_, [], ()⟩ : Turn Unit)) hlogin).to_quiet ?_
    constructor <;> simp only [St.acceptLogin, IpChange.atLogin, h] <;> split_ifs <;> simp_all

theorem lawful_handleLogin (st : St) (now : Nat) (frame : Bytes) (cl : Client) :
    Lawful (some (cl, frame)) st (st.handleLogin now frame cl) := by
  unfold St.handleLogin
  cases hreq : loginReqUnpack frame with
  | none => exact .emitAck st _
  | some req =>
    dsimp only
    split_ifs
    all_goals first | exact .emitAck st _ | skip
    refine Lawful.bind ?_ (.emitAck _ _)
    have hopen : Lawful (some (cl, frame)) st (((st.acceptLogin cl).sessionTouch now).done ()) :=
      (lawful_acceptLogin st cl (by rw [hreq]; rfl)).to_quiet (SameCore.sessionTouch _ now)
    exact hopen.andThen (lawful_indInitComplete _ _)

theorem armIpChangeFromCommitted_session (st : St) : st.armIpChangeFromCommitted.session = st.session := by
  unfold St.armIpChangeFromCommitted
  dsimp only
  split_ifs <;> rfl

theorem logoutDecision_session (st : St) : st.logoutDecision.session = st.session := by
  unfold St.logoutDecision
  split_ifs
  · rfl
  · exact armIpChangeFromCommitted_session st
  · rfl

theorem lawful_handleLogout (st : St) (frame : Bytes) (cl : Client) :
    Lawful (some (cl, frame)) st (st.handleLogout frame cl) := by
  unfold St.handleLogout
  dsimp only
  split_ifs with hu hin howns
  all_goals first | exact .emitAck st _ | skip
  have hlog : st.session.loggedIn = true := by simpa using hin
  have hdecide : Lawful (some (cl, frame)) st (st.logoutDecision.done ()) :=
    .of_trans (.decide rfl hu hlog)
  have hout := hdecide.andThen (lawful_sessionLogout (by rw [logoutDecision_session]; exact hlog))
  exact hout.bind (.emitAck _ _)

theorem checkLoginRequired_ok {st st' : St} {now : Nat} {ip : BitVec 32}
    (h : st.checkLoginRequired now ip = .ok st') : st' = st.sessionTouch now ∧ st.session.loggedIn = true := by
  unfold St.checkLoginRequired at h
  split_ifs at h with h1 h2
  exact ⟨(Except.ok.inj h).symm, by simpa using h1⟩

theorem lawful_handleGetBasicInfo (st : St) (now : Nat) (inv : Inventory) (frame : Bytes)
    (cl : Client) : Lawful src st (st.handleGetBasicInfo now inv frame cl) := by
  unfold St.handleGetBasicInfo
  dsimp only
  split_ifs
  · exact (SameCore.sessionTouch st now).lawful (.emitAck _ _)
  · exact .emitAck st _
  · exact .emitAck st _

theorem lawful_handleGetDeviceInfo (st : St) (now : Nat) (inv : Inventory) (env : InfoEnv)
    (frame : Bytes) (cl : Client) : Lawful src st (st.handleGetDeviceInfo now inv env frame cl) := by
  unfold St.handleGetDeviceInfo
  dsimp only
  split_ifs
  · split
    · exact .of_quiet (SameCore.refl st) (by simp [Effect.quiet])
    · next st' h =>
      obtain ⟨rfl, -⟩ := checkLoginRequired_ok h
      refine (SameCore.sessionTouch st now).lawful ?_
      split_ifs
      · exact .of_quiet (SameCore.refl _) (by simp [Effect.quiet])
      · exact .of_quiet (SameCore.sessionTouch _ now) (by simp [Effect.quiet])
  · exact .of_quiet (SameCore.refl st) (by simp [Effect.quiet])

/-! ## ChangeIpAddress, SetIndicationConfig and Reset -/

theorem lawful_handleChangeIpAddress (st : St) (env : Env) (frame : Bytes) (cl : Client) :
    Lawful (some (cl, frame)) st (st.handleChangeIpAddress env frame cl) := by
  unfold St.handleChangeIpAddress
  dsimp only
  cases hn : changeIpAddressReqUnpack frame with
  | none => exact .emitAck st _
  | some n =>
    dsimp only
    split
    · exact .emitAck st _
    · next st' h =>
      obtain ⟨rfl, hlog⟩ := checkLoginRequired_ok h
      refine (SameCore.sessionTouch st env.now).lawful ?_
      split
      · exact .emitAck _ _
      · next hok =>
        have hstage : Lawful (some (cl, frame)) (st.sessionTouch env.now) _ :=
          .of_trans (t := (⟨_, [], ()⟩ : Turn Unit)) (.stage rfl hn hlog hok)
        exact hstage.to_quiet (SameCore.sessionTouch _ env.now)

theorem lawful_announceState (st : St) (env : Env) : Lawful src st (st.announceState env) := by
  unfold St.announceState
  split_ifs
  · refine (lawful_indInitComplete st .ready).bind (Lawful.bind ?_ ?_)
    · split
      · exact lawful_indRadioUp _
      · exact .done _ ()
    · generalize Turn.st _ = st'
      split
      · exact lawful_indInitComplete _ _
      · exact .done _ ()
  · exact .done st ()

theorem lawful_handleSetIndicationConfig (st : St) (env : Env) (frame : Bytes) (cl : Client) :
    Lawful src st (st.handleSetIndicationConfig env frame cl) := by
  unfold St.handleSetIndicationConfig
  dsimp only
  cases setIndicationConfigReqUnpack frame with
  | none => exact .emitAck st _
  | some req =>
    dsimp only
    split
    · exact .emitAck st _
    · next st' h =>
      obtain ⟨rfl, -⟩ := checkLoginRequired_ok h
      refine (SameCore.sessionTouch st env.now).lawful ?_
      split_ifs
      · exact .emitAck _ _
      · exact .emitAck _ _
      · refine Lawful.bind ?_ (.emitAck _ _)
        have same : SameCore (st.sessionTouch env.now)
            (((st.sessionTouch env.now).setIndication req).sessionTouch env.now) := by
          constructor <;> rfl
        exact same.lawful (lawful_announceState _ env)

theorem lawful_handleReset (st : St) (env : Env) (frame : Bytes) (cl : Client) :
    Lawful src st (st.handleReset env frame cl) := by
  unfold St.handleReset
  dsimp only
  split_ifs
  · split
    · exact .emitAck st _
    · next st' h =>
      obtain ⟨rfl, -⟩ := checkLoginRequired_ok h
      refine .of_quiet ?_ (by simp)
      constructor <;> rfl
  · exact .emitAck st _

theorem lawful_postAck (st : St) : Lawful src st st.postAck := by
  unfold St.postAck
  split_ifs
  · have same : SameCore st { st with resetNoticeSent := true } := by constructor <;> rfl
    exact same.lawful (lawful_indResetNotice _ _)
  · exact .done st ()

theorem lawful_radioRevertDrain (st : St) (res : ApplyResult) : Lawful src st (st.radioRevertDrain res) := by
  unfold St.radioRevertDrain
  split_ifs with h
  · exact .of_trans (.revert h)
  · exact .done st ()

/-! ## Writing a setting -/

theorem setWriter_self {st : St} {w : Writer} (h : st.storeAsync = some w) : st.setWriter w = st := by
  cases st
  simp_all [St.setWriter]

theorem persistAdmit_sync {st : St} (hw : st.storeAsync = none) (env : ReadyEnv) (r : Resource) (path : Path)
    (len : Nat) : st.persistAdmit env r path len = st.done (.admitted none) := by
  unfold St.persistAdmit
  rw [hw]

/-- What an admission comes to with a writer attached: it finds no slot, the resource is busy, the
path is refused, or a slot is reserved. -/
theorem persistAdmit_cases {st : St} {w : Writer} (hw : st.storeAsync = some w) (env : ReadyEnv)
    (r : Resource) (path : Path) (len : Nat) :
    (st.pendingAckAlloc = none ∨ (w.reserve path len).2 = .error .again) ∨
    (st.persistResourceBusy r = true ∧ st.persistAdmit env r path len = st.done .unaccepted) ∨
    (∃ e, (e ≠ .again ∧ (w.reserve path len).2 = .error e) ∧
      st.persistAdmit env r path len = ⟨st, [.reserve path (.error e)], .failed⟩) ∨
    (∃ k s w₁, st.persistResourceBusy r = false ∧ st.pendingAckAlloc = some k ∧ w.reserve path len = (w₁, .ok s) ∧
      st.persistAdmit env r path len = ⟨st.setWriter w₁, [.reserve path (.ok s)], .admitted (some s)⟩) := by
  by_cases hbusy : st.persistResourceBusy r = true
  · exact .inr (.inl ⟨hbusy, by simp [St.persistAdmit, hw, St.admitOnce, hbusy, Turn.bind, St.done]⟩)
  cases hk : st.pendingAckAlloc with
  | none => exact .inl (.inl rfl)
  | some k =>
    rcases hr : w.reserve path len with ⟨w₁, e | s⟩
    · by_cases he : e = .again
      · exact .inl (.inr (by rw [he]))
      · obtain rfl := Writer.reserve_error hr
        refine .inr (.inr (.inl ⟨e, ⟨he, rfl⟩, ?_⟩))
        cases e <;> first
          | exact absurd rfl he
          | simp [St.persistAdmit, hw, St.admitOnce, hbusy, hk, hr, Turn.bind, St.done, setWriter_self hw]
    · refine .inr (.inr (.inr ⟨k, s, w₁, by simpa using hbusy, rfl, rfl, ?_⟩))
      simp [St.persistAdmit, hw, St.admitOnce, hbusy, hk, hr, Turn.bind, St.done]

/-- The submission of an admitted write. -/
theorem persistBlob_queued (st : St) {w₁ w₂ : Writer} {k : AckIdx} {s : Slot} {data : Bytes}
    {mode : Nat} (hw : st.storeAsync = some w₁) (hk : st.pendingAckAlloc = some k)
    (hsub : w₁.submitReserved (some s) data mode k = (w₂, .ok ())) (write : WriteResult)
    (path : Path) (r : Resource) (noAck : Bool) (reqId : BitVec 16) (cl : Client) :
    st.persistBlob write path data mode r noAck reqId cl (some s) =
      ⟨st.enqueue w₂ k r noAck reqId cl, [.ackAlloc (some k), .defer k r noAck reqId cl data],
        ⟨true, true, .unchanged⟩⟩ := by
  simp [St.persistBlob, hw, hk, hsub, St.enqueue, St.setWriter]

/-- A write without a writer. -/
theorem persistBlob_sync {st : St} (hw : st.storeAsync = none) (write : WriteResult) (path : Path)
    (data : Bytes) (mode : Nat) (r : Resource) (noAck : Bool) (reqId : BitVec 16) (cl : Client)
    (reservation : Option Slot) :
    st.persistBlob write path data mode r noAck reqId cl reservation =
      ⟨st, [.write ⟨path, data, mode, write⟩], ⟨write.rc = 0, false, write.outcome⟩⟩ := by
  simp [St.persistBlob, hw]

/-- The handler's rest once a write is admitted or not: what each answer of the admission needs. -/
theorem lawful_admitted {α : Type} {st : St} {env : ReadyEnv} {r : Resource} {path : Path} {len : Nat}
    {f : St → Admission → Turn α} (hsync : st.storeAsync = none → Lawful src st (f st (.admitted none)))
    (hunaccepted : Lawful src st (f st .unaccepted)) (hfailed : Lawful src st (f st .failed))
    (hadmitted : ∀ w k s w₁, st.storeAsync = some w → st.persistResourceBusy r = false →
      st.pendingAckAlloc = some k → w.reserve path len = (w₁, .ok s) →
      Steps (Trans src) ⟨st, []⟩
        (.reserve path (.ok s) :: (f (st.setWriter w₁) (.admitted (some s))).out)
        ⟨(f (st.setWriter w₁) (.admitted (some s))).st, []⟩) :
    Lawful src st ((st.persistAdmit env r path len).bind f) := by
  cases hw : st.storeAsync with
  | none => simpa [St.persistAdmit, hw, Turn.bind, St.done] using hsync hw
  | some w =>
    rcases persistAdmit_cases hw env r path len with
      hshort | ⟨-, he⟩ | ⟨e, ⟨hne, -⟩, he⟩ | ⟨k, s, w₁, hidle, hk, hr, he⟩
    · exact .of_trans (.starved hw hshort)
    · rw [he]
      exact hunaccepted
    · rw [he]
      refine Lawful.bind (.of_quiet (SameCore.refl st) ?_) hfailed
      simp [Effect.quiet, hne]
    · rw [he]
      exact hadmitted w k s w₁ hw hidle hk hr

/-! ### SetPassword -/

/-- A SetPassword of a client that passes its checks. -/
theorem passwordDue_of_error {st : St} {req : SetPasswordReq} {cl : Client} {frame : Bytes}
    (hreq : setPasswordReqUnpack frame = some req) (h : st.setPasswordError req = none) :
    PasswordDue (some (cl, frame)) st.pw cl req
      (req.newPassword.toList.take (strnlen req.newPassword.toList 127)) := by
  unfold St.setPasswordError at h
  split_ifs at h with h1 h2 h3 h4 h5
  refine ⟨⟨frame, rfl, hreq⟩, by simpa using h1, by simpa using h2, fun e => h4 (.inl e), ?_, rfl⟩
  by_contra hnot
  exact h5 ⟨fun e => hnot (.inl e), fun e => hnot (.inr (by
    simpa [St.passwordResendOfUnsynced] using e))⟩

theorem length_take_strnlen (b : Buf 128) :
    (b.toList.take (strnlen b.toList 127)).length = strnlen b.toList 127 ∧ strnlen b.toList 127 ≤ 127 := by
  have hle : strnlen b.toList 127 ≤ 127 := by
    have h := (List.takeWhile_prefix (p := (· ≠ 0#8)) (l := b.toList.take 127)).length_le
    exact h.trans (by simp)
  refine ⟨?_, hle⟩
  rw [List.length_take, Vector.length_toList]
  omega

/-- The password bytes that are written are those of the candidate's string. -/
theorem take_candidate (b : Buf 128) :
    (Buf.ofBytes 128 (b.toList.take (strnlen b.toList 127))).toList.take
        (strnlen b.toList 127) = b.toList.take (strnlen b.toList 127) := by
  obtain ⟨hlen, hle⟩ := length_take_strnlen b
  rw [Buf.toList_ofBytes (by omega), List.take_append_of_le_length (by omega), List.take_take, min_self]

/-- A SetPassword that passed its checks. -/
theorem lawful_setPassword {st : St} (env : Env) {req : SetPasswordReq} {cl : Client}
    (h : PasswordDue src st.pw cl req (req.newPassword.toList.take (strnlen req.newPassword.toList 127))) :
    Lawful src st ((st.persistAdmit env.ready .password st.paths.password
      (strnlen req.newPassword.toList 127)).bind fun st a =>
        match a with
        | .unaccepted => (st.sessionTouch env.now).done []
        | .failed => st.emitAck (setPasswordAckPack txCap cl.seq resultNg Err.nvram)
        | .admitted reservation => st.commitPassword env req cl reservation) := by
  obtain ⟨hlen, -⟩ := length_take_strnlen req.newPassword
  refine lawful_admitted (fun hsync => ?_) (.to_quiet (.done st ()) (SameCore.sessionTouch st _))
    (.emitAck st _) fun w k s w₁ hw hidle hk hr => ?_
  · have hwritten := Lawful.of_trans (t := (⟨_, _, ()⟩ : Turn Unit))
      (Trans.passwordWritten (r := env.write) hsync h)
    have hout := hwritten.to_quiet (b := ()) (SameCore.sessionTouch _ env.now)
    simpa [Lawful, St.commitPassword, St.persistPassword, persistBlob_sync hsync, take_candidate,
      St.sessionTouch] using hout
  · obtain ⟨w₂, hsub⟩ := Writer.submitReserved_reserve hr hlen.le 0o600 k
    have hqueued := Lawful.of_trans (t := (⟨_, _, ()⟩ : Turn Unit))
      (Trans.passwordQueued h ⟨hidle, hk, w, w₁, hw, hr, hsub⟩)
    have hout := hqueued.to_quiet (b := ()) (SameCore.sessionTouch _ env.now)
    have hblob := persistBlob_queued (st.setWriter w₁) rfl hk hsub
    simp only [St.commitPassword, St.persistPassword, take_candidate, hblob]
    simpa [Lawful, queuedOut, St.sessionTouch, St.enqueue, St.setWriter] using hout

theorem lawful_handleSetPassword (st : St) (env : Env) (frame : Bytes) (cl : Client) :
    Lawful (some (cl, frame)) st (st.handleSetPassword env frame cl) := by
  unfold St.handleSetPassword
  dsimp only
  cases hreq : setPasswordReqUnpack frame with
  | none => exact .emitAck st _
  | some req =>
    dsimp only
    split
    · exact .emitAck st _
    · next st' h =>
      obtain ⟨rfl, -⟩ := checkLoginRequired_ok h
      refine (SameCore.sessionTouch st env.now).lawful ?_
      split_ifs
      · exact .to_quiet (.done _ ()) (SameCore.sessionTouch _ env.now)
      · split
        · exact .emitAck _ _
        · next herr => exact lawful_setPassword env (passwordDue_of_error hreq herr)

/-! ### SetIpConfigList -/

theorem iplistMirrorUser_sync {st : St} (h : st.storeAsync = none) (env : MirrorEnv) :
    st.iplistMirrorUser env = ⟨st, st.iplistWriteUser env, ()⟩ := by
  unfold St.iplistMirrorUser St.iplistWriteUser
  rw [IpList.textFormat_eq]
  cases st.paths.ipListUser with
  | none => rfl
  | some user => simp [h]

theorem lawful_applyEntries_sync {st : St} (h : st.storeAsync = none) {es : List (Entry × Bool)}
    {cl : Client} (hdue : EntriesDue src st.session.loggedIn cl es) (env : Env) :
    Lawful src st (st.applyEntries env es cl none) := by
  unfold St.applyEntries
  by_cases hc : (st.folded es).1.committed = true
  · have hblob := @persistBlob_sync (st.sessionTouch env.now) h
    simp only [hc, if_true, St.commitIpList, St.persistIpList, IpList.textFormat_eq, hblob]
    by_cases ho : env.write.outcome = .unchanged
    · have hkept := Lawful.of_trans (t := (⟨_, _, ()⟩ : Turn Unit))
        (Trans.ipListUnwritten h hdue hc ho)
      have hout := hkept.to_quiet (b := ()) (SameCore.sessionTouch _ env.now)
      simpa [Lawful, ho, St.sessionTouch] using hout
    · have hwritten := Lawful.of_trans (t := (⟨_, _, ()⟩ : Turn Unit))
        (@Trans.ipListWritten src st _ cl es env.write env.mirror h hdue hc ho rfl)
      have hout := hwritten.to_quiet (b := ()) (SameCore.sessionTouch _ env.now)
      have hmirror := @iplistMirrorUser_sync
        { st.sessionTouch env.now with
          ipl.list := (st.folded es).1.candidate
          ipl.staging := (st.folded es).1.staging
          ipl.stagingActive := (st.folded es).1.active } h env.mirror
      simp only [Lawful, Turn.bind_st, Turn.bind_out, ho, ne_eq, not_false_eq_true, if_true,
        Bool.false_eq_true, if_false, hmirror]
      simpa [Lawful, St.sessionTouch, St.iplistWriteUser] using hout
  · have hstage := Lawful.of_trans (t := (⟨_, [], ()⟩ : Turn Unit))
      (Trans.staging (.inl h) hdue (by simpa using hc))
    have hout := hstage.to_quiet (b := ()) (SameCore.sessionTouch _ env.now)
    simpa [Lawful, hc, St.cancelReservation, St.sessionTouch, h] using hout

@[simp] theorem folded_setWriter (st : St) (w : Writer) (es : List (Entry × Bool)) :
    (st.setWriter w).folded es = st.folded es := rfl

/-- A request that was admitted to the writer. -/
theorem steps_applyEntries_queued {st : St} {w w₁ : Writer} {k : AckIdx} {s : Slot}
    (hw : st.storeAsync = some w) (hidle : st.persistResourceBusy .ipList = false) (hk : st.pendingAckAlloc = some k)
    (hr : w.reserve st.paths.ipList IpList.textMax = (w₁, .ok s))
    {es : List (Entry × Bool)} {cl : Client} (hdue : EntriesDue src st.session.loggedIn cl es) (env : Env) :
    Steps (Trans src) ⟨st, []⟩ (.reserve st.paths.ipList (.ok s) ::
        ((st.setWriter w₁).applyEntries env es cl (some s)).out)
      ⟨((st.setWriter w₁).applyEntries env es cl (some s)).st, []⟩ := by
  unfold St.applyEntries
  rw [folded_setWriter]
  by_cases hc : (st.folded es).1.committed = true
  · have hlen : (IpList.listText (st.folded es).1.candidate).length ≤ IpList.textMax :=
      (IpList.length_listText _).trans (by decide)
    obtain ⟨w₂, hsub⟩ := Writer.submitReserved_reserve hr hlen 0o644 k
    have hqueued := Lawful.of_trans (t := (⟨_, _, ()⟩ : Turn Unit))
      (Trans.ipListQueued hdue hc ⟨hidle, hk, w, w₁, hw, hr, hsub⟩)
    have hout := hqueued.to_quiet (b := ()) (SameCore.sessionTouch _ env.now)
    have hblob := persistBlob_queued ((st.setWriter w₁).sessionTouch env.now) rfl hk hsub
    simp only [hc, if_true, St.commitIpList, St.persistIpList, IpList.textFormat_eq, hblob]
    cases herr : (st.folded es).2 <;>
      simpa [Lawful, queuedOut, St.sessionTouch, St.enqueue, St.setWriter, herr] using hout
  · have hprobe := @Trans.probe src _ _ _ _ _ _ hw hr
    have hstage := @Trans.staging src (st.setWriter (w₁.cancel (some s))) cl es (.inr hidle)
      ⟨hdue.source, hdue.was⟩ (by simpa using hc)
    have hout := Steps.cons hprobe (.cons hstage (.single
      (@Trans.quiet src _ _ [] [] (SameCore.sessionTouch _ env.now) (by simp))))
    simp only [folded_setWriter] at hout
    simpa [hc, St.cancelReservation, St.sessionTouch, St.setWriter] using hout

theorem lawful_handleSetIpConfigList (st : St) (env : Env) (frame : Bytes) (cl : Client) :
    Lawful (some (cl, frame)) st (st.handleSetIpConfigList env frame cl) := by
  unfold St.handleSetIpConfigList
  dsimp only
  split
  · exact .emitAck st _
  · exact .emitAck st _
  · next es hes =>
    split
    · exact .emitAck st _
    · next st' h =>
      obtain ⟨rfl, hlog⟩ := checkLoginRequired_ok h
      have hdue : EntriesDue (some (cl, frame)) (st.sessionTouch env.now).session.loggedIn cl es :=
        ⟨⟨frame, rfl, hes⟩, hlog⟩
      refine (SameCore.sessionTouch st env.now).lawful ?_
      split_ifs
      · exact .to_quiet (.done _ ()) (SameCore.sessionTouch _ env.now)
      · refine lawful_admitted (fun hsync => lawful_applyEntries_sync hsync hdue env)
          (.to_quiet (.done _ ()) (SameCore.sessionTouch _ env.now)) (.emitAck _ _) ?_
        intro w k s w₁ hw hidle hk hr
        exact steps_applyEntries_queued hw hidle hk hr hdue env

/-! ### SetRadioConfig -/

theorem radioTxnArm_snd (st : St) (marker : WriteResult) (req : RadioConfig) :
    (st.radioTxnArm marker req).2 = true ↔ st.MarkerArmed marker := by
  unfold St.radioTxnArm St.MarkerArmed
  cases st.paths.radioMarker <;> simp

theorem rc_eq_zero_iff (r : WriteResult) : r.rc = 0 ↔ r.outcome = .durable := by
  unfold WriteResult.rc
  split <;> simp_all

/-- The write of an applied request, made in line. -/
theorem commitRadio_sync {st : St} (h : st.storeAsync = none) (env : Env) (base : RadioState)
    (valid : Bool) (cl : Client) :
    (st.commitRadio env base valid cl none).out = .write ⟨st.paths.radio, rawRadio st.rad.radio, 0o644, env.write⟩ ::
          (if env.write.outcome = .durable then st.radioTxnClear env.unlink else []) ∧
      (st.commitRadio env base valid cl none).st =
        { st with rad := st.rad.written base valid env.write.outcome }.sessionTouch env.now := by
  unfold St.commitRadio St.persistRadio
  rw [persistBlob_sync h]
  cases ho : env.write.outcome <;>
    simp [WriteResult.rc, ho, RadioState.written, St.sessionTouch]

/-- A request that is applied and written in line. -/
theorem lawful_applyRadio_sync {st : St} (h : st.storeAsync = none) {req : RadioConfig}
    {cl : Client} (hdue : RadioDue src st.rad cl req) (env : Env) :
    Lawful src st (st.applyRadio env req cl none) := by
  unfold St.applyRadio
  by_cases harm : st.MarkerArmed env.marker
  · have harm' := (radioTxnArm_snd st env.marker req).mpr harm
    cases happly : env.applyRadio with
    | failed live =>
      have hfailed := Lawful.of_trans (t := (⟨_, _, ()⟩ : Turn Unit))
        (@Trans.radioFailed src st cl req env.marker live hdue harm)
      have hout := hfailed.to_quiet (b := ()) (SameCore.sessionTouch _ env.now)
      by_cases hd : radioCfgDiffers req st.rad.radio = true <;>
        simpa [Lawful, harm', St.cancelReservation, h, hd, St.sessionTouch] using hout
    | ok =>
      have hwritten := Lawful.of_trans (t := (⟨_, _, ()⟩ : Turn Unit))
        (@Trans.radioWritten src st cl req env.marker env.write env.unlink h hdue harm)
      have hout := hwritten.to_quiet (b := ()) (SameCore.sessionTouch _ env.now)
      have hcommit := @commitRadio_sync (st.radioApplied req) h env st.rad
        (radioBaselineCovers st.rad req) cl
      simp only [Lawful, harm', not_true_eq_false, if_false, Turn.bind_out, Turn.bind_st, hcommit]
      simpa [Lawful, St.radioApplied, St.radioTxnClear, St.sessionTouch] using hout
  · have harm' : (st.radioTxnArm env.marker req).2 = false := by
      simpa using fun e => harm ((radioTxnArm_snd st env.marker req).mp e)
    have hfailed := Lawful.of_trans (t := (⟨_, _, ()⟩ : Turn Unit))
      (Trans.markerFailed hdue harm)
    have hout := hfailed.to_quiet (b := ()) (SameCore.sessionTouch _ env.now)
    simpa [Lawful, harm', St.cancelReservation, h, St.sessionTouch] using hout

/-- The write of an applied request, queued. -/
theorem commitRadio_queued {st : St} {w₁ w₂ : Writer} {k : AckIdx} {s : Slot}
    (hw : st.storeAsync = some w₁) (hk : st.pendingAckAlloc = some k)
    (hsub : w₁.submitReserved (some s) (rawRadio st.rad.radio) 0o644 k = (w₂, .ok ())) (env : Env)
    (base : RadioState) (valid : Bool) (cl : Client) {st₁ : St}
    (h : st₁ = st.enqueue w₂ k .radio false Command.setRadioConfig.id cl) :
    (st.commitRadio env base valid cl (some s)).out = [.ackAlloc (some k),
          .defer k .radio false Command.setRadioConfig.id cl (rawRadio st.rad.radio)] ∧
      (st.commitRadio env base valid cl (some s)).st =
        { st₁ with
          acks := st₁.stampRadio cl
          rad.revertCfg := base.radio
          rad.revertCommitted := base.committed
          rad.persistBaselineValid := valid }.sessionTouch env.now := by
  subst h
  unfold St.commitRadio St.persistRadio
  rw [persistBlob_queued st hw hk hsub]
  simp

@[simp] theorem radioTxnArm_setWriter (st : St) (w : Writer) (marker : WriteResult)
    (req : RadioConfig) : (st.setWriter w).radioTxnArm marker req = st.radioTxnArm marker req := rfl

/-- A request that was admitted to the writer. -/
theorem steps_applyRadio_queued {st : St} {w w₁ : Writer} {k : AckIdx} {s : Slot}
    (hw : st.storeAsync = some w) (hidle : st.persistResourceBusy .radio = false)
    (hk : st.pendingAckAlloc = some k) (hr : w.reserve st.paths.radio radioConfLen = (w₁, .ok s))
    {req : RadioConfig} {cl : Client} (hdue : RadioDue src st.rad cl req) (env : Env) :
    Steps (Trans src) ⟨st, []⟩
      (.reserve st.paths.radio (.ok s) :: ((st.setWriter w₁).applyRadio env req cl (some s)).out)
      ⟨((st.setWriter w₁).applyRadio env req cl (some s)).st, []⟩ := by
  have hprobe := @Trans.probe src _ _ _ _ _ _ hw hr
  have hdue' : RadioDue src (st.setWriter (w₁.cancel (some s))).rad cl req :=
    ⟨hdue.source, hdue.checked, hdue.needed⟩
  unfold St.applyRadio
  by_cases harm : st.MarkerArmed env.marker
  · have harm' := (radioTxnArm_snd st env.marker req).mpr harm
    cases happly : env.applyRadio with
    | failed live =>
      have hfailed := @Trans.radioFailed src _ cl req env.marker live hdue' harm
      have hout := Steps.cons hprobe (.cons hfailed (.single
        (@Trans.quiet src _ _ [] [] (SameCore.sessionTouch _ env.now) (by simp))))
      simp only [radioTxnArm_setWriter, harm', not_true_eq_false, if_false, Turn.bind_out,
        Turn.bind_st] at hout ⊢
      by_cases hd : radioCfgDiffers req st.rad.radio = true <;>
        simpa [St.cancelReservation, hd, St.sessionTouch, St.setWriter] using hout
    | ok =>
      have hlen : (rawRadio req).length ≤ radioConfLen := (length_rawRadio req).le
      obtain ⟨w₂, hsub⟩ := Writer.submitReserved_reserve hr hlen 0o644 k
      have hqueued := Lawful.of_trans (t := (⟨_, _, ()⟩ : Turn Unit))
        (Trans.radioQueued hdue harm ⟨hidle, hk, w, w₁, hw, hr, hsub⟩ rfl)
      have hout := hqueued.to_quiet (b := ()) (SameCore.sessionTouch _ env.now)
      have hcommit := @commitRadio_queued ((st.setWriter w₁).radioApplied req) w₁ w₂ k s rfl hk hsub
        env st.rad (radioBaselineCovers st.rad req) cl
        ((st.radioApplied req).enqueue w₂ k .radio false Command.setRadioConfig.id cl) rfl
      have hraw : rawRadio ((st.setWriter w₁).radioApplied req).rad.radio = rawRadio req := rfl
      simp only [radioTxnArm_setWriter, harm', not_true_eq_false, if_false, Turn.bind_out, Turn.bind_st]
      rw [show (st.setWriter w₁).rad = st.rad from rfl, hcommit.1, hcommit.2, hraw]
      simpa [Lawful, queuedOut] using hout
  · have harm' : (st.radioTxnArm env.marker req).2 = false := by
      simpa using fun e => harm ((radioTxnArm_snd st env.marker req).mp e)
    have hfailed := Trans.markerFailed hdue' harm
    have hout := Steps.cons hprobe (.cons hfailed (.single
      (@Trans.quiet src _ _ [] [] (SameCore.sessionTouch _ env.now) (by simp))))
    simp only [radioTxnArm_setWriter, harm', Bool.false_eq_true, not_false_eq_true, if_true,
      Turn.bind_out, Turn.bind_st] at hout ⊢
    simpa [St.cancelReservation, St.sessionTouch, St.setWriter] using hout

theorem lawful_handleSetRadioConfig (st : St) (env : Env) (frame : Bytes) (cl : Client) :
    Lawful (some (cl, frame)) st (st.handleSetRadioConfig env frame cl) := by
  unfold St.handleSetRadioConfig
  dsimp only
  cases hreq : setRadioConfigReqUnpack frame with
  | none => exact .emitAck st _
  | some req =>
    dsimp only
    split
    · exact .emitAck st _
    · next st' h =>
      obtain ⟨rfl, -⟩ := checkLoginRequired_ok h
      refine (SameCore.sessionTouch st env.now).lawful ?_
      split
      · exact .to_quiet (.done _ ()) (SameCore.sessionTouch _ env.now)
      split
      · exact .emitAck _ _
      · next herr =>
        split_ifs with hneed
        · exact .to_quiet (.done _ ()) (SameCore.sessionTouch _ env.now)
        · have hdue : RadioDue (some (cl, frame)) (st.sessionTouch env.now).rad cl req :=
            ⟨⟨frame, rfl, hreq⟩, ⟨env, herr⟩, hneed⟩
          refine lawful_admitted (fun hsync => lawful_applyRadio_sync hsync hdue env)
            (.to_quiet (.done _ ()) (SameCore.sessionTouch _ env.now)) (.emitAck _ _) ?_
          intro w k s w₁ hw hidle hk hr
          exact steps_applyRadio_queued hw hidle hk hr hdue env

/-! ## The main loop -/

theorem lawful_handle (st : St) (env : Env) (frame : Bytes) (cl : Client) (c : Command) :
    Lawful (some (cl, frame)) st (st.handle env frame cl c) := by
  cases c with
  | login => exact lawful_handleLogin st _ frame cl
  | logout => exact lawful_handleLogout st frame cl
  | getBasicInfo => exact lawful_handleGetBasicInfo st _ _ frame cl
  | getDeviceInfo => exact lawful_handleGetDeviceInfo st _ _ _ frame cl
  | setPassword => exact lawful_handleSetPassword st env frame cl
  | setIpConfigList => exact lawful_handleSetIpConfigList st env frame cl
  | changeIpAddress => exact lawful_handleChangeIpAddress st env frame cl
  | setRadioConfig => exact lawful_handleSetRadioConfig st env frame cl
  | setIndicationConfig => exact lawful_handleSetIndicationConfig st env frame cl
  | reset => exact lawful_handleReset st env frame cl

theorem lawful_dispatch (st : St) (env : Env) (frame : Bytes) (ip : BitVec 32) (port : BitVec 16) :
    Lawful (requestOf ip port frame) st (st.dispatch env frame ip port) := by
  unfold St.dispatch
  split
  · exact .done st _
  · next h _ hp =>
    split_ifs
    · exact .done st _
    · refine (lawful_idleCheck st env.now).bind ?_
      split
      · exact .done _ _
      · rw [requestOf, hp]
        exact (lawful_handle _ env frame _ _).bind (.done _ _)

theorem quiet_rejectBadLength (st : St) (buf : Bytes) (ip : BitVec 32) (port : BitVec 16) :
    ∀ e ∈ st.rejectBadLength buf ip port, e.quiet := by
  unfold St.rejectBadLength
  dsimp only
  split_ifs
  · split
    · simp
    · split <;> simp [Effect.quiet]
  · simp

theorem lawful_receive (st : St) (env : Env) (revert : ApplyResult) (ip : BitVec 32)
    (port : BitVec 16) (datagram : Bytes) :
    Lawful (requestOf ip port (frameOf datagram)) st (st.receive env revert ip port datagram) := by
  unfold St.receive
  dsimp only
  split
  · exact .of_quiet (SameCore.refl st) (by dsimp only; exact quiet_rejectBadLength st _ ip port)
  · refine (lawful_dispatch st env _ ip port).bind (Lawful.bind ?_ (Lawful.bind ?_ ?_))
    · refine .of_quiet (SameCore.refl _) ?_
      dsimp only
      split <;> simp [Effect.quiet]
    · dsimp only
      split
      · exact lawful_postAck _
      · exact .done _ ()
    · exact lawful_radioRevertDrain _ revert

theorem steps_completeAll (env : ReadyEnv) (ds : List Done) (i : Nat) (st : St) :
    Steps (Trans none) ⟨st, ds⟩ (st.completeAll env i ds).out ⟨(st.completeAll env i ds).st, []⟩ := by
  induction ds generalizing i st with
  | nil => exact .refl _
  | cons d ds ih => exact .cons (.complete rfl) (ih (i + 1) _)

theorem lawful_storeAsyncOnReady (st : St) (env : ReadyEnv) : Lawful none st (st.storeAsyncOnReady env) := by
  unfold St.storeAsyncOnReady
  split
  · exact .done st ()
  · next w hw => exact Steps.cons (.drain hw rfl) (steps_completeAll env _ 0 _)

theorem lawful_workerTurn (st : St) (r : WriteResult) : Lawful src st (st.workerTurn r) := by
  unfold St.workerTurn
  split
  · exact .done st ()
  · next w hw => exact .of_trans (.worker hw)

theorem lawful_endHeldSession (st : St) : Lawful src st st.endHeldSession := by
  unfold St.endHeldSession
  split_ifs with h
  · exact lawful_sessionLogout h
  · exact .done st ()

/-- Ending the session and clearing the change record commute. -/
theorem endHeldSession_clearIpChange (st : St) :
    st.clearIpChange.endHeldSession = ⟨st.endHeldSession.st.clearIpChange, st.endHeldSession.out, ()⟩ := by
  unfold St.endHeldSession St.sessionLogout St.indInitComplete St.clearIpChange
  dsimp only
  split_ifs <;> rfl

theorem lawful_applyPendingIpChange (st : St) (ok : Bool) : Lawful src st (st.applyPendingIpChange ok) := by
  unfold St.applyPendingIpChange
  dsimp only
  split_ifs with harmed hok
  · have happly := @Trans.apply src st ok harmed
    have same : SameCore st.clearIpChange
        ({ st with ind.enabled := false } : St).clearIpChange := by constructor <;> rfl
    have hend := @lawful_endHeldSession src ({ st with ind.enabled := false } : St).clearIpChange
    rw [endHeldSession_clearIpChange] at hend
    have hroute : ∀ u : St, Trans src ⟨u, []⟩
        (if u.conf.managementTopology = Topology.peerRoute then
          [.peerRouteRefresh st.chg.armedEntry.ipAddress st.chg.armedEntry.subnetMask] else [])
        ⟨u, []⟩ := fun u => .quiet (SameCore.refl u) (by split <;> simp [Effect.quiet])
    exact Steps.trans (Steps.single happly) (same.lawful (t := ⟨_, _, ()⟩)
      (Steps.trans hend (Steps.single (hroute _))))
  · exact .of_trans (.apply harmed)
  · exact .done st ()

end

/-- **The daemon refines its transitions.** -/
theorem daemon_refines : daemon.Refines (fun a => Trans a.source) fun st => ⟨st, []⟩ := by
  intro st a
  cases a with
  | datagram env revert ip port datagram => exact lawful_receive st env revert ip port datagram
  | timer now => exact lawful_idleCheck st now
  | notices ind sent =>
    refine Lawful.of_quiet (t := st.turn (.notices ind sent)) (by constructor <;> rfl) ?_
    intro e he
    obtain ⟨s, -, rfl⟩ := List.mem_map.mp he
    rfl
  | storeReady env => exact lawful_storeAsyncOnReady st env
  | worker r => exact lawful_workerTurn st r
  | endOfCycle ok => exact lawful_applyPendingIpChange st ok

end Opcd
