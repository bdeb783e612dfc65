import Opcd.Daemon.Serve
import Opcd.Protocol.Messages

/-!
# A SetPassword

What the handler does with a SetPassword: it is refused, dropped while a password is being written,
refused by the writer, written in line, or queued (`passwordTurn`). Every string it compares is
terminated, so the comparisons are those of C strings (`strncmpEq_iff`).
-/

namespace Opcd

open Bytes Protocol Store

/-! ## Strings -/

theorem strncmpEq_iff {a b : Buf 128} (ha : 0#8 ∈ a.toList) (hb : 0#8 ∈ b.toList) :
    strncmpEq 127 a.toList b.toList = true ↔ a.str = b.str := by
  have hcut {c : Buf 128} (hc : 0#8 ∈ c.toList) : cstr (c.toList.take 127) = c.str :=
    cstr_take (Nat.le_of_lt_succ (Buf.length_str_lt hc))
  rw [strncmpEq, decide_eq_true_eq, hcut ha, hcut hb]

/-- The bytes of a new password that are written are its string. -/
theorem take_strnlen {a : Buf 128} (ha : 0#8 ∈ a.toList) : a.toList.take (strnlen a.toList 127) = a.str := by
  have hcut : cstr (a.toList.take 127) = a.str :=
    cstr_take (Nat.le_of_lt_succ (Buf.length_str_lt ha))
  rw [strnlen, hcut]
  exact (List.prefix_iff_eq_take.mp (List.takeWhile_prefix _)).symm

theorem terminated_ofBytes {n : Nat} {s : Bytes} (h : s.length < n) : 0#8 ∈ (Buf.ofBytes n s).toList := by
  rw [Buf.toList_ofBytes h.le, List.mem_append, List.mem_replicate]
  exact .inr ⟨by omega, rfl⟩

variable {req : SetPasswordReq}

/-- Both passwords of a request are terminated. -/
theorem terminated_of_setPassword {frame : Bytes} (h : setPasswordReqUnpack frame = some req) :
    0#8 ∈ req.oldPassword.toList ∧ 0#8 ∈ req.newPassword.toList := by
  unfold setPasswordReqUnpack at h
  obtain ⟨body, -, rfl⟩ := Option.map_eq_some_iff.mp h
  exact ⟨terminated_copyStringField (by decide) _ _, terminated_copyStringField (by decide) _ _⟩

/-- The new password of a request in a buffer of its own. -/
def Protocol.SetPasswordReq.candidate (req : SetPasswordReq) : Buf 128 :=
  Buf.ofBytes 128 (req.newPassword.toList.take (strnlen req.newPassword.toList 127))

theorem str_candidate (h : 0#8 ∈ req.newPassword.toList) : req.candidate.str = req.newPassword.str := by
  rw [SetPasswordReq.candidate, take_strnlen h]
  exact Buf.str_ofBytes (Buf.length_str_le _) (zero_notMem_cstr _)

theorem terminated_candidate (h : 0#8 ∈ req.newPassword.toList) : 0#8 ∈ req.candidate.toList := by
  rw [SetPasswordReq.candidate, take_strnlen h]
  exact terminated_ofBytes (Buf.length_str_lt h)

/-! ## Admission and publication -/

namespace PasswordState

/-- The stored passwords are terminated. -/
structure Terminated (p : PasswordState) : Prop where
  password : 0#8 ∈ p.password.toList
  prev : 0#8 ∈ p.unsyncedPrev.toList

/-- The old password is the published one, or the request repeats the one before that was not synced. -/
theorem admits_iff {p : PasswordState} (hp : p.Terminated) {req : SetPasswordReq}
    (hold : 0#8 ∈ req.oldPassword.toList) (hnew : 0#8 ∈ req.newPassword.toList) :
    p.Admits req ↔ req.oldPassword.str = p.password.str ∨
      p.unsynced = true ∧ req.oldPassword.str = p.unsyncedPrev.str ∧ req.newPassword.str = p.password.str := by
  unfold Admits
  rw [strncmpEq_iff hold hp.password, strncmpEq_iff hold hp.prev, strncmpEq_iff hnew hp.password]

/-- The group once a write of `candidate` came to `o` and nothing is in flight. -/
def settled (p : PasswordState) (candidate : Buf 128) (o : Outcome) (pending : Buf 128) :
    PasswordState :=
  { p.publish candidate o with pending }

/-- A write that shows but was not synced: the password it replaced is remembered, unless it is the
same again. -/
theorem settled_replaced (p : PasswordState) (candidate pending : Buf 128) :
    p.settled candidate .replacedUnsynced pending =
      if strncmpEq 127 candidate.toList p.password.toList then { p with password := candidate, pending }
      else ⟨candidate, true, p.password, pending⟩ := by
  unfold settled publish noteOutcome
  dsimp only
  rw [if_pos (by simp)]
  split <;> rfl

/-- A candidate in flight plays no part. -/
theorem settled_pending (p : PasswordState) (c candidate : Buf 128) (o : Outcome) (pending : Buf 128) :
    { p with pending := c }.settled candidate o pending = p.settled candidate o pending := by
  cases o with
  | replacedUnsynced => rw [settled_replaced, settled_replaced]
  | _ => rfl

/-- In line the candidate in flight stays as it is. -/
theorem settled_self (p : PasswordState) (candidate : Buf 128) (o : Outcome) :
    p.settled candidate o p.pending = p.publish candidate o := by
  cases o with
  | replacedUnsynced =>
    unfold settled publish noteOutcome
    dsimp only
    rw [if_pos (by simp)]
    split <;> rfl
  | _ => rfl

theorem Terminated.settled {p : PasswordState} (hp : p.Terminated) {candidate : Buf 128}
    (hc : 0#8 ∈ candidate.toList) (o : Outcome) (pending : Buf 128) : (p.settled candidate o pending).Terminated := by
  have hz : 0#8 ∈ (Buf.zero 128).toList := by simp [Buf.zero]
  cases o with
  | durable => exact ⟨hc, hz⟩
  | unchanged => exact ⟨hp.password, hp.prev⟩
  | replacedUnsynced =>
    rw [settled_replaced]
    split
    · exact ⟨hc, hp.prev⟩
    · exact ⟨hc, hp.password⟩

/-- The published password after a write: the candidate once it shows. -/
theorem settled_password (p : PasswordState) (candidate : Buf 128) (o : Outcome) (pending : Buf 128) :
    (p.settled candidate o pending).password = if o = .unchanged then p.password else candidate := by
  unfold settled publish noteOutcome
  cases o <;> dsimp only <;> split_ifs <;> simp_all

/-- **A request whose write was not made durable is admitted again.** -/
theorem admits_settled {p : PasswordState} (hp : p.Terminated) {req : SetPasswordReq}
    (hold : 0#8 ∈ req.oldPassword.toList) (hnew : 0#8 ∈ req.newPassword.toList)
    (h : p.Admits req) {o : Outcome} (ho : o ≠ .durable) (pending : Buf 128) :
    (p.settled req.candidate o pending).Admits req := by
  have hcand := terminated_candidate hnew
  have hstr := str_candidate hnew
  rw [admits_iff (hp.settled hcand o pending) hold hnew, settled_password]
  rw [admits_iff hp hold hnew] at h
  cases o with
  | durable => exact absurd rfl ho
  | unchanged => exact h
  | replacedUnsynced =>
    rw [if_neg (by simp), hstr, settled_replaced]
    by_cases hsame : strncmpEq 127 req.candidate.toList p.password.toList = true
    · -- the same password again: what was remembered stays
      rw [if_pos hsame]
      rw [strncmpEq_iff hcand hp.password, hstr] at hsame
      rcases h with h | ⟨hu, hprev, -⟩
      · exact .inl (h.trans hsame.symm)
      · exact .inr ⟨hu, hprev, rfl⟩
    · -- another password: the published one is remembered, and the request named it
      rw [if_neg hsame]
      rw [strncmpEq_iff hcand hp.password, hstr] at hsame
      rcases h with h | ⟨-, -, hnew'⟩
      · exact .inr ⟨rfl, h, rfl⟩
      · exact absurd hnew' hsame

end PasswordState

/-! ## The handler -/

/-- The bytes of an answer to a SetPassword. -/
def passwordAck (cl : Client) (result cause : BitVec 16) : Bytes :=
  (setPasswordAckPack txCap cl.seq result cause).getD []

theorem setPasswordAckUnpack_passwordAck (cl : Client) (result cause : BitVec 16) :
    setPasswordAckUnpack (passwordAck cl result cause) = some (result, cause) := by
  have h := simpleAckUnpack_getD Command.setPassword.id Command.setPassword.id cl.seq result cause
  rwa [if_pos rfl] at h

/-- What the handler of a SetPassword comes to. -/
inductive PasswordTurn (st : St) (src : Source) (cl : Client) (req : SetPasswordReq)
    (t : Turn Bytes) : Prop
  | refused (around : Around st t.st) (hout : t.out = []) {cause : BitVec 16}
      (hval : t.val = passwordAck cl resultNg cause)
      (mismatch : cause = Err.passwordMismatch → ¬ st.pw.Admits req) (hcause : cause ≠ Err.nvram)
  /-- a password is being written -/
  | dropped (around : Around st t.st) (hout : t.out = []) (hval : t.val = [])
  /-- the writer does not take the path -/
  | unreserved {e : SubmitError} (around : Around st t.st)
      (hout : t.out = [.reserve st.paths.password (.error e)])
      (hval : t.val = passwordAck cl resultNg Err.nvram) (idle : st.persistResourceBusy .password = false)
      (due : PasswordDue src st.pw cl req
        (req.newPassword.toList.take (strnlen req.newPassword.toList 127)))
  | written {r : WriteResult} (sync : st.storeAsync = none)
      (around : Around st { t.st with pw := st.pw })
      (due : PasswordDue src st.pw cl req
        (req.newPassword.toList.take (strnlen req.newPassword.toList 127)))
      (hout : t.out = [.write ⟨st.paths.password,
        req.newPassword.toList.take (strnlen req.newPassword.toList 127), 0o600, r⟩])
      (hpw : t.st.pw = st.pw.publish req.candidate r.outcome)
      (hval : t.val = if r.outcome = .durable then passwordAck cl resultOk Err.none
        else passwordAck cl resultNg Err.nvram)
  | queued {s : Slot} {k : AckIdx} (idle : st.persistResourceBusy .password = false)
      (due : PasswordDue src st.pw cl req
        (req.newPassword.toList.take (strnlen req.newPassword.toList 127)))
      (hout : t.out = queuedOut .password st.paths.password
        (req.newPassword.toList.take (strnlen req.newPassword.toList 127)) false
        Command.setPassword.id cl s k [])
      (hpw : t.st.pw = { st.pw with pending := req.candidate })
      (paths : t.st.paths = st.paths)
      (busy : t.st.persistResourceBusy .password = true) (hval : t.val = [])

theorem around_sessionTouch (st : St) (now : Nat) : Around st (st.sessionTouch now) :=
  (SameCore.sessionTouch st now).around

/-- The causes a SetPassword is refused with. -/
theorem setPasswordError_some {st : St} {cause : BitVec 16} (h : st.setPasswordError req = some cause) :
    (cause = Err.passwordMismatch → ¬ st.pw.Admits req) ∧ cause ≠ Err.nvram := by
  by_cases hmis : ¬ strncmpEq 127 req.oldPassword.toList st.pw.password.toList ∧
      ¬ st.passwordResendOfUnsynced req
  · refine ⟨fun _ hadm => ?_, ?_⟩
    · rcases hadm with hold | hagain
      · exact hmis.1 hold
      · exact hmis.2 (by simpa [St.passwordResendOfUnsynced] using hagain)
    · unfold St.setPasswordError at h
      split_ifs at h <;> obtain rfl := Option.some.inj h <;> decide
  · unfold St.setPasswordError at h
    rw [if_neg hmis] at h
    split_ifs at h <;> obtain rfl := Option.some.inj h <;> exact ⟨fun e => absurd e (by decide), by decide⟩

theorem busy_of_ack {st : St} {r : Resource} (k : AckIdx) (h : (st.acks k).inUse = true)
    (hr : (st.acks k).resource = r) : st.persistResourceBusy r = true := by
  simp only [St.persistResourceBusy, List.any_eq_true, List.mem_finRange, true_and]
  exact ⟨k, by simp [h, hr]⟩

/-- **The handler of a SetPassword.** -/
theorem passwordTurn {st : St} {frame : Bytes} (hreq : setPasswordReqUnpack frame = some req)
    (hroom : ∀ w path len, st.storeAsync = some w →
      ¬ (st.pendingAckAlloc = none ∨ (w.reserve path len).2 = .error .again)) (env : Env) (cl : Client) :
    PasswordTurn st (some (cl, frame)) cl req (st.handleSetPassword env frame cl) := by
  unfold St.handleSetPassword
  rw [hreq]
  dsimp only
  cases hlogin : st.checkLoginRequired env.now cl.ip with
  | error cause =>
    refine .refused (SameCore.refl st).around rfl rfl ?_ ?_
    all_goals
      unfold St.checkLoginRequired at hlogin
      split_ifs at hlogin <;> obtain rfl := Except.error.inj hlogin <;> simp
  | ok st₁ =>
    obtain ⟨rfl, -⟩ := checkLoginRequired_ok hlogin
    dsimp only
    split
    · exact .dropped ((around_sessionTouch _ _).trans (around_sessionTouch _ _)) rfl rfl
    next hidle =>
    have hidle : (st.sessionTouch env.now).persistResourceBusy .password = false := by
      simpa using hidle
    cases herr : (st.sessionTouch env.now).setPasswordError req with
    | some cause =>
      obtain ⟨hmis, hne⟩ := setPasswordError_some herr
      exact .refused (around_sessionTouch _ _) rfl rfl hmis hne
    | none =>
      have hdue := @passwordDue_of_error _ _ cl _ hreq herr
      obtain ⟨hlen, -⟩ := length_take_strnlen req.newPassword
      dsimp only
      cases hw : st.storeAsync with
      | none =>
        have hadm := @persistAdmit_sync (st.sessionTouch env.now) hw env.ready .password
          (st.sessionTouch env.now).paths.password (strnlen req.newPassword.toList 127)
        have hblob := @persistBlob_sync (st.sessionTouch env.now) hw
        have hcommit : (st.sessionTouch env.now).commitPassword env req cl none =
            ⟨{ (st.sessionTouch env.now).sessionTouch env.now with
                pw := st.pw.publish req.candidate env.write.outcome },
              [.write ⟨st.paths.password,
                req.newPassword.toList.take (strnlen req.newPassword.toList 127), 0o600, env.write⟩],
              if env.write.outcome = .durable then passwordAck cl resultOk Err.none
              else passwordAck cl resultNg Err.nvram⟩ := by
          simp only [St.commitPassword, St.persistPassword, take_candidate, hblob, Turn.bind,
            Bool.false_eq_true, if_false, St.emitAck, St.done, WriteResult.rc, passwordAck]
          by_cases hd : env.write.outcome = .durable <;>
            simp [hd, St.sessionTouch, SetPasswordReq.candidate]
        rw [hadm]
        refine .written (r := env.write) hw ?_ hdue ?_ ?_ ?_
        · simp only [Turn.bind_st, St.done_st, St.done_val, hcommit]
          exact ⟨rfl, rfl, rfl, rfl, rfl, rfl, rfl⟩
        · simp only [Turn.bind_out, St.done_st, St.done_val, St.done_out, hcommit, List.nil_append]
        · simp only [Turn.bind_st, St.done_st, St.done_val, hcommit]
        · simp only [Turn.bind_val, St.done_st, St.done_val, hcommit]
      | some w =>
        rcases @persistAdmit_cases (st.sessionTouch env.now) w hw env.ready .password
            st.paths.password (strnlen req.newPassword.toList 127) with
          hshort | ⟨hbusy, -⟩ | ⟨e, -, he⟩ | ⟨k, s, w₁, -, hk, hr, he⟩
        · exact absurd hshort (hroom w _ _ hw)
        · rw [hidle] at hbusy
          cases hbusy
        · have he' : (st.sessionTouch env.now).persistAdmit env.ready .password
              (st.sessionTouch env.now).paths.password (strnlen req.newPassword.toList 127) = _ := he
          rw [he']
          exact .unreserved (around_sessionTouch _ _) rfl rfl hidle hdue
        · have he' : (st.sessionTouch env.now).persistAdmit env.ready .password
              (st.sessionTouch env.now).paths.password (strnlen req.newPassword.toList 127) = _ := he
          obtain ⟨w₂, hsub⟩ := Writer.submitReserved_reserve hr hlen.le 0o600 k
          have hblob := persistBlob_queued ((st.sessionTouch env.now).setWriter w₁) rfl hk hsub
          rw [he']
          have hcommit : ((st.sessionTouch env.now).setWriter w₁).commitPassword env req cl (some s) =
              ⟨{ (((st.sessionTouch env.now).setWriter w₁).enqueue w₂ k .password false
                  Command.setPassword.id cl).sessionTouch env.now with
                  pw.pending := req.candidate },
                [.ackAlloc (some k), .defer k .password false Command.setPassword.id cl
                  (req.newPassword.toList.take (strnlen req.newPassword.toList 127))], []⟩ := by
            simp [St.commitPassword, St.persistPassword, take_candidate, hblob, Turn.bind, St.done,
              SetPasswordReq.candidate]
          refine .queued (s := s) (k := k) hidle hdue ?_ ?_ ?_ ?_ ?_
          · simp only [Turn.bind_out, hcommit, queuedOut]
          · simp only [Turn.bind_st, hcommit]
            rfl
          · simp only [Turn.bind_st, hcommit]
            rfl
          · simp only [Turn.bind_st, hcommit]
            exact busy_of_ack k (by simp [St.sessionTouch, St.enqueue])
              (by simp [St.sessionTouch, St.enqueue])
          · simp only [Turn.bind_val, hcommit]

end Opcd
