import Opcd.Radio.Request

/-!
# The handler of a SetIpConfigList

`ListTurn` lists what the handler comes to: refused, left unaccepted while a list is being written, refused by
the writer, entries that close no cycle, a list written in line, or one that is queued; `listTurn` is the
classification.
-/

namespace Opcd

open Bytes Protocol Store

/-- The bytes of an answer to a SetIpConfigList. -/
def listAck (cl : Client) (result cause : BitVec 16) : Bytes :=
  (setIpConfigListAckPack txCap cl.seq result cause).getD []

/-- The answer to entries that stopped with a cause, or were persisted or not. -/
def foldAck (cl : Client) (err : Option (BitVec 16)) (persisted : Bool) : Bytes :=
  listAck cl (St.ipListAck err persisted).1 (St.ipListAck err persisted).2

/-- What a list request never touches. -/
structure ListOnly (st st' : St) : Prop where
  conf : st'.conf = st.conf
  paths : st'.paths = st.paths
  loggedIn : st'.session.loggedIn = st.session.loggedIn
  generation : st'.session.generation = st.session.generation
  pw : st'.pw = st.pw
  rad : st'.rad = st.rad
  chg : st'.chg = st.chg

theorem SameCore.listOnly {st st' : St} (h : SameCore st st') : ListOnly st st' :=
  ⟨h.conf, h.paths, h.loggedIn, h.generation, h.pw, h.rad, h.chg⟩

theorem ListOnly.trans {st st' st'' : St} (h : ListOnly st st') (h' : ListOnly st' st'') :
    ListOnly st st'' :=
  ⟨h'.conf.trans h.conf, h'.paths.trans h.paths, h'.loggedIn.trans h.loggedIn,
    h'.generation.trans h.generation, h'.pw.trans h.pw, h'.rad.trans h.rad, h'.chg.trans h.chg⟩

/-- A list is being written for the client's request, or for another. -/
def St.listUnderWay (st : St) (cl : Client) : Prop :=
  st.persistResourceBusy .ipList = true ∨
    st.isRequestRetransmission Command.setIpConfigList.id cl.ip cl.port = true

/-- The effects of the admission of a list. -/
def St.listAdmission (st : St) (s : Option Slot) : List Effect :=
  (s.map fun s => .reserve st.paths.ipList (.ok s)).toList

/-- The slot that a queued list is acknowledged from. -/
def listPending (cl : Client) (noAck : Bool) : PendingAck :=
  { inUse := true, noAck, resource := .ipList, reqId := Command.setIpConfigList.id, seq := cl.seq
    radioGen := 0, clientIp := cl.ip, clientPort := cl.port }

/-- What the handler of a SetIpConfigList comes to; `f` and `err` are what its entries lead to. -/
inductive ListTurn (st : St) (env : Env) (cl : Client) (f : St.Fold) (err : Option (BitVec 16))
    (t : Turn Bytes) : Prop
  /-- the client does not hold the session -/
  | refused {cause : BitVec 16} (outsider : st.sessionOwns cl.ip = false) (same : SameCore st t.st)
      (hout : t.out = []) (hval : t.val = listAck cl resultNg cause)
  /-- a list is being written -/
  | dropped (busy : st.listUnderWay cl) (same : SameCore st t.st) (hout : t.out = []) (hval : t.val = [])
  /-- the writer does not take the path -/
  | unreserved {e : SubmitError} (same : SameCore st t.st)
      (hout : t.out = [.reserve st.paths.ipList (.error e)])
      (hval : t.val = listAck cl resultNg Err.nvram)
      (why : ∃ w, st.storeAsync = some w ∧ (w.reserve st.paths.ipList IpList.textMax).2 = .error e)
  /-- no cycle is closed -/
  | staged {s : Option Slot} (owns : st.sessionOwns cl.ip = true)
      (idle : st.storeAsync = none ∨ st.persistResourceBusy .ipList = false)
      (unclosed : f.committed = false) (only : ListOnly st t.st) (acks : t.st.acks = st.acks)
      (hipl : t.st.ipl = { st.ipl with staging := f.staging, stagingActive := f.active })
      (hout : t.out = st.listAdmission s) (hval : t.val = foldAck cl err true)
  /-- a write in line that left the file as it was -/
  | unwritten (sync : st.storeAsync = none) (owns : st.sessionOwns cl.ip = true)
      (closed : f.committed = true) (hr : env.write.outcome = .unchanged) (only : ListOnly st t.st)
      (acks : t.st.acks = st.acks) (hipl : t.st.ipl = st.ipl)
      (hout : t.out = [.write ⟨st.paths.ipList, IpList.listText f.candidate, 0o644, env.write⟩])
      (hval : t.val = foldAck cl err false)
  | written (sync : st.storeAsync = none) (owns : st.sessionOwns cl.ip = true)
      (closed : f.committed = true) (hr : env.write.outcome ≠ .unchanged) (only : ListOnly st t.st)
      (acks : t.st.acks = st.acks) (hipl : t.st.ipl = st.ipl.publish f)
      (hout : t.out = .write ⟨st.paths.ipList, IpList.listText f.candidate, 0o644, env.write⟩ ::
        st.paths.writeUser f.candidate env.mirror)
      (hval : t.val = foldAck cl err (env.write.outcome = .durable))
  | queued {s : Slot} {k : AckIdx} (owns : st.sessionOwns cl.ip = true)
      (idle : st.persistResourceBusy .ipList = false) (closed : f.committed = true)
      (alloc : st.pendingAckAlloc = some k) (only : ListOnly st t.st)
      (acks : t.st.acks = Function.update st.acks k (listPending cl err.isSome))
      (hipl : t.st.ipl = st.ipl.pend f st.session.generation)
      (hout : t.out = queuedOut .ipList st.paths.ipList (IpList.listText f.candidate) err.isSome
        Command.setIpConfigList.id cl s k [])
      (hval : t.val = if err.isSome then foldAck cl err true else [])

/-! ## Admitted entries -/

section Entries

variable {st : St} {env : Env} {cl : Client} {es : List (Entry × Bool)} {f : St.Fold}
  {err : Option (BitVec 16)}

/-- Entries that close no cycle. -/
theorem applyEntries_unclosed (hf : st.folded es = (f, err)) (hc : f.committed = false) (s : Option Slot) :
    st.applyEntries env es cl s =
      ⟨{ st.sessionTouch env.now with
          ipl.staging := f.staging, ipl.stagingActive := f.active }.cancelReservation s, [],
        foldAck cl err true⟩ := by
  unfold St.applyEntries
  rw [hf]
  simp [hc, foldAck, listAck, St.emitAck, St.done]

/-- A write in line. -/
theorem applyEntries_sync (h : st.storeAsync = none) (hf : st.folded es = (f, err)) (hc : f.committed = true) :
    st.applyEntries env es cl none =
      if env.write.outcome = .unchanged then
        ⟨st.sessionTouch env.now, [.write ⟨st.paths.ipList, IpList.listText f.candidate, 0o644, env.write⟩],
          foldAck cl err false⟩
      else
        ⟨{ st.sessionTouch env.now with ipl := st.ipl.publish f },
          .write ⟨st.paths.ipList, IpList.listText f.candidate, 0o644, env.write⟩ ::
            st.paths.writeUser f.candidate env.mirror,
          foldAck cl err (env.write.outcome = .durable)⟩ := by
  have hblob := @persistBlob_sync (st.sessionTouch env.now) h
  have hmirror := @iplistMirrorUser_sync { st.sessionTouch env.now with ipl := st.ipl.publish f } h
    env.mirror
  have hpublish : { st.sessionTouch env.now with
      ipl.list := f.candidate, ipl.staging := f.staging, ipl.stagingActive := f.active } =
      { st.sessionTouch env.now with ipl := st.ipl.publish f } := rfl
  unfold St.applyEntries
  rw [hf]
  simp only [hc, if_true, St.commitIpList, St.persistIpList, IpList.textFormat_eq, hblob, Turn.bind,
    Bool.false_eq_true, if_false, hpublish, hmirror, St.iplistWriteUser_eq]
  by_cases ho : env.write.outcome = .unchanged
  · simp [ho, WriteResult.rc, foldAck, listAck, St.emitAck, St.done]
    rfl
  · rw [if_pos ho, if_neg ho]
    simp [foldAck, listAck, St.emitAck, St.done, rc_eq_zero_iff]
    exact ⟨rfl, rfl⟩

/-- A write that the writer takes. -/
theorem applyEntries_queued {w₁ w₂ : Writer} {k : AckIdx} {s : Slot} (hw : st.storeAsync = some w₁)
    (hk : st.pendingAckAlloc = some k)
    (hsub : w₁.submitReserved (some s) (IpList.listText f.candidate) 0o644 k = (w₂, .ok ()))
    (hf : st.folded es = (f, err)) (hc : f.committed = true) :
    st.applyEntries env es cl (some s) =
      ⟨{ (st.sessionTouch env.now).enqueue w₂ k .ipList err.isSome Command.setIpConfigList.id cl with
          ipl := st.ipl.pend f st.session.generation },
        [.ackAlloc (some k), .defer k .ipList err.isSome Command.setIpConfigList.id cl
          (IpList.listText f.candidate)],
        if err.isSome then foldAck cl err true else []⟩ := by
  have hblob := persistBlob_queued (st.sessionTouch env.now) hw hk hsub
  unfold St.applyEntries
  rw [hf]
  simp only [hc, if_true, St.commitIpList, St.persistIpList, IpList.textFormat_eq, hblob, Turn.bind]
  cases err with
  | none => simp [St.done]; rfl
  | some cause => simp [St.emitAck, St.done, foldAck, listAck]; rfl

/-- Entries with no writer. -/
theorem listTurn_sync (h : st.storeAsync = none) (owns : st.sessionOwns cl.ip = true)
    (hf : st.folded es = (f, err)) : ListTurn st env cl f err (st.applyEntries env es cl none) := by
  cases hc : f.committed with
  | true =>
    rw [applyEntries_sync h hf hc]
    by_cases ho : env.write.outcome = .unchanged
    · rw [if_pos ho]
      exact .unwritten h owns hc ho ⟨rfl, rfl, rfl, rfl, rfl, rfl, rfl⟩ rfl rfl rfl rfl
    · rw [if_neg ho]
      exact .written h owns hc ho ⟨rfl, rfl, rfl, rfl, rfl, rfl, rfl⟩ rfl rfl rfl rfl
  | false =>
    have hcancel : { st.sessionTouch env.now with
        ipl.staging := f.staging, ipl.stagingActive := f.active }.cancelReservation none =
        { st.sessionTouch env.now with ipl.staging := f.staging, ipl.stagingActive := f.active } := by
      simp [St.cancelReservation, St.sessionTouch, h]
    rw [applyEntries_unclosed hf hc, hcancel]
    exact .staged (s := none) owns (.inl h) hc ⟨rfl, rfl, rfl, rfl, rfl, rfl, rfl⟩ rfl rfl rfl rfl

/-- Entries with room in the writer. -/
theorem listTurn_queued {w w₁ : Writer} {k : AckIdx} {s : Slot} (owns : st.sessionOwns cl.ip = true)
    (hidle : st.persistResourceBusy .ipList = false) (hk : st.pendingAckAlloc = some k)
    (hr : w.reserve st.paths.ipList IpList.textMax = (w₁, .ok s)) (hf : st.folded es = (f, err)) :
    ListTurn st env cl f err
      ((⟨st.setWriter w₁, [.reserve st.paths.ipList (.ok s)], ()⟩ : Turn Unit).bind fun st _ =>
        st.applyEntries env es cl (some s)) := by
  have hf' : (st.setWriter w₁).folded es = (f, err) := hf
  cases hc : f.committed with
  | true =>
    have hlen : (IpList.listText f.candidate).length ≤ IpList.textMax :=
      (IpList.length_listText _).trans (by decide)
    obtain ⟨w₂, hsub⟩ := Writer.submitReserved_reserve hr hlen 0o644 k
    have hk' : (st.setWriter w₁).pendingAckAlloc = some k := hk
    rw [Turn.bind]
    dsimp only
    rw [applyEntries_queued rfl hk' hsub hf' hc]
    exact .queued (s := s) (k := k) owns hidle hc hk ⟨rfl, rfl, rfl, rfl, rfl, rfl, rfl⟩ rfl rfl rfl rfl
  | false =>
    obtain ⟨w', hcancel⟩ := cancelReservation_eq
      { (st.setWriter w₁).sessionTouch env.now with
        ipl.staging := f.staging, ipl.stagingActive := f.active } (some s)
    rw [Turn.bind]
    dsimp only
    rw [applyEntries_unclosed hf' hc, hcancel]
    exact .staged (s := some s) owns (.inr hidle) hc ⟨rfl, rfl, rfl, rfl, rfl, rfl, rfl⟩ rfl rfl rfl rfl

end Entries

/-- The clock of the session does not matter. -/
theorem ListTurn.touched {st : St} {env : Env} {cl : Client} {f : St.Fold} {err : Option (BitVec 16)}
    {t : Turn Bytes} (now : Nat) (h : ListTurn (st.sessionTouch now) env cl f err t) :
    ListTurn st env cl f err t := by
  have same := SameCore.sessionTouch st now
  cases h with
  | refused outsider same' hout hval => exact .refused outsider (same.trans same') hout hval
  | dropped busy same' hout hval => exact .dropped busy (same.trans same') hout hval
  | unreserved same' hout hval why => exact .unreserved (same.trans same') hout hval why
  | staged owns idle unclosed only acks hipl hout hval =>
    exact .staged owns idle unclosed (same.listOnly.trans only) acks hipl hout hval
  | unwritten sync owns closed hr only acks hipl hout hval =>
    exact .unwritten sync owns closed hr (same.listOnly.trans only) acks hipl hout hval
  | written sync owns closed hr only acks hipl hout hval =>
    exact .written sync owns closed hr (same.listOnly.trans only) acks hipl hout hval
  | queued owns idle closed alloc only acks hipl hout hval =>
    exact .queued owns idle closed alloc (same.listOnly.trans only) acks hipl hout hval

theorem checkLoginRequired_owner {st : St} {ip : BitVec 32} (h : st.sessionOwns ip = true) (now : Nat) :
    st.checkLoginRequired now ip = .ok (st.sessionTouch now) := by
  have hin : st.session.loggedIn = true := (of_decide_eq_true h).1
  simp [St.checkLoginRequired, hin, h]

/-- **The handler of a SetIpConfigList.** -/
theorem listTurn {st : St} {frame : Bytes} {es : List (Entry × Bool)} (hes : setIpConfigListReqUnpack frame = .ok es)
    (hroom : ∀ w path len, st.storeAsync = some w →
      ¬ (st.pendingAckAlloc = none ∨ (w.reserve path len).2 = .error .again))
    (env : Env) (cl : Client) {f : St.Fold} {err : Option (BitVec 16)} (hf : st.folded es = (f, err)) :
    ListTurn st env cl f err (st.handleSetIpConfigList env frame cl) := by
  unfold St.handleSetIpConfigList
  rw [hes]
  dsimp only
  cases hlogin : st.checkLoginRequired env.now cl.ip with
  | error cause =>
    refine .refused ?_ (SameCore.refl st) rfl rfl
    cases hown : st.sessionOwns cl.ip with
    | false => rfl
    | true => rw [checkLoginRequired_owner hown] at hlogin; cases hlogin
  | ok st₁ =>
    have howns : st.sessionOwns cl.ip = true := by
      unfold St.checkLoginRequired at hlogin
      by_contra hno
      rw [if_pos hno] at hlogin
      split at hlogin <;> cases hlogin
    obtain ⟨rfl, -⟩ := checkLoginRequired_ok hlogin
    have hagain : SameCore st ((st.sessionTouch env.now).sessionTouch env.now) :=
      (SameCore.sessionTouch st env.now).trans (SameCore.sessionTouch _ env.now)
    dsimp only
    split
    next hre => exact .dropped (.inr hre) hagain rfl rfl
    refine ListTurn.touched env.now ?_
    cases hw : st.storeAsync with
    | none =>
      rw [@persistAdmit_sync (st.sessionTouch env.now) hw]
      exact @listTurn_sync (st.sessionTouch env.now) env cl es f err hw howns hf
    | some w =>
      rcases @persistAdmit_cases (st.sessionTouch env.now) w hw env.ready .ipList
          (st.sessionTouch env.now).paths.ipList IpList.textMax with
        hshort | ⟨hbusy, he⟩ | ⟨e, ⟨-, hr⟩, he⟩ | ⟨k, s, w₁, hidle, hk, hr, he⟩
      · exact absurd hshort (hroom w _ _ hw)
      · rw [he]
        exact .dropped (.inl hbusy) (SameCore.sessionTouch _ env.now) rfl rfl
      · rw [he]
        exact .unreserved (e := e) (SameCore.refl _) rfl rfl ⟨w, hw, hr⟩
      · rw [he]
        exact @listTurn_queued (st.sessionTouch env.now) env cl es f err w w₁ k s howns hidle hk hr hf

/-- A request that the writer refuses does nothing else. -/
theorem ListTurn.refusal {st : St} {env : Env} {cl : Client} {f : St.Fold} {err : Option (BitVec 16)} {t : Turn Bytes}
    (h : ListTurn st env cl f err t) {e : SubmitError} (he : .reserve st.paths.ipList (.error e) ∈ t.out) :
    SameCore st t.st ∧ t.out = [.reserve st.paths.ipList (.error e)] ∧
      ∃ w, st.storeAsync = some w ∧ (w.reserve st.paths.ipList IpList.textMax).2 = .error e := by
  cases h with
  | refused outsider same hout => simp [hout] at he
  | dropped busy same hout => simp [hout] at he
  | unreserved same hout hval why =>
    rw [hout, List.mem_singleton] at he
    cases he
    exact ⟨same, hout, why⟩
  | @staged s owns idle unclosed only acks hipl hout =>
    rw [hout] at he
    cases s <;> simp [St.listAdmission] at he
  | unwritten sync owns closed hr only acks hipl hout => simp [hout] at he
  | written sync owns closed hr only acks hipl hout =>
    rw [hout] at he
    unfold Paths.writeUser at he
    split at he
    · simp at he
    · split at he
      · split at he <;> simp at he
      · simp at he
  | queued owns idle closed alloc only acks hipl hout => simp [hout, queuedOut] at he

end Opcd
