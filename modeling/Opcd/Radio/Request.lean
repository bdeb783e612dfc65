import Opcd.Daemon.Serve

/-!
# The handler of a SetRadioConfig

`RadioTurn` lists what the handler comes to: refused, left unaccepted, answered from the committed
configuration, or gone through with. A request that is gone through with shows in the marker, is applied
and is written, in line or by the writer; `radioTurn` is the classification.
-/

namespace Opcd

open Bytes Protocol Store

/-- The bytes of an answer to a SetRadioConfig. -/
def radioAck (cl : Client) (result cause : BitVec 16) : Bytes :=
  (setRadioConfigAckPack txCap cl.seq result cause).getD []

/-- What a radio request never touches. -/
structure RadioOnly (st st' : St) : Prop where
  conf : st'.conf = st.conf
  paths : st'.paths = st.paths
  loggedIn : st'.session.loggedIn = st.session.loggedIn
  generation : st'.session.generation = st.session.generation
  pw : st'.pw = st.pw
  ipl : st'.ipl = st.ipl
  chg : st'.chg = st.chg

theorem SameCore.radioOnly {st st' : St} (h : SameCore st st') : RadioOnly st st' :=
  ⟨h.conf, h.paths, h.loggedIn, h.generation, h.pw, h.ipl, h.chg⟩

/-- The effects of the admission of a radio write. -/
def St.radioAdmission (st : St) (s : Option Slot) : List Effect :=
  (s.map fun s => .reserve st.paths.radio (.ok s)).toList

/-- What the handler of a SetRadioConfig comes to. -/
inductive RadioTurn (st : St) (env : Env) (src : Source) (cl : Client) (req : RadioConfig)
    (t : Turn Bytes) : Prop
  | refused {cause : BitVec 16} (same : SameCore st t.st) (hout : t.out = [])
      (hval : t.val = radioAck cl resultNg cause)
  /-- a radio configuration is being written -/
  | dropped (busy : st.persistResourceBusy .radio = true) (same : SameCore st t.st) (hout : t.out = [])
      (hval : t.val = [])
  /-- the request is what was committed -/
  | answered (committed : st.rad.committed = true) (equal : radioCfgDiffers req st.rad.radio = false)
      (same : SameCore st t.st) (hout : t.out = []) (hval : t.val = radioAck cl resultOk Err.none)
  /-- the writer does not take the path -/
  | unreserved {e : SubmitError} (due : RadioDue src st.rad cl req) (same : SameCore st t.st)
      (hout : t.out = [.reserve st.paths.radio (.error e)])
      (hval : t.val = radioAck cl resultNg Err.nvram)
  | unarmed {s : Option Slot} (due : RadioDue src st.rad cl req)
      (failed : ¬ st.MarkerArmed env.marker) (only : RadioOnly st t.st) (acks : t.st.acks = st.acks)
      (hrad : t.st.rad = st.rad)
      (hout : t.out = st.radioAdmission s ++ st.paths.armMarker env.marker req)
      (hval : t.val = radioAck cl resultNg Err.nvram)
  | failed {s : Option Slot} {live : Option RadioConfig} (due : RadioDue src st.rad cl req)
      (armed : st.MarkerArmed env.marker) (happly : env.applyRadio = .failed live)
      (only : RadioOnly st t.st) (acks : t.st.acks = st.acks) (hrad : t.st.rad = st.rad.refused req)
      (hout : t.out = st.radioAdmission s ++ st.paths.armMarker env.marker req ++
        [.applyRadio req (.failed live)])
      (hval : t.val = radioAck cl resultNg Err.radioApply)
  | written (sync : st.storeAsync = none) (due : RadioDue src st.rad cl req)
      (armed : st.MarkerArmed env.marker) (happly : env.applyRadio = .ok)
      (only : RadioOnly st t.st) (acks : t.st.acks = st.acks)
      (hrad : t.st.rad =
        (st.rad.applied req).written st.rad (radioBaselineCovers st.rad req) env.write.outcome)
      (hout : t.out = st.paths.armMarker env.marker req ++
        [.applyRadio req .ok, .write ⟨st.paths.radio, rawRadio req, 0o644, env.write⟩] ++
        if env.write.outcome = .durable then st.paths.clearMarker env.unlink else [])
      (hval : t.val = if env.write.outcome = .durable then radioAck cl resultOk Err.none
        else radioAck cl resultNg Err.nvram)
  | queued {s : Slot} {k : AckIdx} (idle : st.persistResourceBusy .radio = false)
      (due : RadioDue src st.rad cl req) (armed : st.MarkerArmed env.marker)
      (happly : env.applyRadio = .ok) (only : RadioOnly st t.st) (hrad : t.st.rad = st.rad.pend req)
      (hout : t.out = queuedOut .radio st.paths.radio (rawRadio req) false Command.setRadioConfig.id cl
        s k (st.paths.armMarker env.marker req ++ [.applyRadio req .ok]))
      (hval : t.val = [])

/-! ## A request that is gone through with -/

section Apply

variable {st : St} {env : Env} {req : RadioConfig} {cl : Client}

theorem cancelReservation_eq (st : St) (s : Option Slot) :
    ∃ w, st.cancelReservation s = { st with storeAsync := w } := by
  unfold St.cancelReservation
  split
  · exact ⟨_, rfl⟩
  · exact ⟨_, rfl⟩

theorem applyRadio_unarmed (s : Option Slot) (h : ¬ st.MarkerArmed env.marker) :
    st.applyRadio env req cl s = ⟨(st.cancelReservation s).sessionTouch env.now, st.paths.armMarker env.marker req,
        radioAck cl resultNg Err.nvram⟩ := by
  have harm : (st.radioTxnArm env.marker req).2 = false := by
    simpa using fun e => h ((radioTxnArm_snd st env.marker req).mp e)
  unfold St.applyRadio
  simp [harm, Turn.bind, radioAck, St.emitAck, St.done, St.radioTxnArm_fst]

theorem applyRadio_failed (s : Option Slot) (h : st.MarkerArmed env.marker)
    {live : Option RadioConfig} (happly : env.applyRadio = .failed live) :
    st.applyRadio env req cl s =
      ⟨{ st.cancelReservation s with rad := st.rad.refused req }.sessionTouch env.now,
        st.paths.armMarker env.marker req ++ [.applyRadio req (.failed live)],
        radioAck cl resultNg Err.radioApply⟩ := by
  have harm := (radioTxnArm_snd st env.marker req).mpr h
  obtain ⟨w, hw⟩ := cancelReservation_eq st s
  unfold St.applyRadio RadioState.refused
  by_cases hd : radioCfgDiffers req st.rad.radio = true <;>
    simp [harm, happly, hw, hd, Turn.bind, radioAck, St.emitAck, St.done, St.radioTxnArm_fst]

theorem applyRadio_ok (s : Option Slot) (h : st.MarkerArmed env.marker) (happly : env.applyRadio = .ok) :
    st.applyRadio env req cl s =
      (⟨st, st.paths.armMarker env.marker req ++ [.applyRadio req .ok], ()⟩ : Turn Unit).bind fun _ _ =>
        (st.radioApplied req).commitRadio env st.rad (radioBaselineCovers st.rad req) cl s := by
  have harm := (radioTxnArm_snd st env.marker req).mpr h
  unfold St.applyRadio
  simp [harm, happly, Turn.bind, St.radioTxnArm_fst]

/-- The answer to a request whose write was made in line. -/
theorem commitRadio_sync_val (h : st.storeAsync = none) (base : RadioState) (valid : Bool) :
    (st.commitRadio env base valid cl none).val =
      if env.write.outcome = .durable then radioAck cl resultOk Err.none
      else radioAck cl resultNg Err.nvram := by
  unfold St.commitRadio St.persistRadio
  rw [persistBlob_sync h]
  cases ho : env.write.outcome <;> simp [WriteResult.rc, ho, radioAck, St.emitAck, St.done]

/-- A request whose write was queued is not answered yet. -/
theorem commitRadio_queued_val {w₁ w₂ : Writer} {k : AckIdx} {s : Slot} (hw : st.storeAsync = some w₁)
    (hk : st.pendingAckAlloc = some k)
    (hsub : w₁.submitReserved (some s) (rawRadio st.rad.radio) 0o644 k = (w₂, .ok ()))
    (base : RadioState) (valid : Bool) : (st.commitRadio env base valid cl (some s)).val = [] := by
  unfold St.commitRadio St.persistRadio
  rw [persistBlob_queued st hw hk hsub]
  simp

variable {src : Source}

/-- A request whose write needs no writer. -/
theorem radioTurn_sync (h : st.storeAsync = none) (hdue : RadioDue src st.rad cl req) :
    RadioTurn st env src cl req (st.applyRadio env req cl none) := by
  have hcancel : st.cancelReservation none = st := by simp [St.cancelReservation, h]
  by_cases harm : st.MarkerArmed env.marker
  · cases happly : env.applyRadio with
    | failed live =>
      rw [applyRadio_failed none harm happly, hcancel]
      exact .failed (s := none) hdue harm happly ⟨rfl, rfl, rfl, rfl, rfl, rfl, rfl⟩ rfl rfl rfl rfl
    | ok =>
      obtain ⟨hout, hst⟩ := @commitRadio_sync (st.radioApplied req) h env st.rad
        (radioBaselineCovers st.rad req) cl
      rw [applyRadio_ok none harm happly]
      refine .written h hdue harm happly ?_ ?_ ?_ ?_ ?_
      · rw [Turn.bind_st, hst]
        exact ⟨rfl, rfl, rfl, rfl, rfl, rfl, rfl⟩
      · rw [Turn.bind_st, hst]
        rfl
      · rw [Turn.bind_st, hst]
        rfl
      · rw [Turn.bind_out, hout, St.radioTxnClear_eq]
        simp only [List.append_assoc, List.cons_append, List.nil_append]
        rfl
      · rw [Turn.bind_val]
        exact @commitRadio_sync_val (st.radioApplied req) env cl h _ _
  · rw [applyRadio_unarmed none harm, hcancel]
    exact .unarmed (s := none) hdue harm ⟨rfl, rfl, rfl, rfl, rfl, rfl, rfl⟩ rfl rfl rfl rfl

/-- A request whose write the writer takes. -/
theorem radioTurn_queued {w w₁ : Writer} {k : AckIdx} {s : Slot}
    (hidle : st.persistResourceBusy .radio = false) (hk : st.pendingAckAlloc = some k)
    (hr : w.reserve st.paths.radio radioConfLen = (w₁, .ok s)) (hdue : RadioDue src st.rad cl req) :
    RadioTurn st env src cl req
      ((⟨st.setWriter w₁, [.reserve st.paths.radio (.ok s)], ()⟩ : Turn Unit).bind fun st _ =>
        st.applyRadio env req cl (some s)) := by
  obtain ⟨w', hcancel⟩ := cancelReservation_eq (st.setWriter w₁) (some s)
  by_cases harm : st.MarkerArmed env.marker
  · have harm' : (st.setWriter w₁).MarkerArmed env.marker := harm
    cases happly : env.applyRadio with
    | failed live =>
      simp only [applyRadio_failed (some s) harm' happly, hcancel, Turn.bind]
      exact .failed (s := some s) hdue harm happly ⟨rfl, rfl, rfl, rfl, rfl, rfl, rfl⟩ rfl rfl rfl rfl
    | ok =>
      have hlen : (rawRadio req).length ≤ radioConfLen := (length_rawRadio req).le
      obtain ⟨w₂, hsub⟩ := Writer.submitReserved_reserve hr hlen 0o644 k
      obtain ⟨hout, hst⟩ := @commitRadio_queued ((st.setWriter w₁).radioApplied req) w₁ w₂ k s rfl hk
        hsub env st.rad (radioBaselineCovers st.rad req) cl
        ((st.radioApplied req).enqueue w₂ k .radio false Command.setRadioConfig.id cl) rfl
      rw [Turn.bind]
      dsimp only
      rw [applyRadio_ok (some s) harm' happly]
      refine .queued (s := s) (k := k) hidle hdue harm happly ?_ ?_ ?_ ?_
      · dsimp only [Turn.bind_st]
        rw [show (st.setWriter w₁).rad = st.rad from rfl, hst]
        exact ⟨rfl, rfl, rfl, rfl, rfl, rfl, rfl⟩
      · dsimp only [Turn.bind_st]
        rw [show (st.setWriter w₁).rad = st.rad from rfl, hst]
        rfl
      · dsimp only [Turn.bind_out]
        rw [show (st.setWriter w₁).rad = st.rad from rfl, hout]
        simp only [queuedOut, List.append_assoc, List.cons_append, List.nil_append]
        rfl
      · exact @commitRadio_queued_val ((st.setWriter w₁).radioApplied req) env cl w₁ w₂ k s rfl hk hsub _ _
  · have harm' : ¬ (st.setWriter w₁).MarkerArmed env.marker := harm
    simp only [applyRadio_unarmed (some s) harm', hcancel, Turn.bind]
    exact .unarmed (s := some s) hdue harm ⟨rfl, rfl, rfl, rfl, rfl, rfl, rfl⟩ rfl rfl rfl rfl

end Apply

theorem RadioOnly.trans {st st' st'' : St} (h : RadioOnly st st') (h' : RadioOnly st' st'') :
    RadioOnly st st'' :=
  ⟨h'.conf.trans h.conf, h'.paths.trans h.paths, h'.loggedIn.trans h.loggedIn,
    h'.generation.trans h.generation, h'.pw.trans h.pw, h'.ipl.trans h.ipl, h'.chg.trans h.chg⟩

/-- The clock of the session does not matter. -/
theorem RadioTurn.touched {st : St} {env : Env} {src : Source} {cl : Client} {req : RadioConfig}
    {t : Turn Bytes} (now : Nat) (h : RadioTurn (st.sessionTouch now) env src cl req t) :
    RadioTurn st env src cl req t := by
  have same := SameCore.sessionTouch st now
  cases h with
  | refused same' hout hval => exact .refused (same.trans same') hout hval
  | dropped busy same' hout hval => exact .dropped busy (same.trans same') hout hval
  | answered committed equal same' hout hval =>
    exact .answered committed equal (same.trans same') hout hval
  | unreserved due same' hout hval => exact .unreserved due (same.trans same') hout hval
  | unarmed due failed only acks hrad hout hval =>
    exact .unarmed due failed (same.radioOnly.trans only) acks hrad hout hval
  | failed due armed happly only acks hrad hout hval =>
    exact .failed due armed happly (same.radioOnly.trans only) acks hrad hout hval
  | written sync due armed happly only acks hrad hout hval =>
    exact .written sync due armed happly (same.radioOnly.trans only) acks hrad hout hval
  | queued idle due armed happly only hrad hout hval =>
    exact .queued idle due armed happly (same.radioOnly.trans only) hrad hout hval

/-- **The handler of a SetRadioConfig.** -/
theorem radioTurn {st : St} {frame : Bytes} {req : RadioConfig} (hreq : setRadioConfigReqUnpack frame = some req)
    (hroom : ∀ w path len, st.storeAsync = some w →
      ¬ (st.pendingAckAlloc = none ∨ (w.reserve path len).2 = .error .again)) (env : Env) (cl : Client) :
    RadioTurn st env (some (cl, frame)) cl req (st.handleSetRadioConfig env frame cl) := by
  unfold St.handleSetRadioConfig
  rw [hreq]
  dsimp only
  cases hlogin : st.checkLoginRequired env.now cl.ip with
  | error cause => exact .refused (SameCore.refl st) rfl rfl
  | ok st₁ =>
    obtain ⟨rfl, -⟩ := checkLoginRequired_ok hlogin
    have htouch := SameCore.sessionTouch st env.now
    have hagain : SameCore st ((st.sessionTouch env.now).sessionTouch env.now) :=
      htouch.trans (SameCore.sessionTouch _ env.now)
    dsimp only
    split
    next hbusy => exact .dropped hbusy hagain rfl rfl
    next hidle =>
    have hidle : (st.sessionTouch env.now).persistResourceBusy .radio = false := by simpa using hidle
    cases herr : St.setRadioError env req with
    | some cause => exact .refused htouch rfl rfl
    | none =>
      dsimp only
      split
      next hneed => exact .answered hneed.1 (Bool.eq_false_of_not_eq_true hneed.2) hagain rfl rfl
      next hneed =>
      have hdue : RadioDue (some (cl, frame)) st.rad cl req := ⟨⟨frame, rfl, hreq⟩, ⟨env, herr⟩, hneed⟩
      refine RadioTurn.touched env.now ?_
      cases hw : st.storeAsync with
      | none =>
        rw [@persistAdmit_sync (st.sessionTouch env.now) hw]
        exact @radioTurn_sync (st.sessionTouch env.now) env req cl (some (cl, frame)) hw hdue
      | some w =>
        rcases @persistAdmit_cases (st.sessionTouch env.now) w hw env.ready .radio
            (st.sessionTouch env.now).paths.radio radioConfLen with
          hshort | ⟨hbusy, -⟩ | ⟨e, -, he⟩ | ⟨k, s, w₁, -, hk, hr, he⟩
        · exact absurd hshort (hroom w _ _ hw)
        · rw [hidle] at hbusy
          cases hbusy
        · rw [he]
          exact .unreserved (e := e) hdue (SameCore.refl _) rfl rfl
        · rw [he]
          exact @radioTurn_queued (st.sessionTouch env.now) env req cl (some (cl, frame)) w w₁ k s hidle hk hr hdue

end Opcd
