import Opcd.Lib.Period
import Opcd.Indication.Congestion

/-!
# The boundaries of a reporting period

`opcd_ind_tick_elapsed` and `opcd_fault_probe_due` count the seconds that the timer reports, however many at a
time, up to a period. Both are the counter of `Lib.Period`: the first while one configuration is in force, whatever
else happens in between.

* `tick_period`: a tick advances the counter by the rule of a period, and ends it by a flush.
* `run_period`: any inputs under one configuration.
* `tickWord_eq`, `dueWord_eq`: the 32-bit arithmetic of the source does not overflow.
* `period_boundaries`: the bounds on the flushes.
-/

namespace Opcd

open Bytes Protocol Fault

/-- The end of a reporting period. -/
def Event.isBoundary : Event → Bool
  | .boundary => true
  | _ => false

/-- A KeepAlive that is sent. -/
def Event.isKeepAlive : Event → Bool
  | .sent d => d.notice.kind = .keepAlive
  | _ => false

namespace Indication

/-! ## What leaves the period alone -/

/-- The settings that the period depends on, and its counter, did not change. -/
structure SamePace (ind ind' : Indication) : Prop where
  enabled : ind'.enabled = ind.enabled
  infoBits : ind'.infoBits = ind.infoBits
  periodS : ind'.periodS = ind.periodS
  tickCounter : ind'.tickCounter = ind.tickCounter

variable (ind : Indication) (sends : Sends)

theorem SamePace.refl : SamePace ind ind := ⟨rfl, rfl, rfl, rfl⟩

theorem SamePace.trans {ind ind' ind'' : Indication} (h : SamePace ind ind') (h' : SamePace ind' ind'') :
    SamePace ind ind'' :=
  ⟨h'.enabled.trans h.enabled, h'.infoBits.trans h.infoBits, h'.periodS.trans h.periodS,
    h'.tickCounter.trans h.tickCounter⟩

/-- A sender with `b` boundaries and no more than `k` KeepAlives. -/
structure Beats (ind : Indication) (t : Told) (b k : Nat) : Prop where
  same : SamePace ind t.ind
  boundary : t.out.countP Event.isBoundary = b
  keepAlive : t.out.countP Event.isKeepAlive ≤ k

/-- A sender that is neither a boundary nor a KeepAlive. -/
abbrev Offbeat (ind : Indication) (t : Told) : Prop := Beats ind t 0 0

theorem SamePace.offbeat {ind ind' : Indication} (h : SamePace ind ind') : Offbeat ind ind'.still :=
  ⟨h, rfl, le_rfl⟩

theorem offbeat_still : Offbeat ind ind.still := (SamePace.refl ind).offbeat

/-- What is neither, and then something else. -/
theorem Beats.bind {ind : Indication} {t : Told} {f : Indication → Told} {b k : Nat} (h : Offbeat ind t)
    (hf : Beats t.ind (f t.ind) b k) : Beats ind (t.bind f) b k := by
  have hkeep : t.out.countP Event.isKeepAlive = 0 := Nat.le_zero.mp h.keepAlive
  refine ⟨h.same.trans hf.same, ?_, ?_⟩
  · rw [Told.bind_out, List.countP_append, h.boundary, hf.boundary, Nat.zero_add]
  · rw [Told.bind_out, List.countP_append, hkeep, Nat.zero_add]
    exact hf.keepAlive

/-- It is so from a state of the same pace. -/
theorem Beats.after {ind ind' : Indication} {t : Told} {b k : Nat} (h : Beats ind' t b k)
    (hs : SamePace ind ind') : Beats ind t b k :=
  ⟨hs.trans h.same, h.boundary, h.keepAlive⟩

theorem offbeat_each {α : Type} {f : Indication → α → Told} (hf : ∀ ind a, Offbeat ind (f ind a))
    (ind : Indication) (as : List α) : Offbeat ind (ind.each f as) := by
  induction as generalizing ind with
  | nil => exact offbeat_still ind
  | cons a as ih => exact Beats.bind (f := fun ind => ind.each f as) (hf ind a) (ih _)

theorem beats_emit (n : Notice) :
    Beats ind (ind.emit sends n) 0 (if n.kind = .keepAlive then 1 else 0) := by
  rw [emit_eq]
  split
  · refine ⟨⟨rfl, rfl, rfl, rfl⟩, rfl, ?_⟩
    by_cases hk : n.kind = .keepAlive <;> simp [Event.isKeepAlive, hk]
  · exact ⟨⟨rfl, rfl, rfl, rfl⟩, rfl, Nat.zero_le _⟩

theorem offbeat_emit {n : Notice} (hn : n.kind ≠ .keepAlive) : Offbeat ind (ind.emit sends n) := by
  have h := beats_emit ind sends n
  rwa [if_neg hn] at h

theorem samePace_stage (i : Fin 2) (f : Coalesce → Coalesce) : SamePace ind (ind.stage i f) :=
  ⟨rfl, rfl, rfl, rfl⟩

/-- A notice that is sent at once or staged. -/
theorem offbeat_notice {n : Notice} (hn : n.kind ≠ .keepAlive) (f : Coalesce → Coalesce) :
    Offbeat ind (if ¬ ind.wants n.kind then ind.still
      else if ind.periodS > 0 then (ind.stage 0 f).still else ind.emit sends n) := by
  split
  · exact offbeat_still ind
  · split
    · exact (samePace_stage ind 0 f).offbeat
    · exact offbeat_emit ind sends hn

theorem offbeat_initComplete (status : BitVec 32) : Offbeat ind (ind.initComplete sends status) := by
  unfold initComplete
  split
  · exact offbeat_still ind
  · exact offbeat_emit ind sends (by simp [Notice.kind])

theorem offbeat_radioUp : Offbeat ind (ind.radioUp sends) := by
  unfold radioUp
  split
  · exact offbeat_still ind
  · have h := offbeat_initComplete { ind with radioUpReported := true } sends InitState.radioUp.code
    exact h.after ⟨rfl, rfl, rfl, rfl⟩

theorem offbeat_resetNotice (cause : BitVec 32) : Offbeat ind (ind.resetNotice sends cause) := by
  unfold resetNotice
  split
  · exact offbeat_still ind
  · exact offbeat_emit ind sends (by simp [Notice.kind])

theorem offbeat_wlanStatus (now : Nat) (v : WlanStatusChange) : Offbeat ind (ind.wlanStatus sends now v) := by
  unfold wlanStatus
  refine Beats.bind ?_ (offbeat_notice (n := .wlanStatusChange v) _ sends (by simp [Notice.kind]) _)
  split
  · have h := offbeat_radioUp { ind with
      wlan0AssocKnown := true, wlan0Assoc := decide (v.wlanStatus = wlanStatusConnected)
      wlan0AssocAt := now } sends
    exact h.after ⟨rfl, rfl, rfl, rfl⟩
  · exact SamePace.offbeat ⟨rfl, rfl, rfl, rfl⟩

theorem offbeat_faultDetect (v : FaultDetect) : Offbeat ind (ind.faultDetect sends v) := by
  unfold faultDetect
  split
  · exact offbeat_still ind
  · split
    · split
      · exact ⟨.refl ind, rfl, le_rfl⟩
      · exact (samePace_stage ind 0 _).offbeat
    · exact offbeat_emit ind sends (by simp [Notice.kind])

/-! ## The congestion watch -/

theorem offbeat_announce (rep : Report) (sends : Sends) (ind : Indication) (r : Res) :
    Offbeat ind (announce rep sends ind r) := by
  unfold announce
  split
  · have h := offbeat_faultDetect ind sends ⟨r.congestionId, rep.pct r⟩
    dsimp only
    split
    · exact h
    · exact ⟨h.same.trans ⟨rfl, rfl, rfl, rfl⟩, h.boundary, h.keepAlive⟩
  · exact offbeat_still ind

theorem samePace_withdraw (rep : Report) (rs : List Res) (ind : Indication) :
    SamePace ind (rs.foldl (withdraw rep) ind) := by
  induction rs generalizing ind with
  | nil => exact .refl ind
  | cons r rs ih =>
    refine SamePace.trans ?_ (ih _)
    unfold withdraw faultClear
    split
    · split
      · exact .refl ind
      · split
        · exact .refl ind
        · exact samePace_stage ind 0 _
    · exact .refl ind

theorem offbeat_faultProbeTick (rd : Reading) (elapsed : Nat) :
    Offbeat ind (ind.faultProbeTick sends rd elapsed) := by
  unfold faultProbeTick
  split
  · exact offbeat_still ind
  · dsimp only
    split
    · exact SamePace.offbeat ⟨rfl, rfl, rfl, rfl⟩
    · refine Beats.bind ?_ ?_
      · exact ⟨⟨rfl, rfl, rfl, rfl⟩, rfl, le_rfl⟩
      · exact Beats.bind (offbeat_each (offbeat_announce _ sends) _ resources) (samePace_withdraw _ _ _).offbeat

/-! ## A boundary -/

theorem offbeat_flushStage (i : Fin 2) (ind : Indication) (s : Stage) : Offbeat ind (flushStage sends i ind s) := by
  unfold flushStage
  cases hs : (ind.coalesce i).staged s with
  | none => exact offbeat_still ind
  | some n =>
    have hn : n.kind ≠ .keepAlive := by
      cases s <;> simp only [Coalesce.staged, Option.ite_none_right_eq_some, Option.some.injEq] at hs <;>
        simp [← hs.2, Notice.kind]
    have h := offbeat_emit ind sends hn
    dsimp only
    split
    · have hdrop := samePace_stage (ind.emit sends n).ind i (·.drop s)
      exact ⟨h.same.trans hdrop, h.boundary, h.keepAlive⟩
    · exact h

theorem beats_keepAlive (timestamp : Bytes) : Beats ind (ind.keepAlive sends timestamp) 0 1 := by
  unfold keepAlive
  split
  · exact ⟨.refl ind, rfl, Nat.zero_le _⟩
  · exact beats_emit ind sends _

/-- A flush is one boundary with at most one KeepAlive. -/
theorem beats_flush (timestamp : Bytes) : Beats ind (ind.flush sends timestamp) 1 1 := by
  have hlink (i : Fin 2) (ind : Indication) := offbeat_each (offbeat_flushStage sends i) ind stages
  have h := Beats.bind (hlink 0 ind) (f := fun ind =>
      (ind.each (flushStage sends 1) stages).bind fun ind => ind.keepAlive sends timestamp)
    (Beats.bind (hlink 1 _) (beats_keepAlive _ sends timestamp))
  refine ⟨h.same, ?_, ?_⟩
  · unfold flush
    rw [Told.bind_out, List.countP_append, h.boundary]
    rfl
  · unfold flush
    rw [Told.bind_out, List.countP_append]
    exact (Nat.zero_add _).trans_le h.keepAlive

/-! ## The tick -/

/-- A configuration is in force that reports something each period, and the counter is inside it. -/
structure InForce (ind : Indication) : Prop where
  enabled : ind.enabled = true
  period : ind.periodS ≠ 0
  periodic : ind.periodic = true
  nonneg : 0 ≤ ind.tickCounter
  lt : ind.tickCounter < ind.periodS.toNat

theorem SamePace.periodic {ind ind' : Indication} (h : SamePace ind ind') : ind'.periodic = ind.periodic := by
  unfold Indication.periodic
  congr 1
  funext k
  unfold Indication.wants
  rw [h.infoBits]

theorem InForce.same {ind ind' : Indication} (h : InForce ind) (hs : SamePace ind ind') : InForce ind' where
  enabled := hs.enabled.trans h.enabled
  period := by rw [hs.periodS]; exact h.period
  periodic := hs.periodic.trans h.periodic
  nonneg := by rw [hs.tickCounter]; exact h.nonneg
  lt := by rw [hs.tickCounter, hs.periodS]; exact h.lt

/-- The counter as a number. -/
def counter (ind : Indication) : Nat := ind.tickCounter.toNat

theorem InForce.counter_lt {ind : Indication} (h : InForce ind) : ind.counter < ind.periodS.toNat := by
  have h₀ := h.nonneg
  have h₁ := h.lt
  unfold counter
  omega

/-- An input that came to a new count of the same period. -/
structure Counted (ind : Indication) (t : Told) (c n : Nat) : Prop where
  inForce : InForce t.ind
  periodS : t.ind.periodS = ind.periodS
  counter : t.ind.counter = c
  boundary : t.out.countP Event.isBoundary = n

theorem Counted.after {ind : Indication} {t : Told} {f : Indication → Told} {c n : Nat} (h : Offbeat ind t)
    (hf : Counted t.ind (f t.ind) c n) : Counted ind (t.bind f) c n :=
  ⟨hf.inForce, hf.periodS.trans h.same.periodS, hf.counter, by
    rw [Told.bind_out, List.countP_append, h.boundary, hf.boundary, Nat.zero_add]⟩

/-- **A tick under a configuration** is a step of the period. -/
theorem tick_period {ind : Indication} (h : InForce ind) (env : TickEnv) (elapsed : BitVec 32) :
    Counted ind (ind.tickElapsed env elapsed)
      (Period.step ind.periodS.toNat ind.counter elapsed.toNat).1
      (if (Period.step ind.periodS.toNat ind.counter elapsed.toNat).2 then 1 else 0) := by
  have hprobe := offbeat_faultProbeTick ind env.sends env.reading elapsed.toNat
  have h₁ := h.same hprobe.same
  have hcount : (ind.faultProbeTick env.sends env.reading elapsed.toNat).ind.counter = ind.counter := by
    unfold counter
    rw [hprobe.same.tickCounter]
  unfold tickElapsed
  rw [if_neg (by simp [h.enabled])]
  rw [← hcount, ← hprobe.same.periodS]
  refine Counted.after hprobe ?_
  generalize (ind.faultProbeTick env.sends env.reading elapsed.toNat).ind = ind₁ at h₁ ⊢
  have hcounter : ind₁.tickCounter = (ind₁.counter : Int) := (Int.toNat_of_nonneg h₁.nonneg).symm
  have hpos : 0 < ind₁.periodS.toNat := Nat.zero_lt_of_lt h₁.counter_lt
  rw [if_neg h₁.period, if_neg (by simp [h₁.periodic])]
  dsimp only
  unfold Period.step
  rw [hcounter, ← Int.natCast_add]
  by_cases hlt : ind₁.counter + min elapsed.toNat ind₁.periodS.toNat < ind₁.periodS.toNat
  · -- inside the period the counter is advanced
    rw [if_pos (Int.ofNat_lt.mpr hlt), if_pos hlt]
    exact ⟨⟨h₁.enabled, h₁.period, h₁.periodic, Int.natCast_nonneg _, Int.ofNat_lt.mpr hlt⟩, rfl,
      Int.toNat_natCast _, rfl⟩
  · rw [if_neg fun h => hlt (Int.ofNat_lt.mp h), if_neg hlt]
    obtain ⟨hs, hbound, -⟩ := beats_flush { ind₁ with tickCounter := 0 } env.sends env.timestamp
    have hzero : InForce { ind₁ with tickCounter := 0 } :=
      ⟨h₁.enabled, h₁.period, h₁.periodic, le_rfl, Int.ofNat_lt.mpr hpos⟩
    refine ⟨hzero.same hs, hs.periodS, ?_, hbound⟩
    unfold counter
    rw [hs.tickCounter]
    rfl

/-- Whatever the state, a tick is at most one boundary with at most one KeepAlive. -/
theorem tick_beats (env : TickEnv) (elapsed : BitVec 32) :
    (ind.tickElapsed env elapsed).out.countP Event.isBoundary ≤ 1 ∧
      (ind.tickElapsed env elapsed).out.countP Event.isKeepAlive ≤ 1 := by
  unfold tickElapsed
  split
  · exact ⟨Nat.zero_le _, Nat.zero_le _⟩
  · have hprobe := offbeat_faultProbeTick ind env.sends env.reading elapsed.toNat
    generalize ind.faultProbeTick env.sends env.reading elapsed.toNat = t at hprobe
    have hkeep : t.out.countP Event.isKeepAlive = 0 := Nat.le_zero.mp hprobe.keepAlive
    rw [Told.bind_out, List.countP_append, List.countP_append, hprobe.boundary, hkeep, Nat.zero_add, Nat.zero_add]
    split
    · exact ⟨Nat.zero_le _, Nat.zero_le _⟩
    · split
      · exact ⟨Nat.zero_le _, Nat.zero_le _⟩
      · dsimp only
        split
        · exact ⟨Nat.zero_le _, Nat.zero_le _⟩
        · obtain ⟨-, hb, hk⟩ := beats_flush { t.ind with tickCounter := 0 } env.sends env.timestamp
          exact ⟨hb.le, hk⟩

/-! ## Any inputs -/

/-- Neither another configuration nor the end of this one. -/
def Input.keepsConfig : Input → Bool
  | .config _ | .ipChanged => false
  | _ => true

/-- The seconds of a tick. -/
def Input.elapsed? : Input → Option Nat
  | .tick _ elapsed => some elapsed.toNat
  | _ => none

theorem offbeat_take {i : Input} (hi : i.keepsConfig = true) (he : i.elapsed? = none) : Offbeat ind (ind.take i) := by
  cases i with
  | config req => cases hi
  | ipChanged => cases hi
  | initComplete sends status => exact offbeat_initComplete ind sends status
  | radioUp sends => exact offbeat_radioUp ind sends
  | resetNotice sends cause => exact offbeat_resetNotice ind sends cause
  | wlanStatus sends now v => exact offbeat_wlanStatus ind sends now v
  | roaming sends v => exact offbeat_notice (n := .roaming v) ind sends (by simp [Notice.kind]) _
  | apDisconnect sends v => exact offbeat_notice (n := .apDisconnect v) ind sends (by simp [Notice.kind]) _
  | faultDetect sends v => exact offbeat_faultDetect ind sends v
  | tick env elapsed => cases he

/-- **Any inputs under one configuration** count the period as its ticks alone would. -/
theorem run_period {ind : Indication} (h : InForce ind) {is : List Input} (his : ∀ i ∈ is, i.keepsConfig = true) :
    InForce (notifier.run ind is) ∧ (notifier.run ind is).periodS = ind.periodS ∧
      (notifier.run ind is).counter =
        (Period.counter ind.periodS.toNat).run ind.counter (is.filterMap Input.elapsed?) ∧
      (notifier.trace ind is).countP Event.isBoundary =
        ((Period.counter ind.periodS.toNat).trace ind.counter (is.filterMap Input.elapsed?)).length := by
  induction is generalizing ind with
  | nil => exact ⟨h, rfl, rfl, rfl⟩
  | cons i is ih =>
    have hrest := fun j hj => his j (List.mem_cons_of_mem i hj)
    rw [Machine.run_cons, Machine.trace_cons, List.countP_append, List.filterMap_cons]
    cases he : i.elapsed? with
    | none =>
      have hoff := offbeat_take ind (his i List.mem_cons_self) he
      obtain ⟨hf, hp, hc, hb⟩ := ih (h.same hoff.same) hrest
      have hcount : (ind.take i).ind.counter = ind.counter := by
        unfold counter
        rw [hoff.same.tickCounter]
      have hout : (notifier.out ind i).countP Event.isBoundary = 0 := hoff.boundary
      rw [hcount, hoff.same.periodS] at hc hb
      refine ⟨hf, hp.trans hoff.same.periodS, hc, ?_⟩
      rw [hout, Nat.zero_add]
      exact hb
    | some e =>
      cases i with
      | tick env elapsed =>
        obtain rfl : elapsed.toNat = e := Option.some.inj he
        have htick := tick_period h env elapsed
        obtain ⟨hf, hp, hc, hb⟩ := ih htick.inForce hrest
        rw [htick.counter, htick.periodS] at hc hb
        refine ⟨hf, hp.trans htick.periodS, hc, ?_⟩
        have hout : (notifier.out ind (.tick env elapsed)).countP Event.isBoundary = _ := htick.boundary
        rw [hout, Machine.trace_cons, List.length_append]
        refine congrArg₂ (· + ·) ?_ hb
        unfold Period.counter
        dsimp only
        split <;> rfl
      | _ => cases he

end Indication

/-! ## The probe -/

namespace Fault.Probe

/-- The interval of `opcd_fault_probe_due`. -/
def interval (p : Probe) : Nat := if p.probeIntervalS ≠ 0 then p.probeIntervalS else 1

/-- `OPCD_FAULT_PROBE_INTERVAL_MAX`. -/
def intervalMax : Nat := 3600

/-- The interval is one that `opc.conf` may set, and the countdown is inside it. -/
structure Timed (p : Probe) : Prop where
  le : p.interval ≤ intervalMax
  lt : p.probeCountdownS < p.interval

/-- The calls of `opcd_fault_probe_due`, with the samples that are due. -/
def timer : Machine Probe (BitVec 32) Unit where
  step p elapsed := (p.due elapsed.toNat).1
  out p elapsed := if (p.due elapsed.toNat).2 then [()] else []

/-- A call is a step of the interval. -/
theorem due_period (p : Probe) (elapsed : Nat) :
    (p.due elapsed).1.interval = p.interval ∧
      ((p.due elapsed).1.probeCountdownS, (p.due elapsed).2) =
        Period.step p.interval p.probeCountdownS elapsed := by
  have hdue : p.due elapsed =
      if p.probeCountdownS + min elapsed p.interval < p.interval then
        ({ p with probeCountdownS := p.probeCountdownS + min elapsed p.interval }, false)
      else ({ p with probeCountdownS := 0 }, true) := rfl
  rw [hdue, Period.step]
  split <;> exact ⟨rfl, rfl⟩

theorem run_timer (p : Probe) (es : List (BitVec 32)) :
    (timer.run p es).interval = p.interval ∧
      (timer.run p es).probeCountdownS =
        (Period.counter p.interval).run p.probeCountdownS (es.map BitVec.toNat) ∧
      timer.trace p es = (Period.counter p.interval).trace p.probeCountdownS (es.map BitVec.toNat) := by
  induction es generalizing p with
  | nil => exact ⟨rfl, rfl, rfl⟩
  | cons e es ih =>
    obtain ⟨hi, hstep⟩ := due_period p e.toNat
    have hc := congrArg Prod.fst hstep
    have hb := congrArg Prod.snd hstep
    dsimp only at hc hb
    obtain ⟨hi', hc', hb'⟩ := ih (timer.step p e)
    have hstep' : (timer.step p e).probeCountdownS =
        (Period.counter p.interval).step p.probeCountdownS e.toNat := hc
    have hout : timer.out p e = (Period.counter p.interval).out p.probeCountdownS e.toNat := by
      unfold timer Period.counter
      dsimp only
      rw [hb]
    have hint : (timer.step p e).interval = p.interval := hi
    rw [hint, hstep'] at hc' hb'
    rw [Machine.run_cons, Machine.trace_cons, List.map_cons, Machine.run_cons, Machine.trace_cons, hout, hb']
    exact ⟨hi'.trans hi, hc', rfl⟩

/-- While the lines of `opc.conf` are read, the interval is one that may be set. -/
theorem confLine_interval {p : Probe} (seen : Bool) (line : Bytes)
    (h : 1 ≤ p.probeIntervalS ∧ p.probeIntervalS ≤ intervalMax ∧ p.probeCountdownS = 0) :
    1 ≤ (confLine p seen line).1.probeIntervalS ∧ (confLine p seen line).1.probeIntervalS ≤ intervalMax ∧
      (confLine p seen line).1.probeCountdownS = 0 := by
  unfold confLine
  split
  · exact h
  · dsimp only
    split_ifs with _ _ _ _ _ hv
    all_goals first | exact h | exact ⟨hv.1, hv.2, h.2.2⟩

/-- **Every `opc.conf` leaves a timed probe.** -/
theorem timed_conf (text : Option Bytes) : (Probe.init.conf text).Timed := by
  have hinit : 1 ≤ Probe.init.probeIntervalS ∧ Probe.init.probeIntervalS ≤ intervalMax ∧
      Probe.init.probeCountdownS = 0 := by decide
  have htimed : ∀ p : Probe,
      1 ≤ p.probeIntervalS ∧ p.probeIntervalS ≤ intervalMax ∧ p.probeCountdownS = 0 → p.Timed := by
    intro p ⟨h₁, h₂, h₃⟩
    have hne : p.probeIntervalS ≠ 0 := by omega
    have hi : p.interval = p.probeIntervalS := if_pos hne
    exact ⟨hi.trans_le h₂, by rw [hi, h₃]; exact h₁⟩
  refine htimed _ ?_
  cases text with
  | none => exact hinit
  | some text =>
    have hfold : ∀ (ls : List Bytes) (r : Probe × Bool),
        1 ≤ r.1.probeIntervalS ∧ r.1.probeIntervalS ≤ intervalMax ∧ r.1.probeCountdownS = 0 →
          let r' := ls.foldl (fun r line => confLine r.1 r.2 line) r
          1 ≤ r'.1.probeIntervalS ∧ r'.1.probeIntervalS ≤ intervalMax ∧ r'.1.probeCountdownS = 0 := by
      intro ls
      induction ls with
      | nil => exact fun r hr => hr
      | cons l ls ih => exact fun r hr => ih _ (confLine_interval r.2 l hr)
    exact hfold (fgetsLines 159 text.length text) (Probe.init, false) hinit

end Fault.Probe

/-! ## The arithmetic of the source -/

/-- The counter of `opcd_ind_tick_elapsed` in 32 bits: the comparison of the elapsed seconds is unsigned, that of
the counter signed. -/
def tickWord (counter : BitVec 32) (period : Byte) (elapsed : BitVec 32) : BitVec 32 × Bool :=
  let p := period.setWidth 32
  let e := if elapsed > p then p else elapsed
  let c := counter + e
  if c.slt p then (c, false) else (0, true)

/-- The countdown of `opcd_fault_probe_due` in 32 bits. -/
def dueWord (countdown interval elapsed : BitVec 32) : BitVec 32 × Bool :=
  let i := if interval ≠ 0 then interval else 1
  let e := if elapsed > i then i else elapsed
  let c := countdown + e
  if c < i then (c, false) else (0, true)

/-- What is elapsed, at most a period. -/
theorem toNat_clamp (p e : BitVec 32) : (if e > p then p else e).toNat = min e.toNat p.toNat := by
  split
  · rename_i h
    have hlt : p.toNat < e.toNat := h
    omega
  · rename_i h
    have hle : e.toNat ≤ p.toNat := Nat.le_of_not_lt h
    omega

/-- Inside a period that is small the sum is that of the numbers. -/
theorem toNat_add_clamp {c p : BitVec 32} (e : BitVec 32) (hc : c.toNat < p.toNat) (hp : p.toNat < 2 ^ 30) :
    (c + if e > p then p else e).toNat = c.toNat + min e.toNat p.toNat := by
  rw [BitVec.toNat_add, toNat_clamp]
  exact Nat.mod_eq_of_lt (by omega)

theorem tickWord_eq {counter : BitVec 32} {period : Byte} (h : counter.toNat < period.toNat) (elapsed : BitVec 32) :
    ((tickWord counter period elapsed).1.toNat, (tickWord counter period elapsed).2) =
      Period.step period.toNat counter.toNat elapsed.toNat := by
  have hp : (period.setWidth 32).toNat = period.toNat := by
    rw [BitVec.toNat_setWidth]
    exact Nat.mod_eq_of_lt (by omega)
  have hsum := toNat_add_clamp (p := period.setWidth 32) elapsed (hp ▸ h) (by omega)
  have hslt : ((counter + if elapsed > period.setWidth 32 then period.setWidth 32 else elapsed).slt
      (period.setWidth 32)) = decide (counter.toNat + min elapsed.toNat period.toNat < period.toNat) := by
    rw [BitVec.slt, BitVec.toInt_eq_toNat_of_lt (by omega), BitVec.toInt_eq_toNat_of_lt (by omega), hsum, hp]
    exact decide_eq_decide.mpr Int.ofNat_lt
  unfold tickWord Period.step
  dsimp only
  rw [hslt]
  simp only [decide_eq_true_eq]
  split
  · rw [hsum, hp]
  · rfl

theorem dueWord_eq {countdown interval : BitVec 32} {p : Probe} (h : p.Timed)
    (hc : countdown.toNat = p.probeCountdownS) (hi : interval.toNat = p.probeIntervalS) (elapsed : BitVec 32) :
    ((dueWord countdown interval elapsed).1.toNat, (dueWord countdown interval elapsed).2) =
      ((p.due elapsed.toNat).1.probeCountdownS, (p.due elapsed.toNat).2) := by
  have hmax : Probe.intervalMax = 3600 := rfl
  have hint : (if interval ≠ 0 then interval else 1).toNat = p.interval := by
    unfold Probe.interval
    rw [← hi]
    by_cases hz : interval = 0
    · simp [hz]
    · have hz' : interval.toNat ≠ 0 := fun h0 => hz (BitVec.eq_of_toNat_eq h0)
      rw [if_pos hz, if_pos hz']
  rw [(p.due_period elapsed.toNat).2]
  unfold dueWord
  dsimp only
  generalize (if interval ≠ 0 then interval else 1) = i at hint ⊢
  have hle := h.le
  have hlt := h.lt
  have hsum := toNat_add_clamp (c := countdown) (p := i) elapsed (by omega) (by omega)
  rw [hc, hint] at hsum
  have hiff : (countdown + if elapsed > i then i else elapsed) < i ↔
      p.probeCountdownS + min elapsed.toNat p.interval < p.interval := by
    rw [BitVec.lt_def, hsum, hint]
  unfold Period.step
  by_cases hin : p.probeCountdownS + min elapsed.toNat p.interval < p.interval
  · rw [if_pos (hiff.mpr hin), if_pos hin, hsum]
  · rw [if_neg fun h => hin (hiff.mp h), if_neg hin]
    rfl

/-- **The boundaries of a period, however the ticks come.** An accepted configuration that is enabled, with a
period and something to report each period, is in force. While it is, whatever else happens, the counter stays
inside the period; there are no more flushes than whole periods in the counter before and what elapsed, cut to a
period a call; and there is one when a whole period has elapsed. A call flushes at most once and sends at most one
KeepAlive. The same is so of the probe with its interval, which `opc.conf` leaves in its range; and the 32-bit
arithmetic of both is that of the numbers. -/
theorem period_boundaries :
    (∀ (ind : Indication) (req : SetIndicationConfigReq), req.infoBits ≠ 0 → req.periodSeconds ≠ 0 →
      (ind.configure req).periodic = true → (ind.configure req).InForce) ∧
    (∀ (ind : Indication) (is : List Indication.Input), ind.InForce → (∀ i ∈ is, i.keepsConfig = true) →
      (Indication.notifier.run ind is).InForce ∧
        Period.Paced ind.periodS.toNat ind.counter (is.filterMap Indication.Input.elapsed?)
          (Indication.notifier.run ind is).counter
          ((Indication.notifier.trace ind is).countP Event.isBoundary)) ∧
    (∀ (ind : Indication) (env : Indication.TickEnv) (elapsed : BitVec 32),
      (ind.tickElapsed env elapsed).out.countP Event.isBoundary ≤ 1 ∧
        (ind.tickElapsed env elapsed).out.countP Event.isKeepAlive ≤ 1) ∧
    (∀ text : Option Bytes, (Probe.init.conf text).Timed) ∧ (∀ (p : Probe) (es : List (BitVec 32)), p.Timed →
      (Probe.timer.run p es).Timed ∧ Period.Paced p.interval p.probeCountdownS (es.map BitVec.toNat)
          (Probe.timer.run p es).probeCountdownS (Probe.timer.trace p es).length) ∧
    (∀ (ind : Indication) (counter elapsed : BitVec 32), ind.InForce → (counter.toNat : Int) = ind.tickCounter →
      ((tickWord counter ind.periodS elapsed).1.toNat, (tickWord counter ind.periodS elapsed).2) =
        Period.step ind.periodS.toNat ind.counter elapsed.toNat) ∧
    (∀ (p : Probe) (countdown interval elapsed : BitVec 32), p.Timed →
      countdown.toNat = p.probeCountdownS → interval.toNat = p.probeIntervalS →
      ((dueWord countdown interval elapsed).1.toNat, (dueWord countdown interval elapsed).2) =
        ((p.due elapsed.toNat).1.probeCountdownS, (p.due elapsed.toNat).2)) := by
  refine ⟨?_, ?_, Indication.tick_beats, Probe.timed_conf, ?_, ?_, fun p c i e h hc hi => dueWord_eq h hc hi e⟩
  · intro ind req hbits hperiod hper
    have hpos : req.periodSeconds.toNat ≠ 0 := fun h0 => hperiod (BitVec.eq_of_toNat_eq h0)
    exact ⟨decide_eq_true hbits, hperiod, hper, le_rfl, Int.ofNat_lt.mpr (Nat.pos_of_ne_zero hpos)⟩
  · intro ind is h his
    obtain ⟨hf, -, hc, hb⟩ := Indication.run_period h his
    refine ⟨hf, ?_⟩
    rw [hc, hb]
    exact Period.paced h.counter_lt _
  · intro p es h
    obtain ⟨hi, hc, hb⟩ := Probe.run_timer p es
    have hpaced := Period.paced h.lt (es.map BitVec.toNat)
    rw [← hc, ← hb] at hpaced
    exact ⟨⟨hi.trans_le h.le, by rw [hi]; exact hpaced.lt⟩, hpaced⟩
  · intro ind counter elapsed h hc
    have hcount : counter.toNat = ind.counter := by
      unfold Indication.counter
      omega
    rw [← hcount]
    exact tickWord_eq (hcount ▸ h.counter_lt) elapsed

end Opcd
