import Opcd.Lib.Alarm
import Opcd.Fault.Probe

/-!
# The latches of the congestion probe

Each sample moves the latches of the resources it takes as measured, by the percentage it evaluates to
(`Probe.percentages`), and no others. The band state is that of the two-level alarm of `Opcd.Lib.Alarm`.

What the sampler takes as measured is wider than what was measured. Network time has to run forward on two
clocks, but a CPU or disk counter that ran backwards, or a CPU total that stood still, evaluates to 0
percent, and that clears a latch.

* `congested_run`: the band state after any samples is that of the reference.
* `no_false_clear`: when a latch is only cleared by a measured sample.
* `counter_reset_clears`: when it is not.
-/

namespace Opcd.Fault

open Bytes

/-- The levels as a band. -/
def Probe.Levels.band {p : Probe} (h : p.Levels) : Band Nat := ⟨p.clearPct, p.thresholdPct, h.le⟩

/-! ## One evaluation -/

section Evaluate

variable {p : Probe}

/-- `fault_over` compares with the level that applies. -/
theorem faultOver_eq (h : p.Levels) (on : Bool) (q : BitVec 64) : p.faultOver on q = h.band.next on q.toNat := by
  have hclear : ¬ (p.clearPct = 0 ∨ p.clearPct > p.thresholdPct) := by
    have h₁ := h.one_le
    have h₂ := h.le
    omega
  rw [Band.next_eq_decide]
  unfold Probe.faultOver Probe.Levels.band
  rw [if_neg hclear]
  cases on <;> rfl

theorem toNat_percent_le (part whole : BitVec 64) : (percent part whole).toNat ≤ 100 := by
  unfold percent
  split
  · decide
  · rename_i h
    exact BitVec.le_def.mp (BitVec.not_lt.mp h)

/-- A percentage is at most 100; the one of the network does not wrap. -/
theorem toNat_usage_le {d : Deltas} {r : Res} {q : BitVec 64} (h : d.usage r = some q) : q.toNat ≤ 100 := by
  unfold Deltas.usage at h
  cases r with
  | cpu | mem | disk =>
    dsimp only at h
    split at h
    · obtain rfl := Option.some.inj h
      exact toNat_percent_le _ _
    · cases h
  | net =>
    dsimp only at h
    split at h
    · obtain rfl := Option.some.inj h
      split
      · decide
      · rename_i hpos hlt
        have hlt : d.netBusyMs.toNat < d.netActiveMs.toNat := BitVec.lt_def.mp (BitVec.not_le.mp hlt)
        have hmul : (d.netBusyMs * 100).toNat ≤ d.netBusyMs.toNat * 100 := by
          rw [BitVec.toNat_mul]
          exact Nat.mod_le _ _
        rw [BitVec.toNat_udiv]
        refine (Nat.div_le_div_right hmul).trans (Nat.div_le_of_le_mul ?_)
        rw [Nat.mul_comm d.netActiveMs.toNat]
        omega
    · cases h

theorem toNat_pct (d : Deltas) (r : Res) : ((p.evaluate d).pct r).toNat = (d.usage r).elim 0 BitVec.toNat := by
  rw [evaluate_pct]
  cases h : d.usage r with
  | none => rfl
  | some q =>
    have hq := toNat_usage_le h
    simp only [Option.elim_some, BitVec.toNat_setWidth]
    omega

/-- A resource without a denominator evaluates to 0 percent. -/
theorem isOver_evaluate (h : p.Levels) (d : Deltas) (r : Res) :
    (p.evaluate d).isOver r = h.band.next (p.congested r) ((p.evaluate d).pct r).toNat := by
  rw [toNat_pct, evaluate_isOver]
  cases d.usage r with
  | none => exact (h.band.next_of_lt_clear _ h.one_le).symm
  | some q => exact faultOver_eq h _ q

end Evaluate

/-! ## One sample -/

/-- The percentages a sample evaluates to, of the resources it takes as measured. -/
def Probe.percentages (p : Probe) (rd : Reading) (r : Res) : Option Nat :=
  if p.measured rd r then some ((p.evaluate (p.deltas rd)).pct r).toNat else none

section Sample

variable {p : Probe} (h : p.Levels) (rd : Reading) (r : Res)

theorem measured_of_not_primed (hp : p.primed = false) : p.measured rd r = false := by
  simp [Probe.measured, hp]

/-- The band state moves with the percentage. -/
theorem sample_congested : (p.sample rd).1.congested r =
    (p.percentages rd r).elim (p.congested r) (h.band.next (p.congested r)) := by
  unfold Probe.sample Probe.percentages
  by_cases hp : p.primed
  · by_cases hm : p.measured rd r
    · simp [hp, hm, Probe.refresh, isOver_evaluate h]
    · simp [hp, hm, Probe.refresh]
  · simp [hp, measured_of_not_primed rd r (Bool.not_eq_true _ ▸ hp), Probe.refresh]

/-- After a measured sample the notify latch is the band state. -/
theorem sample_notified : (p.sample rd).1.notified r =
    (p.percentages rd r).elim (p.notified r) (h.band.next (p.congested r)) := by
  unfold Probe.sample Probe.percentages
  by_cases hp : p.primed
  · by_cases hm : p.measured rd r
    · simp [hp, hm, Probe.refresh, isOver_evaluate h]
    · simp [hp, hm, Probe.refresh]
  · simp [hp, measured_of_not_primed rd r (Bool.not_eq_true _ ▸ hp), Probe.refresh]

theorem sample_entered : (p.sample rd).2.entered r =
    (p.percentages rd r).elim false fun q => h.band.next (p.congested r) q && !p.notified r := by
  unfold Probe.sample Probe.percentages
  by_cases hp : p.primed
  · by_cases hm : p.measured rd r
    · simp [hp, hm, isOver_evaluate h]
    · simp [hp, hm]
  · simp [hp, measured_of_not_primed rd r (Bool.not_eq_true _ ▸ hp), Report.zero]

theorem sample_cleared : (p.sample rd).2.cleared r =
    (p.percentages rd r).elim false fun q => !h.band.next (p.congested r) q && p.notified r := by
  unfold Probe.sample Probe.percentages
  by_cases hp : p.primed
  · by_cases hm : p.measured rd r
    · simp [hp, hm, isOver_evaluate h]
    · simp [hp, hm]
  · simp [hp, measured_of_not_primed rd r (Bool.not_eq_true _ ▸ hp), Report.zero]

omit h

theorem sample_levels : (p.sample rd).1.thresholdPct = p.thresholdPct ∧ (p.sample rd).1.clearPct = p.clearPct := by
  unfold Probe.sample
  split <;> exact ⟨rfl, rfl⟩

end Sample

/-! ## Runs -/

/-- What reopens the notify latches. -/
inductive Rearm
  | one (r : Res)
  | all

/-- What is done to a probe. -/
inductive Op
  | sample (rd : Reading)
  | rearm (a : Rearm)

def Probe.rearmed (p : Probe) : Rearm → Probe
  | .one r => p.rearm r
  | .all => p.resetLatch

/-- The probe, with the percentages of each sample. -/
def probing : Machine Probe Op (Res → Option Nat) where
  step p
    | .sample rd => (p.sample rd).1
    | .rearm a => p.rearmed a
  out p
    | .sample rd => [p.percentages rd]
    | .rearm _ => []

/-- A probe in use, with its levels: only a congested resource was notified. -/
structure Probe.Sound (p : Probe) (threshold clear : Nat) : Prop where
  levels : p.Levels
  threshold : p.thresholdPct = threshold
  clear : p.clearPct = clear
  notified : ∀ r, p.notified r = true → p.congested r = true

theorem Probe.Sound.sample {p : Probe} {t c : Nat} (h : p.Sound t c) (rd : Reading) : (p.sample rd).1.Sound t c := by
  obtain ⟨ht, hc⟩ := sample_levels (p := p) rd
  refine ⟨⟨?_, ?_, ?_⟩, ht.trans h.threshold, hc.trans h.clear, fun r hr => ?_⟩
  · rw [hc]
    exact h.levels.one_le
  · rw [hc, ht]
    exact h.levels.le
  · rw [ht]
    exact h.levels.le_hundred
  · rw [sample_notified h.levels] at hr
    rw [sample_congested h.levels]
    cases hq : p.percentages rd r with
    | none =>
      rw [hq] at hr
      exact h.notified r hr
    | some q =>
      rw [hq] at hr
      exact hr

theorem Probe.Sound.rearmed {p : Probe} {t c : Nat} (h : p.Sound t c) (a : Rearm) : (p.rearmed a).Sound t c := by
  have hlevels := h.levels
  cases a with
  | all =>
    exact ⟨⟨hlevels.one_le, hlevels.le, hlevels.le_hundred⟩, h.threshold, h.clear,
      by simp [Probe.rearmed, Probe.resetLatch]⟩
  | one r =>
    refine ⟨⟨hlevels.one_le, hlevels.le, hlevels.le_hundred⟩, h.threshold, h.clear,
      fun r' hr' => h.notified r' ?_⟩
    by_cases heq : r' = r
    · subst heq
      simp [Probe.rearmed, Probe.rearm] at hr'
    · simpa [Probe.rearmed, Probe.rearm, Function.update_of_ne heq] using hr'

/-- The probe as it starts, with the levels of an `opc.conf`. -/
def Probe.start (text : Option Bytes) : Probe := Probe.init.conf text

variable (text : Option Bytes)

theorem levels_start : (Probe.start text).Levels := levels_conf levels_init text

/-- Reading the configuration sets no latch. -/
theorem conf_latches (p : Probe) (text : Option Bytes) :
    (p.conf text).congested = p.congested ∧ (p.conf text).notified = p.notified := by
  have hline : ∀ (p : Probe) (seen : Bool) (line : Bytes),
      (confLine p seen line).1.congested = p.congested ∧
        (confLine p seen line).1.notified = p.notified := by
    intro p seen line
    unfold confLine
    split
    · exact ⟨rfl, rfl⟩
    · dsimp only
      split_ifs <;> exact ⟨rfl, rfl⟩
  have hfold : ∀ (ls : List Bytes) (r : Probe × Bool),
      (ls.foldl (fun r line => confLine r.1 r.2 line) r).1.congested = r.1.congested ∧
        (ls.foldl (fun r line => confLine r.1 r.2 line) r).1.notified = r.1.notified := by
    intro ls
    induction ls with
    | nil => exact fun r => ⟨rfl, rfl⟩
    | cons l ls ih =>
      intro r
      obtain ⟨hc, hn⟩ := ih (confLine r.1 r.2 l)
      obtain ⟨hc', hn'⟩ := hline r.1 r.2 l
      exact ⟨hc.trans hc', hn.trans hn'⟩
  cases text with
  | none => exact ⟨rfl, rfl⟩
  | some text => exact hfold (fgetsLines 159 text.length text) (p, false)

theorem sound_start : (Probe.start text).Sound (Probe.start text).thresholdPct (Probe.start text).clearPct := by
  obtain ⟨-, hn⟩ := conf_latches Probe.init text
  refine ⟨levels_start text, rfl, rfl, fun r hr => ?_⟩
  have hr' : (Probe.init.conf text).notified r = true := hr
  rw [hn] at hr'
  cases hr'

/-- The levels stay, whatever is done. -/
theorem sound_run (ops : List Op) :
    (probing.run (Probe.start text) ops).Sound (Probe.start text).thresholdPct
      (Probe.start text).clearPct := by
  refine probing.run_inv
    (P := fun p => p.Sound (Probe.start text).thresholdPct (Probe.start text).clearPct)
    (fun p o hp => ?_) (sound_start text) ops
  cases o with
  | sample rd => exact hp.sample rd
  | rearm a => exact hp.rearmed a

/-- **The band state is that of the reference**, over the percentages measured so far. -/
theorem congested_run (ops : List Op) (r : Res) :
    (probing.run (Probe.start text) ops).congested r =
      (levels_start text).band.run false
        ((probing.trace (Probe.start text) ops).map fun pct => pct r) := by
  have hinv : ∀ tr p o, (p.Sound (Probe.start text).thresholdPct (Probe.start text).clearPct ∧
      p.congested r = (levels_start text).band.run false (tr.map fun pct => pct r)) →
      ((probing.step p o).Sound (Probe.start text).thresholdPct (Probe.start text).clearPct ∧
        (probing.step p o).congested r =
          (levels_start text).band.run false ((tr ++ probing.out p o).map fun pct => pct r)) := by
    rintro tr p o ⟨hs, hc⟩
    cases o with
    | rearm a =>
      refine ⟨hs.rearmed a, ?_⟩
      have hkeep : (p.rearmed a).congested r = p.congested r := by cases a <;> rfl
      simpa [probing, hkeep] using hc
    | sample rd =>
      refine ⟨hs.sample rd, ?_⟩
      have hband : hs.levels.band = (levels_start text).band := by
        simp only [Probe.Levels.band, hs.threshold, hs.clear]
      have hout : probing.out p (.sample rd) = [p.percentages rd] := rfl
      rw [hout, List.map_append, Band.run_append, ← hc]
      change (p.sample rd).1.congested r = _
      rw [sample_congested hs.levels, hband]
      rfl
  have hstart : (Probe.start text).congested r = false := by
    rw [Probe.start, (conf_latches Probe.init text).1]
    rfl
  exact (probing.trace_inv (P := fun tr p => p.Sound _ _ ∧ _) hinv ⟨sound_start text, hstart⟩ ops).2

/-! ## What was really measured -/

/-- A resource was measured by two samples in a row: its source was readable in the second one, and, if it
counts, in the first one too, its counters did not run backwards, and time passed by the clock they are
taken over. -/
def Genuine (prev cur : Reading) : Res → Prop
  | .cpu => ∃ c₀ c, prev.cpu = some c₀ ∧ cur.cpu = some c ∧ c₀.1 ≤ c.1 ∧ c₀.2 < c.2
  | .mem => cur.mem.isSome
  | .disk => ∃ d₀ d, prev.disk = some d₀ ∧ cur.disk = some d ∧ d₀ ≤ d ∧ prev.now < cur.now
  | .net => ∃ s₀ s, prev.net = some s₀ ∧ cur.net = some s ∧ s₀.busyMs ≤ s.busyMs ∧ s₀.activeMs < s.activeMs

/-- A latch of the resource is set, and the sample clears it. -/
def Probe.Loses (p : Probe) (rd : Reading) (r : Res) : Prop :=
  (p.congested r = true ∧ (p.sample rd).1.congested r = false) ∨
    (p.notified r = true ∧ (p.sample rd).1.notified r = false)

/-- The latches were moved by two measured samples only. -/
def NoFalseClear (p : Probe) (prev cur : Reading) : Prop := ∀ r, p.Loses cur r → Genuine prev cur r

/-- The counters of a congested CPU or disk went on: forward, and the total by more than nothing; or, where
no time passed, the I/O time shows that the disk is busy. -/
structure Credible (p : Probe) (prev cur : Reading) : Prop where
  cpu : p.congested .cpu = true → ∀ c₀ c, prev.cpu = some c₀ → cur.cpu = some c →
    c₀.1 ≤ c.1 ∧ c₀.2 < c.2
  disk : p.congested .disk = true → ∀ d₀ d, prev.disk = some d₀ → cur.disk = some d →
    d₀ ≤ d ∧ (prev.now < cur.now ∨ p.clearPct ≤ (percent (d - d₀) 1).toNat)

/-- The baselines of a probe are those of a sample. -/
structure Probe.Follows (p : Probe) (rd : Reading) : Prop where
  primed : p.primed = true
  cpuPrimed : p.cpuPrimed = rd.cpu.isSome
  cpu : ∀ c, rd.cpu = some c → p.cpuBusy = c.1 ∧ p.cpuTotal = c.2
  diskPrimed : p.diskPrimed = rd.disk.isSome
  disk : ∀ d, rd.disk = some d → p.diskIoMs = d
  netPrimed : p.netPrimed = rd.net.isSome
  net : ∀ s, rd.net = some s → p.net = s
  now : p.monoMs = rd.now

theorem follows_refresh (p : Probe) (rd : Reading) : (p.refresh rd).Follows rd where
  primed := rfl
  cpuPrimed := rfl
  cpu c hc := by simp [Probe.refresh, hc]
  diskPrimed := rfl
  disk d hd := by simp [Probe.refresh, hd]
  netPrimed := rfl
  net s hs := by simp [Probe.refresh, hs]
  now := rfl

theorem follows_sample (p : Probe) (rd : Reading) : (p.sample rd).1.Follows rd := by
  unfold Probe.sample
  split
  · exact follows_refresh _ rd
  · exact follows_refresh p rd

theorem Probe.Follows.rearmed {p : Probe} {rd : Reading} (h : p.Follows rd) (as : List Rearm) :
    (probing.run p (as.map .rearm)).Follows rd := by
  induction as generalizing p with
  | nil => exact h
  | cons a as ih =>
    refine ih ?_
    cases a <;> exact ⟨h.primed, h.cpuPrimed, h.cpu, h.diskPrimed, h.disk, h.netPrimed, h.net, h.now⟩

section Measured

variable {p : Probe} {prev cur : Reading}

/-- Below the clear level a set latch is lost, and only there. -/
theorem loses_iff {t c : Nat} (hs : p.Sound t c) (r : Res) :
    p.Loses cur r ↔ p.congested r = true ∧ ∃ q, p.percentages cur r = some q ∧ q < p.clearPct := by
  unfold Probe.Loses
  rw [sample_congested hs.levels, sample_notified hs.levels]
  have hn := hs.notified r
  cases hq : p.percentages cur r with
  | none =>
    simp
  | some q =>
    have hnext : ∀ on : Bool, on = true →
        (hs.levels.band.next on q = false ↔ q < p.clearPct) := by
      rintro _ rfl
      simp [Band.next_eq_decide, Probe.Levels.band]
    simp only [Option.elim_some, Option.some.injEq, exists_eq_left']
    constructor
    · rintro (⟨hc, hlow⟩ | ⟨hnot, hlow⟩)
      · exact ⟨hc, (hnext _ hc).mp hlow⟩
      · exact ⟨hn hnot, (hnext _ (hn hnot)).mp hlow⟩
    · rintro ⟨hc, hlow⟩
      exact .inl ⟨hc, (hnext _ hc).mpr hlow⟩

theorem usage_cpu_zero {d : Deltas} (h : d.busy = 0 ∨ d.total = 0) : (d.usage .cpu).elim 0 BitVec.toNat = 0 := by
  unfold Deltas.usage
  by_cases hpos : d.total > 0
  · have hne : d.total ≠ 0 := by
      rintro h0
      rw [h0] at hpos
      exact absurd hpos (BitVec.lt_irrefl _)
    have hbusy := h.resolve_right hne
    rw [if_pos hpos, hbusy]
    simp [percent]
  · rw [if_neg hpos]
    rfl

variable (hf : p.Follows prev)
include hf

/-- A CPU that did not run on evaluates to 0 percent. -/
theorem percentages_cpu_stuck {c₀ c : BitVec 64 × BitVec 64} (h₀ : prev.cpu = some c₀)
    (h : cur.cpu = some c) (hstuck : ¬ (c₀.1 ≤ c.1 ∧ c₀.2 < c.2)) : p.percentages cur .cpu = some 0 := by
  obtain ⟨hbusy, htotal⟩ := hf.cpu c₀ h₀
  have hprimed : p.cpuPrimed = true := by rw [hf.cpuPrimed, h₀]; rfl
  have hmeasured : p.measured cur .cpu = true := by
    simp [Probe.measured, hf.primed, h, hprimed]
  unfold Probe.percentages
  rw [if_pos hmeasured, toNat_pct]
  have hb : (p.deltas cur).busy = since true c.1 c₀.1 := by
    simp [Probe.deltas, h, hbusy, hprimed]
  have ht : (p.deltas cur).total = since true c.2 c₀.2 := by
    simp [Probe.deltas, h, htotal, hprimed]
  refine congrArg some (usage_cpu_zero ?_)
  rw [hb, ht]
  unfold since
  by_cases hlt : c₀.2 < c.2
  · have hback : ¬ c₀.1 ≤ c.1 := fun hle => hstuck ⟨hle, hlt⟩
    exact .inl (if_neg fun h => hback h.2)
  · refine .inr ?_
    split
    · rename_i hge
      rw [BitVec.le_antisymm (BitVec.not_lt.mp hlt) hge.2, BitVec.sub_self]
      rfl
    · rfl

/-- A disk whose I/O time ran backwards evaluates to 0 percent, whatever the clock says. -/
theorem percentages_disk {d₀ d : BitVec 64} (h₀ : prev.disk = some d₀) (h : cur.disk = some d) :
    p.percentages cur .disk = some
      (percent (if d₀ ≤ d then d - d₀ else 0)
        (if prev.now < cur.now then cur.now - prev.now else 1)).toNat := by
  have hprimed : p.diskPrimed = true := by rw [hf.diskPrimed, h₀]; rfl
  have hmeasured : p.measured cur .disk = true := by
    simp [Probe.measured, hf.primed, h, hprimed]
  have hpos : (if prev.now < cur.now then cur.now - prev.now else 1) > (0 : BitVec 64) := by
    split
    · rename_i hlt
      have := BitVec.lt_def.mp hlt
      refine BitVec.lt_def.mpr ?_
      rw [BitVec.toNat_sub_of_le (BitVec.le_of_lt hlt)]
      simp only [BitVec.ofNat_eq_ofNat, BitVec.toNat_ofNat, Nat.zero_mod]
      omega
    · decide
  unfold Probe.percentages
  rw [if_pos hmeasured, toNat_pct]
  simp only [Deltas.usage, Probe.deltas, h, Option.elim_some, hf.disk d₀ h₀, hf.now, hprimed, since]
  rw [if_pos hpos]
  simp

theorem percentages_cpu_some {q : Nat} (h : p.percentages cur .cpu = some q) :
    ∃ c₀ c, prev.cpu = some c₀ ∧ cur.cpu = some c := by
  have hm : p.measured cur .cpu = true := by
    by_contra hno
    simp [Probe.percentages, hno] at h
  simp only [Probe.measured, hf.primed, hf.cpuPrimed, Bool.true_and, Bool.and_eq_true, Option.isSome_iff_exists] at hm
  obtain ⟨⟨c, hc⟩, c₀, hc₀⟩ := hm
  exact ⟨c₀, c, hc₀, hc⟩

theorem percentages_disk_some {q : Nat} (h : p.percentages cur .disk = some q) :
    ∃ d₀ d, prev.disk = some d₀ ∧ cur.disk = some d := by
  have hm : p.measured cur .disk = true := by
    by_contra hno
    simp [Probe.percentages, hno] at h
  simp only [Probe.measured, hf.primed, hf.diskPrimed, Bool.true_and, Bool.and_eq_true,
    Option.isSome_iff_exists] at hm
  obtain ⟨⟨d, hd⟩, d₀, hd₀⟩ := hm
  exact ⟨d₀, d, hd₀, hd⟩

/-- What the sampler takes as measured of the network was measured. -/
theorem genuine_net {q : Nat} (h : p.percentages cur .net = some q) : Genuine prev cur .net := by
  have hm : p.measured cur .net = true := by
    by_contra hno
    simp [Probe.percentages, hno] at h
  simp only [Probe.measured, hf.primed, Bool.true_and] at hm
  unfold netDelta at hm
  cases hs : cur.net with
  | none => simp [hs] at hm
  | some s =>
    rw [hs] at hm
    dsimp only at hm
    split at hm
    · rename_i hfwd
      obtain ⟨hp, hactive, hbusy, -⟩ := hfwd
      rw [hf.netPrimed, Option.isSome_iff_exists] at hp
      obtain ⟨s₀, hs₀⟩ := hp
      rw [hf.net s₀ hs₀] at hactive hbusy hm
      refine ⟨s₀, s, hs₀, hs, hbusy, BitVec.not_le.mp fun hle => ?_⟩
      have hda : s.activeMs - s₀.activeMs = 0#64 := by
        rw [BitVec.le_antisymm hle hactive, BitVec.sub_self]
      rw [hda, if_neg fun h => absurd h.1 (BitVec.lt_irrefl _)] at hm
      cases hm
    · cases hm

end Measured

/-- **When a latch is only cleared by a measured sample**: for any `opc.conf` and any history, exactly when
the counters of a congested CPU and disk go on from one sample to the next. -/
theorem no_false_clear (text : Option Bytes) (before : List Op) (prev : Reading) (between : List Rearm)
    (cur : Reading) :
    let p := probing.run (Probe.start text) (before ++ .sample prev :: between.map .rearm)
    NoFalseClear p prev cur ↔ Credible p prev cur := by
  intro p
  have hs : p.Sound _ _ := sound_run text _
  have hf : p.Follows prev := by
    have hrun : p = probing.run ((probing.run (Probe.start text) before).sample prev).1
        (between.map .rearm) := by
      simp only [p, Machine.run_append, Machine.run_cons]
      rfl
    rw [hrun]
    exact (follows_sample _ prev).rearmed between
  have hzero : (0 : Nat) < p.clearPct := hs.levels.one_le
  constructor
  · intro hno
    constructor
    · intro hcong c₀ c h₀ h
      by_contra hstuck
      have hloses := (loses_iff hs .cpu).mpr
        ⟨hcong, 0, percentages_cpu_stuck hf h₀ h hstuck, hzero⟩
      obtain ⟨c₀', c', h₀', h', hb, ht⟩ := hno .cpu hloses
      obtain rfl := Option.some.inj (h₀.symm.trans h₀')
      obtain rfl := Option.some.inj (h.symm.trans h')
      exact hstuck ⟨hb, ht⟩
    · intro hcong d₀ d h₀ h
      by_contra hstuck
      have hpct := percentages_disk hf h₀ h
      have hgenuine : ¬ Genuine prev cur .disk := by
        rintro ⟨d₀', d', h₀', h', hle, hlt⟩
        obtain rfl := Option.some.inj (h₀.symm.trans h₀')
        obtain rfl := Option.some.inj (h.symm.trans h')
        exact hstuck ⟨hle, .inl hlt⟩
      refine hgenuine (hno .disk ((loses_iff hs .disk).mpr ⟨hcong, _, hpct, ?_⟩))
      by_cases hle : d₀ ≤ d
      · have hrest : ¬ (prev.now < cur.now ∨ p.clearPct ≤ (percent (d - d₀) 1).toNat) :=
          fun h => hstuck ⟨hle, h⟩
        rw [not_or, not_le] at hrest
        rw [if_pos hle, if_neg hrest.1]
        exact hrest.2
      · rw [if_neg hle]
        simpa [percent] using hzero
  · intro hcred r hloses
    obtain ⟨hcong, q, hq, hlow⟩ := (loses_iff hs r).mp hloses
    cases r with
    | cpu =>
      obtain ⟨c₀, c, h₀, h⟩ := percentages_cpu_some hf hq
      obtain ⟨hb, ht⟩ := hcred.cpu hcong c₀ c h₀ h
      exact ⟨c₀, c, h₀, h, hb, ht⟩
    | mem =>
      by_contra hno
      have hnone : cur.mem = none := by simpa [Genuine] using hno
      simp [Probe.percentages, Probe.measured, hnone] at hq
    | disk =>
      obtain ⟨d₀, d, h₀, h⟩ := percentages_disk_some hf hq
      obtain ⟨hle, hor⟩ := hcred.disk hcong d₀ d h₀ h
      refine ⟨d₀, d, h₀, h, hle, ?_⟩
      by_contra hlt
      rw [percentages_disk hf h₀ h, if_pos hle, if_neg hlt] at hq
      have hbusy := hor.resolve_left hlt
      rw [Option.some.inj hq] at hbusy
      omega
    | net => exact genuine_net hf hq

/-- A reading of the CPU and of the disk at a time in milliseconds. -/
def cpuDisk (busy total io now : BitVec 64) : Reading :=
  ⟨some (busy, total), some io, none, none, now⟩

/-- The CPU and the disk are seen busy for ten seconds; then the CPU counters stand still and those of the
disk are back at 0, as after a re-init. Both latches are cleared, and nothing was measured. -/
theorem counter_reset_clears :
    let p := probing.run Probe.init [.sample (cpuDisk 0 0 0 0), .sample (cpuDisk 1000 1000 10000 10000)]
    let cur := cpuDisk 1000 1000 0 20000
    (p.congested .cpu = true ∧ p.notified .cpu = true ∧ p.congested .disk = true ∧
        p.notified .disk = true) ∧
      p.Loses cur .cpu ∧ p.Loses cur .disk ∧
      ¬ Genuine (cpuDisk 1000 1000 10000 10000) cur .cpu ∧
      ¬ Genuine (cpuDisk 1000 1000 10000 10000) cur .disk := by
  refine ⟨by decide, .inl (by decide), .inl (by decide), ?_, ?_⟩
  · rintro ⟨c₀, c, h₀, h, -, hlt⟩
    obtain rfl := Option.some.inj h₀
    obtain rfl := Option.some.inj h
    exact absurd hlt (by decide)
  · rintro ⟨d₀, d, h₀, h, hle, -⟩
    obtain rfl := Option.some.inj h₀
    obtain rfl := Option.some.inj h
    exact absurd hle (by decide)

end Opcd.Fault
