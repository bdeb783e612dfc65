import Opcd.Lib.Decimal

/-!
# The congestion probe

`fault_probe.c`: the levels of `opc.conf`, and the sampler that turns cumulative counters into percentages
and keeps two latches for each resource. `congested` is the band state, `notified` says that an entry was
reported.

What the sources held is an argument (`Reading`); a source that could not be read or parsed is `none`. The
counters are 64-bit words, as `d_busy * 100u` may wrap. Log output is left out, and with it the count of
samples without a survey.
-/

namespace Opcd.Fault

open Bytes

/-- `opcd_fault_res_t`. -/
inductive Res
  | cpu | mem | disk | net
  deriving DecidableEq, Repr

/-! ## The probe -/

/-- The counters of `survey_in_use`. -/
structure Survey where
  activeMs : BitVec 64
  busyMs : BitVec 64
  monoMs : BitVec 64
  deriving DecidableEq, Repr

/-- `opcd_fault_probe_t`. -/
structure Probe where
  thresholdPct : Nat
  clearPct : Nat
  diskDev : Bytes
  netLinkJson : Bytes
  probeIntervalS : Nat
  probeCountdownS : Nat
  congested : Res → Bool
  notified : Res → Bool
  primed : Bool
  cpuPrimed : Bool
  diskPrimed : Bool
  netPrimed : Bool
  cpuBusy : BitVec 64
  cpuTotal : BitVec 64
  diskIoMs : BitVec 64
  net : Survey
  monoMs : BitVec 64

/-- `OPCD_FAULT_NET_LINK_JSON_FMT`. -/
def linkJson (iface : Bytes) : Bytes :=
  ofString "/var/log/cantops/json/" ++ iface ++ ofString "/link.json"

/-- `opcd_fault_probe_init`. -/
def Probe.init : Probe :=
  { thresholdPct := 80, clearPct := 70, diskDev := ofString "mmcblk0"
    netLinkJson := linkJson (ofString "mlan0"), probeIntervalS := 10, probeCountdownS := 0
    congested := fun _ => false, notified := fun _ => false
    primed := false, cpuPrimed := false, diskPrimed := false, netPrimed := false
    cpuBusy := 0, cpuTotal := 0, diskIoMs := 0, net := ⟨0, 0, 0⟩, monoMs := 0 }

/-! ## The levels -/

/-- The bytes one `fgets` into `cap + 1` bytes takes: up to a newline, but no more than `cap`. -/
def fgetsLength (cap : Nat) (s : Bytes) : Nat :=
  min cap (((s.take cap).takeWhile (· ≠ nl)).length + 1)

/-- The lines that `fgets` returns until the end of the file. -/
def fgetsLines (cap : Nat) : Nat → Bytes → List Bytes
  | 0, _ => []
  | _ + 1, [] => []
  | n + 1, s => s.take (fgetsLength cap s) :: fgetsLines cap n (s.drop (fgetsLength cap s))

/-- The conversion `%47[A-Za-z0-9_]`. -/
def isKeyByte (b : Byte) : Bool :=
  (ch 'A' ≤ b ∧ b ≤ ch 'Z') ∨ (ch 'a' ≤ b ∧ b ≤ ch 'z') ∨ isDigit b ∨ b = ch '_'

/-- `sscanf(line, " %47[A-Za-z0-9_] = %63s", key, val)`, when both are converted. -/
def scanKeyValue (line : Bytes) : Option (Bytes × Bytes) :=
  let s := (cstr line).dropWhile isSpace
  let key := (s.take 47).takeWhile isKeyByte
  match (s.drop key.length).dropWhile isSpace with
  | [] => none
  | eq :: rest =>
    let val := ((rest.dropWhile isSpace).take 63).takeWhile (fun b => ¬ isSpace b)
    if key ≠ [] ∧ eq = ch '=' ∧ val ≠ [] then some (key, val) else none

/-- `strtoul` finds digits and stops at the end of `val`, which holds no space. -/
def isWholeNumber (val : Bytes) : Bool :=
  let digits := if val.head? = some (ch '-') ∨ val.head? = some (ch '+') then val.drop 1 else val
  digits ≠ [] ∧ digits.all isDigit

/-- One line of `opc.conf`: the probe, and `clear_seen`. -/
def confLine (p : Probe) (clearSeen : Bool) (line : Bytes) : Probe × Bool :=
  match scanKeyValue line with
  | none => (p, clearSeen)
  | some (key, val) =>
    let v := strtoul val
    if key = ofString "congestion_threshold_pct" then
      (if 1 ≤ v ∧ v ≤ 100 then { p with thresholdPct := v } else p, clearSeen)
    else if key = ofString "congestion_clear_pct" then
      if isWholeNumber val ∧ 1 ≤ v ∧ v ≤ 100 then ({ p with clearPct := v }, true) else (p, clearSeen)
    else if key = ofString "congestion_probe_interval_s" then
      (if 1 ≤ v ∧ v ≤ 3600 then { p with probeIntervalS := v } else p, clearSeen)
    else if key = ofString "congestion_disk_dev" then
      (if val.length ≥ 33 then p else { p with diskDev := val }, clearSeen)
    else if key = ofString "congestion_net_if" then
      (if val = ofString "mlan0" ∨ val = ofString "mlan1" then { p with netLinkJson := linkJson val }
        else p, clearSeen)
    else (p, clearSeen)

/-- The release level when `opc.conf` sets none: ten points below the threshold, or half of it. -/
def derivedClear (threshold : Nat) : Nat :=
  let band := min (threshold / 2) 10
  if threshold > band then threshold - band else 1

/-- What follows the loop of `opcd_fault_probe_conf`. -/
def settleLevels (p : Probe) (clearSeen : Bool) : Probe :=
  let clear := if clearSeen then p.clearPct else derivedClear p.thresholdPct
  { p with clearPct := if clear > p.thresholdPct then p.thresholdPct else clear }

/-- `opcd_fault_probe_conf` over the text of `opc.conf`, if it can be opened. -/
def Probe.conf (p : Probe) : Option Bytes → Probe
  | none => p
  | some text =>
    let r := (fgetsLines 159 text.length text).foldl (fun r line => confLine r.1 r.2 line) (p, false)
    settleLevels r.1 r.2

/-- The levels are percentages, and the alarm is released below the level that raises it. -/
structure Probe.Levels (p : Probe) : Prop where
  one_le : 1 ≤ p.clearPct
  le : p.clearPct ≤ p.thresholdPct
  le_hundred : p.thresholdPct ≤ 100

/-- While the lines are read, each level is a percentage of its own. -/
theorem confLine_levels {p : Probe} (seen : Bool) (line : Bytes)
    (h : 1 ≤ p.thresholdPct ∧ p.thresholdPct ≤ 100 ∧ 1 ≤ p.clearPct) :
    1 ≤ (confLine p seen line).1.thresholdPct ∧ (confLine p seen line).1.thresholdPct ≤ 100 ∧
      1 ≤ (confLine p seen line).1.clearPct := by
  unfold confLine
  split
  · exact h
  · dsimp only
    split_ifs with _ hv _ hv
    · exact ⟨hv.1, hv.2, h.2.2⟩
    · exact h
    · exact ⟨h.1, h.2.1, hv.2.1⟩
    all_goals exact h

/-- **The levels of every `opc.conf` are sound.** -/
theorem levels_conf {p : Probe} (h : p.Levels) (text : Option Bytes) : (p.conf text).Levels := by
  cases text with
  | none => exact h
  | some text =>
    have hfold : ∀ (ls : List Bytes) (r : Probe × Bool),
        1 ≤ r.1.thresholdPct ∧ r.1.thresholdPct ≤ 100 ∧ 1 ≤ r.1.clearPct →
          let r' := ls.foldl (fun r line => confLine r.1 r.2 line) r
          1 ≤ r'.1.thresholdPct ∧ r'.1.thresholdPct ≤ 100 ∧ 1 ≤ r'.1.clearPct := by
      intro ls
      induction ls with
      | nil => exact fun r hr => hr
      | cons l ls ih => exact fun r hr => ih _ (confLine_levels r.2 l hr)
    obtain ⟨ht, hle, hc⟩ := hfold (fgetsLines 159 text.length text) (p, false)
      ⟨h.one_le.trans h.le, h.le_hundred, h.one_le⟩
    unfold Probe.conf settleLevels derivedClear
    dsimp only at ht hle hc ⊢
    constructor
    · dsimp only
      split_ifs <;> omega
    · dsimp only
      split_ifs <;> omega
    · exact hle

theorem levels_init : Probe.init.Levels := ⟨by decide, by decide, by decide⟩

/-! ## The latches -/

/-- `opcd_fault_probe_due`: whether a sample is due, after `elapsed` seconds. -/
def Probe.due (p : Probe) (elapsed : Nat) : Probe × Bool :=
  let interval := if p.probeIntervalS ≠ 0 then p.probeIntervalS else 1
  let countdown := p.probeCountdownS + min elapsed interval
  if countdown < interval then ({ p with probeCountdownS := countdown }, false)
  else ({ p with probeCountdownS := 0 }, true)

/-- `opcd_fault_probe_rearm`: the band state stays. -/
def Probe.rearm (p : Probe) (r : Res) : Probe := { p with notified := Function.update p.notified r false }

/-- `opcd_fault_probe_reset_latch`: the band state stays. -/
def Probe.resetLatch (p : Probe) : Probe := { p with notified := fun _ => false }

/-! ## The evaluation -/

/-- The arguments of `opcd_fault_evaluate`. -/
structure Deltas where
  busy : BitVec 64
  total : BitVec 64
  diskMs : BitVec 64
  elapsedMs : BitVec 64
  netBusyMs : BitVec 64
  netActiveMs : BitVec 64
  memUsed : BitVec 64
  memTotal : BitVec 64

/-- `fault_over`. -/
def Probe.faultOver (p : Probe) (inBand : Bool) (pct : BitVec 64) : Bool :=
  let release := if p.clearPct = 0 ∨ p.clearPct > p.thresholdPct then p.thresholdPct else p.clearPct
  if inBand then decide (release ≤ pct.toNat) else decide (p.thresholdPct ≤ pct.toNat)

/-- A ratio in percent, as the evaluator computes it: `part * 100u` may wrap. -/
def percent (part whole : BitVec 64) : BitVec 64 :=
  if part * 100 / whole > 100 then 100 else part * 100 / whole

/-- The percentage of a resource, if its denominator is not 0. -/
def Deltas.usage (d : Deltas) : Res → Option (BitVec 64)
  | .cpu => if d.total > 0 then some (percent d.busy d.total) else none
  | .mem => if d.memTotal > 0 then some (percent d.memUsed d.memTotal) else none
  | .disk => if d.elapsedMs > 0 then some (percent d.diskMs d.elapsedMs) else none
  | .net =>
    -- saturates before the multiplication, unlike the others
    if d.netActiveMs > 0 then
      some (if d.netBusyMs ≥ d.netActiveMs then 100 else d.netBusyMs * 100 / d.netActiveMs)
    else none

/-- `opcd_fault_report_t`. -/
structure Report where
  isOver : Res → Bool
  pct : Res → BitVec 16
  entered : Res → Bool
  cleared : Res → Bool

def Report.zero : Report := ⟨fun _ => false, fun _ => 0, fun _ => false, fun _ => false⟩

/-- `opcd_fault_evaluate`. -/
def Probe.evaluate (p : Probe) (d : Deltas) : Report :=
  { Report.zero with
    isOver := fun r => (d.usage r).elim false (p.faultOver (p.congested r))
    pct := fun r => (d.usage r).elim 0 (·.setWidth 16) }

theorem evaluate_isOver (p : Probe) (d : Deltas) (r : Res) :
    (p.evaluate d).isOver r = (d.usage r).elim false (p.faultOver (p.congested r)) := rfl

theorem evaluate_pct (p : Probe) (d : Deltas) (r : Res) :
    (p.evaluate d).pct r = (d.usage r).elim 0 (·.setWidth 16) := rfl

/-! ## The sampler -/

/-- What one sample reads: busy and total jiffies, the I/O time of the device, used and total
memory, the survey of the channel, and the clock. -/
structure Reading where
  cpu : Option (BitVec 64 × BitVec 64)
  disk : Option (BitVec 64)
  mem : Option (BitVec 64 × BitVec 64)
  net : Option Survey
  now : BitVec 64

/-- The counters since the baseline, or 0. -/
def since (primed : Bool) (new old : BitVec 64) : BitVec 64 :=
  if primed ∧ new ≥ old then new - old else 0

/-- `OPCD_FAULT_NET_CLOCK_SLACK_MS`. -/
def netClockSlackMs : BitVec 64 := 500

/-- The busy and the active time of the channel, if the survey moved forward on both clocks. -/
def netDelta (p : Probe) : Option Survey → Option (BitVec 64 × BitVec 64)
  | none => none
  | some s =>
    if p.netPrimed ∧ s.activeMs ≥ p.net.activeMs ∧ s.busyMs ≥ p.net.busyMs ∧
        s.monoMs > p.net.monoMs then
      let da := s.activeMs - p.net.activeMs
      let dm := s.monoMs - p.net.monoMs
      let skew := if da > dm then da - dm else dm - da
      if da > 0 ∧ skew ≤ netClockSlackMs then some (s.busyMs - p.net.busyMs, da) else none
    else none

/-- The deltas of a sample. -/
def Probe.deltas (p : Probe) (rd : Reading) : Deltas :=
  { busy := rd.cpu.elim 0 fun c => since p.cpuPrimed c.1 p.cpuBusy
    total := rd.cpu.elim 0 fun c => since p.cpuPrimed c.2 p.cpuTotal
    diskMs := rd.disk.elim 0 fun d => since p.diskPrimed d p.diskIoMs
    elapsedMs := if rd.now > p.monoMs then rd.now - p.monoMs else 1
    netBusyMs := (netDelta p rd.net).elim 0 (·.1)
    netActiveMs := (netDelta p rd.net).elim 0 (·.2)
    memUsed := rd.mem.elim 0 (·.1)
    memTotal := rd.mem.elim 0 (·.2) }

/-- The sampler takes a resource as measured in this sample. -/
def Probe.measured (p : Probe) (rd : Reading) (r : Res) : Bool :=
  p.primed &&
    match r with
    | .cpu => rd.cpu.isSome && p.cpuPrimed
    | .mem => rd.mem.isSome
    | .disk => rd.disk.isSome && p.diskPrimed
    | .net => (netDelta p rd.net).isSome

/-- The baselines after a sample: a source that was not read is not primed. -/
def Probe.refresh (p : Probe) (rd : Reading) : Probe :=
  { p with
    cpuBusy := rd.cpu.elim p.cpuBusy (·.1)
    cpuTotal := rd.cpu.elim p.cpuTotal (·.2)
    diskIoMs := rd.disk.getD p.diskIoMs
    net := rd.net.getD p.net
    cpuPrimed := rd.cpu.isSome
    diskPrimed := rd.disk.isSome
    netPrimed := rd.net.isSome
    monoMs := rd.now
    primed := true }

/-- `opcd_fault_probe_sample`. -/
def Probe.sample (p : Probe) (rd : Reading) : Probe × Report :=
  if p.primed then
    let out := p.evaluate (p.deltas rd)
    ({ p with
        congested := fun r => if p.measured rd r then out.isOver r else p.congested r
        notified := fun r => if p.measured rd r then out.isOver r else p.notified r }.refresh rd,
      { out with
        entered := fun r => p.measured rd r && out.isOver r && !p.notified r
        cleared := fun r => p.measured rd r && !out.isOver r && p.notified r })
  else (p.refresh rd, Report.zero)

end Opcd.Fault
