import Opcd.Lib.Transition

/-!
# Alarms with two levels

A level is measured now and then. An alarm is raised when the level reaches a threshold and lowered when
it falls below a second one, which is not higher (`Band`); in between it stays as it is. Each time the
alarm is raised it is announced once (`Alarm`): either at once, or staged until the announcement
is made, and withdrawn when the alarm is lowered before that.

* `Band.next_eq_decide`: one comparison decides, with the threshold that applies.
* `low_between_announced`: after a successful announcement the next one follows a low level.
* `high_before_announce`: after a low level an announcement follows a high one.
* `staged_after_failed`, `announce_of_staged`: a failed announcement is made again.
-/

/-- A threshold and the level below which it is forgotten. -/
structure Band (α : Type*) [LinearOrder α] where
  clear : α
  threshold : α
  le : clear ≤ threshold

namespace Band

variable {α : Type*} [LinearOrder α] (B : Band α)

/-- Raised from the threshold on, lowered below the clear level, and kept in between. -/
def next (on : Bool) (p : α) : Bool :=
  if B.threshold ≤ p then true else if p < B.clear then false else on

/-- One comparison is enough, as the levels are ordered. -/
theorem next_eq_decide (on : Bool) (p : α) :
    B.next on p = decide ((if on then B.clear else B.threshold) ≤ p) := by
  have hle := B.le
  unfold next
  cases on with
  | false => by_cases h : B.threshold ≤ p <;> simp [h]
  | true =>
    by_cases h : B.threshold ≤ p
    · simp [h, hle.trans h]
    · by_cases hc : p < B.clear
      · simp [h, hc]
      · simp [h, hc, not_lt.mp hc]

theorem next_of_threshold_le (on : Bool) {p : α} (h : B.threshold ≤ p) : B.next on p = true := by
  simp [next, h]

theorem next_of_lt_clear (on : Bool) {p : α} (h : p < B.clear) : B.next on p = false := by
  have hp : ¬ B.threshold ≤ p := not_le.mpr (h.trans_le B.le)
  simp [next, hp, h]

theorem next_true {p : α} (h : B.clear ≤ p) : B.next true p = true := by
  simp [next_eq_decide, h]

theorem next_false {p : α} (h : p < B.threshold) : B.next false p = false := by
  simp [next_eq_decide, h]

/-- The alarm over the samples, of which some may not have been measured. -/
def run (on : Bool) (ps : List (Option α)) : Bool :=
  ps.foldl (fun on p => p.elim on (B.next on)) on

@[simp] theorem run_nil (on : Bool) : B.run on [] = on := rfl

theorem run_append (on : Bool) (ps qs : List (Option α)) : B.run on (ps ++ qs) = B.run (B.run on ps) qs :=
  List.foldl_append

end Band

/-- An alarm: raised, announced or about to be, and about to be. -/
structure Alarm where
  on : Bool
  notified : Bool
  staged : Bool
  deriving DecidableEq

namespace Alarm

variable {α : Type*} [LinearOrder α] {B : Band α}

/-- What is staged counts as announced, and only a raised alarm does. -/
structure Sound (a : Alarm) : Prop where
  notified : a.staged = true → a.notified = true
  on : a.notified = true → a.on = true

/-- A measured level. -/
def measure (B : Band α) (a : Alarm) (p : α) : Alarm :=
  ⟨B.next a.on p, B.next a.on p, B.next a.on p && (a.staged || !a.notified)⟩

/-- How announcements are made: a failed one is kept staged or given up, and there is somebody to reach. -/
structure Mode where
  keeps : Bool
  reaches : Bool

inductive Label (α : Type*)
  | sample (p : Option α)
  | announce (ok : Bool)

/-- What can happen to an alarm. -/
inductive Step (B : Band α) (m : Mode) : Alarm → List (Label α) → Alarm → Prop
  | unmeasured (a : Alarm) : Step B m a [.sample none] a
  | measured (a : Alarm) (p : α) : Step B m a [.sample (some p)] (a.measure B p)
  | announced {a : Alarm} (hr : m.reaches = true) (hs : a.staged = true) :
      Step B m a [.announce true] { a with staged := false }
  /-- a failure that is not kept is forgotten, so that the next sample stages it anew -/
  | failed {a : Alarm} (hr : m.reaches = true) (hs : a.staged = true) :
      Step B m a [.announce false] (if m.keeps then a else ⟨a.on, false, false⟩)
  /-- nobody to reach -/
  | silent {a : Alarm} (hr : m.reaches = false) (hs : a.staged = true) :
      Step B m a [] { a with staged := false }

variable {m : Mode} {a a' : Alarm} {ls : List (Label α)}

theorem Step.length_le (h : Step B m a ls a') : ls.length ≤ 1 := by
  cases h <;> simp

theorem Step.sound (h : Step B m a ls a') (ha : a.Sound) : a'.Sound := by
  cases h with
  | unmeasured => exact ha
  | measured p => exact ⟨by simp +contextual [measure], by simp [measure]⟩
  | announced => exact ⟨by simp, ha.on⟩
  | failed =>
    cases m.keeps with
    | true => exact ha
    | false => exact ⟨by simp, by simp⟩
  | silent => exact ⟨by simp, ha.on⟩

/-- Every alarm of a chain is sound if the first one is. -/
theorem sound_steps (h : Steps (Step B m) a ls a') (ha : a.Sound) : a'.Sound :=
  h.inv (fun _ _ _ hs ht => ht.sound hs) ha

/-- What is announced was staged. -/
theorem Step.staged {ok : Bool} (h : Step B m a [.announce ok] a') : a.staged = true := by
  cases h <;> assumption

/-- An alarm that is not staged stays as it is, and nothing is announced, as long as no measured level changes it. -/
theorem steady_steps {b : Alarm} (hb : b.staged = false) (h : Steps (Step B m) a ls a') (ha : a = b)
    (hkeep : ∀ p, .sample (some p) ∈ ls → b.measure B p = b) : a' = b := by
  induction h with
  | refl => exact ha
  | cons t _ ih =>
    have hrest : ∀ p, Label.sample (some p) ∈ _ → b.measure B p = b :=
      fun p hp => hkeep p (List.mem_append_right _ hp)
    subst ha
    cases t with
    | unmeasured => exact ih rfl hrest
    | measured p => exact ih (hkeep p (by simp)) hrest
    | announced _ hs => simp [hb] at hs
    | failed _ hs => simp [hb] at hs
    | silent _ hs => simp [hb] at hs

/-- **Between two announcements the level was low.** -/
theorem low_between_announced {l₁ l₂ l₃ : List (Label α)} {ok : Bool}
    (h : Steps (Step B m) a (l₁ ++ .announce true :: l₂ ++ .announce ok :: l₃) a') (ha : a.Sound) :
    ∃ p, .sample (some p) ∈ l₂ ∧ p < B.clear := by
  rw [List.append_assoc, List.cons_append] at h
  obtain ⟨a₁, a₂, h₁, ht, h₂⟩ := h.split fun _ _ _ => Step.length_le
  obtain ⟨a₃, a₄, h₃, ht', -⟩ := h₂.split fun _ _ _ => Step.length_le
  have hsound := sound_steps h₁ ha
  by_contra hno
  push Not at hno
  have hquiet : a₂ = ⟨true, true, false⟩ := by
    cases ht with
    | announced _ hs =>
      have hn := hsound.notified hs
      simp [hn, hsound.on hn]
  have ha₃ := steady_steps rfl h₃ hquiet fun p hp => by simp [measure, B.next_true (hno p hp)]
  simpa [ha₃] using ht'.staged

/-- **After a low level, what is announced was raised anew.** -/
theorem high_before_announce {l₁ l₂ l₃ : List (Label α)} {p : α} {ok : Bool} (hp : p < B.clear)
    (h : Steps (Step B m) a (l₁ ++ .sample (some p) :: l₂ ++ .announce ok :: l₃) a') :
    ∃ q, .sample (some q) ∈ l₂ ∧ B.threshold ≤ q := by
  rw [List.append_assoc, List.cons_append] at h
  obtain ⟨a₁, a₂, -, ht, h₂⟩ := h.split fun _ _ _ => Step.length_le
  obtain ⟨a₃, a₄, h₃, ht', -⟩ := h₂.split fun _ _ _ => Step.length_le
  by_contra hno
  push Not at hno
  have hlow : a₂ = ⟨false, false, false⟩ := by
    cases ht with
    | measured => simp [measure, B.next_of_lt_clear _ hp]
  have ha₃ := steady_steps rfl h₃ hlow fun q hq => by simp [measure, B.next_false (hno q hq)]
  simpa [ha₃] using ht'.staged

/-- **A failed announcement is staged again** by the next measured level that is not low. -/
theorem staged_after_failed {l₁ l₂ : List (Label α)} {p : α} (hm : m.keeps = false) (hp : B.clear ≤ p)
    (hnone : ∀ q, .sample (some q) ∉ l₂) (h : Steps (Step B m) a (l₁ ++ .announce false :: l₂) a') (ha : a.Sound) :
    (a'.measure B p).staged = true := by
  obtain ⟨a₁, a₂, h₁, ht, h₂⟩ := h.split fun _ _ _ => Step.length_le
  have hsound := sound_steps h₁ ha
  have hwait : a₂ = ⟨true, false, false⟩ := by
    cases ht with
    | failed _ hs => simp [hm, hsound.on (hsound.notified hs)]
  rw [steady_steps rfl h₂ hwait fun q hq => absurd hq (hnone q)]
  simp [measure, B.next_true hp]

/-- What was staged and no longer is was announced, if nothing was measured. -/
theorem announce_of_staged (hr : m.reaches = true) (h : Steps (Step B m) a ls a')
    (hs : a.staged = true) (hs' : a'.staged = false) (hnone : ∀ p, .sample p ∉ ls) : ∃ ok, .announce ok ∈ ls := by
  cases h with
  | refl => simp [hs] at hs'
  | cons t _ =>
    cases t with
    | unmeasured => exact absurd (by simp) (hnone none)
    | measured p => exact absurd (by simp) (hnone (some p))
    | announced => exact ⟨true, by simp⟩
    | failed => exact ⟨false, by simp⟩
    | silent h => simp [hr] at h

end Alarm
