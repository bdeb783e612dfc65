import Mathlib

/-!
# Deterministic machines with outputs

A machine takes one action at a time and puts out a list of events for each. What the
environment chooses (results of calls, times, who runs next) is part of the action, so a
quantifier over all action lists is a quantifier over all schedules and all answers.

* `Machine.run`, `Machine.trace`: the state and the events after a list of actions.
* `Machine.run_inv`: an invariant of the step is an invariant of the run.
* `Machine.trace_inv`: the same for a relation between the events so far and the state.
* `Machine.trace_split`: the action an event belongs to.
* `Machine.run_latest`: a part of the state that some actions set and the others keep.
-/

/-- A list that ends in `e`, split at `a`: at its end or before. -/
theorem List.snoc_eq_split {α : Type*} {l b c : List α} {e a : α} (h : l ++ [e] = b ++ a :: c) :
    (c = [] ∧ l = b ∧ e = a) ∨ ∃ c', c = c' ++ [e] ∧ l = b ++ a :: c' := by
  rcases List.eq_nil_or_concat c with rfl | ⟨c', e', rfl⟩
  · obtain ⟨hl, he⟩ := List.append_inj' h rfl
    exact .inl ⟨rfl, hl, by simpa using he⟩
  · have h' : l ++ [e] = (b ++ a :: c') ++ [e'] := by simpa using h
    obtain ⟨hl, he⟩ := List.append_inj' h' rfl
    obtain rfl : e = e' := by simpa using he
    exact .inr ⟨c', by simp, hl⟩

/-- The last element that a test accepts. -/
def List.latest {α : Type*} (p : α → Bool) (l : List α) : Option α := (l.filter p).getLast?

theorem List.latest_concat {α : Type*} (p : α → Bool) (l : List α) (a : α) :
    (l ++ [a]).latest p = if p a then some a else l.latest p := by
  unfold List.latest
  rw [List.filter_append]
  cases ha : p a <;> simp [ha]

/-- What is latest is in the list and accepted. -/
theorem List.latest_some {α : Type*} {p : α → Bool} {l : List α} {a : α} (h : l.latest p = some a) :
    a ∈ l ∧ p a = true :=
  List.mem_filter.mp (List.mem_of_getLast? h)

theorem List.latest_isSome {α : Type*} {p : α → Bool} {l : List α} {a : α} (hmem : a ∈ l) (ha : p a = true) :
    ∃ b, l.latest p = some b := by
  have hne : l.filter p ≠ [] := List.ne_nil_of_mem (List.mem_filter.mpr ⟨hmem, ha⟩)
  exact ⟨_, List.getLast?_eq_some_getLast hne⟩

/-- **The latest rule.** A property of a fold that an accepted element sets and any other keeps is decided by
the latest that is accepted. -/
theorem List.foldl_latest {σ α : Type*} {g : σ → α → σ} {p : α → Bool} {Q : Option α → σ → Prop}
    (hset : ∀ s a, p a = true → Q (some a) (g s a))
    (hkeep : ∀ s a o, p a = false → Q o s → Q o (g s a)) {s : σ} (hs : Q none s) (l : List α) :
    Q (l.latest p) (l.foldl g s) := by
  induction l using List.reverseRecOn with
  | nil => exact hs
  | append_singleton l a ih =>
    rw [List.foldl_append, List.foldl_cons, List.foldl_nil, List.latest_concat]
    cases ha : p a with
    | true => exact hset _ a ha
    | false => exact hkeep _ a _ ha ih

/-- A machine over states `σ`, actions `α` and events `ω`. -/
structure Machine (σ α ω : Type*) where
  step : σ → α → σ
  out : σ → α → List ω

namespace Machine

variable {σ α ω : Type*} (M : Machine σ α ω)

/-- The state after the actions, in order. -/
def run (s : σ) (as : List α) : σ := as.foldl M.step s

/-- The events the actions put out, in order. -/
def trace : σ → List α → List ω
  | _, [] => []
  | s, a :: as => M.out s a ++ trace (M.step s a) as

@[simp] theorem run_nil (s : σ) : M.run s [] = s := rfl

@[simp] theorem run_cons (s : σ) (a : α) (as : List α) :
    M.run s (a :: as) = M.run (M.step s a) as := rfl

theorem run_append (s : σ) (as bs : List α) : M.run s (as ++ bs) = M.run (M.run s as) bs :=
  List.foldl_append

theorem run_snoc (s : σ) (as : List α) (a : α) : M.run s (as ++ [a]) = M.step (M.run s as) a :=
  M.run_append s as [a]

@[simp] theorem trace_nil (s : σ) : M.trace s [] = [] := rfl

@[simp] theorem trace_cons (s : σ) (a : α) (as : List α) :
    M.trace s (a :: as) = M.out s a ++ M.trace (M.step s a) as := rfl

theorem trace_append (s : σ) (as bs : List α) : M.trace s (as ++ bs) = M.trace s as ++ M.trace (M.run s as) bs := by
  induction as generalizing s with
  | nil => rfl
  | cons a as ih => simp [ih, List.append_assoc]

theorem trace_snoc (s : σ) (as : List α) (a : α) : M.trace s (as ++ [a]) = M.trace s as ++ M.out (M.run s as) a := by
  rw [trace_append, trace_cons, trace_nil, List.append_nil]

/-- An event of a trace is one of the events of an action of the run. -/
theorem trace_split {s : σ} {as : List α} {b c : List ω} {e : ω} (h : M.trace s as = b ++ e :: c) :
    ∃ as₁ a as₂ b' c', as = as₁ ++ a :: as₂ ∧ M.out (M.run s as₁) a = b' ++ e :: c' ∧
      b = M.trace s as₁ ++ b' ∧ c = c' ++ M.trace (M.run s (as₁ ++ [a])) as₂ := by
  induction as generalizing s b with
  | nil => simp at h
  | cons a as ih =>
    rcases List.append_eq_append_iff.mp (M.trace_cons s a as ▸ h) with ⟨b', rfl, h'⟩ | ⟨c', hout, h'⟩
    · obtain ⟨as₁, a₁, as₂, b₁, c₁, rfl, hout, rfl, hc⟩ := ih h'
      exact ⟨a :: as₁, a₁, as₂, b₁, c₁, rfl, hout, by simp, hc⟩
    · cases c' with
      | nil =>
        rw [List.append_nil] at hout
        obtain ⟨as₁, a₁, as₂, b₁, c₁, rfl, hout₁, hb₁, hc⟩ := @ih (M.step s a) [] h'.symm
        refine ⟨a :: as₁, a₁, as₂, b₁, c₁, rfl, hout₁, ?_, hc⟩
        rw [M.trace_cons, hout, List.append_assoc, ← hb₁, List.append_nil]
      | cons e' c' =>
        obtain ⟨rfl, rfl⟩ := List.cons.inj h'
        exact ⟨[], a, as, b, c', rfl, hout, rfl, rfl⟩

/-- **The invariant rule.** What every step keeps, every run keeps. -/
theorem run_inv {P : σ → Prop} (hstep : ∀ s a, P s → P (M.step s a)) {s : σ} (h : P s)
    (as : List α) : P (M.run s as) := by
  induction as generalizing s with
  | nil => exact h
  | cons a as ih => exact ih (hstep s a h)

/-- A part of the state that some actions set, and the others keep, is as the latest of them set it. -/
theorem run_latest {β : Type*} (get : σ → β) {p : α → Bool} {val : α → β}
    (hset : ∀ s a, p a = true → get (M.step s a) = val a)
    (hkeep : ∀ s a, p a = false → get (M.step s a) = get s) (s : σ) (as : List α) :
    get (M.run s as) = (as.latest p).elim (get s) val :=
  List.foldl_latest (Q := fun o s' => get s' = o.elim (get s) val) hset
    (fun s' a _ ha hq => (hkeep s' a ha).trans hq) rfl as

/-- **The history rule.** A relation between the events so far and the state that holds at the
start and is kept when a step appends its events holds after every run. -/
theorem trace_inv {P : List ω → σ → Prop}
    (hstep : ∀ tr s a, P tr s → P (tr ++ M.out s a) (M.step s a)) {s : σ} (h : P [] s)
    (as : List α) : P (M.trace s as) (M.run s as) := by
  have key : ∀ (as : List α) (tr : List ω) (s : σ), P tr s →
      P (tr ++ M.trace s as) (M.run s as) := by
    intro as
    induction as with
    | nil => intro tr s h; simpa using h
    | cons a as ih =>
      intro tr s h
      have := ih _ _ (hstep tr s a h)
      simpa [List.append_assoc] using this
  simpa using key as [] s h

end Machine
