import Opcd.Lib.Machine

/-!
# Transition systems with events

A transition system is a relation between a state, the events of a transition and the next state.
`Steps` chains transitions, and a machine whose every step is such a chain `Machine.Refines` the system.

* `Steps.inv`, `Steps.trace_inv`: the invariant and the history rule.
* `Steps.split`: a chain, cut at one of its events.

A machine is `Machine.Simulated` by a system when a relation between their states can be kept up: each
step of the machine is matched by transitions with the same events.

* `Steps.simulate`: one system in another.
* `Machine.Simulated.run_inv`, `Machine.Simulated.trace_inv`: the invariant and the history rule.
* `Machine.Simulated.runs`: a run, matched action by action.
-/

variable {σ ω : Type*}

/-- Transitions in a row, with their events in order. -/
inductive Steps (T : σ → List ω → σ → Prop) : σ → List ω → σ → Prop
  | refl (s : σ) : Steps T s [] s
  | cons {s s' s'' : σ} {es fs : List ω} : T s es s' → Steps T s' fs s'' → Steps T s (es ++ fs) s''

namespace Steps

variable {T : σ → List ω → σ → Prop} {s s' s'' : σ} {es fs : List ω}

theorem single (h : T s es s') : Steps T s es s' := by
  simpa using cons h (refl s')

theorem trans (h : Steps T s es s') (h' : Steps T s' fs s'') : Steps T s (es ++ fs) s'' := by
  induction h with
  | refl => exact h'
  | cons t _ ih =>
    rw [List.append_assoc]
    exact cons t (ih h')

/-- **The history rule.** -/
theorem trace_inv {P : List ω → σ → Prop}
    (hstep : ∀ tr s es s', P tr s → T s es s' → P (tr ++ es) s') (h : Steps T s es s') :
    ∀ tr, P tr s → P (tr ++ es) s' := by
  induction h with
  | refl => intro tr hp; simpa using hp
  | cons t _ ih =>
    intro tr hp
    rw [← List.append_assoc]
    exact ih _ (hstep _ _ _ _ hp t)

/-- A chain of transitions with at most one event each, split at an event. -/
theorem split (hT : ∀ s es s', T s es s' → es.length ≤ 1) {a b : List ω} {e : ω}
    (h : Steps T s (a ++ e :: b) s') : ∃ s₁ s₂, Steps T s a s₁ ∧ T s₁ [e] s₂ ∧ Steps T s₂ b s' := by
  generalize hes : a ++ e :: b = es at h
  induction h generalizing a with
  | refl => simp at hes
  | @cons s s' s'' es fs t rest ih =>
    match es, hT _ _ _ t with
    | [], _ =>
      obtain ⟨s₁, s₂, hs, ht, hb⟩ := ih hes
      exact ⟨s₁, s₂, cons t hs, ht, hb⟩
    | [x], _ =>
      cases a with
      | nil =>
        obtain ⟨rfl, rfl⟩ := List.cons.inj hes
        exact ⟨s, s', refl s, t, rest⟩
      | cons y a =>
        obtain ⟨rfl, hfs⟩ := List.cons.inj hes
        obtain ⟨s₁, s₂, hs, ht, hb⟩ := ih hfs
        exact ⟨s₁, s₂, cons t hs, ht, hb⟩

/-- **The invariant rule.** -/
theorem inv {P : σ → Prop} (hstep : ∀ s es s', P s → T s es s' → P s') (h : Steps T s es s')
    (hp : P s) : P s' :=
  trace_inv (fun _ s es s' => hstep s es s') h [] hp

end Steps

/-- Every step of the machine is a chain of transitions between the views of its states. The
transitions may depend on the action. -/
def Machine.Refines {τ α : Type*} (M : Machine τ α ω) (T : α → σ → List ω → σ → Prop)
    (view : τ → σ) : Prop :=
  ∀ s a, Steps (T a) (view s) (M.out s a) (view (M.step s a))

/-! ## Simulation -/

/-- **One system in another.** What matches every transition matches every chain of them. -/
theorem Steps.simulate {τ : Type*} {T : σ → List ω → σ → Prop} {U : τ → List ω → τ → Prop} {R : τ → σ → Prop}
    (hstep : ∀ x s es s', R x s → T s es s' → ∃ x', Steps U x es x' ∧ R x' s') {s s' : σ}
    {es : List ω} (h : Steps T s es s') : ∀ x, R x s → ∃ x', Steps U x es x' ∧ R x' s' := by
  induction h with
  | refl => intro x hx; exact ⟨x, .refl x, hx⟩
  | cons t _ ih =>
    intro x hx
    obtain ⟨x₁, h₁, hx₁⟩ := hstep _ _ _ _ hx t
    obtain ⟨x₂, h₂, hx₂⟩ := ih x₁ hx₁
    exact ⟨x₂, h₁.trans h₂, hx₂⟩

/-- Every step of the machine is matched by transitions with the same events. -/
def Machine.Simulated {τ α : Type*} (M : Machine τ α ω) (T : α → σ → List ω → σ → Prop)
    (R : σ → τ → Prop) : Prop :=
  ∀ x s a, R x s → ∃ x', Steps (T a) x (M.out s a) x' ∧ R x' (M.step s a)

/-- Transitions of one action after the other. -/
inductive Runs {α : Type*} (T : α → σ → List ω → σ → Prop) : List α → σ → List ω → σ → Prop
  | nil (s : σ) : Runs T [] s [] s
  | cons {a : α} {as : List α} {s s' s'' : σ} {es fs : List ω} :
      Steps (T a) s es s' → Runs T as s' fs s'' → Runs T (a :: as) s (es ++ fs) s''

/-- A system that a machine refines may be simulated in its turn. -/
theorem Machine.Refines.simulated {τ ρ α : Type*} {M : Machine τ α ω} {T : α → σ → List ω → σ → Prop}
    {view : τ → σ} {U : α → ρ → List ω → ρ → Prop} {R : ρ → σ → Prop} (h : M.Refines T view)
    (hstep : ∀ a x s es s', R x s → T a s es s' → ∃ x', Steps (U a) x es x' ∧ R x' s') :
    M.Simulated U fun x s => R x (view s) :=
  fun x s a hx => (h s a).simulate (hstep a) x hx

namespace Machine.Simulated

variable {τ α : Type*} {M : Machine τ α ω} {T : α → σ → List ω → σ → Prop} {R : σ → τ → Prop}

/-- **The history rule for a run.** -/
theorem trace_inv (h : M.Simulated T R) {P : List ω → σ → Prop}
    (hstep : ∀ a tr x es x', P tr x → T a x es x' → P (tr ++ es) x') {x : σ} {s : τ} (hx : R x s)
    (hp : P [] x) (as : List α) : ∃ x', R x' (M.run s as) ∧ P (M.trace s as) x' := by
  refine M.trace_inv (P := fun tr s => ∃ x, R x s ∧ P tr x) ?_ ⟨x, hx, hp⟩ as
  rintro tr s a ⟨x, hx, hp⟩
  obtain ⟨x', hsteps, hx'⟩ := h x s a hx
  exact ⟨x', hx', hsteps.trace_inv (hstep a) tr hp⟩

/-- **The invariant rule for a run.** -/
theorem run_inv (h : M.Simulated T R) {P : σ → Prop}
    (hstep : ∀ a x es x', P x → T a x es x' → P x') {x : σ} {s : τ} (hx : R x s) (hp : P x)
    (as : List α) : ∃ x', R x' (M.run s as) ∧ P x' :=
  h.trace_inv (P := fun _ => P) (fun a _ => hstep a) hx hp as

/-- **A run is matched action by action.** -/
theorem runs (h : M.Simulated T R) {x : σ} {s : τ} (hx : R x s) (as : List α) :
    ∃ x', Runs T as x (M.trace s as) x' ∧ R x' (M.run s as) := by
  induction as generalizing x s with
  | nil => exact ⟨x, .nil x, hx⟩
  | cons a as ih =>
    obtain ⟨x₁, hsteps, hx₁⟩ := h x s a hx
    obtain ⟨x₂, hruns, hx₂⟩ := ih hx₁
    exact ⟨x₂, .cons hsteps hruns, hx₂⟩

end Machine.Simulated
