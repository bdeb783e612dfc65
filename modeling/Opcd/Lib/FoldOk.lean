import Mathlib

/-!
# Folds that stop

A loop over a list whose body can fail: `foldOk` gives the state before the first element that fails, and
the failure.

* `foldOk_append`: a list that is cut in two, if nothing fails in the first part.
* `foldOk_flatten`: a list that is cut into any number of parts, if nothing fails.
* `foldOk_map`: one loop simulates another.
-/

variable {σ τ α ε : Type*}

/-- The loop: how far it came, and the failure it stopped with. -/
def foldOk (step : σ → α → Except ε σ) (s : σ) : List α → σ × Option ε
  | [] => (s, none)
  | a :: as =>
    match step s a with
    | .error e => (s, some e)
    | .ok s' => foldOk step s' as

section Cut

variable {step : σ → α → Except ε σ} {s : σ}

@[simp] theorem foldOk_nil : foldOk step s [] = (s, none) := rfl

theorem foldOk_cons_ok {s' : σ} {a : α} (h : step s a = .ok s') (as : List α) :
    foldOk step s (a :: as) = foldOk step s' as := by
  rw [foldOk, h]

theorem foldOk_cons_error {e : ε} {a : α} (h : step s a = .error e) (as : List α) :
    foldOk step s (a :: as) = (s, some e) := by
  rw [foldOk, h]

theorem foldOk_append (as bs : List α) :
    foldOk step s (as ++ bs) =
      match foldOk step s as with
      | (s', none) => foldOk step s' bs
      | (s', some e) => (s', some e) := by
  induction as generalizing s with
  | nil => rfl
  | cons a as ih =>
    rw [List.cons_append]
    cases h : step s a with
    | error e => rw [foldOk_cons_error h, foldOk_cons_error h]
    | ok s' => rw [foldOk_cons_ok h, foldOk_cons_ok h, ih]

/-- What does not fail as a whole does not fail in its first part. -/
theorem foldOk_append_ok {as bs : List α} (h : (foldOk step s (as ++ bs)).2 = none) :
    (foldOk step s as).2 = none ∧ foldOk step s (as ++ bs) = foldOk step (foldOk step s as).1 bs := by
  rw [foldOk_append] at h ⊢
  cases hf : foldOk step s as with
  | mk s' o =>
    rw [hf] at h
    cases o with
    | none => exact ⟨rfl, rfl⟩
    | some e => cases h

/-- **A list that is cut into parts.** -/
theorem foldOk_flatten (parts : List (List α)) (h : (foldOk step s parts.flatten).2 = none) :
    (foldOk step s parts.flatten).1 = parts.foldl (fun s as => (foldOk step s as).1) s := by
  induction parts generalizing s with
  | nil => rfl
  | cons as parts ih =>
    rw [List.flatten_cons] at h ⊢
    obtain ⟨-, happ⟩ := foldOk_append_ok h
    rw [happ] at h ⊢
    rw [ih h, List.foldl_cons]

end Cut

/-- **One loop simulates another**, if its body does. -/
theorem foldOk_map {step : σ → α → Except ε σ} {step' : τ → α → Except ε τ} (φ : σ → τ)
    (h : ∀ s a, step' (φ s) a = (step s a).map φ) (s : σ) (as : List α) :
    foldOk step' (φ s) as = (φ (foldOk step s as).1, (foldOk step s as).2) := by
  induction as generalizing s with
  | nil => rfl
  | cons a as ih =>
    have ha := h s a
    cases hs : step s a with
    | error e =>
      rw [hs] at ha
      rw [foldOk_cons_error hs, foldOk_cons_error ha]
    | ok s' =>
      rw [hs] at ha
      rw [foldOk_cons_ok hs, foldOk_cons_ok ha, ih]
