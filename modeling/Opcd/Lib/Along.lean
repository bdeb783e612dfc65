import Opcd.Lib.Machine

/-!
# Properties of every event of a history

`List.Along P hist es` says that each element of `es` has the property `P` with respect to everything before it, where
`hist` is what came before `es`.

* `List.along_append`: the elements of one list, then those of another.
* `List.Along.split`: at any element.
* `Machine.trace_along`: along every run, from what one step puts out.
-/

/-- Each element has the property, given what comes before it. -/
def List.Along {ω : Type*} (P : List ω → ω → Prop) : List ω → List ω → Prop
  | _, [] => True
  | hist, e :: es => P hist e ∧ List.Along P (hist ++ [e]) es

section Along

variable {ω : Type*} {P : List ω → ω → Prop} {hist es fs : List ω}

theorem List.along_append : List.Along P hist (es ++ fs) ↔ List.Along P hist es ∧ List.Along P (hist ++ es) fs := by
  induction es generalizing hist with
  | nil => simp [List.Along]
  | cons e es ih =>
    rw [List.cons_append, List.Along, List.Along, ih, List.append_assoc, List.singleton_append, and_assoc]

/-- **At any element.** -/
theorem List.Along.split {e : ω} (h : List.Along P hist (es ++ e :: fs)) : P (hist ++ es) e :=
  (List.along_append.mp h).2.1

/-- **Along every run.** A relation between the events so far and the state, kept by every step whose events have the
property, gives the property of every event. -/
theorem Machine.trace_along {σ α : Type*} (M : Machine σ α ω) {I : List ω → σ → Prop}
    (hstep : ∀ tr s a, I tr s → I (tr ++ M.out s a) (M.step s a) ∧ List.Along P tr (M.out s a)) {s : σ} (h : I [] s)
    (as : List α) : I (M.trace s as) (M.run s as) ∧ List.Along P [] (M.trace s as) := by
  refine M.trace_inv (P := fun tr s => I tr s ∧ List.Along P [] tr) (fun tr s a hi => ?_) ⟨h, trivial⟩ as
  obtain ⟨hinv, halong⟩ := hstep tr s a hi.1
  exact ⟨hinv, List.along_append.mpr ⟨hi.2, halong⟩⟩

end Along
