import Opcd.Lib.Machine

/-!
# Past tense over lists of actions

A moment of a run is an action and the actions before it. `SinceThen A P` says of a run that `A` held at some
moment and `P` at every moment after that one.
-/

variable {α : Type*}

/-- At some moment of the run it was so that `A`, and at all moments since then that `P`. -/
def SinceThen (A P : List α → α → Prop) (as : List α) : Prop :=
  ∃ bs a cs, as = bs ++ a :: cs ∧ A bs a ∧ ∀ ds b es, cs = ds ++ b :: es → P (bs ++ a :: ds) b

variable {A P : List α → α → Prop} {as : List α} {a : α}

theorem SinceThen.now (h : A as a) : SinceThen A P (as ++ [a]) :=
  ⟨as, a, [], rfl, h, fun ds b es hnil => by simp at hnil⟩

theorem SinceThen.keep (h : SinceThen A P as) (hp : P as a) : SinceThen A P (as ++ [a]) := by
  obtain ⟨bs, b, cs, rfl, hb, hcs⟩ := h
  refine ⟨bs, b, cs ++ [a], by simp, hb, fun ds c es hsplit => ?_⟩
  rcases List.snoc_eq_split hsplit with ⟨-, rfl, rfl⟩ | ⟨es', -, hcs'⟩
  · exact hp
  · exact hcs ds c es' hcs'
