import Mathlib

/-!
# The first best element of a list

`List.argmax f` keeps the first of the elements with the greatest `f`.

* `List.argmax_eq_some_iff_append`: it is greater than all before it, and no less than all after it.
* `List.argmax_perm`: where there are no ties, the order of the list does not matter.
-/

namespace List

variable {α β : Type*} [LinearOrder β] {f : α → β}

theorem argmax_append_cons {before after : List α} {m : α} (hbefore : ∀ a ∈ before, f a < f m)
    (hafter : ∀ a ∈ after, f a ≤ f m) : (before ++ m :: after).argmax f = some m := by
  induction before with
  | nil =>
    rw [nil_append, argmax_cons]
    cases hc : after.argmax f with
    | none => rfl
    | some c => exact if_neg (not_lt.mpr (hafter c (argmax_mem hc)))
  | cons x before ih =>
    rw [cons_append, argmax_cons, ih fun a ha => hbefore a (mem_cons_of_mem _ ha)]
    exact if_pos (hbefore x mem_cons_self)

/-- The element is better than those before it and no worse than those after it. -/
theorem argmax_eq_some_iff_append {l : List α} {m : α} :
    l.argmax f = some m ↔
      ∃ before after, l = before ++ m :: after ∧ (∀ a ∈ before, f a < f m) ∧ ∀ a ∈ after, f a ≤ f m := by
  refine ⟨fun h => ?_, fun ⟨before, after, hl, hbefore, hafter⟩ => hl ▸ argmax_append_cons hbefore hafter⟩
  induction l generalizing m with
  | nil => cases h
  | cons x l ih =>
    rw [argmax_cons] at h
    cases hl : l.argmax f with
    | none =>
      rw [hl] at h
      cases h
      obtain rfl := argmax_eq_none.mp hl
      exact ⟨[], [], rfl, nofun, nofun⟩
    | some c =>
      rw [hl] at h
      dsimp only at h
      split at h
      · rename_i hlt
        cases h
        obtain ⟨before, after, rfl, hbefore, hafter⟩ := ih hl
        exact ⟨x :: before, after, rfl, forall_mem_cons.mpr ⟨hlt, hbefore⟩, hafter⟩
      · rename_i hge
        cases h
        exact ⟨[], l, rfl, nofun, fun a ha => (le_of_mem_argmax ha hl).trans (not_lt.mp hge)⟩

/-- Lists of the same elements with no ties have the same best element. -/
theorem argmax_perm {l l' : List α} (h : l'.Perm l) (hinj : (l.map f).Nodup) : l'.argmax f = l.argmax f := by
  cases hl : l.argmax f with
  | none =>
    obtain rfl := argmax_eq_none.mp hl
    rw [h.eq_nil]
    rfl
  | some m =>
    cases hl' : l'.argmax f with
    | none =>
      obtain rfl := argmax_eq_none.mp hl'
      exact absurd (argmax_mem hl) (by rw [h.symm.eq_nil]; exact not_mem_nil)
    | some m' =>
      have hm := argmax_mem hl
      have hm' := h.mem_iff.mp (argmax_mem hl')
      have heq : f m' = f m :=
        le_antisymm (le_of_mem_argmax hm' hl) (le_of_mem_argmax (h.mem_iff.mpr hm) hl')
      rw [inj_on_of_nodup_map hinj hm' hm heq]

end List
