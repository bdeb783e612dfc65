import Opcd.Disk

/-!
# What a crash leaves

A replacement that was synced stays; one that only shows may be lost, and then the path holds what it held
before, back to the last content that was synced. Nothing syncs a removal or a rename. Which of its possible
contents each path has after a crash is open, path by path.
-/

namespace Opcd

open Bytes Store

/-- What each path may hold after a crash. -/
abbrev Remains := Path → List File

/-- The effect of a call on what may remain. -/
def Remains.apply (s : Remains) : Effect → Remains
  | .write w =>
    match w.result.outcome with
    | .unchanged => s
    | .replacedUnsynced => Function.update s w.path (.bytes w.bytes :: s w.path)
    | .durable => Function.update s w.path [.bytes w.bytes]
  | .unlink p ok => if ok then Function.update s p (.absent :: s p) else s
  | .rename p q ok => if ok then Function.update (Function.update s q (s p ++ s q)) p (.absent :: s p) else s
  | _ => s

/-- What may remain of files that were synced, after these effects. -/
def Disk.remains (d : Disk) (es : List Effect) : Remains := es.foldl Remains.apply fun path => [d path]

/-- The files that a crash left. -/
def Disk.Crashed (d : Disk) (es : List Effect) (d' : Disk) : Prop := ∀ path, d' path ∈ d.remains es path

namespace Disk

variable {d d' : Disk} {es es' : List Effect} {path : Path}

theorem remains_append : d.remains (es ++ es') = es'.foldl Remains.apply (d.remains es) := List.foldl_append

theorem remains_concat {e : Effect} : d.remains (es ++ [e]) = (d.remains es).apply e := remains_append

end Disk

theorem Remains.apply_other {s : Remains} {e : Effect} {path : Path} (h : path ∉ e.touched) :
    s.apply e path = s path := by
  cases e with
  | write w =>
    have hne : path ≠ w.path := by simpa [Effect.touched] using h
    rw [apply]
    cases w.result.outcome with
    | unchanged => rfl
    | replacedUnsynced => exact Function.update_of_ne hne _ s
    | durable => exact Function.update_of_ne hne _ s
  | unlink q ok =>
    have hne : path ≠ q := by simpa [Effect.touched] using h
    rw [apply]
    split
    · exact Function.update_of_ne hne _ s
    · rfl
  | rename q q' ok =>
    have hne : path ≠ q ∧ path ≠ q' := by simpa [Effect.touched] using h
    rw [apply]
    split
    · rw [Function.update_of_ne hne.1, Function.update_of_ne hne.2]
    · rfl
  | _ => rfl

theorem Remains.foldl_other {s : Remains} {es : List Effect} {path : Path} (h : ∀ e ∈ es, path ∉ e.touched) :
    es.foldl Remains.apply s path = s path := by
  induction es generalizing s with
  | nil => rfl
  | cons e es ih =>
    rw [List.foldl_cons, ih fun e' he' => h e' (List.mem_cons_of_mem e he'), apply_other (h e List.mem_cons_self)]

/-- The path is neither removed nor renamed, and a write of it is synced or does not show. -/
def Effect.Firm (path : Path) (e : Effect) : Prop :=
  path ∈ e.touched → ∃ w, e = .write w ∧ w.result.outcome ≠ .replacedUnsynced

namespace Disk

variable {d d' : Disk} {es es' : List Effect} {path : Path}

/-- **A synced content stays** until the next effect on its path. -/
theorem remains_durable {w : FileWrite} (hw : w.result.outcome = .durable) (h : ∀ e ∈ es', w.path ∉ e.touched) :
    d.remains (es ++ .write w :: es') w.path = [.bytes w.bytes] := by
  rw [remains_append, List.foldl_cons, Remains.foldl_other h, Remains.apply, hw]
  exact Function.update_self _ _ _

/-- **Where nothing is left unsynced, a crash loses nothing.** -/
theorem remains_firm (h : ∀ e ∈ es, e.Firm path) : d.remains es path = [d.after es path] := by
  induction es using List.reverseRecOn with
  | nil => rfl
  | append_singleton es e ih =>
    have hes := ih fun e' he' => h e' (List.mem_append_left _ he')
    rw [remains_concat, after_append, after_cons, after_nil]
    by_cases htouched : path ∈ e.touched
    · obtain ⟨w, rfl, ho⟩ := h e (List.mem_append_right _ (List.mem_singleton.mpr rfl)) htouched
      obtain rfl : path = w.path := by simpa [Effect.touched] using htouched
      cases hw : w.result.outcome with
      | unchanged => simpa [apply, Remains.apply, hw] using hes
      | replacedUnsynced => exact absurd hw ho
      | durable => simp [apply, Remains.apply, hw]
    · rw [apply_other _ htouched, Remains.apply_other htouched, hes]

/-- **What shows is among what may remain**: a restart without a loss is a crash that lost nothing. -/
theorem crashed_after (d : Disk) (es : List Effect) : d.Crashed es (d.after es) := by
  have key : ∀ (es : List Effect) (d : Disk) (s : Remains), (∀ path, d path ∈ s path) →
      ∀ path, d.after es path ∈ es.foldl Remains.apply s path := by
    intro es
    induction es with
    | nil => exact fun d s h => h
    | cons e es ih =>
      intro d s h
      refine ih (d.apply e) (s.apply e) fun path => ?_
      by_cases htouched : path ∈ e.touched
      · cases e with
        | write w =>
          obtain rfl : path = w.path := by simpa [Effect.touched] using htouched
          cases ho : w.result.outcome with
          | unchanged => simpa [apply, Remains.apply, ho] using h w.path
          | replacedUnsynced => simp [apply, Remains.apply, ho]
          | durable => simp [apply, Remains.apply, ho]
        | unlink q ok =>
          obtain rfl : path = q := by simpa [Effect.touched] using htouched
          cases ok with
          | false => simpa [apply, Remains.apply] using h path
          | true => simp [apply, Remains.apply]
        | rename q q' ok =>
          have hq : path = q ∨ path = q' := by simpa [Effect.touched] using htouched
          cases ok with
          | false => simpa [apply, Remains.apply] using h path
          | true =>
            by_cases hp : path = q
            · subst hp
              simp [apply, Remains.apply]
            · obtain rfl : path = q' := hq.resolve_left hp
              simp [apply, Remains.apply, Function.update_of_ne hp, h q]
        | _ => cases htouched
      · rw [apply_other d htouched, Remains.apply_other htouched]
        exact h path
  exact key es d _ fun path => List.mem_singleton.mpr rfl

end Disk

end Opcd
