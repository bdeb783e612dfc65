import Opcd.Lib.Machine

/-!
# Coalescing tables

A table of rows with a key. An element replaces the row of its key, in place, or is appended. After any elements
the table has one row for each key that was put, the latest of it, in the order in which the keys first came.

* `Coalesce.Keeps`: what a table is after the elements.
* `Coalesce.keeps_put`: an element keeps it.
* `Coalesce.Keeps.length_le`: no more rows than keys.
-/

namespace Coalesce

variable {α κ : Type*} [DecidableEq κ] (key : α → κ)

/-- Replace the first row of the same key, or append. -/
def put (x : α) : List α → List α
  | [] => [x]
  | y :: ys => if key y = key x then x :: ys else y :: put x ys

/-- The same by place: the search of a table that is an array. -/
theorem put_eq_set (x : α) (tab : List α) :
    put key x tab = (tab.findIdx? fun y => key y = key x).elim (tab ++ [x]) (tab.set · x) := by
  induction tab with
  | nil => rfl
  | cons y ys ih =>
    rw [put, List.findIdx?_cons]
    by_cases hy : key y = key x
    · simp [hy]
    · rw [if_neg hy, ih]
      cases ys.findIdx? fun z => key z = key x <;> simp [hy]

/-- The two ways of `put`. -/
theorem put_cases (x : α) (tab : List α) :
    (∃ l y r, tab = l ++ y :: r ∧ key y = key x ∧ (∀ z ∈ l, key z ≠ key x) ∧ put key x tab = l ++ x :: r) ∨
    (∀ z ∈ tab, key z ≠ key x) ∧ put key x tab = tab ++ [x] := by
  induction tab with
  | nil => exact .inr ⟨fun z hz => absurd hz List.not_mem_nil, rfl⟩
  | cons y ys ih =>
    by_cases hy : key y = key x
    · exact .inl ⟨[], y, ys, rfl, hy, fun z hz => absurd hz List.not_mem_nil, by simp [put, hy]⟩
    · rcases ih with ⟨l, y', r, rfl, hk, hl, hput⟩ | ⟨hall, hput⟩
      · refine .inl ⟨y :: l, y', r, rfl, hk, ?_, by simp [put, hy, hput]⟩
        exact List.forall_mem_cons.mpr ⟨hy, hl⟩
      · exact .inr ⟨List.forall_mem_cons.mpr ⟨hy, hall⟩, by simp [put, hy, hput]⟩

variable {key} in
/-- Rows of other keys are latest after an element as before it. -/
theorem latest_concat_ne (xs : List α) {x e : α} (hne : key x ≠ key e) :
    (xs ++ [x]).latest (fun y => key y = key e) = xs.latest (fun y => key y = key e) := by
  rw [List.latest_concat, if_neg (by simpa using hne)]

variable {key} in
theorem latest_concat_self (xs : List α) {x e : α} (heq : key x = key e) :
    (xs ++ [x]).latest (fun y => key y = key e) = some x := by
  rw [List.latest_concat, if_pos (by simpa using heq)]

variable [BEq κ]

/-- The table after the elements `xs`: the latest of each key, in the order of their first coming. -/
structure Keeps (xs tab : List α) : Prop where
  latest : ∀ e, e ∈ tab ↔ xs.latest (fun x => key x = key e) = some e
  order : (tab.map key).Pairwise fun j k => (xs.map key).idxOf j < (xs.map key).idxOf k

variable {key} {xs tab : List α}

theorem keeps_nil : Keeps key ([] : List α) [] :=
  ⟨fun e => by simp [List.latest], List.Pairwise.nil⟩

namespace Keeps

theorem nodup (h : Keeps key xs tab) : (tab.map key).Nodup :=
  h.order.imp fun hlt heq => by rw [heq] at hlt; exact lt_irrefl _ hlt

theorem mem_keys (h : Keeps key xs tab) (k : κ) : k ∈ tab.map key ↔ k ∈ xs.map key := by
  simp only [List.mem_map]
  constructor
  · rintro ⟨e, he, rfl⟩
    exact ⟨e, (List.latest_some ((h.latest e).mp he)).1, rfl⟩
  · rintro ⟨x, hx, rfl⟩
    obtain ⟨e, he⟩ := List.latest_isSome (p := fun y => key y = key x) hx (by simp)
    have hk : key e = key x := by simpa using (List.latest_some he).2
    exact ⟨e, (h.latest e).mpr (by rw [hk]; exact he), hk⟩

theorem length_le [Fintype κ] (h : Keeps key xs tab) : tab.length ≤ Fintype.card κ := by
  simpa using h.nodup.length_le_card

variable [LawfulBEq κ]

/-- Each key that was put has one row. -/
theorem count_key (h : Keeps key xs tab) (k : κ) :
    (tab.map key).count k = if k ∈ xs.map key then 1 else 0 := by
  rw [h.nodup.count]
  simp only [h.mem_keys]

/-- The keys that are there keep their order when a key comes that was there before. -/
theorem order_concat (h : Keeps key xs tab) (x : α) :
    (tab.map key).Pairwise fun j k =>
      ((xs ++ [x]).map key).idxOf j < ((xs ++ [x]).map key).idxOf k := by
  refine h.order.imp_of_mem fun {j k} hj hk hlt => ?_
  rw [List.map_append, List.idxOf_append_of_mem ((h.mem_keys j).mp hj),
    List.idxOf_append_of_mem ((h.mem_keys k).mp hk)]
  exact hlt

end Keeps

variable [LawfulBEq κ]

theorem keeps_put (h : Keeps key xs tab) (x : α) : Keeps key (xs ++ [x]) (put key x tab) := by
  rcases put_cases key x tab with ⟨l, y, r, rfl, hy, hl, hput⟩ | ⟨hall, hput⟩
  · have hkeys : (l ++ x :: r).map key = (l ++ y :: r).map key := by simp [hy]
    rw [hput]
    refine ⟨fun e => ?_, by rw [hkeys]; exact h.order_concat x⟩
    by_cases he : key x = key e
    · -- of the key of the element there is its own row only
      rw [latest_concat_self xs he, Option.some.injEq]
      constructor
      · intro hmem
        have hnd : ((l ++ x :: r).map key).Nodup := hkeys ▸ h.nodup
        exact List.inj_on_of_nodup_map hnd (by simp) hmem he
      · rintro rfl
        simp
    · rw [latest_concat_ne xs he, ← h.latest e]
      have hex : e ≠ x := fun heq => he (by rw [heq])
      have hey : e ≠ y := fun heq => he (by rw [heq, hy])
      simp [hex, hey]
  · rw [hput]
    have hnew : key x ∉ tab.map key := by simpa using hall
    refine ⟨fun e => ?_, ?_⟩
    · by_cases he : key x = key e
      · rw [latest_concat_self xs he, Option.some.injEq, List.mem_append, List.mem_singleton]
        constructor
        · rintro (hmem | rfl)
          · exact absurd he.symm (hall e hmem)
          · rfl
        · exact fun heq => .inr heq.symm
      · have hex : e ≠ x := fun heq => he (by rw [heq])
        rw [latest_concat_ne xs he, ← h.latest e, List.mem_append, List.mem_singleton]
        exact or_iff_left hex
    · have htab : (tab ++ [x]).map key = tab.map key ++ [key x] := by simp
      rw [htab]
      refine List.pairwise_append.mpr ⟨h.order_concat x, List.pairwise_singleton _ _, ?_⟩
      intro j hj k hk
      obtain rfl := List.mem_singleton.mp hk
      have hj' := (h.mem_keys j).mp hj
      have hx' : key x ∉ xs.map key := fun hmem => hnew ((h.mem_keys _).mpr hmem)
      rw [List.map_append, List.idxOf_append_of_mem hj', List.idxOf_append_of_notMem hx']
      exact lt_of_lt_of_le (List.idxOf_lt_length_of_mem hj') (Nat.le_add_right _ _)

end Coalesce
