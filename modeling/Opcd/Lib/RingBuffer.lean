import Mathlib

/-!
# Ring buffers as FIFO queues

A ring of capacity `n`: an array of cells, the index of the oldest entry and the number of
entries. `RingBuffer.toList` reads it as a queue, oldest first; `push` appends (while there is room)
and `pop` removes the head, so the ring refines the list (`toList_push`, `toList_pop`).
-/

/-- A ring buffer with `n` cells. -/
structure RingBuffer (n : Nat) (α : Type*) where
  cell : Fin n → α
  head : Fin n
  count : Nat

namespace RingBuffer

variable {n : Nat} [NeZero n] {α : Type*}

/-- The cell `k` places after the head. -/
def idx (r : RingBuffer n α) (k : Nat) : Fin n := Fin.ofNat n (r.head + k)

/-- The queue in the ring, oldest first. -/
def toList (r : RingBuffer n α) : List α := (List.range r.count).map fun k => r.cell (r.idx k)

/-- Put `x` behind the youngest entry. -/
def push (r : RingBuffer n α) (x : α) : RingBuffer n α :=
  { r with cell := Function.update r.cell (r.idx r.count) x, count := r.count + 1 }

/-- The oldest entry. -/
def front (r : RingBuffer n α) : α := r.cell r.head

/-- Drop the oldest entry. -/
def pop (r : RingBuffer n α) : RingBuffer n α :=
  { r with head := Fin.ofNat n (r.head + 1), count := r.count - 1 }

@[simp] theorem length_toList (r : RingBuffer n α) : r.toList.length = r.count := by
  simp [toList]

theorem idx_zero (r : RingBuffer n α) : r.idx 0 = r.head := by
  apply Fin.ext
  simp [idx, Fin.ofNat, Nat.mod_eq_of_lt r.head.isLt]

/-- Entries at different distances below the capacity are in different cells. -/
theorem idx_inj (r : RingBuffer n α) {i j : Nat} (hi : i < n) (hj : j < n) (h : r.idx i = r.idx j) : i = j := by
  have h' : (r.head.val + i) % n = (r.head.val + j) % n := by
    have := congrArg Fin.val h
    simpa [idx, Fin.ofNat] using this
  have hm : i % n = j % n := Nat.ModEq.add_left_cancel rfl h'
  rwa [Nat.mod_eq_of_lt hi, Nat.mod_eq_of_lt hj] at hm

theorem toList_push (r : RingBuffer n α) (x : α) (h : r.count < n) : (r.push x).toList = r.toList ++ [x] := by
  have hat : ∀ k, (r.push x).idx k = r.idx k := fun _ => rfl
  simp only [toList, hat]
  show (List.range (r.count + 1)).map (fun k => Function.update r.cell (r.idx r.count) x (r.idx k))
    = _
  rw [List.range_succ, List.map_append]
  congr 1
  · apply List.map_congr_left
    intro k hk
    have hk : k < r.count := List.mem_range.mp hk
    have hne : r.idx k ≠ r.idx r.count := fun e => by
      have := r.idx_inj (by omega) h e
      omega
    rw [Function.update_of_ne hne]
  · simp

theorem pop_idx (r : RingBuffer n α) (k : Nat) : r.pop.idx k = r.idx (k + 1) := by
  apply Fin.ext
  simp only [idx, pop, Fin.ofNat]
  rw [Nat.add_mod, Nat.mod_mod, ← Nat.add_mod]
  congr 1
  omega

theorem toList_pop (r : RingBuffer n α) (h : r.count ≠ 0) : r.toList = r.front :: r.pop.toList := by
  obtain ⟨m, hm⟩ := Nat.exists_eq_succ_of_ne_zero h
  have hc : r.pop.count = m := by show r.count - 1 = m; omega
  simp only [toList, hc, hm, pop_idx]
  rw [Nat.succ_eq_add_one, List.range_succ_eq_map, List.map_cons, List.map_map]
  rw [idx_zero]
  rfl

theorem toList_eq_nil_iff (r : RingBuffer n α) : r.toList = [] ↔ r.count = 0 := by
  rw [← List.length_eq_zero_iff, length_toList]

end RingBuffer
