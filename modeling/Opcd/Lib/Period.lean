import Opcd.Lib.Machine

/-!
# Counting up to a period

A counter is advanced by what has elapsed, at most a period at once, and starts again from zero at each boundary:
nothing is carried over. Over any run there are no more boundaries than whole periods in what was counted, and
there is one when a whole period has elapsed.

* `Period.run_add_boundaries`: the amortised count.
* `Period.silent`: without a boundary, all that elapsed is in the counter.
* `Period.paced`: the bounds of a run.
-/

namespace Period

/-- The counter after `e` more, and whether that is a boundary. -/
def step (P c e : Nat) : Nat × Bool := if c + min e P < P then (c + min e P, false) else (0, true)

/-- The counter as a machine that puts out the boundaries. -/
def counter (P : Nat) : Machine Nat Nat Unit where
  step c e := (step P c e).1
  out c e := if (step P c e).2 then [()] else []

variable {P c : Nat}

theorem step_lt (hP : 0 < P) (e : Nat) : (step P c e).1 < P := by
  unfold step
  split
  · assumption
  · exact hP

/-- A boundary costs a period of what was counted. -/
theorem step_add (e : Nat) : (counter P).step c e + P * ((counter P).out c e).length ≤ c + min e P := by
  unfold counter step
  dsimp only
  split
  · simp
  · rename_i h
    simp only [if_true, List.length_singleton]
    omega

/-- **The amortised count.** What is left in the counter and a period for each boundary were counted before. -/
theorem run_add_boundaries (es : List Nat) :
    (counter P).run c es + P * ((counter P).trace c es).length ≤ c + (es.map (min · P)).sum := by
  induction es generalizing c with
  | nil => simp
  | cons e es ih =>
    have hstep := @step_add P c e
    have hrest := @ih ((counter P).step c e)
    rw [Machine.run_cons, Machine.trace_cons, List.length_append, List.map_cons, List.sum_cons, Nat.mul_add]
    omega

/-- Without a boundary nothing was cut, and all that elapsed is in the counter. -/
theorem silent {es : List Nat} (h : (counter P).trace c es = []) : (counter P).run c es = c + es.sum := by
  induction es generalizing c with
  | nil => simp
  | cons e es ih =>
    rw [Machine.trace_cons, List.append_eq_nil_iff] at h
    have hkeep : (counter P).step c e = c + e := by
      have hout := h.1
      unfold counter step at hout ⊢
      dsimp only at hout ⊢
      split
      · rename_i hlt
        have hmin : min e P = e := by omega
        rw [hmin]
      · rename_i hlt
        simp [hlt] at hout
    rw [Machine.run_cons, ih h.2, hkeep, List.sum_cons, Nat.add_assoc]

/-- A run of calls with `es` elapsed takes the counter from `c` to `c'`, with `n` boundaries. -/
structure Paced (P c : Nat) (es : List Nat) (c' n : Nat) : Prop where
  lt : c' < P
  atMost : n ≤ (c + (es.map (min · P)).sum) / P
  atLeast : P ≤ es.sum → 1 ≤ n

/-- **The bounds of every run.** -/
theorem paced (hc : c < P) (es : List Nat) : Paced P c es ((counter P).run c es) ((counter P).trace c es).length := by
  have hP : 0 < P := Nat.zero_lt_of_lt hc
  have hlt : (counter P).run c es < P := (counter P).run_inv (P := (· < P)) (fun _ e _ => step_lt hP e) hc es
  refine ⟨hlt, ?_, fun hsum => ?_⟩
  · rw [Nat.le_div_iff_mul_le hP, Nat.mul_comm]
    have hcount := @run_add_boundaries P c es
    omega
  · by_contra hnone
    have hsilent : (counter P).trace c es = [] := List.length_eq_zero_iff.mp (by omega)
    rw [silent hsilent] at hlt
    omega

end Period
