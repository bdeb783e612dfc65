import Mathlib

/-!
# Masks

`n &&& (n + 1) = 0` is the usual test for a number that is all ones in binary.

* `Nat.exists_eq_two_pow_sub_one`: the test is met by the numbers `2 ^ k - 1` only.
* `BitVec.exists_masked_iff`: two masked values have a word in common when they agree under both masks.
* `BitVec.leadingOnes_iff`: the words that are ones from the top, then zeros.
-/

namespace Nat

/-- An even number loses nothing against its successor. -/
theorem two_mul_and_succ (a : Nat) : 2 * a &&& (2 * a + 1) = 2 * a := by
  apply Nat.eq_of_testBit_eq
  intro i
  rw [Nat.testBit_and]
  cases i with
  | zero => simp
  | succ i => simp [Nat.testBit_succ, Nat.mul_add_div]

/-- An odd number keeps what its half keeps. -/
theorem two_mul_succ_and (a : Nat) : (2 * a + 1) &&& (2 * a + 1 + 1) = 2 * (a &&& (a + 1)) := by
  apply Nat.eq_of_testBit_eq
  intro i
  rw [Nat.testBit_and, show 2 * a + 1 + 1 = 2 * (a + 1) by omega]
  cases i with
  | zero => simp
  | succ i => simp [Nat.testBit_succ, Nat.mul_add_div]

/-- A number with no bit in common with its successor is all ones. -/
theorem exists_eq_two_pow_sub_one {n : Nat} (h : n &&& (n + 1) = 0) : ∃ k, n = 2 ^ k - 1 := by
  induction n using Nat.strong_induction_on with
  | _ n ih =>
    obtain ⟨a, rfl | rfl⟩ := n.even_or_odd'
    · rw [two_mul_and_succ] at h
      exact ⟨0, by simpa using h⟩
    · rw [two_mul_succ_and] at h
      obtain ⟨k, hk⟩ := ih a (by omega) (by omega)
      have hpos := Nat.two_pow_pos k
      exact ⟨k + 1, by rw [Nat.pow_succ]; omega⟩

end Nat

namespace BitVec

variable {w : Nat}

/-- Two words agree under a mask where they agree on every bit of it. -/
theorem and_eq_and_iff (x y m : BitVec w) :
    x &&& m = y &&& m ↔ ∀ i < w, m.getLsbD i = true → x.getLsbD i = y.getLsbD i := by
  constructor
  · intro h i _ hm
    have hbit := congrArg (fun v => v.getLsbD i) h
    simpa [getLsbD_and, hm] using hbit
  · intro h
    refine eq_of_getLsbD_eq fun i hi => ?_
    rw [getLsbD_and, getLsbD_and]
    cases hm : m.getLsbD i with
    | false => rw [Bool.and_false, Bool.and_false]
    | true => rw [h i hi hm]

theorem xor_masked_eq_zero_iff (a b m n : BitVec w) :
    (a ^^^ b) &&& m &&& n = 0#w ↔ a &&& (m &&& n) = b &&& (m &&& n) := by
  have hzero : (a ^^^ b) &&& m &&& n = 0#w &&& (m &&& n) ↔ (a ^^^ b) &&& m &&& n = 0#w := by
    rw [zero_and]
  rw [← hzero, and_assoc, and_eq_and_iff, and_eq_and_iff]
  refine forall_congr' fun i => forall_congr' fun _ => forall_congr' fun _ => ?_
  rw [getLsbD_xor, getLsbD_zero]
  cases a.getLsbD i <;> cases b.getLsbD i <;> decide

/-- **Two masked values have a word in common** exactly when they agree under both masks, whatever the masks
are: the word takes each bit from the side whose mask has it. -/
theorem exists_masked_iff (a b m n : BitVec w) :
    (∃ x, x &&& m = a &&& m ∧ x &&& n = b &&& n) ↔ (a ^^^ b) &&& m &&& n = 0#w := by
  rw [xor_masked_eq_zero_iff, and_eq_and_iff]
  constructor
  · rintro ⟨x, hm, hn⟩ i hi hboth
    rw [getLsbD_and, Bool.and_eq_true] at hboth
    rw [← (and_eq_and_iff x a m).mp hm i hi hboth.1, (and_eq_and_iff x b n).mp hn i hi hboth.2]
  · intro h
    have hbit : ∀ i < w, ((a &&& m) ||| (b &&& ~~~m)).getLsbD i =
        if m.getLsbD i = true then a.getLsbD i else b.getLsbD i := by
      intro i hi
      rw [getLsbD_or, getLsbD_and, getLsbD_and, getLsbD_not]
      cases m.getLsbD i <;> simp [hi]
    refine ⟨(a &&& m) ||| (b &&& ~~~m), (and_eq_and_iff _ _ _).mpr fun i hi hm => ?_,
      (and_eq_and_iff _ _ _).mpr fun i hi hn => ?_⟩
    · rw [hbit i hi, if_pos hm]
    · rw [hbit i hi]
      split
      · rename_i hm
        exact h i hi (by rw [getLsbD_and, hm, hn]; rfl)
      · rfl

/-! ### Ones from the top -/

/-- The word is `k` ones from the top, then zeros. -/
def LeadingOnes (m : BitVec w) (k : Nat) : Prop := ∀ i < w, m.getMsbD i = decide (i < k)

theorem leadingOnes_iff {m : BitVec w} {k : Nat} (hk : k ≤ w) : m.LeadingOnes k ↔ m = allOnes w <<< (w - k) := by
  have hbits : (allOnes w <<< (w - k)).LeadingOnes k := by
    intro i hi
    rw [getMsbD_shiftLeft, getMsbD_allOnes]
    exact decide_eq_decide.mpr (by omega)
  constructor
  · intro h
    refine eq_of_getMsbD_eq fun i hi => ?_
    rw [h i hi, hbits i hi]
  · rintro rfl
    exact hbits

/-- The same word, made by a shift to the right. -/
theorem not_allOnes_ushiftRight {k : Nat} (hk : k ≤ w) : ~~~(allOnes w >>> k) = allOnes w <<< (w - k) := by
  rw [← leadingOnes_iff hk]
  intro i hi
  rw [getMsbD_not, getMsbD_ushiftRight, getMsbD_allOnes]
  by_cases hik : i < k
  · simp [hi, hik]
  · simp [hik]
    omega

/-- The same word, by what it lacks. -/
theorem not_two_pow_sub_one (j : Nat) : ~~~BitVec.ofNat w (2 ^ j - 1) = allOnes w <<< j := by
  refine eq_of_getLsbD_eq fun i hi => ?_
  rw [getLsbD_not, getLsbD_ofNat, Nat.testBit_two_pow_sub_one, getLsbD_shiftLeft, getLsbD_allOnes]
  by_cases hij : i < j
  · simp [hi, hij]
  · simp [hi, hij]
    omega

end BitVec
