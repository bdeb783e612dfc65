import Opcd.Platform.ApplyIp

/-!
# The tests of a netmask

Three functions test whether a netmask is a prefix: `valid_netmask` of `handler.c` by the bits it lacks,
`nxp_apply_ip_change` and `nxp_peer_route_refresh` of `platform_nxp.c` by the number of bits it has, from which
they make the mask again, the one with a shift to the left and the other with a shift to the right.

A shift of a 32-bit word is defined in C for amounts from 0 to 31. Here it is `none` for any other, so that a
test that returns has made none.

* **`netmask_tests_agree`**: the tests accept the same masks, ones from the top and then zeros, and make no
  undefined shift for any mask.
-/

namespace Opcd.Platform

/-! ## The two tests of the platform -/

/-- `x << n`, where it is defined. -/
def shiftLeft? (x : BitVec 32) (n : Int) : Option (BitVec 32) :=
  if 0 ≤ n ∧ n < 32 then some (x <<< n.toNat) else none

/-- `x >> n`, where it is defined. -/
def shiftRight? (x : BitVec 32) (n : Int) : Option (BitVec 32) :=
  if 0 ≤ n ∧ n < 32 then some (x >>> n.toNat) else none

/-- The test of `nxp_apply_ip_change`, with its shift. -/
def applyNetmaskOk (m : BitVec 32) : Option Bool :=
  let len := countSetBits m
  (if len = 0 then some 0 else shiftLeft? 0xFFFFFFFF (32 - len)).map fun recon =>
    ¬ (len < 1 ∨ 32 < len ∨ recon ≠ m)

/-- The test of `nxp_peer_route_refresh`, with its shift; it is made only for a length in range. -/
def refreshNetmaskOk (m : BitVec 32) : Option Bool :=
  let len := countSetBits m
  if len < 1 ∨ 32 < len then some false
  else
    (if len = 32 then some 0xFFFFFFFF else (shiftRight? 0xFFFFFFFF len).map (~~~·)).map fun full =>
      m = full

/-! ## The masks of a prefix length -/

/-- The mask with a prefix of this length. -/
def lengthMask (k : Nat) : BitVec 32 := BitVec.allOnes 32 <<< (32 - k)

theorem countBits_le (turns : Nat) (v : BitVec 32) : countBits turns v ≤ turns := by
  induction turns generalizing v with
  | zero => exact Nat.le_refl 0
  | succ turns ih =>
    unfold countBits
    split
    · exact Nat.zero_le _
    · have hbit : (v &&& 1).toNat ≤ 1 := by
        rw [BitVec.toNat_and]
        exact Nat.and_le_right
      have hrest := ih (v >>> 1)
      omega

variable (m : BitVec 32)

theorem countSetBits_le : countSetBits m ≤ 32 := countBits_le 32 m

/-- The loop counts the ones of a prefix. -/
theorem countSetBits_lengthMask : ∀ k ≤ 32, countSetBits (lengthMask k) = k := by decide

theorem validNetmask_lengthMask : ∀ k ≤ 32, 1 ≤ k → validNetmask (lengthMask k) = true := by decide

/-- The handlers accept the masks of a prefix only. -/
theorem validNetmask_iff : validNetmask m = true ↔ ∃ k, 1 ≤ k ∧ k ≤ 32 ∧ m = lengthMask k := by
  constructor
  · intro h
    obtain ⟨j, hj, rfl⟩ := validNetmask_cases h
    refine ⟨32 - j, by omega, by omega, ?_⟩
    rw [BitVec.not_two_pow_sub_one, lengthMask, Nat.sub_sub_self (by omega)]
  · rintro ⟨k, hk1, hk, rfl⟩
    exact validNetmask_lengthMask k hk hk1

theorem applyNetmaskOk_eq :
    applyNetmaskOk m = some (decide (1 ≤ countSetBits m ∧ m = lengthMask (countSetBits m))) := by
  have hle := countSetBits_le m
  unfold applyNetmaskOk
  generalize hlen : countSetBits m = len at hle
  by_cases h0 : len = 0
  · simp [h0]
  · have hin : (0 : Int) ≤ 32 - len ∧ (32 : Int) - len < 32 := by omega
    have hnat : ((32 : Int) - len).toNat = 32 - len := by omega
    have hshift : shiftLeft? 0xFFFFFFFF (32 - len) = some (lengthMask len) := by
      rw [shiftLeft?, if_pos hin, hnat]
      rfl
    dsimp only
    rw [if_neg h0, hshift, Option.map_some]
    refine congrArg some (decide_eq_decide.mpr ?_)
    constructor
    · intro h
      refine ⟨by omega, ?_⟩
      by_contra hne
      exact h (.inr (.inr (Ne.symm hne)))
    · rintro ⟨-, hm⟩ (h | h | h)
      · omega
      · omega
      · exact h hm.symm

theorem refreshNetmaskOk_eq :
    refreshNetmaskOk m = some (decide (1 ≤ countSetBits m ∧ m = lengthMask (countSetBits m))) := by
  have hle := countSetBits_le m
  unfold refreshNetmaskOk
  generalize hlen : countSetBits m = len at hle
  by_cases h0 : len < 1
  · have : ¬ 1 ≤ len := by omega
    simp [h0, this]
  · have hfull : (if len = 32 then some (0xFFFFFFFF : BitVec 32)
        else (shiftRight? 0xFFFFFFFF len).map (~~~·)) =
        some (lengthMask len) := by
      by_cases h32 : len = 32
      · rw [if_pos h32, h32]
        rfl
      · have hin : (0 : Int) ≤ len ∧ (len : Int) < 32 := by omega
        rw [if_neg h32, shiftRight?, if_pos hin, Option.map_some, Int.toNat_natCast]
        exact congrArg some (BitVec.not_allOnes_ushiftRight hle)
    have hpos : 1 ≤ len := by omega
    rw [if_neg (by omega), hfull, Option.map_some]
    simp [hpos]

theorem accepted_iff :
    (1 ≤ countSetBits m ∧ m = lengthMask (countSetBits m)) ↔ ∃ k, 1 ≤ k ∧ k ≤ 32 ∧ m = lengthMask k := by
  constructor
  · rintro ⟨hpos, hm⟩
    exact ⟨countSetBits m, hpos, countSetBits_le m, hm⟩
  · rintro ⟨k, hk1, hk, rfl⟩
    rw [countSetBits_lengthMask k hk]
    exact ⟨hk1, rfl⟩

/-- The test as it stands in `nxpApplyIpChange`. -/
theorem netmaskRefused_eq : applyNetmaskOk m = some (!netmaskRefused m) := by
  rw [applyNetmaskOk_eq]
  have hle := countSetBits_le m
  unfold netmaskRefused recon lengthMask
  generalize countSetBits m = len at hle
  by_cases h0 : len = 0
  · simp [h0]
  · have hpos : 1 ≤ len := by omega
    have hlt : ¬ len < 1 := by omega
    have hgt : ¬ 32 < len := by omega
    simp [h0, hpos, hlt, hgt, eq_comm]

/-- **The three tests of a netmask coincide.** Each accepts the masks of `k` ones from the top and then zeros,
with `k` from 1 to 32, which `count_set_bits` gives back; no mask leads to an undefined shift; and the second test is the
one inside `nxpApplyIpChange`. -/
theorem netmask_tests_agree (m : BitVec 32) :
    (validNetmask m = true ↔ ∃ k, 1 ≤ k ∧ k ≤ 32 ∧ m.LeadingOnes k) ∧
    (validNetmask m = true ↔ applyNetmaskOk m = some true) ∧
    (validNetmask m = true ↔ refreshNetmaskOk m = some true) ∧ (∀ k ≤ 32, m.LeadingOnes k → countSetBits m = k) ∧
    (applyNetmaskOk m).isSome = true ∧ (refreshNetmaskOk m).isSome = true ∧
    applyNetmaskOk m = some (!netmaskRefused m) := by
  have hvalid : validNetmask m = decide (1 ≤ countSetBits m ∧ m = lengthMask (countSetBits m)) := by
    rw [Bool.eq_iff_iff, validNetmask_iff, decide_eq_true_eq, accepted_iff]
  refine ⟨?_, ?_, ?_, ?_, ?_, ?_, netmaskRefused_eq m⟩
  · rw [validNetmask_iff]
    refine exists_congr fun k => and_congr_right fun _ => and_congr_right fun hk => ?_
    exact (BitVec.leadingOnes_iff hk).symm
  · rw [applyNetmaskOk_eq, hvalid, Option.some_inj]
  · rw [refreshNetmaskOk_eq, hvalid, Option.some_inj]
  · intro k hk h
    rw [(BitVec.leadingOnes_iff hk).mp h]
    exact countSetBits_lengthMask k hk
  · rw [applyNetmaskOk_eq]
    rfl
  · rw [refreshNetmaskOk_eq]
    rfl

end Opcd.Platform
