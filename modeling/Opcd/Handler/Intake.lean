import Opcd.Daemon

/-!
# The extent of a frame

Two functions decide where a frame ends: `opcd_intake_frame_len` from the Length the datagram declares,
`opc_frame_parse` from the size it is called with. They agree:

* `parses_iff_intake`: a part of the received bytes parses when and only when it is the one the intake
  cuts off.
* `receive_congr`: what follows that part is not looked at.
* `intake_extent`: the three together.
-/

namespace Opcd

open Bytes Protocol

/-- The header is in the first eight bytes. -/
theorem fixedHeaderUnpack_take {buf : Bytes} {n : Nat} (hn : fixedHeaderSize ≤ n)
    (hlen : fixedHeaderSize ≤ buf.length) : fixedHeaderUnpack (buf.take n) = fixedHeaderUnpack buf := by
  have hbyte : ∀ i, i < 8 → byteAt (buf.take n) i = byteAt buf i := by
    intro i hi
    simp only [fixedHeaderSize] at hn
    simp only [byteAt, List.getD_eq_getElem?_getD, List.getElem?_take]
    rw [if_pos (by omega)]
  have hl : (buf.take n).length = min n buf.length := List.length_take
  simp only [fixedHeaderSize] at hn hlen
  unfold fixedHeaderUnpack
  rw [hl, if_neg (by simp only [fixedHeaderSize]; omega), if_neg (by simp only [fixedHeaderSize]; omega)]
  simp only [be16Read, hbyte 0 (by decide), hbyte 1 (by decide), hbyte 2 (by decide),
    hbyte 3 (by decide), hbyte 4 (by decide), hbyte 5 (by decide), hbyte 6 (by decide),
    hbyte 7 (by decide)]

/-- The header of a buffer that holds one. -/
theorem fixedHeaderUnpack_some {buf : Bytes} (h : fixedHeaderSize ≤ buf.length) :
    ∃ hd, fixedHeaderUnpack buf = some hd := by
  unfold fixedHeaderUnpack
  rw [if_neg (by omega)]
  exact ⟨_, rfl⟩

/-- **The parser accepts the part the intake cuts off, and no other.** -/
theorem parses_iff_intake {buf : Bytes} {n : Nat} (hn : n ≤ buf.length) :
    (frameParse (buf.take n)).isSome = true ↔ n = St.intakeFrameLen buf ∧ 0 < n := by
  have hlen : (buf.take n).length = n := by simp [hn]
  by_cases hshort : buf.length < fixedHeaderSize
  · have hnone : fixedHeaderUnpack buf = none := by rw [fixedHeaderUnpack, if_pos hshort]
    have hparse : frameParse (buf.take n) = none := by rw [frameParse, hlen, if_pos (by omega)]
    simp only [hparse, Option.isSome_none, Bool.false_eq_true, St.intakeFrameLen, hnone, false_iff]
    omega
  obtain ⟨hd, hhd⟩ := fixedHeaderUnpack_some (not_lt.mp hshort)
  have hintake : St.intakeFrameLen buf =
      if (fixedHeaderSize + hd.length.toNat = fixedHeaderSize ∨
        (headerSize ≤ fixedHeaderSize + hd.length.toNat ∧
          fixedHeaderSize + hd.length.toNat ≤ frameMax)) ∧
        fixedHeaderSize + hd.length.toNat ≤ buf.length then
        fixedHeaderSize + hd.length.toNat else 0 := by
    simp only [St.intakeFrameLen, hhd]
  rw [hintake]
  by_cases hsmall : n < fixedHeaderSize
  · have hparse : frameParse (buf.take n) = none := by rw [frameParse, hlen, if_pos hsmall]
    simp only [hparse, Option.isSome_none, Bool.false_eq_true, false_iff]
    split_ifs <;> omega
  have hunpack := fixedHeaderUnpack_take (not_lt.mp hsmall) (not_lt.mp hshort)
  rw [frameParse, hlen, hunpack, hhd]
  have h8 : fixedHeaderSize = 8 := rfl
  have h64 : headerSize = 64 := rfl
  have hmax : frameMax = 1424 := rfl
  dsimp only
  split_ifs <;> simp only [Option.isSome_none, Option.isSome_some, Bool.false_eq_true, true_iff,
    false_iff] <;> omega

theorem intakeFrameLen_le (buf : Bytes) : St.intakeFrameLen buf ≤ buf.length := by
  unfold St.intakeFrameLen
  split
  · exact Nat.zero_le _
  · dsimp only
    split_ifs with hc
    · exact hc.2
    · exact Nat.zero_le _

/-- The intake looks at the part it cuts off, and nothing after it. -/
theorem intake_congr {buf buf' : Bytes} (hpos : 0 < St.intakeFrameLen buf)
    (h : buf'.take (St.intakeFrameLen buf) = buf.take (St.intakeFrameLen buf)) :
    St.intakeFrameLen buf' = St.intakeFrameLen buf := by
  have hle := intakeFrameLen_le buf
  have hle' : St.intakeFrameLen buf ≤ buf'.length := by
    have := congrArg List.length h
    simp only [List.length_take] at this
    omega
  have hparse := (parses_iff_intake hle).mpr ⟨rfl, hpos⟩
  rw [← h] at hparse
  exact ((parses_iff_intake hle').mp hparse).1.symm

/-- **What follows the frame does not matter**, for the answer or the state. -/
theorem receive_congr {d d' : Bytes} (hpos : 0 < St.intakeFrameLen (d.take frameMax))
    (h : d'.take (St.intakeFrameLen (d.take frameMax)) = d.take (St.intakeFrameLen (d.take frameMax)))
    (st : St) (env : Env) (revert : ApplyResult) (ip : BitVec 32) (port : BitVec 16) :
    st.receive env revert ip port d' = st.receive env revert ip port d := by
  have hmax : St.intakeFrameLen (d.take frameMax) ≤ frameMax := by
    have := intakeFrameLen_le (d.take frameMax)
    rw [List.length_take] at this
    omega
  have hcut : (d'.take frameMax).take (St.intakeFrameLen (d.take frameMax)) =
      (d.take frameMax).take (St.intakeFrameLen (d.take frameMax)) := by
    rw [List.take_take, List.take_take, min_eq_left hmax, h]
  unfold St.receive
  simp only [intake_congr hpos hcut, hcut]
  rw [if_neg (by omega), if_neg (by omega)]

/-- **Intake and parser agree on the extent of a frame.** For every buffer, some part of it parses when
and only when the intake finds a frame; that part is the one the intake cuts off, so its dispatch never
fails in parsing; and a datagram with the same frame in front is received alike. -/
theorem intake_extent :
    (∀ buf : Bytes, 0 < St.intakeFrameLen buf ↔ ∃ n ≤ buf.length, (frameParse (buf.take n)).isSome = true) ∧
    (∀ (buf : Bytes) (n : Nat), n ≤ buf.length → (frameParse (buf.take n)).isSome = true →
      n = St.intakeFrameLen buf) ∧ (∀ buf : Bytes, 0 < St.intakeFrameLen buf →
      (frameParse (buf.take (St.intakeFrameLen buf))).isSome = true) ∧
    ∀ (d d' : Bytes) (st : St) (env : Env) (revert : ApplyResult) (ip : BitVec 32) (port : BitVec 16),
      0 < St.intakeFrameLen (d.take frameMax) →
      d'.take (St.intakeFrameLen (d.take frameMax)) = d.take (St.intakeFrameLen (d.take frameMax)) →
      st.receive env revert ip port d' = st.receive env revert ip port d := by
  have hcut : ∀ buf : Bytes, 0 < St.intakeFrameLen buf →
      (frameParse (buf.take (St.intakeFrameLen buf))).isSome = true :=
    fun buf hpos => (parses_iff_intake (intakeFrameLen_le buf)).mpr ⟨rfl, hpos⟩
  refine ⟨fun buf => ⟨fun hpos => ⟨_, intakeFrameLen_le buf, hcut buf hpos⟩, ?_⟩, ?_, hcut, ?_⟩
  · rintro ⟨n, hn, hparse⟩
    obtain ⟨rfl, hpos⟩ := (parses_iff_intake hn).mp hparse
    exact hpos
  · intro buf n hn hparse
    exact ((parses_iff_intake hn).mp hparse).1
  · intro d d' st env revert ip port hpos h
    exact receive_congr hpos h st env revert ip port

end Opcd
