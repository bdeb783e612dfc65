import Opcd.Radio.Config

/-!
# Channel lists as sets of channels

A channel list is the set of the bits it has, and the band's table gives each bit at most one channel, and each
channel at most one bit. So a valid list and the set of its channels are the same thing: `scan_chlist.c` goes from
one to the other by `opc_scan_list_set_channel` and `opc_scan_list_channels`.

* `rowChannel_injective`, `scanBitForChannel_eq_some`: the table, both ways.
* `has_built`: the bits of a list that is built channel by channel.
* `scanListValid_iff`, `mem_scanListChannels`: what the validator and the enumeration say of the bits.
* `has_wireList`, `wireList_rowSetBitBytes`: the 8 bytes of the wire.
* `scan_list_algebra`: lists and sets of channels.
-/

namespace Opcd

open Bytes Protocol

/-! ## The bits of a list -/

/-- The list has the bit of the row. -/
def listHas (l : BitVec 64) (row : Row) (bit : Fin 32) : Bool := (scanRowWord l row).getLsbD bit.val

/-- The place of a bit in the list. -/
def Protocol.Row.place : Row → Nat → Nat
  | .a, i => 32 + i
  | .b, i => i

theorem listHas_eq (l : BitVec 64) (row : Row) (bit : Fin 32) : listHas l row bit = l.getLsbD (row.place bit) := by
  cases row <;> simp [listHas, scanRowWord, Row.place]

theorem list_ext {l l' : BitVec 64} (h : ∀ row bit, listHas l row bit = listHas l' row bit) : l = l' := by
  refine BitVec.eq_of_getLsbD_eq fun i hi => ?_
  by_cases hlow : i < 32
  · have hb := h .b ⟨i, hlow⟩
    rwa [listHas_eq, listHas_eq] at hb
  · have ha := h .a ⟨i - 32, by omega⟩
    rw [listHas_eq, listHas_eq] at ha
    have hi' : Row.a.place (i - 32) = i := Nat.add_sub_of_le (Nat.le_of_not_lt hlow)
    rwa [hi'] at ha

@[simp] theorem listHas_zero (row : Row) (bit : Fin 32) : listHas 0#64 row bit = false := by
  rw [listHas_eq]
  exact BitVec.getLsbD_zero

theorem place_injective {row row' : Row} {bit bit' : Fin 32} :
    row'.place bit' = row.place bit ↔ row' = row ∧ bit' = bit := by
  constructor
  · intro h
    have hb := bit.isLt
    have hb' := bit'.isLt
    cases row <;> cases row' <;> simp only [Row.place] at h
    all_goals first | omega | exact ⟨rfl, Fin.ext (by omega)⟩
  · rintro ⟨rfl, rfl⟩
    rfl

theorem listHas_rowSetBit (l : BitVec 64) (row row' : Row) (bit bit' : Fin 32) :
    listHas (rowSetBit l row bit) row' bit' = (listHas l row' bit' || decide (row' = row ∧ bit' = bit)) := by
  have hset : rowSetBit l row bit = l ||| (1 : BitVec 64) <<< row.place bit := by cases row <;> rfl
  have hlt : row'.place bit' < 64 := by
    have := bit'.isLt
    cases row' <;> simp only [Row.place] <;> omega
  have hsame : decide (row' = row ∧ bit' = bit) = decide (row'.place bit' = row.place bit) :=
    decide_eq_decide.mpr place_injective.symm
  rw [listHas_eq, listHas_eq, hset, BitVec.getLsbD_or, BitVec.getLsbD_shiftLeft, hsame]
  congr 1
  have hone (i : Nat) : (1 : BitVec 64).getLsbD i = decide (i = 0) := by
    simp [BitVec.getLsbD_one]
  rw [hone]
  simp only [hlt, decide_true, Bool.true_and]
  by_cases h : row'.place bit' < row.place bit
  · simp [h, Nat.ne_of_lt h]
  · have hiff : row'.place bit' - row.place bit = 0 ↔ row'.place bit' = row.place bit := by omega
    simp [h, hiff]

/-! ## The table of a band -/

theorem scanBandKnown_iff (band : BitVec 16) :
    scanBandKnown band = true ↔ band = scanBand24 ∨ band = scanBand5 ∨ band = scanBand6 := by
  simp [scanBandKnown]

section Table

variable {band : BitVec 16} {row row' : Row} {bit bit' : Fin 32}

theorem known_of_rowChannel (h : scanRowChannel band row bit ≠ 0) : scanBandKnown band = true := by
  rw [scanBandKnown_iff]
  unfold scanRowChannel at h
  split_ifs at h with h₁ _ h₂ _ _ _ _ h₃
  all_goals first | exact .inl h₁ | exact .inr (.inl h₂) | exact .inr (.inr h₃) | exact absurd rfl h

/-- The second row of a band other than 6 GHz has no channel. -/
theorem rowChannel_b (h6 : band ≠ scanBand6) (bit : Fin 32) : scanRowChannel band .b bit = 0 := by
  have h6' : band ≠ 6#16 := h6
  simp [scanRowChannel, h6']

/-- Along a row the channels rise. -/
theorem rowChannel_lt (hb' : scanRowChannel band row bit' ≠ 0) (h : bit < bit') :
    scanRowChannel band row bit < scanRowChannel band row bit' := by
  have hlt : bit.val < bit'.val := h
  unfold scanRowChannel at hb' ⊢
  simp only [Fin.le_def] at hb' ⊢
  split_ifs at hb' ⊢ <;> omega

/-- The channels of the second row are above those of the first. -/
theorem rowChannel_rows (hb : scanRowChannel band .b bit' ≠ 0) :
    scanRowChannel band .a bit < scanRowChannel band .b bit' := by
  have hlt := bit.isLt
  unfold scanRowChannel at hb ⊢
  split_ifs at hb ⊢ <;> first | omega | simp_all

/-- **A channel has one bit.** -/
theorem rowChannel_injective (h : scanRowChannel band row bit = scanRowChannel band row' bit')
    (hne : scanRowChannel band row bit ≠ 0) : row = row' ∧ bit = bit' := by
  have hne' : scanRowChannel band row' bit' ≠ 0 := h ▸ hne
  obtain rfl | hrow := eq_or_ne row row'
  · refine ⟨rfl, ?_⟩
    rcases lt_trichotomy bit bit' with hlt | heq | hgt
    · exact absurd h (rowChannel_lt hne' hlt).ne
    · exact heq
    · exact absurd h (rowChannel_lt hne hgt).ne'
  · cases row <;> cases row'
    · exact absurd rfl hrow
    · exact absurd h (rowChannel_rows hne').ne
    · exact absurd h (rowChannel_rows hne).ne'
    · exact absurd rfl hrow

/-- **The bit of a channel** is the one whose channel it is. -/
theorem scanBitForChannel_eq_some {c : Nat} :
    scanBitForChannel band c = some (row, bit) ↔ scanRowChannel band row bit = c ∧ c ≠ 0 := by
  have hfind : ∀ (r : Row) (b : Fin 32),
      (List.finRange 32).find? (fun b => scanRowChannel band r b = c) = some b → scanRowChannel band r b = c :=
    fun r b h => by simpa using List.find?_some h
  have hnone : ∀ r : Row, (List.finRange 32).find? (fun b => scanRowChannel band r b = c) = none →
      ∀ b, scanRowChannel band r b ≠ c :=
    fun r h b => by simpa using List.find?_eq_none.mp h b (List.mem_finRange b)
  constructor
  · intro h
    unfold scanBitForChannel at h
    split at h
    · cases h
    · rename_i hcond
      have hc : c ≠ 0 := fun h0 => hcond (.inl h0)
      split at h
      · rename_i b hb
        obtain ⟨rfl, rfl⟩ := Prod.mk.inj (Option.some.inj h)
        exact ⟨hfind _ _ hb, hc⟩
      · obtain ⟨b, hb, hrow⟩ := Option.map_eq_some_iff.mp h
        obtain ⟨rfl, rfl⟩ := Prod.mk.inj hrow
        exact ⟨hfind _ _ hb, hc⟩
  · rintro ⟨rfl, hc⟩
    have hknown := known_of_rowChannel hc
    unfold scanBitForChannel
    rw [if_neg (by simp [hc, hknown])]
    cases ha : (List.finRange 32).find? fun b => scanRowChannel band .a b = scanRowChannel band row bit with
    | some b =>
      obtain ⟨hr, hb⟩ := rowChannel_injective (hfind _ _ ha).symm hc
      rw [hr, hb]
    | none =>
      cases row with
      | a => exact absurd rfl (hnone .a ha bit)
      | b =>
        cases hb : (List.finRange 32).find? fun b => scanRowChannel band .b b = scanRowChannel band .b bit with
        | none => exact absurd rfl (hnone .b hb bit)
        | some b =>
          obtain ⟨-, heq⟩ := rowChannel_injective (hfind _ _ hb).symm hc
          rw [heq]
          rfl

/-- A channel is in the table of the band. -/
theorem isSome_scanBitForChannel {c : Nat} :
    (scanBitForChannel band c).isSome = true ↔ ∃ row bit, scanRowChannel band row bit = c ∧ c ≠ 0 := by
  rw [Option.isSome_iff_exists]
  constructor
  · rintro ⟨⟨row, bit⟩, h⟩
    exact ⟨row, bit, scanBitForChannel_eq_some.mp h⟩
  · rintro ⟨row, bit, h⟩
    exact ⟨(row, bit), scanBitForChannel_eq_some.mpr h⟩

end Table

/-! ## Lists that are built -/

section Lists

variable {band : BitVec 16}

theorem listHas_setChannel (l : BitVec 64) (c : Nat) (row : Row) (bit : Fin 32) :
    listHas (scanListSetChannel l band c) row bit =
      (listHas l row bit || decide (scanRowChannel band row bit = c ∧ c ≠ 0)) := by
  unfold scanListSetChannel
  cases h : scanBitForChannel band c with
  | none =>
    have hno : ¬ (scanRowChannel band row bit = c ∧ c ≠ 0) := fun hc => by
      rw [scanBitForChannel_eq_some.mpr hc] at h
      cases h
    rw [decide_eq_false hno, Bool.or_false]
  | some p =>
    obtain ⟨row', bit'⟩ := p
    obtain ⟨rfl, hne⟩ := scanBitForChannel_eq_some.mp h
    rw [listHas_rowSetBit]
    congr 1
    refine decide_eq_decide.mpr ⟨?_, fun hc => ?_⟩
    · rintro ⟨rfl, rfl⟩
      exact ⟨rfl, hne⟩
    · exact rowChannel_injective hc.1 (hc.1 ▸ hne)

/-- The list of the channels, one after the other. -/
def builtList (band : BitVec 16) (cs : List Nat) : BitVec 64 :=
  cs.foldl (fun l c => scanListSetChannel l band c) 0

/-- **A list that is built** has the bits of its channels. -/
theorem has_built (cs : List Nat) (row : Row) (bit : Fin 32) :
    listHas (builtList band cs) row bit =
      decide (scanRowChannel band row bit ∈ cs ∧ scanRowChannel band row bit ≠ 0) := by
  induction cs using List.reverseRecOn with
  | nil => simp [builtList]
  | append_singleton cs c ih =>
    have hsnoc : builtList band (cs ++ [c]) = scanListSetChannel (builtList band cs) band c := by
      simp [builtList]
    rw [hsnoc, listHas_setChannel, ih, ← Bool.decide_or]
    refine decide_eq_decide.mpr ?_
    rw [List.mem_append, List.mem_singleton]
    constructor
    · rintro (⟨h, hne⟩ | ⟨rfl, hne⟩)
      · exact ⟨.inl h, hne⟩
      · exact ⟨.inr rfl, hne⟩
    · rintro ⟨h | rfl, hne⟩
      · exact .inl ⟨h, hne⟩
      · exact .inr ⟨rfl, hne⟩

/-! ## The validator and the enumeration -/

theorem rowValid_iff (l : BitVec 64) (row : Row) :
    rowValid band l row = true ↔ ∀ bit, listHas l row bit = true → scanRowChannel band row bit ≠ 0 := by
  simp only [rowValid, List.all_eq_true, List.mem_finRange, true_implies, Bool.or_eq_true, Bool.not_eq_true',
    decide_eq_true_eq, listHas]
  refine forall_congr' fun bit => ?_
  cases (scanRowWord l row).getLsbD bit <;> simp

theorem rowWord_eq_zero (l : BitVec 64) (row : Row) : scanRowWord l row = 0 ↔ ∀ bit, listHas l row bit = false := by
  constructor
  · intro h bit
    rw [listHas, h]
    exact BitVec.getLsbD_zero
  · intro h
    refine BitVec.eq_of_getLsbD_eq fun i hi => ?_
    exact (h ⟨i, hi⟩).trans BitVec.getLsbD_zero.symm

/-- **A list is valid** when each bit it has is the bit of a channel. -/
theorem scanListValid_iff (hband : scanBandKnown band = true) (l : BitVec 64) :
    scanListValid band l = true ↔ ∀ row bit, listHas l row bit = true → scanRowChannel band row bit ≠ 0 := by
  unfold scanListValid
  rw [if_neg (by simp [hband])]
  by_cases h6 : band = scanBand6
  · rw [if_pos h6, Bool.and_eq_true, rowValid_iff, rowValid_iff]
    constructor
    · rintro ⟨ha, hb⟩ (_ | _)
      · exact ha
      · exact hb
    · exact fun h => ⟨h .a, h .b⟩
  · rw [if_neg h6]
    have hzero : scanRowWord l .b = 0 ↔ ∀ bit, listHas l .b bit = true → scanRowChannel band .b bit ≠ 0 := by
      rw [rowWord_eq_zero]
      refine forall_congr' fun bit => ?_
      rw [rowChannel_b h6]
      cases listHas l .b bit <;> simp
    constructor
    · intro h
      split at h
      · cases h
      · rename_i hb
        rintro (_ | _)
        · exact (rowValid_iff l .a).mp h
        · exact hzero.mp (not_not.mp hb)
    · intro h
      rw [if_neg (not_not.mpr (hzero.mpr (h .b)))]
      exact (rowValid_iff l .a).mpr (h .a)

/-- A list that is built is valid. -/
theorem scanListValid_built (hband : scanBandKnown band = true) (cs : List Nat) :
    scanListValid band (builtList band cs) = true := by
  rw [scanListValid_iff hband]
  intro row bit hhas
  rw [has_built] at hhas
  exact (of_decide_eq_true hhas).2

theorem mem_rowChannels {l : BitVec 64} {row : Row} {c : Nat} :
    c ∈ rowChannels band l row ↔
      ∃ bit, scanRowChannel band row bit = c ∧ c ≠ 0 ∧ (l = 0 ∨ listHas l row bit = true) := by
  simp only [rowChannels, rowBits, List.mem_map, List.mem_filter, List.mem_finRange, true_and,
    decide_eq_true_eq, Bool.or_eq_true, scanListEmpty, listHas]
  constructor
  · rintro ⟨bit, ⟨hne, hl⟩, rfl⟩
    exact ⟨bit, rfl, hne, hl⟩
  · rintro ⟨bit, rfl, hne, hl⟩
    exact ⟨bit, ⟨hne, hl⟩, rfl⟩

/-- **The channels of a list** are those of its bits; of the empty list, all of the band. -/
theorem mem_scanListChannels {l : BitVec 64} {c : Nat} :
    c ∈ scanListChannels band l ↔
      ∃ row bit, scanRowChannel band row bit = c ∧ c ≠ 0 ∧ (l = 0 ∨ listHas l row bit = true) := by
  have hrows : (∃ row bit, scanRowChannel band row bit = c ∧ c ≠ 0 ∧ (l = 0 ∨ listHas l row bit = true)) ↔
      c ∈ rowChannels band l .a ∨ c ∈ rowChannels band l .b := by
    rw [mem_rowChannels, mem_rowChannels]
    constructor
    · rintro ⟨_ | _, h⟩
      · exact .inl h
      · exact .inr h
    · rintro (h | h)
      · exact ⟨.a, h⟩
      · exact ⟨.b, h⟩
  rw [hrows]
  unfold scanListChannels
  split
  · rename_i hunknown
    have hno : ∀ row, c ∉ rowChannels band l row := by
      intro row hmem
      obtain ⟨bit, rfl, hne, -⟩ := mem_rowChannels.mp hmem
      exact hunknown (known_of_rowChannel hne)
    simp [hno]
  · split
    · exact List.mem_append
    · rename_i h6
      have hno : c ∉ rowChannels band l .b := by
        intro hmem
        obtain ⟨bit, rfl, hne, -⟩ := mem_rowChannels.mp hmem
        exact hne (rowChannel_b h6 bit)
      simp [hno]

theorem sorted_rowChannels (l : BitVec 64) (row : Row) : (rowChannels band l row).Pairwise (· < ·) := by
  unfold rowChannels rowBits
  refine List.pairwise_map.mpr ?_
  rw [List.filter_filter]
  have hsorted : (List.finRange 32).Pairwise (· < ·) := List.pairwise_lt_finRange 32
  refine List.Pairwise.imp_of_mem ?_ (hsorted.filter _)
  intro b b' _ hb' hlt
  obtain ⟨-, hp⟩ := List.mem_filter.mp hb'
  rw [Bool.and_eq_true, decide_eq_true_eq] at hp
  exact rowChannel_lt hp.2 hlt

/-- The channels come in ascending order. -/
theorem sorted_scanListChannels (band : BitVec 16) (l : BitVec 64) : (scanListChannels band l).Pairwise (· < ·) := by
  unfold scanListChannels
  split
  · exact List.Pairwise.nil
  · split
    · refine List.pairwise_append.mpr ⟨sorted_rowChannels l .a, sorted_rowChannels l .b, ?_⟩
      intro c hc c' hc'
      obtain ⟨bit, rfl, -, -⟩ := mem_rowChannels.mp hc
      obtain ⟨bit', rfl, hne, -⟩ := mem_rowChannels.mp hc'
      exact rowChannel_rows hne
    · exact sorted_rowChannels l .a

end Lists

/-! ## The bytes of the wire -/

/-- `row_offset`. -/
def Protocol.Row.offset : Row → Nat
  | .a => 0
  | .b => 4

/-- `opc_scan_row_word`, of the bytes. -/
def rowWordBytes (list : Buf 8) (row : Row) : BitVec 32 :=
  let p (i : Nat) : BitVec 32 := (byteAt list.toList (row.offset + i)).setWidth 32
  p 0 <<< 24 ||| p 1 <<< 16 ||| p 2 <<< 8 ||| p 3

/-- The byte and the bit of a bit of a row. -/
def byteIdx (row : Row) (bit : Fin 32) : Nat := row.offset + 3 - bit / 8

/-- `row_set_bit`, of the bytes. -/
def rowSetBitBytes (list : Buf 8) (row : Row) (bit : Fin 32) : Buf 8 :=
  Vector.ofFn fun i =>
    if i.val = byteIdx row bit then list[i] ||| (1 : Byte) <<< (bit.val % 8) else list[i]

/-- The list in 8 bytes. -/
def wireList (list : Buf 8) : BitVec 64 := unpackChlist list.toList 0

theorem getLsbD_be32Read (b : Bytes) (i : Nat) {k : Nat} (hk : k < 32) :
    (be32Read b i).getLsbD k = (b.byteAt (i + 3 - k / 8)).getLsbD (k % 8) := by
  unfold be32Read be16Read
  simp only [BitVec.getLsbD_append]
  by_cases h₃ : k < 8
  · have hd : k / 8 = 0 := by omega
    have hm : k % 8 = k := by omega
    simp [h₃, hd, hm, show k < 16 by omega]
  · by_cases h₂ : k < 16
    · have hd : k / 8 = 1 := by omega
      have hm : k % 8 = k - 8 := by omega
      simp [h₃, h₂, hd, hm]
    · by_cases h₁ : k < 24
      · have hd : k / 8 = 2 := by omega
        have hm : k % 8 = k - 16 := by omega
        simp [h₂, hd, hm, show k - 16 < 8 by omega]
      · have hd : k / 8 = 3 := by omega
        have hm : k % 8 = k - 16 - 8 := by omega
        simp [h₂, hd, hm, show ¬ k - 16 < 8 by omega]

theorem scanRowWord_wireList (list : Buf 8) (row : Row) :
    scanRowWord (wireList list) row = be32Read list.toList row.offset := by
  refine BitVec.eq_of_getLsbD_eq fun k hk => ?_
  have happ (i : Nat) : (wireList list).getLsbD i =
      if i < 32 then (be32Read list.toList 4).getLsbD i
      else (be32Read list.toList 0).getLsbD (i - 32) := BitVec.getLsbD_append
  cases row with
  | a => simp only [scanRowWord, BitVec.getLsbD_extractLsb', happ, Row.offset]; simp [hk]
  | b => simp only [scanRowWord, BitVec.getLsbD_extractLsb', happ, Row.offset]; simp [hk]

/-- **The bits of a list in its bytes**: the most significant byte of a row is the first. -/
theorem has_wireList (list : Buf 8) (row : Row) (bit : Fin 32) :
    listHas (wireList list) row bit = (byteAt list.toList (byteIdx row bit)).getLsbD (bit % 8) := by
  rw [listHas, scanRowWord_wireList, getLsbD_be32Read _ _ bit.isLt]
  rfl

theorem rowWordBytes_eq (list : Buf 8) (row : Row) : rowWordBytes list row = scanRowWord (wireList list) row := by
  rw [scanRowWord_wireList]
  refine BitVec.eq_of_getLsbD_eq fun k hk => ?_
  rw [getLsbD_be32Read _ _ hk]
  unfold rowWordBytes
  have hbyte (v : Byte) {j : Nat} (hj : 8 ≤ j) : v.getLsbD j = false := BitVec.getLsbD_of_ge v j hj
  simp only [BitVec.getLsbD_or, BitVec.getLsbD_shiftLeft, BitVec.getLsbD_setWidth]
  by_cases h₃ : k < 8
  · have hd : k / 8 = 0 := by omega
    have hm : k % 8 = k := by omega
    simp [h₃, hd, hm, hk, show k < 16 by omega, show k < 24 by omega]
  · by_cases h₂ : k < 16
    · have hd : k / 8 = 1 := by omega
      have hm : k % 8 = k - 8 := by omega
      simp [h₃, h₂, hd, hm, hk, show k < 24 by omega, hbyte _ (Nat.le_of_not_lt h₃), show k - 8 < 32 by omega]
    · by_cases h₁ : k < 24
      · have hd : k / 8 = 2 := by omega
        have hm : k % 8 = k - 16 := by omega
        simp [h₃, h₂, h₁, hd, hm, hk, hbyte _ (Nat.le_of_not_lt h₃), hbyte _ (show 8 ≤ k - 8 by omega),
          show k - 16 < 32 by omega]
      · have hd : k / 8 = 3 := by omega
        have hm : k % 8 = k - 24 := by omega
        simp [h₃, h₂, h₁, hd, hm, hk, hbyte _ (Nat.le_of_not_lt h₃), hbyte _ (show 8 ≤ k - 8 by omega),
          hbyte _ (show 8 ≤ k - 16 by omega), show k - 24 < 32 by omega]

theorem wireList_rowSetBitBytes (list : Buf 8) (row : Row) (bit : Fin 32) :
    wireList (rowSetBitBytes list row bit) = rowSetBit (wireList list) row bit := by
  have hidx : ∀ r (b : Fin 32), byteIdx r b < 8 := by
    intro r b
    cases r <;> simp only [byteIdx, Row.offset] <;> omega
  refine list_ext fun row' bit' => ?_
  rw [listHas_rowSetBit, has_wireList, has_wireList]
  have hlt := hidx row' bit'
  have hget (l : Buf 8) : byteAt l.toList (byteIdx row' bit') = l[byteIdx row' bit'] := by
    simp [byteAt, List.getD_eq_getElem?_getD, hlt]
  rw [hget, hget, rowSetBitBytes, Vector.getElem_ofFn]
  have hone (n j : Nat) (hj : j < 8) : ((1 : Byte) <<< n).getLsbD j = decide (j = n) := by
    rw [BitVec.getLsbD_shiftLeft]
    by_cases hjn : j < n
    · simp [hjn, Nat.ne_of_lt hjn]
    · have hiff : j - n = 0 ↔ j = n := by omega
      simp [hj, hjn, BitVec.getLsbD_one, hiff]
  have hm : bit'.val % 8 < 8 := Nat.mod_lt _ (by omega)
  by_cases h : byteIdx row' bit' = byteIdx row bit
  · rw [if_pos h, BitVec.getLsbD_or, hone _ _ hm]
    congr 1
    refine decide_eq_decide.mpr ⟨fun heq => ?_, ?_⟩
    · have hb := bit.isLt
      have hb' := bit'.isLt
      cases row <;> cases row' <;> simp only [byteIdx, Row.offset] at h
      all_goals first | omega | exact ⟨rfl, Fin.ext (by omega)⟩
    · rintro ⟨rfl, rfl⟩
      rfl
  · rw [if_neg h]
    have hno : ¬ (row' = row ∧ bit' = bit) := by
      rintro ⟨rfl, rfl⟩
      exact h rfl
    rw [decide_eq_false hno, Bool.or_false]
    rfl

/-! ## Lists and sets of channels -/

/-- **Scan-list algebra.** For a known band: a list that is not empty is valid when building a list from its
channels gives it back; the channels ascend; and whatever channels a list is built from, it is valid, depends on
their set only and, unless it is empty, has exactly those of them that are in the table of the band. The rows and
the bits are those of the 8 bytes. -/
theorem scan_list_algebra (band : BitVec 16) (hband : scanBandKnown band = true) :
    (∀ l : BitVec 64, l ≠ 0 → (scanListValid band l = true ↔ builtList band (scanListChannels band l) = l)) ∧
    (∀ l : BitVec 64, (scanListChannels band l).Pairwise (· < ·)) ∧
    (∀ cs : List Nat, scanListValid band (builtList band cs) = true ∧
      (∀ cs' : List Nat, (∀ c, c ∈ cs' ↔ c ∈ cs) → builtList band cs' = builtList band cs) ∧
      (builtList band cs ≠ 0 → ∀ c, c ∈ scanListChannels band (builtList band cs) ↔
        c ∈ cs ∧ (scanBitForChannel band c).isSome = true)) ∧
    (∀ (list : Buf 8) (row : Row), rowWordBytes list row = scanRowWord (wireList list) row) ∧
    ∀ (list : Buf 8) (row : Row) (bit : Fin 32),
      wireList (rowSetBitBytes list row bit) = rowSetBit (wireList list) row bit := by
  refine ⟨fun l hl => ?_, sorted_scanListChannels band,
    fun cs => ⟨scanListValid_built hband cs, fun cs' hcs => ?_, fun hne c => ?_⟩,
    rowWordBytes_eq, wireList_rowSetBitBytes⟩
  · -- the channels of the list give back the bits that have a channel
    have hback : ∀ row bit, listHas (builtList band (scanListChannels band l)) row bit =
        (listHas l row bit && decide (scanRowChannel band row bit ≠ 0)) := by
      intro row bit
      rw [has_built, ← Bool.decide_coe (listHas l row bit), ← Bool.decide_and]
      refine decide_eq_decide.mpr (and_congr_left fun hne => ?_)
      rw [mem_scanListChannels]
      constructor
      · rintro ⟨row', bit', heq, -, h0 | hhas⟩
        · exact absurd h0 hl
        · obtain ⟨rfl, rfl⟩ := rowChannel_injective heq (heq ▸ hne)
          exact hhas
      · exact fun hhas => ⟨row, bit, rfl, hne, .inr hhas⟩
    rw [scanListValid_iff hband]
    constructor
    · intro h
      refine list_ext fun row bit => ?_
      rw [hback]
      cases hhas : listHas l row bit with
      | false => rfl
      | true => simpa using h row bit hhas
    · intro h row bit hhas
      have hbit := hback row bit
      rw [h, hhas, Bool.true_and] at hbit
      exact of_decide_eq_true hbit.symm
  · refine list_ext fun row bit => ?_
    rw [has_built, has_built]
    exact decide_eq_decide.mpr (and_congr_left fun _ => hcs _)
  · rw [mem_scanListChannels, isSome_scanBitForChannel]
    constructor
    · rintro ⟨row, bit, rfl, hc, h0 | hhas⟩
      · exact absurd h0 hne
      · rw [has_built] at hhas
        exact ⟨(of_decide_eq_true hhas).1, row, bit, rfl, hc⟩
    · rintro ⟨hmem, row, bit, rfl, hc⟩
      refine ⟨row, bit, rfl, hc, .inr ?_⟩
      rw [has_built]
      exact decide_eq_true ⟨hmem, hc⟩

/-- Four channels of the 5 GHz band, one of them unknown. -/
theorem scan_list_algebra_wide :
    scanBandKnown scanBand5 = true ∧ builtList scanBand5 [165, 36, 7, 100] ≠ 0 ∧
      scanListChannels scanBand5 (builtList scanBand5 [165, 36, 7, 100]) = [36, 100, 165] ∧
      scanListValid scanBand5 (builtList scanBand5 [165, 36, 7, 100]) = true :=
  ⟨by decide, by decide, by decide, ((scan_list_algebra scanBand5 (by decide)).2.2.1 _).1⟩

end Opcd
