import Opcd.Lib.Bytes

/-!
# Big-endian words and fixed-width buffers

Words are read from a byte string at an offset and written most significant byte first; a word
written is the word read back (`be16Read_be16Write`, `be32Read_be32Write`), also behind other fields
(`be16Read_past`). A `Buf n` is a C array of `n` bytes.
-/

namespace Bytes

/-- The byte at an offset, 0 past the end. -/
def byteAt (b : Bytes) (i : Nat) : Byte := b.getD i 0

def be16Read (b : Bytes) (i : Nat) : BitVec 16 := b.byteAt i ++ b.byteAt (i + 1)

def be32Read (b : Bytes) (i : Nat) : BitVec 32 := be16Read b i ++ be16Read b (i + 2)

def be16Write (v : BitVec 16) : Bytes := [v.extractLsb' 8 8, v.extractLsb' 0 8]

def be32Write (v : BitVec 32) : Bytes :=
  be16Write (v.extractLsb' 16 16) ++ be16Write (v.extractLsb' 0 16)

@[simp] theorem length_be16Write (v : BitVec 16) : (be16Write v).length = 2 := by simp [be16Write]

@[simp] theorem length_be32Write (v : BitVec 32) : (be32Write v).length = 4 := by simp [be32Write]

theorem append_bytes16 (v : BitVec 16) : v.extractLsb' 8 8 ++ v.extractLsb' 0 8 = v := by
  ext i hi
  grind

/-- A word written is the word read back. -/
theorem be16Read_be16Write (v : BitVec 16) (b : Bytes) : be16Read (be16Write v ++ b) 0 = v :=
  append_bytes16 v

theorem be32Read_be32Write (v : BitVec 32) (b : Bytes) : be32Read (be32Write v ++ b) 0 = v := by
  have h0 : be16Read (be32Write v ++ b) 0 = v.extractLsb' 16 16 := append_bytes16 _
  have h2 : be16Read (be32Write v ++ b) 2 = v.extractLsb' 0 16 := append_bytes16 _
  rw [be32Read, h0, h2]
  ext i hi
  grind

/-! ## Reading past a field

A field at an offset is read from what follows the fields before it. -/

section Past

variable {a b : Bytes} {i : Nat}

theorem byteAt_past (h : a.length ≤ i) : byteAt (a ++ b) i = byteAt b (i - a.length) := by
  simp [byteAt, List.getD_eq_getElem?_getD, List.getElem?_append_right h]

theorem byteAt_past_add (h : a.length ≤ i) (k : Nat) : byteAt (a ++ b) (i + k) = byteAt b (i - a.length + k) := by
  rw [byteAt_past (by omega), show i + k - a.length = i - a.length + k by omega]

theorem be16Read_past (h : a.length ≤ i) : be16Read (a ++ b) i = be16Read b (i - a.length) := by
  rw [be16Read, be16Read, byteAt_past h, byteAt_past_add h]

theorem be32Read_past (h : a.length ≤ i) : be32Read (a ++ b) i = be32Read b (i - a.length) := by
  rw [be32Read, be32Read, be16Read_past h, be16Read_past (by omega),
    show i + 2 - a.length = i - a.length + 2 by omega]

end Past

/-! ## Buffers -/

/-- A C array of `n` bytes. -/
abbrev Buf (n : Nat) := Vector Byte n

namespace Buf

variable {n : Nat}

/-- All zeros. -/
def zero (n : Nat) : Buf n := Vector.replicate n 0

/-- The C string a buffer holds. -/
def str (b : Buf n) : Bytes := cstr b.toList

/-- A zeroed buffer with the bytes copied to its start. -/
def ofBytes (n : Nat) (s : Bytes) : Buf n := Vector.ofFn fun i => s.byteAt i

theorem toList_ofBytes {s : Bytes} (h : s.length ≤ n) :
    (ofBytes n s).toList = s ++ List.replicate (n - s.length) 0 := by
  apply List.ext_getElem
  · simp only [Vector.length_toList, List.length_append, List.length_replicate]
    omega
  · intro i h1 h2
    simp only [Vector.length_toList] at h1
    simp only [ofBytes, Vector.getElem_toList, Vector.getElem_ofFn, byteAt, List.getElem_append,
      List.getElem_replicate]
    split <;> simp_all

/-- A short string put into a buffer is the string the buffer holds. -/
theorem str_ofBytes {s : Bytes} (h : s.length ≤ n) (hs : 0#8 ∉ s) : (ofBytes n s).str = s := by
  have hrep : cstr (List.replicate (n - s.length) 0) = [] := by
    cases n - s.length <;> simp [cstr, List.replicate_succ]
  rw [str, toList_ofBytes h, cstr,
    List.takeWhile_append_of_pos fun b hb => by simpa using fun e : b = 0#8 => hs (e ▸ hb)]
  exact (congrArg (s ++ ·) hrep).trans (List.append_nil s)

theorem length_str_le (b : Buf n) : b.str.length ≤ n := by
  have h := (List.takeWhile_prefix (p := (· ≠ 0#8)) (l := b.toList)).length_le
  rwa [Vector.length_toList] at h

/-- The string of a buffer that holds a NUL is shorter than the buffer. -/
theorem length_str_lt {b : Buf n} (h : 0#8 ∈ b.toList) : b.str.length < n := by
  refine lt_of_le_of_ne (length_str_le b) fun he => ?_
  have hp := List.takeWhile_prefix (p := (· ≠ 0#8)) (l := b.toList)
  have heq : b.toList.takeWhile (· ≠ 0#8) = b.toList :=
    hp.eq_of_length (he.trans Vector.length_toList.symm)
  rw [← heq] at h
  exact zero_notMem_cstr b.toList h

/-- The `n` bytes at an offset. -/
def read (n : Nat) (b : Bytes) (i : Nat) : Buf n := Vector.ofFn fun k => b.byteAt (i + k)

theorem read_toList (v : Buf n) (b : Bytes) : read n (v.toList ++ b) 0 = v := by
  ext k hk
  simp [read, byteAt, List.getD_eq_getElem?_getD, List.getElem?_append_left]

theorem read_past {a b : Bytes} {i : Nat} (h : a.length ≤ i) : read n (a ++ b) i = read n b (i - a.length) := by
  simp only [read, byteAt_past_add h]

/-- The buffer holds a terminated string and nothing behind it. -/
def Padded (b : Buf n) : Prop := ∃ s : Bytes, s.length < n ∧ 0#8 ∉ s ∧ b = ofBytes n s

end Buf

/-- The string is not changed by cutting the buffer after it. -/
theorem cstr_take {s : Bytes} {n : Nat} (h : (cstr s).length ≤ n) : cstr (s.take n) = cstr s := by
  induction s generalizing n with
  | nil => simp
  | cons b s ih =>
    by_cases hb : b = 0#8
    · cases n <;> simp [cstr, hb]
    · have hcons : cstr (b :: s) = b :: cstr s := by simp [cstr, hb]
      rw [hcons] at h ⊢
      obtain ⟨m, rfl⟩ : ∃ m, n = m + 1 := ⟨n - 1, by simp at h; omega⟩
      have := ih (n := m) (by simpa using h)
      rw [List.take_succ_cons, ← this]
      simp [cstr, hb]

/-- `strncmp a b n = 0`. -/
def strncmpEq (n : Nat) (a b : Bytes) : Bool := cstr (a.take n) = cstr (b.take n)

/-- `strnlen s n`. -/
def strnlen (s : Bytes) (n : Nat) : Nat := (cstr (s.take n)).length

end Bytes
