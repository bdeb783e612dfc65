import Mathlib

/-!
# Bytes, C strings and lines

Byte strings are lists of 8-bit vectors. A C string is read up to its first NUL; a text is split
into lines at newlines. A text whose lines all end in a newline (`terminated`) splits back into
those lines and an empty one (`lines_terminated`).
-/

/-- A byte. -/
abbrev Byte := BitVec 8

-- named, so that membership tests in different modules carry one and the same proof
instance : LawfulBEq Byte := inferInstance

/-- A byte string. -/
abbrev Bytes := List Byte

namespace Bytes

/-- The byte of an ASCII character. -/
abbrev ch (c : Char) : Byte := BitVec.ofNat 8 c.toNat

/-- The bytes of an ASCII string. -/
def ofString (s : String) : Bytes := s.toList.map ch

/-- The C string in a buffer: the bytes before the first NUL. -/
def cstr (b : Bytes) : Bytes := b.takeWhile (· ≠ 0#8)

theorem cstr_eq_self {b : Bytes} (h : 0#8 ∉ b) : cstr b = b := by
  refine List.takeWhile_eq_self_iff.mpr fun x hx => ?_
  simpa using fun e : x = 0#8 => h (e ▸ hx)

theorem zero_notMem_cstr (b : Bytes) : 0#8 ∉ cstr b := by
  intro h
  have := List.mem_takeWhile_imp h
  simp at this

/-! ## Lines -/

abbrev nl : Byte := ch '\n'

/-- The text between newlines; the last line is what follows the last newline. -/
def lines (b : Bytes) : List Bytes := b.splitOn nl

/-- Put newlines between lines. -/
def unlines (ls : List Bytes) : Bytes := [nl].intercalate ls

/-- Put a newline after each line. -/
def terminated (ls : List Bytes) : Bytes := ls.flatMap (· ++ [nl])

theorem unlines_lines (b : Bytes) : unlines (lines b) = b := List.intercalate_splitOn nl

theorem lines_unlines {ls : List Bytes} (h : ∀ l ∈ ls, nl ∉ l) (hne : ls ≠ []) :
    lines (unlines ls) = ls := List.splitOn_intercalate nl h hne

theorem lines_append_nl {l : Bytes} (h : nl ∉ l) (b : Bytes) :
    lines (l ++ nl :: b) = l :: lines b := List.splitOn_append_cons_self_of_not_mem h b

theorem nl_notMem_of_mem_lines {b l : Bytes} (h : l ∈ lines b) : nl ∉ l := by
  unfold lines at h
  induction b generalizing l with
  | nil => simp_all
  | cons x xs ih =>
    rw [List.splitOn_cons_eq_if_modifyHead] at h
    split at h
    · rcases List.mem_cons.mp h with rfl | h
      · simp
      · exact ih h
    · next hx =>
      cases hs : xs.splitOn nl with
      | nil => simp [hs] at h
      | cons y ys =>
        rw [hs, List.modifyHead_cons] at h
        rcases List.mem_cons.mp h with rfl | h
        · have := ih (l := y) (by simp [hs])
          simp only [List.mem_cons, not_or]
          exact ⟨fun e => hx (by simp [← e]), this⟩
        · exact ih (by simp [hs, h])

theorem lines_terminated {ls : List Bytes} (h : ∀ l ∈ ls, nl ∉ l) : lines (terminated ls) = ls ++ [[]] := by
  induction ls with
  | nil => rfl
  | cons l ls ih =>
    have hl : nl ∉ l := h l (by simp)
    have hls := ih fun k hk => h k (List.mem_cons_of_mem l hk)
    show lines ((l ++ [nl]) ++ terminated ls) = _
    rw [List.append_assoc, List.singleton_append, lines_append_nl hl, hls, List.cons_append]

/-- A text is its lines before some line, that line, and the lines after it. -/
theorem unlines_split (pre post : List Bytes) (l : Bytes) :
    unlines (pre ++ l :: post) = terminated pre ++ l ++ post.flatMap (nl :: ·) := by
  induction pre with
  | nil =>
    induction post generalizing l with
    | nil => simp [unlines, terminated]
    | cons k post ih =>
      have := ih k
      simp only [List.nil_append, unlines, terminated, List.flatMap_nil, List.intercalate_cons_cons,
        List.flatMap_cons] at this ⊢
      rw [this]
      simp
  | cons k pre ih =>
    cases hp : pre ++ l :: post with
    | nil => simp at hp
    | cons a as =>
      rw [hp] at ih
      rw [List.cons_append, hp]
      simp only [unlines, terminated, List.intercalate_cons_cons, List.flatMap_cons] at ih ⊢
      rw [ih]
      simp [List.append_assoc]

/-- What does not hold the separator starts a line if it starts the text. -/
theorem startsWith_of_notMem {b l r : Bytes} {x : Byte} (h : b <+: l ++ x :: r) (hx : x ∉ b) : b <+: l := by
  induction b generalizing l with
  | nil => exact List.nil_prefix
  | cons c b ih =>
    simp only [List.mem_cons, not_or] at hx
    cases l with
    | nil => exact absurd (List.cons_prefix_cons.mp h).1.symm hx.1
    | cons d l =>
      obtain ⟨rfl, hb⟩ := List.cons_prefix_cons.mp h
      exact List.cons_prefix_cons.mpr ⟨rfl, ih hb hx.2⟩

/-- The bytes a bounded scan takes, and the rest. -/
theorem scan_append_drop (p : Byte → Bool) (n : Nat) (s : Bytes) :
    ((s.take n).takeWhile p) ++ s.drop ((s.take n).takeWhile p).length = s := by
  have hscan : (s.take n).takeWhile p <+: s.take n := List.takeWhile_prefix p
  have htake : s.take n <+: s := List.take_prefix n s
  exact List.prefix_iff_eq_append.mp (hscan.trans htake)

end Bytes
