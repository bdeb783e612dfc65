import Opcd.Lib.Bytes

/-!
# Printing into memory

Memory is a byte at each address. `snprintf` writes a text and its NUL, cut to the room it is given; `size_t`
differences wrap. A buffer that texts are printed into one after the other holds what was printed so far
(`Mem.Printed`), and nothing outside of it changes.

* `Mem.Printed.snprintf`: a text that fits is appended.
* `Mem.Printed.frame_snprintf`: whatever is printed next stays inside the buffer.
* `Fails.foldlM`: two folds that may fail, step by step.
-/

/-- Memory: the byte at each address. -/
abbrev Mem := Nat → Byte

/-- The difference of two `size_t`. -/
def sizeSub (a b : Nat) : Nat := (a + 2 ^ 64 - b) % 2 ^ 64

theorem sizeSub_eq {a b : Nat} (h : b ≤ a) (ha : a < 2 ^ 64) : sizeSub a b = a - b := by
  have hsplit : a + 2 ^ 64 - b = a - b + 2 ^ 64 := by omega
  rw [sizeSub, hsplit, Nat.add_mod_right]
  exact Nat.mod_eq_of_lt (by omega)

namespace Mem

/-- The bytes `s` written at `p`. -/
def store (m : Mem) (p : Nat) (s : Bytes) : Mem := fun a => if p ≤ a then (s[a - p]?).getD (m a) else m a

/-- The `n` bytes at `p`. -/
def load (m : Mem) (p n : Nat) : Bytes := (List.range n).map fun i => m (p + i)

/-- `snprintf(p, cap, …)` of what prints as `s`; it returns the length of `s`. -/
def snprintf (m : Mem) (p cap : Nat) (s : Bytes) : Mem :=
  if cap = 0 then m else m.store p (s.take (cap - 1) ++ [0#8])

variable {m m₀ : Mem} {p q n cap a : Nat} {s text : Bytes}

/-- A write changes nothing outside of the bytes it writes. -/
theorem store_frame (h : a < p ∨ p + s.length ≤ a) : m.store p s a = m a := by
  unfold store
  split
  · rw [List.getElem?_eq_none (by omega)]
    rfl
  · rfl

theorem load_add (m : Mem) (p n k : Nat) : m.load p (n + k) = m.load p n ++ m.load (p + n) k := by
  simp [load, List.range_add, Function.comp_def, Nat.add_assoc]

theorem load_congr {m' : Mem} (h : ∀ a, p ≤ a → a < p + n → m' a = m a) : m'.load p n = m.load p n := by
  refine List.map_congr_left fun i hi => ?_
  exact h _ (Nat.le_add_right _ _) (Nat.add_lt_add_left (List.mem_range.mp hi) _)

theorem load_store (m : Mem) (p : Nat) (s : Bytes) : (m.store p s).load p s.length = s := by
  refine List.ext_getElem (by simp [load]) fun i hi hi' => ?_
  simp [load, store, List.getElem?_eq_getElem hi']

/-- What is printed goes no further than the room that is given. -/
theorem snprintf_frame (h : a < p ∨ p + cap ≤ a) : m.snprintf p cap s a = m a := by
  unfold snprintf
  split
  · rfl
  · refine store_frame ?_
    have hlen : (s.take (cap - 1) ++ [0#8]).length ≤ cap := by
      simp only [List.length_append, List.length_take, List.length_singleton]
      omega
    omega

theorem snprintf_eq (h : s.length < cap) : m.snprintf p cap s = m.store p (s ++ [0#8]) := by
  rw [snprintf, if_neg (by omega), List.take_of_length_le (by omega)]

/-- The buffer of `cap` bytes at `p` holds the text and its NUL, and all else is as in `m₀`. -/
structure Printed (p cap : Nat) (m₀ : Mem) (text : Bytes) (m : Mem) : Prop where
  room : text.length < cap
  reads : m.load p (text.length + 1) = text ++ [0#8]
  frame : ∀ a, a < p ∨ p + cap ≤ a → m a = m₀ a

/-- A buffer that starts with a NUL holds the empty text. -/
theorem printed_nil (hcap : cap ≠ 0) (m : Mem) (p : Nat) : Printed p cap m [] (m.store p [0#8]) := by
  refine ⟨Nat.pos_of_ne_zero hcap, m.load_store p [0#8], fun a ha => store_frame ?_⟩
  rw [List.length_singleton]
  omega

namespace Printed

theorem frame_snprintf (h : Printed p cap m₀ text m) (s : Bytes) :
    ∀ a, a < p ∨ p + cap ≤ a → m.snprintf (p + text.length) (cap - text.length) s a = m₀ a := by
  intro a ha
  have hroom := h.room
  rw [snprintf_frame (by omega)]
  exact h.frame a ha

theorem snprintf (h : Printed p cap m₀ text m) (hs : s.length < cap - text.length) :
    Printed p cap m₀ (text ++ s) (m.snprintf (p + text.length) (cap - text.length) s) := by
  refine ⟨by rw [List.length_append]; omega, ?_, h.frame_snprintf s⟩
  have hold : m.load p text.length = text := by
    have happ := h.reads
    rw [load_add] at happ
    exact (List.append_inj happ (by simp [load])).1
  have hkeep : (m.store (p + text.length) (s ++ [0#8])).load p text.length = m.load p text.length :=
    load_congr fun a _ ha => store_frame (.inl ha)
  have hnew : (m.store (p + text.length) (s ++ [0#8])).load (p + text.length) (s.length + 1) = s ++ [0#8] := by
    simpa using m.load_store (p + text.length) (s ++ [0#8])
  rw [snprintf_eq hs, List.length_append, Nat.add_assoc, load_add, hkeep, hnew, hold, List.append_assoc]

end Printed

end Mem

/-! ## Two ways of failing -/

/-- Both go on in related states, or both fail, the second with an error that satisfies `E`. -/
def Fails {β γ ε : Type*} (R : β → γ → Prop) (E : ε → Prop) : Option β → Except ε γ → Prop
  | some b, .ok c => R b c
  | none, .error e => E e
  | _, _ => False

/-- Folds whose steps go on or fail together do so as a whole. -/
theorem Fails.foldlM {α β γ ε : Type*} {R : β → γ → Prop} {E : ε → Prop} {f : β → α → Option β}
    {g : γ → α → Except ε γ} (hstep : ∀ b c a, R b c → Fails R E (f b a) (g c a)) (l : List α) {b : β} {c : γ}
    (h : R b c) : Fails R E (l.foldlM f b) (l.foldlM g c) := by
  induction l generalizing b c with
  | nil => exact h
  | cons a l ih =>
    have ha := hstep b c a h
    rw [List.foldlM_cons, List.foldlM_cons]
    cases hf : f b a with
    | none =>
      cases hg : g c a with
      | error e => rwa [hf, hg] at ha
      | ok c' => rw [hf, hg] at ha; exact ha.elim
    | some b' =>
      cases hg : g c a with
      | error e => rw [hf, hg] at ha; exact ha.elim
      | ok c' => rw [hf, hg] at ha; exact ih ha
