import Opcd.Lib.Machine
import Opcd.Lib.Words

/-!
# Attribute streams

A stream of attributes, each with a 16-bit length that counts its own four header bytes, a 16-bit type with
two flag bits on top, a payload, and padding to a multiple of four. Words are little-endian.

`walk` goes over a stream inside a larger buffer. Each of its reads is checked: `none` is a read outside the
buffer, so a walk that is `some` stays inside. `attrs` is what a stream says, as a list.

* `walk_eq`, `isSome_walk`: a walk with a handler that stays inside does, and folds the handler over `attrs`.
* `attrs_encode`, `attrs_encode_cut`: what was encoded is read back, whatever follows it.
* `foldl_last`: a fold in which the last attribute that is accepted decides.
-/

namespace Bytes

/-! ## Checked reads -/

/-- A 16-bit word, byte by byte. -/
def le16Read (b : Bytes) (i : Nat) : BitVec 16 := b.byteAt (i + 1) ++ b.byteAt i

def le32Read (b : Bytes) (i : Nat) : BitVec 32 := le16Read b (i + 2) ++ le16Read b i

def le16Write (v : BitVec 16) : Bytes := [v.extractLsb' 0 8, v.extractLsb' 8 8]

/-- `n` bytes from `i` on, if they are inside. -/
def slice? (b : Bytes) (i n : Nat) : Option Bytes :=
  if i + n ≤ b.length then some ((b.drop i).take n) else none

/-- A 16-bit word, if it is inside. -/
def le16? (b : Bytes) (i : Nat) : Option (BitVec 16) := (b.slice? i 2).map (le16Read · 0)

def le32? (b : Bytes) (i : Nat) : Option (BitVec 32) := (b.slice? i 4).map (le32Read · 0)

section Reads

variable {b : Bytes} {i n : Nat}

theorem slice?_eq (h : i + n ≤ b.length) : b.slice? i n = some ((b.drop i).take n) := if_pos h

theorem le16?_eq (h : i + 2 ≤ b.length) : b.le16? i = some (le16Read ((b.drop i).take 2) 0) := by
  rw [le16?, slice?_eq h]
  rfl

theorem le32?_eq (h : i + 4 ≤ b.length) : b.le32? i = some (le32Read ((b.drop i).take 4) 0) := by
  rw [le32?, slice?_eq h]
  rfl

theorem byteAt_take (h : i < n) : byteAt (b.take n) i = b.byteAt i := by
  simp [byteAt, h]

theorem byteAt_drop (k : Nat) : byteAt (b.drop k) i = b.byteAt (k + i) := by
  simp [byteAt]

/-- A word depends on its two bytes only. -/
theorem le16Read_take (h : i + 2 ≤ n) : le16Read (b.take n) i = le16Read b i := by
  rw [le16Read, byteAt_take (by omega), byteAt_take (by omega), le16Read]

theorem le16Read_drop (k : Nat) : le16Read (b.drop k) i = le16Read b (k + i) := by
  rw [le16Read, byteAt_drop, byteAt_drop, le16Read, Nat.add_assoc]

theorem le32Read_take (h : i + 4 ≤ n) : le32Read (b.take n) i = le32Read b i := by
  rw [le32Read, le16Read_take (by omega), le16Read_take (by omega), le32Read]

end Reads

theorem le16Read_le16Write (v : BitVec 16) (b : Bytes) : le16Read (le16Write v ++ b) 0 = v :=
  append_bytes16 v

@[simp] theorem length_le16Write (v : BitVec 16) : (le16Write v).length = 2 := by simp [le16Write]

end Bytes

namespace Attributes

open Bytes

/-- `(n + 3) & ~3`. -/
def align4 (n : Nat) : Nat := (n + 3) / 4 * 4

theorem le_align4 (n : Nat) : n ≤ align4 n := by
  unfold align4
  omega

/-! ## Streams -/

/-- An attribute, without the flag bits of its type. -/
structure Attr where
  type : BitVec 16
  payload : Bytes
  deriving DecidableEq

/-- The low 14 bits of a type. -/
def typeMask : BitVec 16 := 0x3fff

/-- A whole attribute starts here: its length is no shorter than its header and no longer than what is
there. -/
def Starts (b : Bytes) : Prop :=
  4 ≤ b.length ∧ 4 ≤ (le16Read b 0).toNat ∧ (le16Read b 0).toNat ≤ b.length

instance instDecidableStarts (b : Bytes) : Decidable (Starts b) :=
  inferInstanceAs (Decidable (_ ∧ _))

/-- The attribute that starts here. -/
def first (b : Bytes) : Attr :=
  ⟨le16Read b 2 &&& typeMask, (b.take (le16Read b 0).toNat).drop 4⟩

/-- The attributes of a stream, up to the first that is not whole. -/
def attrs (b : Bytes) : List Attr :=
  if _h : Starts b then first b :: attrs (b.drop (align4 (le16Read b 0).toNat)) else []
termination_by b.length
decreasing_by
  have hle := le_align4 (le16Read b 0).toNat
  obtain ⟨h₁, h₂, -⟩ := _h
  rw [List.length_drop]
  omega

theorem attrs_of_starts {b : Bytes} (h : Starts b) :
    attrs b = first b :: attrs (b.drop (align4 (le16Read b 0).toNat)) := by
  rw [attrs, dif_pos h]

theorem attrs_of_not_starts {b : Bytes} (h : ¬ Starts b) : attrs b = [] := by
  rw [attrs, dif_neg h]

/-- Fold over the attributes until the handler says that it is done. -/
def foldUntil {σ : Type*} (g : σ → Attr → σ × Bool) : σ → List Attr → σ
  | s, [] => s
  | s, a :: as => if (g s a).2 then (g s a).1 else foldUntil g (g s a).1 as

/-- A handler that is never done. -/
theorem foldUntil_eq_foldl {σ : Type*} (g : σ → Attr → σ) (s : σ) (as : List Attr) :
    foldUntil (fun s a => (g s a, false)) s as = as.foldl g s := by
  induction as generalizing s with
  | nil => rfl
  | cons a as ih =>
    rw [foldUntil, if_neg Bool.false_ne_true]
    exact ih _

/-! ## The walk -/

section Walk

variable {σ : Type*} (b : Bytes) (base len : Nat)
  (f : σ → BitVec 16 → Nat → Nat → Option (σ × Bool))

/-- The walk over the `len` bytes at `base`, from offset `off` on. The handler gets the type, where the
payload is and how long it is. An offset past the end ends the walk; the length of an attribute is at
least four, so each turn gets further. -/
def walk (off : Nat) (s : σ) : Option σ :=
  if _hoff : off + 4 ≤ len then
    match b.le16? (base + off), b.le16? (base + off + 2) with
    | some n, some ty =>
      if _hn : n.toNat < 4 then some s
      else if n.toNat > len - off then some s
      else
        match f s (ty &&& typeMask) (base + off + 4) (n.toNat - 4) with
        | none => none
        | some (s', true) => some s'
        | some (s', false) => walk (off + align4 n.toNat) s'
    | _, _ => none
  else some s
termination_by len - off
decreasing_by
  have hle := le_align4 n.toNat
  omega

variable {b base len f}

/-- **A walk stays inside** when its handler does, and is the fold over the attributes. -/
theorem walk_eq {g : σ → Attr → σ × Bool}
    (hf : ∀ s ty pl n, base ≤ pl → pl + n ≤ base + len → f s ty pl n = some (g s ⟨ty, (b.drop pl).take n⟩))
    (hlen : base + len ≤ b.length) (off : Nat) (s : σ) :
    walk b base len f off s = some (foldUntil g s (attrs (((b.drop base).take len).drop off))) := by
  induction hm : len - off using Nat.strong_induction_on generalizing off s with
  | _ m ih =>
    subst hm
    have hrest : ((b.drop base).take len).drop off = (b.drop (base + off)).take (len - off) := by
      rw [List.drop_take, List.drop_drop]
    rw [walk]
    by_cases hoff : off + 4 ≤ len
    · have hrl : ((b.drop (base + off)).take (len - off)).length = len - off := by
        rw [List.length_take, List.length_drop]
        omega
      have hword : le16Read ((b.drop (base + off)).take 2) 0 =
          le16Read ((b.drop (base + off)).take (len - off)) 0 := by
        rw [le16Read_take (by omega), le16Read_take (by omega)]
      have htype : le16Read ((b.drop (base + off + 2)).take 2) 0 =
          le16Read ((b.drop (base + off)).take (len - off)) 2 := by
        rw [le16Read_take (by omega), le16Read_take (by omega), le16Read_drop, le16Read_drop]
      rw [dif_pos hoff, le16?_eq (by omega), le16?_eq (by omega), hword, htype, hrest]
      generalize hr : (b.drop (base + off)).take (len - off) = r at hrl ih
      dsimp only
      by_cases hstarts : Starts r
      · obtain ⟨h₁, h₂, h₃⟩ := hstarts
        rw [dif_neg (by omega), if_neg (by omega), attrs_of_starts ⟨h₁, h₂, h₃⟩, foldUntil]
        have hfirst : first r = ⟨le16Read r 2 &&& typeMask,
            (b.drop (base + off + 4)).take ((le16Read r 0).toNat - 4)⟩ := by
          rw [first]
          congr 1
          generalize (le16Read r 0).toNat = n at h₂ h₃
          rw [← hr, List.take_take, List.drop_take, List.drop_drop]
          congr 1
          omega
        rw [hf s _ _ _ (by omega) (by omega), ← hfirst]
        generalize hg : g s (first r) = res
        obtain ⟨s', stop⟩ := res
        cases stop with
        | true => rfl
        | false =>
          have hle := le_align4 (le16Read r 0).toNat
          have hstep := ih (len - (off + align4 (le16Read r 0).toNat)) (by omega)
            (off + align4 (le16Read r 0).toNat) s' rfl
          dsimp only
          rw [hstep, if_neg Bool.false_ne_true, ← List.drop_drop, hrest, hr]
      · rw [attrs_of_not_starts hstarts]
        by_cases hn : (le16Read r 0).toNat < 4
        · rw [dif_pos hn]
          rfl
        · have hlong : (le16Read r 0).toNat > len - off := by
            by_contra hno
            exact hstarts ⟨by omega, by omega, by omega⟩
          rw [dif_neg hn, if_pos hlong]
          rfl
    · have hstarts : ¬ Starts (((b.drop base).take len).drop off) := by
        rintro ⟨h, -⟩
        rw [List.length_drop, List.length_take, List.length_drop] at h
        omega
      rw [dif_neg hoff, attrs_of_not_starts hstarts]
      rfl

/-- A walk stays inside when its handler does. -/
theorem isSome_walk (hf : ∀ s ty pl n, base ≤ pl → pl + n ≤ base + len → (f s ty pl n).isSome)
    (hlen : base + len ≤ b.length) (off : Nat) (s : σ) : (walk b base len f off s).isSome := by
  induction hm : len - off using Nat.strong_induction_on generalizing off s with
  | _ m ih =>
    subst hm
    rw [walk]
    by_cases hoff : off + 4 ≤ len
    · rw [dif_pos hoff, le16?_eq (by omega), le16?_eq (by omega)]
      dsimp only
      generalize le16Read ((b.drop (base + off)).take 2) 0 = w
      generalize le16Read ((b.drop (base + off + 2)).take 2) 0 = ty
      by_cases hn : w.toNat < 4
      · rw [dif_pos hn]
        rfl
      by_cases hlong : w.toNat > len - off
      · rw [dif_neg hn, if_pos hlong]
        rfl
      rw [dif_neg hn, if_neg hlong]
      have hsome := hf s (ty &&& typeMask) (base + off + 4) (w.toNat - 4) (by omega) (by omega)
      obtain ⟨⟨s', stop⟩, hres⟩ := Option.isSome_iff_exists.1 hsome
      rw [hres]
      cases stop with
      | true => rfl
      | false =>
        have hle := le_align4 w.toNat
        exact ih (len - (off + align4 w.toNat)) (by omega) _ s' rfl
    · rw [dif_neg hoff]
      rfl

end Walk

/-! ## Encoding -/

/-- An attribute on the wire, with any flag bits and any padding. -/
structure Wire where
  type : BitVec 16
  payload : Bytes
  pad : Bytes
  fits : payload.length + 4 < 2 ^ 16
  aligned : pad.length = align4 (payload.length + 4) - (payload.length + 4)

namespace Wire

variable (w : Wire)

/-- The attribute that is meant. -/
def attr : Attr := ⟨w.type &&& typeMask, w.payload⟩

/-- The attribute without its padding. -/
def core : Bytes := le16Write (BitVec.ofNat 16 (w.payload.length + 4)) ++ le16Write w.type ++ w.payload

def bytes : Bytes := w.core ++ w.pad

theorem length_core : w.core.length = w.payload.length + 4 := by
  simp [core]
  omega

/-- Whatever follows, the attribute is the first of the stream. -/
theorem starts_core (rest : Bytes) :
    (le16Read (w.core ++ rest) 0).toNat = w.payload.length + 4 ∧ Starts (w.core ++ rest) ∧
      first (w.core ++ rest) = w.attr := by
  have hfits := w.fits
  have hlen := w.length_core
  have hword : (le16Read (w.core ++ rest) 0).toNat = w.payload.length + 4 := by
    have hread : le16Read (w.core ++ rest) 0 = BitVec.ofNat 16 (w.payload.length + 4) := by
      rw [core, List.append_assoc, List.append_assoc]
      exact le16Read_le16Write _ _
    rw [hread, BitVec.toNat_ofNat, Nat.mod_eq_of_lt hfits]
  have htype : le16Read (w.core ++ rest) 2 = w.type := by
    have hdrop : (w.core ++ rest).drop 2 = le16Write w.type ++ (w.payload ++ rest) := by
      rw [core, List.append_assoc, List.append_assoc]
      rfl
    have h := le16Read_drop (b := w.core ++ rest) (i := 0) 2
    rw [hdrop, le16Read_le16Write] at h
    exact h.symm
  refine ⟨hword, ⟨?_, ?_, ?_⟩, ?_⟩
  · rw [List.length_append]
    omega
  · omega
  · rw [List.length_append]
    omega
  · rw [first, htype, hword, ← hlen, List.take_left]
    rfl

end Wire

/-- The stream of a list of attributes. -/
def encode (ws : List Wire) : Bytes := ws.flatMap Wire.bytes

theorem attrs_wire (w : Wire) (rest : Bytes) : attrs (w.bytes ++ rest) = w.attr :: attrs rest := by
  obtain ⟨hword, hstarts, hfirst⟩ := w.starts_core (w.pad ++ rest)
  have hlen : (w.core ++ w.pad).length = align4 (w.payload.length + 4) := by
    have hle := le_align4 (w.payload.length + 4)
    rw [List.length_append, w.length_core, w.aligned]
    omega
  rw [Wire.bytes, List.append_assoc, attrs_of_starts hstarts, hfirst, hword, ← hlen,
    ← List.append_assoc, List.drop_left]

/-- **What was encoded is read back**, whatever follows, as long as it does not start an attribute. -/
theorem attrs_encode (ws : List Wire) {tail : Bytes} (h : ¬ Starts tail) :
    attrs (encode ws ++ tail) = ws.map Wire.attr := by
  induction ws with
  | nil => exact attrs_of_not_starts h
  | cons w ws ih =>
    rw [encode, List.flatMap_cons, List.append_assoc, attrs_wire, List.map_cons]
    exact congrArg _ ih

/-- The last attribute needs no padding. -/
theorem attrs_encode_cut (ws : List Wire) (w : Wire) {pad : Bytes} (h : pad.length ≤ w.pad.length) :
    attrs (encode ws ++ (w.core ++ pad)) = ws.map Wire.attr ++ [w.attr] := by
  induction ws with
  | nil =>
    obtain ⟨hword, hstarts, hfirst⟩ := w.starts_core pad
    have hend : ¬ Starts ((w.core ++ pad).drop (align4 (w.payload.length + 4))) := by
      rintro ⟨hlen, -⟩
      have hal := w.aligned
      have hle := le_align4 (w.payload.length + 4)
      rw [List.length_drop, List.length_append, w.length_core] at hlen
      omega
    rw [encode, List.flatMap_nil, List.nil_append, attrs_of_starts hstarts, hfirst, hword, attrs_of_not_starts hend]
    rfl
  | cons v ws ih =>
    rw [encode, List.flatMap_cons, List.append_assoc, attrs_wire, List.map_cons]
    exact congrArg _ ih

/-! ## The last attribute decides -/

/-- The payload of the last attribute that is accepted. -/
def last (accept : Attr → Bool) (as : List Attr) : Option Bytes := (as.latest accept).map Attr.payload

/-- **The last accepted attribute decides** a property of the fold that an accepted attribute sets and any
other keeps. -/
theorem foldl_last {σ : Type*} {g : σ → Attr → σ} {accept : Attr → Bool} {Q : Option Bytes → σ → Prop}
    (hset : ∀ s a, accept a = true → Q (some a.payload) (g s a))
    (hkeep : ∀ s a o, accept a = false → Q o s → Q o (g s a)) {s : σ} (hs : Q none s)
    (as : List Attr) : Q (last accept as) (as.foldl g s) :=
  List.foldl_latest (Q := fun o s' => Q (o.map Attr.payload) s') hset
    (fun s' a o ha hq => hkeep s' a (o.map Attr.payload) ha hq) hs as

end Attributes
