import Opcd.Lib.JsonTwin

/-!
# The next byte of a kind

A walker that stopped at a string goes on to the next brace or colon of the text, whatever that stands in. `Leads` says
that it comes to the one behind the string that is meant, whatever string values say.

* `Syn.strung`: a text is its strings with what stands between them.
* `Leads.behind_eq`: where the next byte is.
* `Guarded.seek`: a search that may stop at other strings comes to the byte behind the one that is meant.
* `Guarded.twin`: string values do not matter.
-/

namespace Json

open Bytes

/-! ## A text by its strings -/

/-- The strings of a text, each the first one behind the one before. -/
def Strung : Bytes → List Tok → Prop
  | _, [] => True
  | s, t :: l => s.dropWhile (· ≠ quote) = quoted t.raw.1 t.after ∧ Strung t.after l

section Strings

variable {s p : Bytes} {l : List Tok}

theorem Strung.append (h : Strung s l) (hp : ∀ b ∈ p, b ≠ quote) : Strung (p ++ s) l := by
  cases l with
  | nil => trivial
  | cons t l =>
    refine ⟨?_, h.2⟩
    rw [List.dropWhile_append_of_pos fun b hb => decide_eq_true (hp b hb)]
    exact h.1

theorem Strung.cons (h : Strung s l) {b : Byte} (hb : b ≠ quote) : Strung (b :: s) l :=
  h.append (p := [b]) fun _ hc => List.mem_singleton.mp hc ▸ hb

theorem Strung.neutral (h : Strung s l) (hp : ∀ b ∈ p, isNeutral b = true) : Strung (p ++ s) l :=
  h.append fun b hb => (of_decide_eq_true (hp b hb)).1

theorem Strung.ws (h : Strung s l) (w : Ws) : Strung (w.1 ++ s) l :=
  h.neutral fun b hb => isNeutral_of_isWs b (w.2 b hb)

theorem Strung.comma (h : Strung s l) (w : Ws) : Strung (w.1 ++ ch ',' :: s) l := (h.cons (by decide)).ws w

theorem Strung.named {k : Str} {mid pre : Ws} {v : Value} {d : Int} {tail : Bytes} (h : Strung (v.textThen tail) l) :
    Strung (Json.named k mid pre (v.textThen tail)) (.name d k mid pre v tail :: l) :=
  ⟨List.dropWhile_cons_of_neg (by decide), ((h.ws pre).cons (by decide)).ws mid⟩

/-- **A text is its strings**, with what stands between them. -/
theorem Syn.strung {i : Ix} (x : Syn i) (arr d : Int) {rest : Bytes} (h : Strung rest l) :
    Strung (x.textThen rest) (x.tokens arr d rest ++ l) := by
  induction x generalizing d rest l with
  | null => exact h.neutral (by decide)
  | bool b => cases b <;> exact h.neutral (by decide)
  | num n => exact h.neutral (isNeutral_number n.2)
  | str s => exact ⟨List.dropWhile_cons_of_neg (by decide), h⟩
  | emptyArr w => exact ((h.cons (by decide)).ws w).cons (by decide)
  | emptyObj w => exact ((h.cons (by decide)).ws w).cons (by decide)
  | arr es ih => exact (ih _ (h.cons (by decide))).cons (by decide)
  | obj ms ih => exact (ih _ (h.cons (by decide))).cons (by decide)
  | item pre v post ih => exact (ih d (h.ws post)).ws pre
  | items pre v post more ih ih' =>
    rw [Syn.tokens, List.append_assoc]
    exact (ih d ((ih' d h).comma post)).ws pre
  | member pre k mid pre' v post ih => exact (ih d (h.ws post)).named.ws pre
  | members pre k mid pre' v post more ih ih' =>
    rw [Syn.tokens, List.cons_append, List.append_assoc]
    exact (ih d ((ih' d h).comma post)).named.ws pre

end Strings

/-! ## The byte behind the string that is meant -/

variable (c : Byte) (p : Tok → Bool)

/-- What stands behind the next `c`. -/
def behind (s : Bytes) : Option Bytes := (s.dropWhile (· ≠ c)).tail?

variable {c} in
theorem behind_append {q : Bytes} (hq : c ∉ q) (s : Bytes) : behind c (q ++ s) = behind c s := by
  have hne : ∀ b ∈ q, decide (b ≠ c) = true := fun b hb => decide_eq_true fun h => hq (h ▸ hb)
  rw [behind, List.dropWhile_append_of_pos hne, behind]

variable {c} in
theorem behind_cons {b : Byte} (hb : c ≠ b) (s : Bytes) : behind c (b :: s) = behind c s :=
  behind_append (q := [b]) (fun h => hb (List.mem_singleton.mp h)) s

/-- The next `c` is the one behind the string that is meant: on the way there are only names, without a `c` in them or
between them. Where no string is meant there is no `c` at all. -/
def Leads : Bytes → List Tok → Prop
  | s, [] => quote ∉ s ∧ c ∉ s
  | s, t :: l => c ∉ s.takeWhile (· ≠ quote) ∧ t.isName = true ∧ c ∉ t.raw.1 ∧ (p t = true ∨ Leads t.after l)

/-- Each string that can be mistaken, up to the one that is meant, leads to it. -/
def Guarded (bad : Tok → Prop) : List Tok → Prop
  | [] => True
  | t :: l => p t = true ∨ (bad t → Leads c p t.after l) ∧ Guarded bad l

instance instDecidableLeads : (s : Bytes) → (l : List Tok) → Decidable (Leads c p s l)
  | _, [] => inferInstanceAs (Decidable (_ ∧ _))
  | _, t :: l =>
    have := instDecidableLeads t.after l
    inferInstanceAs (Decidable (_ ∧ _ ∧ _ ∧ (_ ∨ _)))

instance instDecidableGuarded (bad : Tok → Prop) [DecidablePred bad] : (l : List Tok) → Decidable (Guarded c p bad l)
  | [] => inferInstanceAs (Decidable True)
  | _ :: l =>
    have := instDecidableGuarded bad l
    inferInstanceAs (Decidable (_ ∨ _ ∧ _))

section Seek

variable {c p} {s : Bytes} {l : List Tok} (hc : c ≠ quote)

include hc

/-- **Where the next byte is.** -/
theorem Leads.behind_eq (h : Leads c p s l) (hs : Strung s l) :
    behind c s = (l.find? p).bind fun t => behind c t.after := by
  induction l generalizing s with
  | nil =>
    have hnone := behind_append h.2 []
    rwa [List.append_nil] at hnone
  | cons t l ih =>
    obtain ⟨hgap, -, hraw, hrest⟩ := h
    have hpast : behind c s = behind c t.after := by
      rw [← List.takeWhile_append_dropWhile (p := (· ≠ quote)) (l := s), hs.1, behind_append hgap, quoted,
        behind_cons hc, behind_append hraw, behind_cons hc]
    by_cases ht : p t = true
    · rw [hpast, List.find?_cons_of_pos ht, Option.bind_some]
    · rw [hpast, List.find?_cons_of_neg ht]
      exact ih (hrest.resolve_left ht) hs.2

/-- **A search comes to the byte behind the string that is meant**, if it stops there at the latest and before it only
where it may. -/
theorem Guarded.seek {bad : Tok → Prop} {f : Tok → Option Bytes} (h : Guarded c p bad l) (hs : Strung s l)
    (hat : ∀ t ∈ l, p t = true → f t ≠ none)
    (hstop : ∀ t ∈ l, ∀ r, f t = some r → (p t = true ∨ bad t) ∧ behind c r = behind c t.after) :
    (l.findSome? f).bind (behind c) = (l.find? p).bind fun t => behind c t.after := by
  induction l generalizing s with
  | nil => rfl
  | cons t l ih =>
    have hmem := @List.mem_cons_self _ t l
    rw [List.findSome?_cons]
    cases hf : f t with
    | none =>
      have ht : ¬ p t = true := fun ht => hat t hmem ht hf
      rw [List.find?_cons_of_neg ht]
      exact ih (h.resolve_left ht).2 hs.2 (fun u hu => hat u (List.mem_cons_of_mem t hu))
        fun u hu => hstop u (List.mem_cons_of_mem t hu)
    | some r =>
      obtain ⟨hbad, hr⟩ := hstop t hmem r hf
      refine hr.trans ?_
      by_cases ht : p t = true
      · rw [List.find?_cons_of_pos ht, Option.bind_some]
      · rw [List.find?_cons_of_neg ht]
        exact ((h.resolve_left ht).1 (hbad.resolve_left ht)).behind_eq hc hs.2

end Seek

/-! ## Other string values -/

section Twins

variable {c p} {l l' : List Tok} (h : List.Forall₂ TokTwin l l') (hp : ∀ t t', TokTwin t t' → p t = p t')

theorem TokTwin.after {t t' : Tok} (h : TokTwin t t') : Agree t.after t'.after := by
  cases h with
  | name d k mid pre hv ht => exact (((hv.agree ht).append _).cons _).append _
  | value d s s' ht => exact ht

theorem TokTwin.isName {t t' : Tok} (h : TokTwin t t') :
    t.isName = t'.isName ∧ (t.isName = true → t.raw = t'.raw) := by
  cases h with
  | name => exact ⟨rfl, fun _ => rfl⟩
  | value => exact ⟨rfl, nofun⟩

include h hp

theorem Leads.twin {s s' : Bytes} (hs : Agree s s') (hl : Leads c p s l) : Leads c p s' l' := by
  induction h generalizing s s' with
  | nil =>
    obtain ⟨hq, hno⟩ := hl
    have hall : ∀ u : Bytes, quote ∉ u → u.takeWhile (· ≠ quote) = u := fun u hu =>
      List.takeWhile_eq_self_iff.mpr fun b hb => decide_eq_true fun hbq => hu (hbq ▸ hb)
    have hq' := mt hs.mem.mpr hq
    have heq := hs.gap
    rw [hall _ hq, hall _ hq'] at heq
    exact ⟨hq', heq ▸ hno⟩
  | @cons t t' l l' ht _ ih =>
    obtain ⟨hgap, hname, hraw, hrest⟩ := hl
    obtain ⟨hkind, hsame⟩ := ht.isName
    refine ⟨hs.gap ▸ hgap, hkind ▸ hname, hsame hname ▸ hraw, hrest.imp (fun h => ?_) (ih ht.after)⟩
    rwa [← hp t t' ht]

/-- **String values do not matter.** -/
theorem Guarded.twin {bad : Tok → Prop} (hbad : ∀ t t', TokTwin t t' → bad t' → bad t) (hg : Guarded c p bad l) :
    Guarded c p bad l' := by
  induction h with
  | nil => trivial
  | @cons t t' l l' ht hl ih =>
    refine hg.imp (fun h => ?_) fun ⟨hlead, hrest⟩ => ⟨fun h => (hlead (hbad t t' ht h)).twin hl hp ht.after, ih hrest⟩
    rwa [← hp t t' ht]

end Twins

end Json
