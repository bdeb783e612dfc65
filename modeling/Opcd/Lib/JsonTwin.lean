import Opcd.Lib.JsonScan

/-!
# Texts that differ in their string values

Two texts are twins if they are the same but for what their string values say. What a scanner sees outside of strings
is the same in both.

* `Twin.agree`: twins agree up to the first quote.
* `Twin.tokens`: their strings correspond, names to the same names.
-/

namespace Json

open Bytes

/-- The trees are the same but for the contents of string values. -/
inductive Twin : {i : Ix} → Syn i → Syn i → Prop
  | null : Twin .null .null
  | bool (b) : Twin (.bool b) (.bool b)
  | num (n) : Twin (.num n) (.num n)
  | str (s s') : Twin (.str s) (.str s')
  | emptyArr (w) : Twin (.emptyArr w) (.emptyArr w)
  | arr {es es'} : Twin es es' → Twin (.arr es) (.arr es')
  | emptyObj (w) : Twin (.emptyObj w) (.emptyObj w)
  | obj {ms ms'} : Twin ms ms' → Twin (.obj ms) (.obj ms')
  | item (pre post) {v v'} : Twin v v' → Twin (.item pre v post) (.item pre v' post)
  | items (pre post) {v v' more more'} : Twin v v' → Twin more more' →
      Twin (.items pre v post more) (.items pre v' post more')
  | member (pre k mid pre' post) {v v'} : Twin v v' →
      Twin (.member pre k mid pre' v post) (.member pre k mid pre' v' post)
  | members (pre k mid pre' post) {v v' more more'} : Twin v v' → Twin more more' →
      Twin (.members pre k mid pre' v post more) (.members pre k mid pre' v' post more')

theorem Twin.isObj {v v' : Value} (h : Twin v v') : v.isObj = v'.isObj := by
  cases h <;> rfl

/-- Texts that are the same up to the first quote. -/
structure Agree (s s' : Bytes) : Prop where
  gap : s.takeWhile (· ≠ quote) = s'.takeWhile (· ≠ quote)
  mem : quote ∈ s ↔ quote ∈ s'

theorem Agree.refl (s : Bytes) : Agree s s := ⟨rfl, Iff.rfl⟩

theorem Agree.cons (b : Byte) {s s' : Bytes} (h : Agree s s') : Agree (b :: s) (b :: s') := by
  constructor
  · by_cases hb : b = quote
    · rw [List.takeWhile_cons_of_neg (by simp [hb]), List.takeWhile_cons_of_neg (by simp [hb])]
    · rw [List.takeWhile_cons_of_pos (by simp [hb]), List.takeWhile_cons_of_pos (by simp [hb]), h.gap]
  · rw [List.mem_cons, List.mem_cons, h.mem]

theorem Agree.append (t : Bytes) {s s' : Bytes} (h : Agree s s') : Agree (t ++ s) (t ++ s') := by
  induction t with
  | nil => exact h
  | cons b t ih => exact ih.cons b

theorem agree_quoted (r r' s s' : Bytes) : Agree (quoted r s) (quoted r' s') := by
  constructor
  · rw [quoted, quoted, List.takeWhile_cons_of_neg (by decide), List.takeWhile_cons_of_neg (by decide)]
  · exact ⟨fun _ => List.mem_cons_self, fun _ => List.mem_cons_self⟩

/-- What comes first is a quote, or the first byte before it. -/
theorem head_eq_gap (s : Bytes) :
    s.head? = if s.takeWhile (· ≠ quote) = [] then if quote ∈ s then some quote else none
      else (s.takeWhile (· ≠ quote)).head? := by
  cases s with
  | nil => rfl
  | cons b s =>
    by_cases hb : b = quote
    · rw [List.takeWhile_cons_of_neg (by simp [hb]), if_pos rfl, if_pos (by simp [hb]), hb]
      rfl
    · rw [List.takeWhile_cons_of_pos (by simp [hb]), if_neg (List.cons_ne_nil _ _)]
      rfl

theorem Agree.head {s s' : Bytes} (h : Agree s s') : s.head? = s'.head? := by
  rw [head_eq_gap s, head_eq_gap s', h.gap]
  simp only [h.mem]

/-- **Twins agree up to the first quote.** -/
theorem Twin.agree {i : Ix} {x x' : Syn i} (h : Twin x x') {rest rest' : Bytes} (hr : Agree rest rest') :
    Agree (x.textThen rest) (x'.textThen rest') := by
  induction h generalizing rest rest' with
  | null => exact hr.append _
  | bool b => cases b <;> exact hr.append _
  | num n => exact hr.append _
  | str s s' => exact agree_quoted _ _ _ _
  | emptyArr w => exact ((hr.cons _).append _).cons _
  | emptyObj w => exact ((hr.cons _).append _).cons _
  | arr _ ih => exact (ih (hr.cons _)).cons _
  | obj _ ih => exact (ih (hr.cons _)).cons _
  | item pre post _ ih => exact (ih (hr.append _)).append _
  | items pre post _ _ ih ih' => exact (ih (((ih' hr).cons _).append _)).append _
  | member pre k mid pre' post _ ih => exact (agree_quoted _ _ _ _).append _
  | members pre k mid pre' post _ _ ih ih' => exact (agree_quoted _ _ _ _).append _

/-- Strings of twins that correspond. -/
inductive TokTwin : Tok → Tok → Prop
  | name (d k mid pre) {v v' tail tail'} (hv : Twin v v') (ht : Agree tail tail') :
      TokTwin (.name d k mid pre v tail) (.name d k mid pre v' tail')
  | value (d s s') {tail tail'} (ht : Agree tail tail') : TokTwin (.value d s tail) (.value d s' tail')

/-- **The strings of twins correspond.** -/
theorem Twin.tokens {i : Ix} {x x' : Syn i} (h : Twin x x') (arr d : Int) {rest rest' : Bytes} (hr : Agree rest rest') :
    List.Forall₂ TokTwin (x.tokens arr d rest) (x'.tokens arr d rest') := by
  induction h generalizing d rest rest' with
  | str s s' => exact .cons (.value d s s' hr) .nil
  | arr _ ih => exact ih _ (hr.cons _)
  | obj _ ih => exact ih _ (hr.cons _)
  | item pre post _ ih => exact ih d (hr.append _)
  | items pre post hv hm ih ih' => exact List.rel_append (ih d (((hm.agree hr).cons _).append _)) (ih' d hr)
  | member pre k mid pre' post hv ih => exact .cons (.name d k mid pre' hv (hr.append _)) (ih d (hr.append _))
  | members pre k mid pre' post hv hm ih ih' =>
    have htail := ((hm.agree hr).cons (ch ',')).append post.1
    exact .cons (.name d k mid pre' hv htail) (List.rel_append (ih d htail) (ih' d hr))
  | _ => exact .nil

end Json
