import Opcd.Lib.Bytes

/-!
# The `ssid=` assignment of a wpa conf

`findSsid` is `find_ssid` of `essid_marker.c`: it counts the lines that assign `ssid` and locates
the value of the first one. The located value splits the conf into what stands before it, the
token, and what follows (`Place`). A conf with exactly one assignment keeps that property, with
everything around the token unchanged, when the token is replaced by another clean one
(`findSsid_text`).
-/

namespace Opcd.Essid

open Bytes

/-- `FILE_MAX_BYTES`. -/
def fileMaxBytes : Nat := 64 * 1024

/-- `TOKEN_MAX`. -/
def tokenMax : Nat := 256

def isBlank (b : Byte) : Bool := b = ch ' ' ∨ b = ch '\t'

/-- What is not part of a value at the end of its line. -/
def isTrail (b : Byte) : Bool := b = ch '\r' ∨ b = ch ' ' ∨ b = ch '\t'

def ssidKey : Bytes := ofString "ssid="

/-- The `ssid=` assignment on a line: what stands up to the `=`, the value, and the blanks (or CR)
after it. -/
def ssidLine (l : Bytes) : Option (Bytes × Bytes × Bytes) :=
  let p := l.dropWhile isBlank
  if ssidKey.isPrefixOf p then
    let v := p.drop ssidKey.length
    some (l.takeWhile isBlank ++ ssidKey, v.rdropWhile isTrail, v.rtakeWhile isTrail)
  else none

/-- Where a value stands in a conf: the lines before it, the three parts of its line, and the
lines after it. -/
structure Place where
  pre : List Bytes
  key : Bytes
  token : Bytes
  trail : Bytes
  post : List Bytes
  deriving DecidableEq

namespace Place

/-- `[conf, vs)`. -/
def head (pl : Place) : Bytes := terminated pl.pre ++ pl.key

/-- From `ve` to the end. -/
def tail (pl : Place) : Bytes := pl.trail ++ pl.post.flatMap (nl :: ·)

/-- The conf with `t` for the token. -/
def text (pl : Place) (t : Bytes) : Bytes := pl.head ++ t ++ pl.tail

end Place

/-- The first line with an assignment. -/
def firstSsid : List Bytes → Option Place
  | [] => none
  | l :: ls =>
    match ssidLine l with
    | some (key, token, trail) => some ⟨[], key, token, trail, ls⟩
    | none => (firstSsid ls).map fun pl => { pl with pre := l :: pl.pre }

/-- `find_ssid`: how many assignments there are, and where the first one's value stands. -/
def findSsid (conf : Bytes) : Nat × Option Place :=
  ((lines conf).countP fun l => (ssidLine l).isSome, firstSsid (lines conf))

example : findSsid (ofString "network=\x7b\n  ssid=\"ab\" \n\x7d\n") =
    (1, some ⟨[ofString "network=\x7b"], ofString "  ssid=", ofString "\"ab\"", ofString " ",
      [ofString "\x7d", []]⟩) := by decide

/-! ## One line -/

theorem dropWhile_takeWhile_append {p : Byte → Bool} {l m : Bytes} (hm : ∀ h : m ≠ [], p (m.head h) = false) :
    (l.takeWhile p ++ m).dropWhile p = m ∧ (l.takeWhile p ++ m).takeWhile p = l.takeWhile p := by
  have hall : ∀ x ∈ l.takeWhile p, p x = true := fun x hx => List.mem_takeWhile_imp hx
  have hdrop : m.dropWhile p = m ∧ m.takeWhile p = [] := by
    cases m with
    | nil => exact ⟨rfl, rfl⟩
    | cons x xs =>
      have := hm (by simp)
      simp only [List.head_cons] at this
      simp [List.dropWhile, List.takeWhile, this]
  rw [List.dropWhile_append_of_pos hall, List.takeWhile_append_of_pos hall, hdrop.1, hdrop.2]
  simp

/-- Trailing blanks come off again, and only those. -/
theorem rdropWhile_append_trail {p : Byte → Bool} {t r : Bytes} (hr : ∀ x ∈ r, p x = true)
    (ht : ∀ h : t ≠ [], p (t.getLast h) = false) : (t ++ r).rdropWhile p = t ∧ (t ++ r).rtakeWhile p = r := by
  have hdrop : (t ++ r).rdropWhile p = t := by
    induction r using List.reverseRecOn with
    | nil => simpa using List.rdropWhile_eq_self_iff.mpr (by simpa using ht)
    | append_singleton r x ih =>
      rw [← List.append_assoc, List.rdropWhile_concat_pos _ _ _ (hr x (by simp))]
      exact ih fun y hy => hr y (by simp [hy])
  refine ⟨hdrop, ?_⟩
  have happ := List.rdropWhile_append_rtakeWhile (p := p) (l := t ++ r)
  rw [hdrop] at happ
  exact List.append_cancel_left happ

theorem ssidLine_eq {l key token trail : Bytes} (h : ssidLine l = some (key, token, trail)) :
    l = key ++ token ++ trail := by
  unfold ssidLine at h
  simp only at h
  split at h
  · next hp =>
    obtain ⟨rfl, rfl, rfl⟩ : _ ∧ _ ∧ _ := by simpa using h
    obtain ⟨v, hv⟩ := List.isPrefixOf_iff_prefix.mp hp
    have hdrop : (l.dropWhile isBlank).drop ssidKey.length = v := by rw [← hv, List.drop_left]
    rw [hdrop, List.append_assoc, List.rdropWhile_append_rtakeWhile, List.append_assoc, hv,
      List.takeWhile_append_dropWhile]
  · simp at h

/-- Another value in the place of the old one is found in the same place. -/
theorem ssidLine_replace {l key token trail : Bytes} (h : ssidLine l = some (key, token, trail))
    {t : Bytes} (ht : ∀ hne : t ≠ [], isTrail (t.getLast hne) = false) :
    ssidLine (key ++ t ++ trail) = some (key, t, trail) := by
  unfold ssidLine at h
  simp only at h
  split at h
  · obtain ⟨rfl, -, rfl⟩ : _ ∧ _ ∧ _ := by simpa using h
    set r := ((l.dropWhile isBlank).drop ssidKey.length).rtakeWhile isTrail
    have hr : ∀ x ∈ r, isTrail x = true := fun x hx => List.mem_rtakeWhile_imp hx
    obtain ⟨hb1, hb2⟩ := dropWhile_takeWhile_append (l := l) (p := isBlank)
      (m := ssidKey ++ (t ++ r)) (by intro _; rfl)
    obtain ⟨ht1, ht2⟩ := rdropWhile_append_trail hr ht
    have hassoc : l.takeWhile isBlank ++ ssidKey ++ t ++ r
        = l.takeWhile isBlank ++ (ssidKey ++ (t ++ r)) := by simp
    have hpre : ssidKey.isPrefixOf (ssidKey ++ (t ++ r)) = true :=
      List.isPrefixOf_iff_prefix.mpr (List.prefix_append _ _)
    unfold ssidLine
    rw [hassoc, hb1, hb2]
    simp only [hpre, if_true, List.drop_left, ht1, ht2]
  · simp at h

/-! ## The whole conf -/

theorem firstSsid_eq {ls : List Bytes} {pl : Place} (h : firstSsid ls = some pl) :
    ls = pl.pre ++ (pl.key ++ pl.token ++ pl.trail) :: pl.post ∧ (∀ l ∈ pl.pre, ssidLine l = none) ∧
      ssidLine (pl.key ++ pl.token ++ pl.trail) = some (pl.key, pl.token, pl.trail) := by
  induction ls generalizing pl with
  | nil => simp [firstSsid] at h
  | cons l ls ih =>
    unfold firstSsid at h
    rcases hl : ssidLine l with _ | ⟨key, token, trail⟩
    · simp only [hl, Option.map_eq_some_iff] at h
      obtain ⟨pl', hpl', rfl⟩ := h
      obtain ⟨h1, h2, h3⟩ := ih hpl'
      refine ⟨by rw [List.cons_append, ← h1], ?_, h3⟩
      intro k hk
      rcases List.mem_cons.mp hk with rfl | hk
      · exact hl
      · exact h2 k hk
    · simp only [hl, Option.some.injEq] at h
      subst h
      have := ssidLine_eq hl
      exact ⟨by simp [this], by simp, by rw [← this]; exact hl⟩

theorem firstSsid_append {pre post : List Bytes} {l key token trail : Bytes}
    (hpre : ∀ k ∈ pre, ssidLine k = none) (hl : ssidLine l = some (key, token, trail)) :
    firstSsid (pre ++ l :: post) = some ⟨pre, key, token, trail, post⟩ := by
  induction pre with
  | nil => simp [firstSsid, hl]
  | cons k pre ih =>
    rw [List.cons_append, firstSsid, hpre k (by simp)]
    simp [ih fun j hj => hpre j (List.mem_cons_of_mem k hj)]

/-- A token that can stand in an `ssid=` line and be read back as it is. -/
structure CleanToken (t : Bytes) : Prop where
  ne_nil : t ≠ []
  length_lt : t.length < tokenMax
  no_nul : 0#8 ∉ t
  no_nl : nl ∉ t
  no_trail : ∀ h : t ≠ [], isTrail (t.getLast h) = false

/-- **The token can be exchanged.** In a conf with one assignment, any clean token in the place of
the old one is found where the old one was. -/
theorem findSsid_text {conf : Bytes} {pl : Place} (h : findSsid conf = (1, some pl)) {t : Bytes}
    (ht : CleanToken t) : findSsid (pl.text t) = (1, some { pl with token := t }) := by
  obtain ⟨hcount, hfirst⟩ : _ ∧ _ := by simpa [findSsid] using h
  obtain ⟨hlines, hpre, hline⟩ := firstSsid_eq hfirst
  have hnew := ssidLine_replace hline ht.no_trail
  have hfree : ∀ l ∈ lines conf, nl ∉ l := fun l hl => nl_notMem_of_mem_lines hl
  rw [hlines] at hcount hfree
  have hfree' : ∀ l ∈ pl.pre ++ (pl.key ++ t ++ pl.trail) :: pl.post, nl ∉ l := by
    intro l hl
    rcases List.mem_append.mp hl with hl | hl
    · exact hfree l (List.mem_append_left _ hl)
    · rcases List.mem_cons.mp hl with rfl | hl
      · have hold := hfree (pl.key ++ pl.token ++ pl.trail) (by simp)
        simp only [List.mem_append, not_or] at hold ⊢
        exact ⟨⟨hold.1.1, ht.no_nl⟩, hold.2⟩
      · exact hfree l (by simp [hl])
  have htext : pl.text t = unlines (pl.pre ++ (pl.key ++ t ++ pl.trail) :: pl.post) := by
    rw [unlines_split]
    simp [Place.text, Place.head, Place.tail]
  have hsplit : lines (pl.text t) = pl.pre ++ (pl.key ++ t ++ pl.trail) :: pl.post := by
    rw [htext, lines_unlines hfree' (by simp)]
  have hcount' : (pl.pre ++ (pl.key ++ t ++ pl.trail) :: pl.post).countP
      (fun l => (ssidLine l).isSome) = 1 := by
    rw [List.countP_append, List.countP_cons] at hcount ⊢
    simpa only [hline, hnew, Option.isSome_some] using hcount
  rw [findSsid, hsplit, hcount', firstSsid_append hpre hnew]

theorem text_token {conf : Bytes} {n : Nat} {pl : Place} (h : findSsid conf = (n, some pl)) :
    pl.text pl.token = conf := by
  have hfirst : firstSsid (lines conf) = some pl := (Prod.mk.inj h).2
  have hlines := (firstSsid_eq hfirst).1
  rw [← unlines_lines conf, hlines, unlines_split]
  simp [Place.text, Place.head, Place.tail]

/-- The token of a conf is clean as soon as it is not empty and not too long. -/
theorem cleanToken_of_findSsid {conf : Bytes} {n : Nat} {pl : Place}
    (h : findSsid conf = (n, some pl)) (hnul : 0#8 ∉ conf) (hne : pl.token ≠ [])
    (hlen : pl.token.length < tokenMax) : CleanToken pl.token := by
  have hfirst : firstSsid (lines conf) = some pl := (Prod.mk.inj h).2
  obtain ⟨hlines, -, hline⟩ := firstSsid_eq hfirst
  refine ⟨hne, hlen, fun h0 => hnul ?_, fun hn => ?_, fun hne' => ?_⟩
  · rw [← text_token h]
    simp [Place.text, h0]
  · have : nl ∉ pl.key ++ pl.token ++ pl.trail :=
      nl_notMem_of_mem_lines (b := conf) (by simp [hlines])
    exact this (by simp [hn])
  · unfold ssidLine at hline
    simp only at hline
    split at hline
    · obtain ⟨-, htok, -⟩ : _ ∧ _ ∧ _ := by simpa using hline
      have hlast := List.rdropWhile_last_not isTrail
        (((pl.key ++ pl.token ++ pl.trail).dropWhile isBlank).drop ssidKey.length)
        (by simpa [htok] using hne)
      simpa [htok] using hlast
    · simp at hline

end Opcd.Essid
