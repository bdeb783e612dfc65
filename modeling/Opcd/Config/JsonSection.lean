import Opcd.Lib.JsonSeek
import Opcd.Platform.RoamDatagram

/-!
# Sections of JSON texts

`opc_json_string_section` and `opc_json_integer_section` (`json_util.c`) read a value of `link.json` by a section and a
key. The section is found by its quoted name anywhere in the text and by the next brace behind it; the key is looked
for from there on, string by string, until the braces are closed, and its value behind the next colon.

* `findKeyQuote_doc`: the quoted name is looked for in the strings of a text, and between them.
* `Misleads`: the strings at which the search for a section can stop.
* `sectionKey_eq`: what is found where each string that can be mistaken leads to the brace of the section, or in it to
  the colon of the key (`Unmistakable`).
-/

namespace Opcd.Config

open Bytes Json Platform

/-! ## The code -/

inductive JsonErr
  | noEnt
  | inval
  deriving DecidableEq, Repr

/-- A name in quotes. -/
def needle (name : Bytes) : Bytes := quote :: (name ++ [quote])

/-- `find_section_body`: the text after the brace, which is looked for from the quoted name on. -/
def findSectionBody (json sec : Bytes) : Option Bytes :=
  if 64 ≤ (needle sec).length then none
  else
    (findKeyQuote (needle sec) json).bind fun after =>
      match (needle sec ++ after).dropWhile (· ≠ ch '\x7b') with
      | [] => none
      | _ :: body => some body

/-- `skip_json_string`, after the opening quote. A string that does not end is skipped to the end of the text. -/
def skipJsonString : Bytes → Bytes
  | [] => []
  | [_] => []
  | b :: c :: s =>
    if b = quote then c :: s
    else if b = backslash then skipJsonString s
    else skipJsonString (c :: s)

/-- What follows the quoted key here, if it is here and a colon or white space follows it. -/
def keyHit (key p : Bytes) : Option Bytes :=
  let after := p.drop (needle key).length
  if (needle key).isPrefixOf p ∧ (after.head?.any fun a => a = ch ':' ∨ isWs a) then some after else none

def sectionMove (depth : Int) (b : Byte) : Option Int :=
  if b = ch '\x7b' then some (depth + 1)
  else if b = ch '\x7d' then if depth - 1 = 0 then none else some (depth - 1)
  else some depth

/-- The value of a key in a section: the part the two functions have in common. -/
def sectionKey (json sec key : Bytes) : Except JsonErr Bytes :=
  match findSectionBody json sec with
  | none => .error .noEnt
  | some body =>
    if 64 ≤ (needle key).length then .error .inval
    else
      match walk (fun _ p => keyHit key p) (fun s => some (skipJsonString s)) sectionMove body.length 1 body with
      | none => .error .noEnt
      | some after =>
        match advanceToValue after with
        | none => .error .noEnt
        | some v => .ok v

/-- `opc_json_string_section`, into a buffer of `cap` bytes. -/
def jsonStringSection (json sec key : Bytes) (cap : Nat) : Except JsonErr Bytes :=
  if cap = 0 then .error .inval
  else
    (sectionKey json sec key).bind fun v =>
      match copyQuotedValue v cap with
      | none => .error .noEnt
      | some out => .ok out

/-- `opc_json_integer_section`. -/
def jsonIntegerSection (json sec key : Bytes) : Except JsonErr Int :=
  (sectionKey json sec key).bind fun v => if startsNumber v then .ok (strtoll v) else .error .inval

-- a key hidden in a string
example : jsonIntegerSection (ofString
    "\x7b \"link\": \x7b \"essid\": \"\\\"signal\\\": 99\", \"signal\": -42 \x7d \x7d") (ofString "link") (ofString "signal") =
      .ok (-42) := by decide +kernel

/-! ## Quoted names -/

/-- A colon or white space is next. -/
def follows (s : Bytes) : Bool := s.head?.any fun a => a = ch ':' ∨ isWs a

theorem prefix_quote_iff (name s : Bytes) :
    name ++ [quote] <+: s ↔ s.take name.length = name ∧ (s.drop name.length).head? = some quote := by
  constructor
  · rintro ⟨t, rfl⟩
    rw [List.append_assoc, List.take_left, List.drop_left]
    exact ⟨rfl, rfl⟩
  · rintro ⟨htake, hhead⟩
    obtain ⟨u, hu⟩ := List.head?_eq_some_iff.mp hhead
    refine ⟨u, ?_⟩
    rw [List.append_assoc, List.singleton_append, ← hu]
    nth_rewrite 1 [← htake]
    exact List.take_append_drop _ _

theorem needle_prefix_iff (name s : Bytes) :
    (needle name).isPrefixOf (quote :: s) = true ↔ name ++ [quote] <+: s := by
  rw [List.isPrefixOf_iff_prefix, needle, List.cons_prefix_cons]
  exact ⟨fun h => h.2, fun h => ⟨rfl, h⟩⟩

theorem keyHit_ne {name : Bytes} {b : Byte} (hb : b ≠ quote) (s : Bytes) : keyHit name (b :: s) = none := by
  have hpre : (needle name).isPrefixOf (b :: s) = false :=
    Bool.and_eq_false_iff.mpr (.inl (beq_eq_false_iff_ne.mpr hb.symm))
  rw [keyHit, hpre]
  exact if_neg fun h => absurd h.1 (by decide)

/-- The quoted name is at a string when the string is the name. -/
theorem keyHit_quoted {name raw : Bytes} (hname : IsName name) (hraw : Chars raw) (after : Bytes) :
    keyHit name (quoted raw after) = if raw = name ∧ follows after = true then some after else none := by
  have hiff : (needle name).isPrefixOf (quoted raw after) = true ↔ raw = name := by
    rw [quoted, needle_prefix_iff, prefix_quote_iff, startsWith_iff hname hraw]
  unfold keyHit
  by_cases heq : raw = name
  · subst heq
    have hdrop : (quoted raw after).drop (needle raw).length = after := by simp [quoted, needle]
    simp only [hiff.mpr rfl, hdrop, true_and]
    rfl
  · rw [if_neg fun h => heq (hiff.mp h.1), if_neg fun h => heq h.1]

/-- A quote is not in a part that has none. -/
theorem past_of_append_eq {r₁ r₂ q s : Bytes} (hq : quote ∉ q) (h : r₁ ++ quote :: r₂ = q ++ s) :
    ∃ r, r₁ = q ++ r ∧ r ++ quote :: r₂ = s := by
  rcases List.append_eq_append_iff.mp h with ⟨r, rfl, hr⟩ | ⟨r, rfl, hr⟩
  · cases r with
    | nil => exact ⟨[], by simp, hr⟩
    | cons b r =>
      obtain rfl : quote = b := (List.cons.inj hr).1
      exact absurd (List.mem_append_right r₁ List.mem_cons_self) hq
  · exact ⟨r, rfl, hr.symm⟩

/-- Behind an escaped quote a string goes on as a string. -/
theorem chars_of_append_quote {r₁ r₂ : Bytes} (h : Chars (r₁ ++ quote :: r₂)) : Chars r₂ := by
  generalize hs : r₁ ++ quote :: r₂ = s at h
  induction h generalizing r₁ with
  | nil => exact absurd hs (by simp)
  | @plain b s hb _ ih =>
    have hq : quote ∉ [b] := fun h => absurd (List.mem_singleton.mp h ▸ hb) (by decide)
    obtain ⟨r, -, hr⟩ := past_of_append_eq hq hs
    exact ih hr
  | @escape c s hc hrest ih =>
    obtain ⟨r, -, hr⟩ := past_of_append_eq (q := [backslash]) (by decide) hs
    cases r with
    | nil =>
      cases hr
      exact hrest
    | cons b r => exact ih (List.cons.inj hr).2
  | @unicode h₁ h₂ h₃ h₄ s hx _ ih =>
    have hq : quote ∉ [backslash, ch 'u', h₁, h₂, h₃, h₄] := by
      have hhex : ∀ b, isHex b = true → quote ≠ b := fun b hb h => absurd (h ▸ hb) (by decide)
      simp [hhex _ hx.1, hhex _ hx.2.1, hhex _ hx.2.2.1, hhex _ hx.2.2.2]
      decide
    obtain ⟨r, -, hr⟩ := past_of_append_eq hq hs
    exact ih hr

/-! ## The section is found by its quoted name -/

/-- What follows the first place in `p` where the quoted name is, with `after` behind `p`. -/
def hitIn (name : Bytes) : Bytes → Bytes → Option Bytes
  | [], _ => none
  | b :: p, after => (keyHit name (b :: p ++ after)).or (hitIn name p after)

theorem findKeyQuote_cons (name : Bytes) (b : Byte) (s : Bytes) :
    findKeyQuote (needle name) (b :: s) = (keyHit name (b :: s)).or (findKeyQuote (needle name) s) := by
  rw [findKeyQuote, keyHit]
  split <;> rfl

theorem findKeyQuote_append (name p after : Bytes) :
    findKeyQuote (needle name) (p ++ after) = (hitIn name p after).or (findKeyQuote (needle name) after) := by
  induction p with
  | nil => rfl
  | cons b p ih => rw [List.cons_append, findKeyQuote_cons, ih, hitIn, Option.or_assoc, List.cons_append]

theorem findKeyQuote_ne {name : Bytes} {b : Byte} (hb : b ≠ quote) (s : Bytes) :
    findKeyQuote (needle name) (b :: s) = findKeyQuote (needle name) s := by
  rw [findKeyQuote_cons, keyHit_ne hb, Option.none_or]

/-- The search for a quoted name walks a text by its strings, and sees no depth. -/
def keyQuoteScanner (name : Bytes) : Scanner Bytes where
  run _ s := findKeyQuote (needle name) s
  fire _ raw after := hitIn name (quote :: (raw ++ [quote])) after
  lo := 0
  arr := 0
  arr_nonneg := Int.le_refl 0
  string := by
    intro raw d after _
    have hsplit : quoted raw after = quote :: (raw ++ [quote]) ++ after := by simp [quoted]
    rw [hsplit, findKeyQuote_append]
  neutral := fun _ s hb => findKeyQuote_ne (of_decide_eq_true hb).1 s
  openObj := fun _ s => findKeyQuote_ne (by decide) s
  closeObj := fun s _ => findKeyQuote_ne (by decide) s
  openArr := fun _ s => findKeyQuote_ne (by decide) s
  closeArr := fun s _ => findKeyQuote_ne (by decide) s

/-- **The quoted name is looked for in the strings of a text**, and right behind them. -/
theorem findKeyQuote_doc (name : Bytes) (d : Doc) :
    findKeyQuote (needle name) d.text = (d.root.tokens 0 0 d.post.1).findSome? (keyQuoteScanner name).fireTok := by
  have hpre := (keyQuoteScanner name).run_ws 0 d.pre (d.root.textThen d.post.1)
  have hroot := (keyQuoteScanner name).run_syn d.root (Int.le_refl 0) d.post.1
  have hpost : findKeyQuote (needle name) d.post.1 = none := by
    have h := (keyQuoteScanner name).run_ws 0 d.post []
    rw [List.append_nil] at h
    exact h
  refine hpre.trans (hroot.trans ?_)
  change Option.or _ (findKeyQuote (needle name) d.post.1) = _
  rw [hpost, Option.or_none]
  rfl

/-! ## Strings that can be mistaken for the section -/

def isNamed (name : Bytes) : Tok → Bool
  | .name _ k .. => k.1 = name
  | .value .. => false

/-- The name of an object that is a member of the document itself. -/
def isTop (sec : Bytes) : Tok → Bool
  | .name d k _ _ v _ => k.1 = sec ∧ d = 1 ∧ v.isObj
  | .value .. => false

/-- A value with white space right behind it. -/
def isSpaced : Tok → Bool
  | .name .. => false
  | .value _ _ tail => tail.head?.any isWs

/-- A value that is taken for the name if it says it: with white space right behind it, and a name that can be said. -/
def Poses (name : Bytes) (t : Tok) : Prop := isSpaced t = true ∧ ∀ b ∈ name, isPlain b = true

/-- What stands between this string and the next one reads like the name. -/
def IsSeam (sec : Bytes) (t : Tok) : Prop := t.after.takeWhile (· ≠ quote) = sec ∧ quote ∈ t.after

/-- A string the search for the section can stop at, whatever a value says: a name that is the section, or ends in an
escaped quote and the section; a value with white space right behind it; and the seam between two strings. -/
def Misleads (sec : Bytes) (t : Tok) : Prop :=
  IsSeam sec t ∨ Poses sec t ∨ isNamed sec t = true ∨ (t.isName = true ∧ quote :: sec <:+ t.raw.1)

instance instDecidablePoses (name : Bytes) (t : Tok) : Decidable (Poses name t) := inferInstanceAs (Decidable (_ ∧ _))

instance instDecidableMisleads (sec : Bytes) (t : Tok) : Decidable (Misleads sec t) :=
  inferInstanceAs (Decidable ((_ ∧ _) ∨ _ ∨ _ ∨ (_ ∧ _)))

theorem follows_ws (w : Ws) (s : Bytes) : follows (w.1 ++ ch ':' :: s) = true := by
  obtain ⟨w, hw⟩ := w
  cases w with
  | nil => rfl
  | cons b w =>
    have hb : isWs b = true := hw b List.mem_cons_self
    simp [follows, hb]

/-- A value that a colon or white space follows is spaced. -/
theorem isSpaced_of_follows {d : Int} {s : Str} {tail : Bytes} (hended : Ended tail) (h : follows tail = true) :
    isSpaced (.value d s tail) = true := by
  cases tail with
  | nil => cases h
  | cons b tail =>
    rcases (by simpa [follows] using h : b = ch ':' ∨ isWs b = true) with rfl | hb
    · rw [Ended, List.dropWhile_cons_of_neg (by decide)] at hended
      exact absurd rfl hended
    · exact hb

/-- A string without escapes is plain. -/
theorem plain_of_chars {name : Bytes} (hname : IsName name) (h : Chars name) : ∀ b ∈ name, isPlain b = true := by
  cases h with
  | nil => exact nofun
  | @plain b s hb hs =>
    intro c hc
    rcases List.mem_cons.mp hc with rfl | hc
    · exact hb
    · exact plain_of_chars (fun c hc => hname c (List.mem_cons_of_mem b hc)) hs c hc
  | escape => exact absurd rfl (hname _ List.mem_cons_self).2
  | unicode => exact absurd rfl (hname _ List.mem_cons_self).2

theorem keyHit_eq_some {name s r : Bytes} (h : keyHit name s = some r) : s = needle name ++ r := by
  unfold keyHit at h
  dsimp only at h
  split at h
  next hpre =>
    cases h
    exact (List.prefix_iff_eq_append.mp (List.isPrefixOf_iff_prefix.mp hpre.1)).symm
  next => cases h

theorem hitIn_eq_some {name p after r : Bytes} (h : hitIn name p after = some r) :
    ∃ p₁ p₂, p = p₁ ++ p₂ ∧ p₂ ≠ [] ∧ keyHit name (p₂ ++ after) = some r := by
  induction p with
  | nil => cases h
  | cons b p ih =>
    rcases Option.or_eq_some_iff.mp h with h | ⟨-, h⟩
    · exact ⟨[], b :: p, rfl, List.cons_ne_nil _ _, h⟩
    · obtain ⟨p₁, p₂, rfl, hne, h⟩ := ih h
      exact ⟨b :: p₁, p₂, rfl, hne, h⟩

/-- The places in a string that are taken for the quoted name: a string that ends in the name and is followed by a colon
or white space, and a seam behind it that reads like the name. -/
theorem hitIn_token {name raw after r : Bytes} (hname : IsName name) (hraw : Chars raw)
    (h : hitIn name (quote :: (raw ++ [quote])) after = some r) :
    (r = after ∧ follows after = true ∧ Chars name ∧ (raw = name ∨ quote :: name <:+ raw)) ∨
      after = name ++ quote :: r := by
  obtain ⟨p₁, p₂, hp, hne, hhit⟩ := hitIn_eq_some h
  have hquoted : ∀ {u}, Chars u → keyHit name (quoted u after) = some r → u = name ∧ follows after = true ∧ r = after := by
    intro u hu h
    rw [keyHit_quoted hname hu] at h
    split at h
    next hif => exact ⟨hif.1, hif.2, (Option.some.inj h).symm⟩
    next => cases h
  -- the place is the opening quote, an escaped quote, or the closing one
  cases p₁ with
  | nil =>
    have heq : p₂ ++ after = quoted raw after := by
      rw [← show quote :: (raw ++ [quote]) = p₂ from hp]
      simp [quoted]
    obtain ⟨rfl, hf, hr⟩ := hquoted hraw (heq ▸ hhit)
    exact .inl ⟨hr, hf, hraw, .inl rfl⟩
  | cons c p₁ =>
    have htail : raw ++ [quote] = p₁ ++ p₂ := (List.cons.inj hp).2
    obtain ⟨r₂, x, rfl⟩ := (List.eq_nil_or_concat p₂).resolve_left hne
    rw [List.concat_eq_append, ← List.append_assoc] at htail
    obtain ⟨hraw', hx⟩ := List.append_inj' htail rfl
    obtain rfl : quote = x := (List.cons.inj hx).1
    rw [List.concat_eq_append] at hhit
    cases r₂ with
    | nil =>
      have hseam := keyHit_eq_some hhit
      exact .inr (by simpa [needle] using hseam)
    | cons b r₃ =>
      by_cases hb : b = quote
      · subst hb
        have heq : quote :: r₃ ++ [quote] ++ after = quoted r₃ after := by simp [quoted]
        have hr₃ := chars_of_append_quote (hraw' ▸ hraw)
        obtain ⟨rfl, hf, hr⟩ := hquoted hr₃ (heq ▸ hhit)
        exact .inl ⟨hr, hf, hr₃, .inr ⟨p₁, hraw'.symm⟩⟩
      · rw [List.cons_append, List.cons_append, keyHit_ne hb] at hhit
        cases hhit

/-- A string that stops the search can be mistaken for the section, and the next brace is the next one behind it. -/
theorem fireTok_some {sec : Bytes} (hsec : IsName sec) {t : Tok} (hended : ∀ d s tail, t = .value d s tail → Ended tail)
    {r : Bytes} (h : (keyQuoteScanner sec).fireTok t = some r) :
    Misleads sec t ∧ (ch '\x7b' ∉ sec → behind (ch '\x7b') r = behind (ch '\x7b') t.after) := by
  rcases hitIn_token hsec t.raw.2 h with ⟨rfl, hf, hchars, hraw⟩ | hseam
  · refine ⟨.inr ?_, fun _ => rfl⟩
    cases t with
    | name d k mid pre v tail => exact .inr (hraw.imp decide_eq_true fun h => ⟨rfl, h⟩)
    | value d s tail => exact .inl ⟨isSpaced_of_follows (hended d s tail rfl) hf, plain_of_chars hsec hchars⟩
  · rw [Misleads, IsSeam, hseam]
    refine ⟨.inl ⟨?_, by simp⟩, fun hbrace => ?_⟩
    · rw [List.takeWhile_append_of_pos fun b hb => decide_eq_true (hsec b hb).1, List.takeWhile_cons_of_neg (by decide),
        List.append_nil]
    · rw [behind_append hbrace, behind_cons (by decide)]

/-- The name of the section stops it. -/
theorem fireTok_named {sec : Bytes} (hsec : IsName sec) {t : Tok} (ht : isNamed sec t = true) :
    (keyQuoteScanner sec).fireTok t ≠ none := by
  cases t with
  | value d s tail => cases ht
  | name d k mid pre v tail =>
    have hquoted : ∀ after, quote :: (k.1 ++ [quote]) ++ after = quoted k.1 after := by simp [quoted]
    change hitIn sec (quote :: (k.1 ++ [quote])) _ ≠ none
    rw [hitIn, hquoted, keyHit_quoted hsec k.2, if_pos ⟨of_decide_eq_true ht, follows_ws mid _⟩]
    exact nofun

/-! ## The section and the key -/

/-- The strings of a document. -/
def strings (d : Doc) : List Tok := d.root.tokens 0 0 d.post.1

def valueOf : Tok → Option (Value × Bytes)
  | .name _ _ _ _ v tail => some (v, tail)
  | .value .. => none

/-- The first object of the document that is named by the section. -/
def sectionOf (d : Doc) (sec : Bytes) : Option (Value × Bytes) := ((strings d).find? (isTop sec)).bind valueOf

/-- The first member of that name in a value, at any depth. -/
def keyOf (o : Value × Bytes) (key : Bytes) : Option (Value × Bytes) :=
  ((o.1.tokens 0 0 o.2).find? (isNamed key)).bind valueOf

/-- Where the section is looked for at all, each string that can be mistaken for it leads to its brace, and in the
section each string that can be mistaken for the key leads to its colon, if the key is looked for. -/
structure Unmistakable (d : Doc) (sec key : Bytes) : Prop where
  brace : ch '\x7b' ∈ sec → ∀ t ∈ strings d, ¬ Misleads sec t
  outside : Guarded (ch '\x7b') (isTop sec) (Misleads sec) (strings d)
  inside : ¬ 64 ≤ (needle key).length → ∀ o, sectionOf d sec = some o →
    Guarded (ch ':') (isNamed key) (Poses key) (o.1.tokens 0 0 o.2)

theorem isNamed_of_isTop {sec : Bytes} {t : Tok} (h : isTop sec t = true) : isNamed sec t = true := by
  cases t with
  | name d k mid pre v tail => exact decide_eq_true (of_decide_eq_true h : _ ∧ _ ∧ _).1
  | value => cases h

theorem ended_post (w : Ws) : Ended w.1 := by
  have h := ended_ws w (s := []) (by rw [Ended]; decide)
  rwa [List.append_nil] at h

variable {d : Doc} {tail sec key : Bytes} {o : Value × Bytes}

theorem fireTok_strings (hsec : IsName sec) {t : Tok} (ht : t ∈ strings d) {r : Bytes}
    (h : (keyQuoteScanner sec).fireTok t = some r) :
    Misleads sec t ∧ (ch '\x7b' ∉ sec → behind (ch '\x7b') r = behind (ch '\x7b') t.after) :=
  fireTok_some hsec (fun _ _ _ hval => by
    subst hval
    exact d.root.placed (Int.le_refl 0) ht (ended_post d.post)) h

/-- The text of an object, behind its brace. -/
def bodyOf (o : Value × Bytes) : Bytes := (o.1.textThen o.2).tail

theorem textThen_obj (ho : o.1.isObj = true) : o.1.textThen o.2 = ch '\x7b' :: bodyOf o := by
  obtain ⟨t, ht⟩ := List.head?_eq_some_iff.mp ((o.1.head_textThen o.2).mpr ho)
  rw [bodyOf, ht]
  rfl

theorem ne_brace_of_isWs : ∀ b : Byte, isWs b = true → b ≠ ch '\x7b' ∧ b ≠ ch ':' := by decide +kernel

/-- The next brace behind the name of a section is that of its object. -/
theorem behind_section {t : Tok} (h : isTop sec t = true) :
    behind (ch '\x7b') t.after = (valueOf t).map bodyOf := by
  cases t with
  | value => cases h
  | name d k mid pre v tail =>
    obtain ⟨-, -, hv⟩ : _ ∧ _ ∧ v.isObj = true := of_decide_eq_true h
    have hws : ∀ w : Ws, ch '\x7b' ∉ w.1 := fun w hb => (ne_brace_of_isWs _ (w.2 _ hb)).1 rfl
    rw [Tok.after, behind_append (hws mid), behind_cons (by decide), behind_append (hws pre),
      textThen_obj (o := (v, tail)) hv, behind, List.dropWhile_cons_of_neg (by decide)]
    rfl

theorem findSectionBody_behind {json sec : Bytes} (hbrace : ch '\x7b' ∉ sec) (hlen : ¬ 64 ≤ (needle sec).length) :
    findSectionBody json sec = (findKeyQuote (needle sec) json).bind (behind (ch '\x7b')) := by
  have hneedle : ch '\x7b' ∉ needle sec := by
    simp only [needle, List.mem_cons, List.mem_append, List.not_mem_nil, or_false, not_or]
    exact ⟨by decide, hbrace, by decide⟩
  rw [findSectionBody, if_neg hlen]
  congr
  funext after
  rw [← behind_append hneedle, behind]
  cases (needle sec ++ after).dropWhile (· ≠ ch '\x7b') <;> rfl

theorem bind_congr_find {α β : Type*} {p : α → Bool} {f g : α → Option β} {l : List α} (h : ∀ a, p a = true → f a = g a) :
    (l.find? p).bind f = (l.find? p).bind g := by
  cases hfind : l.find? p with
  | none => rfl
  | some a => exact h a (List.find?_some hfind)

theorem strung_tokens (v : Value) (rest : Bytes) : Strung (v.textThen rest) (v.tokens 0 0 rest) := by
  have h : Strung (v.textThen rest) (v.tokens 0 0 rest ++ []) := v.strung 0 0 trivial
  rwa [List.append_nil] at h

/-- The section is found. -/
theorem findSectionBody_eq (hsec : IsName sec) (h : Unmistakable d sec key)
    (hlen : ¬ 64 ≤ (needle sec).length) : findSectionBody d.text sec = (sectionOf d sec).map bodyOf := by
  by_cases hbrace : ch '\x7b' ∈ sec
  · have hquiet : findKeyQuote (needle sec) d.text = none := by
      rw [findKeyQuote_doc]
      refine List.findSome?_eq_none_iff.mpr fun t ht => Option.eq_none_iff_forall_ne_some.mpr fun r hr => ?_
      exact h.brace hbrace t ht (fireTok_strings hsec ht hr).1
    have hnone : (strings d).find? (isTop sec) = none := List.find?_eq_none.mpr fun t ht htop =>
      h.brace hbrace t ht (.inr (.inr (.inl (isNamed_of_isTop htop))))
    rw [findSectionBody, if_neg hlen, hquiet, sectionOf, hnone]
    rfl
  · have hseek := h.outside.seek (f := (keyQuoteScanner sec).fireTok) (by decide) (strung_tokens d.root d.post.1)
      (fun t _ ht => fireTok_named hsec (isNamed_of_isTop ht))
      fun t ht r hr => (fireTok_strings hsec ht hr).imp .inr fun h => h hbrace
    rw [findSectionBody_behind hbrace hlen, findKeyQuote_doc, sectionOf, Option.map_bind]
    exact hseek.trans (bind_congr_find fun t ht => behind_section ht)

theorem skipJsonString_plain {b : Byte} (hb : isPlain b = true) (s : Bytes) :
    skipJsonString (b :: s) = skipJsonString s := by
  obtain ⟨-, hq, hs⟩ : 0x20 ≤ b ∧ b ≠ quote ∧ b ≠ backslash := of_decide_eq_true hb
  cases s with
  | nil => rfl
  | cons c s => rw [skipJsonString, if_neg hq, if_neg hs]

theorem skipJsonString_escape (c : Byte) (s : Bytes) : skipJsonString (backslash :: c :: s) = skipJsonString s := by
  rw [skipJsonString, if_neg (by decide), if_pos rfl]

theorem skipJsonString_chars {raw : Bytes} (h : Chars raw) (after : Bytes) :
    skipJsonString (raw ++ quote :: after) = after := by
  induction h with
  | nil => cases after <;> rfl
  | plain hb _ ih => rw [List.cons_append, skipJsonString_plain hb, ih]
  | escape _ _ ih => rw [List.cons_append, List.cons_append, skipJsonString_escape, ih]
  | unicode hx _ ih =>
    obtain ⟨h₁, h₂, h₃, h₄⟩ := hx
    simp only [List.cons_append]
    rw [skipJsonString_escape, skipJsonString_plain (isPlain_of_isHex _ h₁),
      skipJsonString_plain (isPlain_of_isHex _ h₂), skipJsonString_plain (isPlain_of_isHex _ h₃),
      skipJsonString_plain (isPlain_of_isHex _ h₄), ih]

theorem skipJsonString_length : ∀ s : Bytes, (skipJsonString s).length ≤ s.length
  | [] => Nat.le_refl 0
  | [_] => Nat.zero_le 1
  | b :: c :: s => by
    rw [skipJsonString]
    split
    · exact Nat.le_succ _
    · split
      · exact (skipJsonString_length s).trans (by simp only [List.length_cons]; omega)
      · exact (skipJsonString_length (c :: s)).trans (Nat.le_succ _)

theorem walks_section (key : Bytes) :
    Walks (fun _ p => keyHit key p) (fun s => some (skipJsonString s)) sectionMove 1 0 :=
  .of_braces (· = 0) (fun h => by omega) (fun after hraw => congrArg some (skipJsonString_chars hraw after))
    (fun {s} _ h => Option.some.inj h ▸ skipJsonString_length s) fun s hb => keyHit_ne hb s

/-- The search for a key walks the strings of the section and stops where its object ends. -/
theorem walk_body (key : Bytes) (ho : o.1.isObj = true) :
    walk (fun _ p => keyHit key p) (fun s => some (skipJsonString s)) sectionMove (bodyOf o).length 1 (bodyOf o) =
      (o.1.tokens 0 0 o.2).findSome? (walks_section key).scanner.fireTok := by
  have hstop : ∀ s, (walks_section key).scanner.run 1 (ch '\x7d' :: s) = none := by
    intro s
    change walk (fun _ p => keyHit key p) (fun s => some (skipJsonString s)) sectionMove (s.length + 1) 1
      (ch '\x7d' :: s) = none
    rw [walk, keyHit_ne (by decide)]
    rfl
  obtain ⟨v, rest⟩ := o
  cases v with
  | emptyObj w => exact ((walks_section key).scanner.run_ws 1 w _).trans (hstop rest)
  | obj ms =>
    refine ((walks_section key).scanner.run_syn ms (Int.le_refl 1) _).trans ?_
    rw [hstop, Option.or_none]
    rfl
  | _ => cases ho

theorem ended_of_mem_obj (ho : o.1.isObj = true) {d : Int} {s : Str}
    (h : .value d s tail ∈ o.1.tokens 0 0 o.2) : Ended tail := by
  obtain ⟨v, rest⟩ := o
  cases v with
  | obj ms => exact ms.placed (Int.le_refl 0) h (ended_cons (by decide) _)
  | emptyObj w => cases h
  | _ => cases ho

/-- A string that stops the search for the key is the key, or can be mistaken for it. -/
theorem fireTok_key (hkey : IsName key) {t : Tok} (hended : ∀ d s tail, t = .value d s tail → Ended tail)
    {r : Bytes} (h : (walks_section key).scanner.fireTok t = some r) :
    (isNamed key t = true ∨ Poses key t) ∧ r = t.after := by
  change keyHit key (quoted t.raw.1 t.after) = some r at h
  rw [keyHit_quoted hkey t.raw.2] at h
  split at h
  next hif =>
    obtain ⟨hraw, hf⟩ := hif
    refine ⟨?_, (Option.some.inj h).symm⟩
    cases t with
    | name d k mid pre v tail => exact .inl (decide_eq_true hraw)
    | value d s tail =>
      exact .inr ⟨isSpaced_of_follows (hended d s tail rfl) hf, plain_of_chars hkey (hraw ▸ s.2)⟩
  next => cases h

theorem advanceToValue_eq (s : Bytes) : advanceToValue s = (behind (ch ':') s).map (·.dropWhile isWs) := by
  rw [advanceToValue, behind]
  cases s.dropWhile (· ≠ ch ':') <;> rfl

/-- Behind the name of a member the value is next. -/
theorem advanceToValue_name {t : Tok} (h : isNamed key t = true) :
    advanceToValue t.after = (valueOf t).map fun e => e.1.textThen e.2 := by
  cases t with
  | value => cases h
  | name d k mid pre v tail =>
    have hmid : ch ':' ∉ mid.1 := fun hb => (ne_brace_of_isWs _ (mid.2 _ hb)).2 rfl
    rw [advanceToValue_eq, Tok.after, behind_append hmid, behind, List.dropWhile_cons_of_neg (by decide)]
    change some ((pre.1 ++ v.textThen tail).dropWhile isWs) = _
    rw [List.dropWhile_append_of_pos pre.2, Syn.dropWhile_ws]
    rfl

/-- The key is found in the section. -/
theorem walk_key (hkey : IsName key) (ho : o.1.isObj = true)
    (h : Guarded (ch ':') (isNamed key) (Poses key) (o.1.tokens 0 0 o.2)) :
    (walk (fun _ p => keyHit key p) (fun s => some (skipJsonString s)) sectionMove (bodyOf o).length 1
      (bodyOf o)).bind advanceToValue = (keyOf o key).map fun e => e.1.textThen e.2 := by
  have hseek := h.seek (f := (walks_section key).scanner.fireTok) (by decide) (strung_tokens o.1 o.2)
    (fun t _ ht => by
      cases t with
      | value => cases ht
      | name d k mid pre v tail =>
        change keyHit key (quoted k.1 _) ≠ none
        rw [keyHit_quoted hkey k.2, if_pos ⟨of_decide_eq_true ht, follows_ws mid _⟩]
        exact nofun)
    fun t ht r hr => (fireTok_key hkey (fun _ _ _ hval => ended_of_mem_obj ho (hval ▸ ht)) hr).imp_right (congrArg _)
  have hvalue : ((o.1.tokens 0 0 o.2).find? (isNamed key)).bind (fun t => advanceToValue t.after) =
      (keyOf o key).map fun e => e.1.textThen e.2 := by
    rw [keyOf, Option.map_bind]
    exact bind_congr_find fun t ht => advanceToValue_name ht
  have hvalues := congrArg (Option.map (·.dropWhile isWs)) hseek
  rw [Option.map_bind, Option.map_bind] at hvalues
  rw [walk_body key ho, ← hvalue, show advanceToValue = _ from funext advanceToValue_eq]
  exact hvalues

/-- What is found where nothing can be mistaken. -/
def found (d : Doc) (sec key : Bytes) : Except JsonErr (Value × Bytes) :=
  if 64 ≤ (needle sec).length then .error .noEnt
  else
    match sectionOf d sec with
    | none => .error .noEnt
    | some o =>
      if 64 ≤ (needle key).length then .error .inval
      else
        match keyOf o key with
        | none => .error .noEnt
        | some e => .ok e

theorem mem_of_sectionOf (h : sectionOf d sec = some o) :
    o.1.isObj = true ∧ ∃ k mid pre, k.1 = sec ∧ .name 1 k mid pre o.1 o.2 ∈ strings d := by
  obtain ⟨t, hfind, hval⟩ := Option.bind_eq_some_iff.mp h
  have hmem := List.mem_of_find?_eq_some hfind
  have htop := List.find?_some hfind
  cases t with
  | value d s tail => cases hval
  | name d k mid pre v tail =>
    cases hval
    obtain ⟨hname, rfl, hobj⟩ : _ ∧ d = 1 ∧ _ := of_decide_eq_true htop
    exact ⟨hobj, k, mid, pre, hname, hmem⟩

/-- **The lookup finds the key in the section**, where what can be mistaken leads there. -/
theorem sectionKey_eq (hsec : IsName sec) (hkey : IsName key)
    (h : ¬ 64 ≤ (needle sec).length → Unmistakable d sec key) :
    sectionKey d.text sec key = (found d sec key).map fun e => e.1.textThen e.2 := by
  unfold sectionKey found
  by_cases hlen : 64 ≤ (needle sec).length
  · rw [findSectionBody, if_pos hlen, if_pos hlen]
    rfl
  · rw [findSectionBody_eq hsec (h hlen) hlen, if_neg hlen]
    cases ho : sectionOf d sec with
    | none => rfl
    | some o =>
      dsimp only [Option.map_some]
      split
      · rfl
      next hshort =>
        have hkeyed := walk_key hkey (mem_of_sectionOf ho).1 ((h hlen).inside hshort o ho)
        generalize walk _ _ _ _ _ _ = w, keyOf o key = e at hkeyed ⊢
        cases w with
        | none =>
          cases e with
          | none => rfl
          | some e => cases hkeyed
        | some after =>
          dsimp only
          rw [show advanceToValue after = _ from hkeyed]
          cases e <;> rfl

/-! ## Reading the value -/

/-- What `opc_json_string_section` makes of a value: the spelling of a string up to its first quote, cut to the buffer. -/
def readString (cap : Nat) : Value → Except JsonErr Bytes
  | .str s => .ok ((s.1.takeWhile (· ≠ quote)).take (cap - 1))
  | _ => .error .noEnt

/-- What `opc_json_integer_section` makes of a value. -/
def readInteger : Value → Except JsonErr Int
  | .num n => .ok (strtoll n.1)
  | _ => .error .inval

theorem takeWhile_append_stop {p : Byte → Bool} (s : Bytes) (h : tail.head?.any p = false) :
    (s ++ tail).takeWhile p = s.takeWhile p := by
  induction s with
  | nil =>
    cases tail with
    | nil => rfl
    | cons b tail => exact List.takeWhile_cons_of_neg (by rw [show p b = false from h]; decide)
  | cons b s ih =>
    rw [List.cons_append]
    by_cases hb : p b = true
    · rw [List.takeWhile_cons_of_pos hb, List.takeWhile_cons_of_pos hb, ih]
    · rw [List.takeWhile_cons_of_neg hb, List.takeWhile_cons_of_neg hb]

theorem copy_value (v : Value) (tail : Bytes) (cap : Nat) :
    (match copyQuotedValue (v.textThen tail) cap with
      | none => .error .noEnt
      | some out => .ok out) = readString cap v := by
  cases v with
  | bool b => cases b <;> rfl
  | num n =>
    obtain ⟨b, s, hn, hb⟩ := n.2.head
    have hq : b ≠ quote := fun h => absurd (h ▸ hb) (by decide)
    rw [Syn.textThen, hn, List.cons_append, copyQuotedValue, if_neg hq]
    rfl
  | str s =>
    rw [Syn.textThen, quoted, copyQuotedValue, if_pos rfl, takeWhile_append_stop s.1 (by rfl)]
    rfl
  | _ => rfl

theorem not_digit_of_delimited (h : Delimited tail) : tail.head?.any isDigit = false := by
  obtain ⟨b, rest, rfl, hb⟩ := h
  have hall : ∀ b : Byte, (isWs b = true ∨ b = ch ',' ∨ b = ch '\x7d') → isDigit b = false := by decide +kernel
  exact hall b hb

/-- A number is a digit and more, behind a minus sign or not. -/
theorem number_cases {t : Bytes} (h : IsNumber t) :
    ∃ c s, isDigit c = true ∧ (t = c :: s ∨ t = ch '-' :: c :: s) := by
  obtain ⟨sign, int, frac, exp, rfl, hsign, ⟨⟨hne, hdigit⟩, -⟩, -⟩ := h.parts
  obtain ⟨c, s, rfl⟩ := List.exists_cons_of_ne_nil hne
  refine ⟨c, s ++ frac ++ exp, hdigit c List.mem_cons_self, ?_⟩
  rcases hsign with rfl | rfl
  · exact .inl (by simp)
  · exact .inr (by simp)

/-- A number is read as far as it goes. -/
theorem number_value {t : Bytes} (ht : IsNumber t) (h : Delimited tail) :
    startsNumber (t ++ tail) = true ∧ strtoll (t ++ tail) = strtoll t := by
  have hstop := not_digit_of_delimited h
  obtain ⟨c, s, hc, rfl | rfl⟩ := number_cases ht
  · obtain ⟨hspace, hminus, hplus⟩ := digit_starts c hc
    have hdrop : ∀ u, (c :: u).dropWhile isSpace = c :: u :=
      fun u => List.dropWhile_cons_of_neg (by rw [hspace]; decide)
    have hscan : scanNumber (c :: s ++ tail) = scanNumber (c :: s) := by
      unfold scanNumber
      rw [List.cons_append, hdrop, hdrop]
      simp only [hminus, hplus, if_false]
      rw [← List.cons_append, takeWhile_append_stop _ hstop]
    refine ⟨?_, by rw [strtoll, strtoll, hscan]⟩
    rw [startsNumber, List.cons_append, hdrop]
    simp only [hminus, hplus, or_self, if_false, hc]
  · have hdrop : ∀ u, (ch '-' :: u).dropWhile isSpace = ch '-' :: u :=
      fun u => List.dropWhile_cons_of_neg (by decide)
    have hscan : scanNumber (ch '-' :: c :: s ++ tail) = scanNumber (ch '-' :: c :: s) := by
      unfold scanNumber
      rw [List.cons_append, hdrop, hdrop]
      simp only [if_true]
      rw [takeWhile_append_stop _ hstop]
    refine ⟨?_, by rw [strtoll, strtoll, hscan]⟩
    rw [startsNumber, List.cons_append, hdrop]
    simp [hc]

theorem integer_value (v : Value) (h : Delimited tail) :
    (if startsNumber (v.textThen tail) then .ok (strtoll (v.textThen tail)) else .error .inval) = readInteger v := by
  cases v with
  | bool b => cases b <;> rfl
  | num n =>
    obtain ⟨hstarts, hread⟩ := number_value n.2 h
    rw [Syn.textThen, if_pos hstarts, hread]
    rfl
  | _ => rfl

theorem mem_of_keyOf {e : Value × Bytes} (h : keyOf o key = some e) :
    ∃ d k mid pre, k.1 = key ∧ .name d k mid pre e.1 e.2 ∈ o.1.tokens 0 0 o.2 := by
  obtain ⟨t, hfind, hval⟩ := Option.bind_eq_some_iff.mp h
  have hmem := List.mem_of_find?_eq_some hfind
  have hnamed := List.find?_some hfind
  cases t with
  | value d s tail => cases hval
  | name d k mid pre v tail =>
    cases hval
    exact ⟨d, k, mid, pre, of_decide_eq_true hnamed, hmem⟩

theorem found_ok {e : Value × Bytes} (h : found d sec key = .ok e) :
    ∃ o, sectionOf d sec = some o ∧ keyOf o key = some e := by
  unfold found at h
  split at h
  · cases h
  · cases ho : sectionOf d sec with
    | none => rw [ho] at h; cases h
    | some o =>
      rw [ho] at h
      dsimp only at h
      split at h
      · cases h
      · cases hk : keyOf o key with
        | none => rw [hk] at h; cases h
        | some e' =>
          rw [hk] at h
          cases h
          exact ⟨o, rfl, hk⟩

theorem jsonStringSection_eq (hsec : IsName sec) (hkey : IsName key)
    (h : ¬ 64 ≤ (needle sec).length → Unmistakable d sec key) {cap : Nat} (hcap : cap ≠ 0) :
    jsonStringSection d.text sec key cap = (found d sec key).bind fun e => readString cap e.1 := by
  rw [jsonStringSection, if_neg hcap, sectionKey_eq hsec hkey h]
  cases found d sec key with
  | error err => rfl
  | ok e => exact copy_value e.1 e.2 cap

theorem jsonIntegerSection_eq (hsec : IsName sec) (hkey : IsName key)
    (h : ¬ 64 ≤ (needle sec).length → Unmistakable d sec key) :
    jsonIntegerSection d.text sec key = (found d sec key).bind fun e => readInteger e.1 := by
  rw [jsonIntegerSection, sectionKey_eq hsec hkey h]
  cases hf : found d sec key with
  | error err => rfl
  | ok e =>
    obtain ⟨o, -, hk⟩ := found_ok hf
    obtain ⟨d', k, mid, pre, -, hmem⟩ := mem_of_keyOf hk
    exact integer_value e.1 ((o.1.placed (Int.le_refl 0) hmem).2.2.2 nofun)

end Opcd.Config
