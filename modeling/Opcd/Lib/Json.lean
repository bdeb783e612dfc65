import Opcd.Lib.Decimal

/-!
# JSON texts

A text is given by its syntax tree, white space and the spelling of its strings included (`Syn`, `Syn.textThen`). Names
are compared as they are spelled.

* `Syn.find`, `Syn.findPath`: the first member of a name, the first value at a path, and what follows it in the text.
* `Syn.Unique.at_iff`: where no object has two members of one name, that is the value at the path (`Syn.At`).
-/

namespace Json

open Bytes

/-! ## The grammar -/

abbrev quote : Byte := ch '"'

abbrev backslash : Byte := ch '\\'

def isWs (b : Byte) : Bool := b = ch ' ' ∨ b = ch '\t' ∨ b = ch '\n' ∨ b = ch '\r'

/-- White space. -/
abbrev Ws := { w : Bytes // ∀ b ∈ w, isWs b = true }

def isHex (b : Byte) : Bool :=
  isDigit b ∨ (ch 'a' ≤ b ∧ b ≤ ch 'f') ∨ (ch 'A' ≤ b ∧ b ≤ ch 'F')

/-- What may stand in a string as it is. -/
def isPlain (b : Byte) : Bool := 0x20 ≤ b ∧ b ≠ quote ∧ b ≠ backslash

/-- What stands between the quotes of a string. -/
inductive Chars : Bytes → Prop
  | nil : Chars []
  | plain {b s} (h : isPlain b = true) : Chars s → Chars (b :: s)
  | escape {c s} (h : c ∈ ofString "\"\\/bfnrt") : Chars s → Chars (backslash :: c :: s)
  | unicode {h₁ h₂ h₃ h₄ s} (h : isHex h₁ ∧ isHex h₂ ∧ isHex h₃ ∧ isHex h₄) :
      Chars s → Chars (backslash :: ch 'u' :: h₁ :: h₂ :: h₃ :: h₄ :: s)

/-- A string, as it is spelled. -/
abbrev Str := { s : Bytes // Chars s }

theorem isPlain_of_isHex : ∀ b : Byte, isHex b = true → isPlain b = true := by decide +kernel

theorem chars_of_plain {s : Bytes} (h : ∀ b ∈ s, isPlain b = true) : Chars s := by
  induction s with
  | nil => exact .nil
  | cons b s ih => exact .plain (h b List.mem_cons_self) (ih fun c hc => h c (List.mem_cons_of_mem _ hc))

/-- A string that is spelled without escapes. -/
def plainStr (s : String) (h : ∀ b ∈ ofString s, isPlain b = true) : Str := ⟨ofString s, chars_of_plain h⟩

/-- No white space. -/
def noWs : Ws := ⟨[], fun _ h => absurd h List.not_mem_nil⟩

/-- A name without escapes. -/
def IsName (name : Bytes) : Prop := ∀ b ∈ name, b ≠ quote ∧ b ≠ backslash

instance instDecidableIsName (name : Bytes) : Decidable (IsName name) := inferInstanceAs (Decidable (∀ b ∈ name, _))

/-- No string goes on behind a quote that is not escaped. -/
theorem not_chars_quote {name rest : Bytes} (hname : IsName name) : ¬ Chars (name ++ quote :: rest) := by
  induction name with
  | nil =>
    intro h
    cases h with
    | plain hb _ => exact absurd hb (by decide)
  | cons b name ih =>
    intro h
    have hb := hname b List.mem_cons_self
    generalize hs : b :: name ++ quote :: rest = s at h
    cases h with
    | nil => cases hs
    | plain hp h =>
      cases hs
      exact ih (fun c hc => hname c (List.mem_cons_of_mem _ hc)) h
    | escape _ _ => exact hb.2 (List.cons.inj hs).1
    | unicode _ _ => exact hb.2 (List.cons.inj hs).1

/-- A string starts with a name and a quote when it is the name. -/
theorem startsWith_iff {name raw : Bytes} (hname : IsName name) (hraw : Chars raw) (after : Bytes) :
    (raw ++ quote :: after).take name.length = name ∧
      ((raw ++ quote :: after).drop name.length).head? = some quote ↔ raw = name := by
  constructor
  · rintro ⟨htake, hhead⟩
    obtain ⟨u, hu⟩ := List.head?_eq_some_iff.mp hhead
    have hsplit : raw ++ quote :: after = name ++ quote :: u := by
      rw [← List.take_append_drop name.length (raw ++ quote :: after), htake, hu]
    rcases List.append_eq_append_iff.mp hsplit with ⟨c, hname', hc⟩ | ⟨c, hraw', hc⟩
    · cases c with
      | nil => rw [hname', List.append_nil]
      | cons x c =>
        have hx : x = quote := (List.cons.inj hc).1.symm
        exact absurd hx (hname x (by rw [hname']; simp)).1
    · cases c with
      | nil => rw [hraw', List.append_nil]
      | cons x c =>
        have hx : quote = x := (List.cons.inj hc).1
        subst hx
        exact absurd (hraw' ▸ hraw) (not_chars_quote hname)
  · rintro rfl
    exact ⟨List.take_left, by rw [List.drop_left]; rfl⟩

def Digits (ds : Bytes) : Prop := ds ≠ [] ∧ ∀ b ∈ ds, isDigit b = true

/-- A number: a sign, an integer without leading zeros, a fraction and an exponent. -/
structure IsNumber (t : Bytes) : Prop where
  parts : ∃ sign int frac exp, t = sign ++ int ++ frac ++ exp ∧
    (sign = [] ∨ sign = [ch '-']) ∧
    (Digits int ∧ (int.head? = some (ch '0') → int.length = 1)) ∧
    (frac = [] ∨ ∃ ds, Digits ds ∧ frac = ch '.' :: ds) ∧
    (exp = [] ∨ ∃ e sgn ds, (e = ch 'e' ∨ e = ch 'E') ∧ (sgn = [] ∨ sgn = [ch '+'] ∨ sgn = [ch '-']) ∧
      Digits ds ∧ exp = e :: (sgn ++ ds))

abbrev Number := { t : Bytes // IsNumber t }

theorem isNumber_digits {ds : Bytes} (h : Digits ds) (hzero : ds.head? = some (ch '0') → ds.length = 1) : IsNumber ds :=
  ⟨[], ds, [], [], by simp, .inl rfl, ⟨h, hzero⟩, .inl rfl, .inl rfl⟩

/-- The parts of a text: a value, the elements of an array, the members of an object. -/
inductive Ix
  | val
  | items
  | members

/-- Syntax trees. -/
inductive Syn : Ix → Type
  | null : Syn .val
  | bool (b : Bool) : Syn .val
  | num (n : Number) : Syn .val
  | str (s : Str) : Syn .val
  | emptyArr (w : Ws) : Syn .val
  | arr (es : Syn .items) : Syn .val
  | emptyObj (w : Ws) : Syn .val
  | obj (ms : Syn .members) : Syn .val
  | item (pre : Ws) (v : Syn .val) (post : Ws) : Syn .items
  | items (pre : Ws) (v : Syn .val) (post : Ws) (more : Syn .items) : Syn .items
  | member (pre : Ws) (k : Str) (mid pre' : Ws) (v : Syn .val) (post : Ws) : Syn .members
  | members (pre : Ws) (k : Str) (mid pre' : Ws) (v : Syn .val) (post : Ws) (more : Syn .members) : Syn .members

abbrev Value := Syn .val

/-- A string with its quotes, and what follows. -/
def quoted (s after : Bytes) : Bytes := quote :: (s ++ quote :: after)

/-- A name and the start of its value. -/
def named (k : Str) (mid pre : Ws) (after : Bytes) : Bytes := quoted k.1 (mid.1 ++ ch ':' :: (pre.1 ++ after))

/-- The text of a tree, and what follows. -/
def Syn.textThen : {i : Ix} → Syn i → Bytes → Bytes
  | _, .null, rest => ofString "null" ++ rest
  | _, .bool true, rest => ofString "true" ++ rest
  | _, .bool false, rest => ofString "false" ++ rest
  | _, .num n, rest => n.1 ++ rest
  | _, .str s, rest => quoted s.1 rest
  | _, .emptyArr w, rest => ch '[' :: (w.1 ++ ch ']' :: rest)
  | _, .arr es, rest => ch '[' :: es.textThen (ch ']' :: rest)
  | _, .emptyObj w, rest => ch '\x7b' :: (w.1 ++ ch '\x7d' :: rest)
  | _, .obj ms, rest => ch '\x7b' :: ms.textThen (ch '\x7d' :: rest)
  | _, .item pre v post, rest => pre.1 ++ v.textThen (post.1 ++ rest)
  | _, .items pre v post more, rest => pre.1 ++ v.textThen (post.1 ++ ch ',' :: more.textThen rest)
  | _, .member pre k mid pre' v post, rest => pre.1 ++ named k mid pre' (v.textThen (post.1 ++ rest))
  | _, .members pre k mid pre' v post more, rest =>
    pre.1 ++ named k mid pre' (v.textThen (post.1 ++ ch ',' :: more.textThen rest))

/-- A document: one value with white space around it. -/
structure Doc where
  pre : Ws
  root : Value
  post : Ws

def Doc.text (d : Doc) : Bytes := d.pre.1 ++ d.root.textThen d.post.1

/-! ## Members -/

/-- The members of an object, each with what follows its value. -/
def Syn.entries : {i : Ix} → Syn i → Bytes → List (Str × Value × Bytes)
  | _, .member _ k _ _ v post, rest => [(k, v, post.1 ++ rest)]
  | _, .members _ k _ _ v post more, rest => (k, v, post.1 ++ ch ',' :: more.textThen rest) :: more.entries rest
  | _, .obj ms, rest => ms.entries (ch '\x7d' :: rest)
  | _, _, _ => []

def Syn.isObj : Value → Bool
  | .obj _ | .emptyObj _ => true
  | _ => false

/-- The first member of a name, and what follows it. -/
def Syn.find {i : Ix} (x : Syn i) (name rest : Bytes) : Option (Value × Bytes) :=
  ((x.entries rest).find? fun e => e.1.1 = name).map Prod.snd

/-- The members of an object by name. -/
def Syn.members? {i : Ix} (x : Syn i) : List (Bytes × Value) := (x.entries []).map fun e => (e.1.1, e.2.1)

/-- The members in a value by name, at any depth. -/
def Syn.within : {i : Ix} → Syn i → List (Bytes × Value)
  | _, .arr es => es.within
  | _, .obj ms => ms.within
  | _, .item _ v _ => v.within
  | _, .items _ v _ more => v.within ++ more.within
  | _, .member _ k _ _ v _ => (k.1, v) :: v.within
  | _, .members _ k _ _ v _ more => (k.1, v) :: (v.within ++ more.within)
  | _, _ => []

/-- The value at a path of names. -/
def Syn.At : Value → List Bytes → Value → Prop
  | v, [], u => v = u
  | v, n :: path, u => ∃ w, (n, w) ∈ v.members? ∧ w.At path u

/-- No object has two members of one name. -/
def Syn.Unique : {i : Ix} → Syn i → Prop
  | _, .arr es => es.Unique
  | _, .obj ms => (ms.members?.map Prod.fst).Nodup ∧ ms.Unique
  | _, .item _ v _ => v.Unique
  | _, .items _ v _ more => v.Unique ∧ more.Unique
  | _, .member _ _ _ _ v _ => v.Unique
  | _, .members _ _ _ _ v _ more => v.Unique ∧ more.Unique
  | _, _ => True

/-- The first value at a path of names, and what follows it. -/
def Syn.findPath : Value → List Bytes → Bytes → Option (Value × Bytes)
  | v, [], rest => some (v, rest)
  | v, n :: path, rest => (v.find n rest).bind fun e => e.1.findPath path e.2

/-- What follows the text does not matter to its members. -/
theorem Syn.map_entries {i : Ix} (x : Syn i) (rest rest' : Bytes) :
    ((x.entries rest).map fun e => (e.1.1, e.2.1)) = (x.entries rest').map fun e => (e.1.1, e.2.1) := by
  induction x generalizing rest rest' with
  | members pre k mid pre' v post more _ ih =>
    rw [Syn.entries, Syn.entries, List.map_cons, List.map_cons, ih rest rest']
  | obj ms ih => exact ih _ _
  | _ => rfl

theorem Syn.mem_members_of_find {i : Ix} {x : Syn i} {name rest tail : Bytes} {u : Value}
    (h : x.find name rest = some (u, tail)) : (name, u) ∈ x.members? := by
  obtain ⟨e, he, htail⟩ := Option.map_eq_some_iff.mp h
  have hname : e.1.1 = name := by simpa using List.find?_some he
  rw [Syn.members?, x.map_entries [] rest]
  exact List.mem_map.mpr ⟨e, List.mem_of_find?_eq_some he, by rw [hname, htail]⟩

/-- Where names are unique, the member of a name is the first one. -/
theorem Syn.find_of_mem_members {i : Ix} {x : Syn i} (hx : (x.members?.map Prod.fst).Nodup) {name : Bytes} {u : Value}
    (h : (name, u) ∈ x.members?) (rest : Bytes) : ∃ tail, x.find name rest = some (u, tail) := by
  cases hfind : x.find name rest with
  | none =>
    rw [Syn.members?, x.map_entries [] rest] at h
    obtain ⟨e, he, heq⟩ := List.mem_map.mp h
    have hno := List.find?_eq_none.mp (Option.map_eq_none_iff.mp hfind) e he
    exact absurd (congrArg Prod.fst heq) (by simpa using hno)
  | some e =>
    have hmem := Syn.mem_members_of_find hfind
    have heq := List.inj_on_of_nodup_map hx hmem h rfl
    cases heq
    exact ⟨e.2, rfl⟩

theorem Syn.Unique.mem {i : Ix} {x : Syn i} (hx : x.Unique) {e : Bytes × Value} (he : e ∈ x.members?) :
    e.2.Unique := by
  induction x with
  | member pre k mid pre' v post =>
    cases List.mem_singleton.mp he
    exact hx
  | members pre k mid pre' v post more _ ih =>
    rw [Syn.members?, Syn.entries, List.map_cons, List.mem_cons] at he
    rcases he with rfl | he
    · exact hx.1
    · exact ih hx.2 he
  | obj ms ih =>
    refine ih hx.2 ?_
    rwa [Syn.members?, Syn.entries, ms.map_entries _ []] at he
  | _ => cases he

theorem Syn.Unique.nodup {v : Value} (hv : v.Unique) : (v.members?.map Prod.fst).Nodup := by
  cases v with
  | obj ms =>
    have h := hv.1
    rwa [Syn.members?, ms.map_entries [] [ch '\x7d']] at h
  | _ => exact List.nodup_nil

/-- Where names are unique, the value at a path is the first one. -/
theorem Syn.Unique.at_iff {v : Value} (hv : v.Unique) (path : List Bytes) (u : Value) (rest : Bytes) :
    v.At path u ↔ ∃ tail, v.findPath path rest = some (u, tail) := by
  induction path generalizing v rest with
  | nil =>
    constructor
    · rintro rfl
      exact ⟨rest, rfl⟩
    · rintro ⟨tail, h⟩
      exact congrArg Prod.fst (Option.some.inj h)
  | cons n path ih =>
    constructor
    · rintro ⟨w, hw, hu⟩
      obtain ⟨tail, hfind⟩ := Syn.find_of_mem_members hv.nodup hw rest
      obtain ⟨tail', hpath⟩ := (ih (hv.mem hw) tail).mp hu
      exact ⟨tail', by rw [Syn.findPath, hfind]; exact hpath⟩
    · rintro ⟨tail, h⟩
      obtain ⟨⟨w, r⟩, hfind, hpath⟩ := Option.bind_eq_some_iff.mp h
      have hw := Syn.mem_members_of_find hfind
      exact ⟨w, hw, (ih (hv.mem hw) r).mpr ⟨tail, hpath⟩⟩

/-- A number starts with a digit or its sign. -/
theorem IsNumber.head {t : Bytes} (h : IsNumber t) : ∃ b s, t = b :: s ∧ (b = ch '-' ∨ isDigit b = true) := by
  obtain ⟨sign, int, frac, exp, rfl, hsign, ⟨⟨hne, hdigit⟩, -⟩, -⟩ := h.parts
  rcases hsign with rfl | rfl
  · obtain ⟨b, s, rfl⟩ := List.exists_cons_of_ne_nil hne
    exact ⟨b, _, rfl, .inr (hdigit b List.mem_cons_self)⟩
  · exact ⟨ch '-', _, rfl, .inl rfl⟩

theorem not_isWs_of_number : ∀ b : Byte, b = ch '-' ∨ isDigit b = true → isWs b = false := by decide +kernel

/-- A value starts with a brace when it is an object. -/
theorem Syn.head_textThen (v : Value) (rest : Bytes) :
    (v.textThen rest).head? = some (ch '\x7b') ↔ v.isObj = true := by
  cases v with
  | bool b => cases b <;> exact ⟨nofun, nofun⟩
  | num n =>
    obtain ⟨b, s, hn, hb⟩ := n.2.head
    refine ⟨fun h => ?_, nofun⟩
    rw [Syn.textThen, hn] at h
    cases h
    exact absurd hb (by decide)
  | obj ms => exact ⟨fun _ => rfl, fun _ => rfl⟩
  | emptyObj w => exact ⟨fun _ => rfl, fun _ => rfl⟩
  | _ => exact ⟨nofun, nofun⟩

/-- A value does not start with white space. -/
theorem Syn.dropWhile_ws (v : Value) (rest : Bytes) : (v.textThen rest).dropWhile isWs = v.textThen rest := by
  have hcons : ∀ {b : Byte} (s : Bytes), isWs b = false → (b :: s).dropWhile isWs = b :: s :=
    fun s hb => List.dropWhile_cons_of_neg (by rw [hb]; decide)
  cases v with
  | bool b => cases b <;> exact hcons _ (by decide)
  | num n =>
    obtain ⟨b, s, hn, hb⟩ := n.2.head
    rw [Syn.textThen, hn]
    exact hcons _ (not_isWs_of_number b hb)
  | _ => exact hcons _ (by decide)

/-- What follows the value of a member: white space, a comma or a closing brace. -/
def Delimited (s : Bytes) : Prop := ∃ b rest, s = b :: rest ∧ (isWs b = true ∨ b = ch ',' ∨ b = ch '\x7d')

theorem delimited_ws (w : Ws) {s : Bytes} (h : Delimited s) : Delimited (w.1 ++ s) := by
  obtain ⟨w, hw⟩ := w
  cases w with
  | nil => exact h
  | cons b w => exact ⟨b, _, rfl, .inl (hw b List.mem_cons_self)⟩

theorem Syn.delimited_of_mem {i : Ix} (x : Syn i) {rest : Bytes} (hrest : Delimited rest) {e : Str × Value × Bytes}
    (he : e ∈ x.entries rest) : Delimited e.2.2 := by
  induction x generalizing rest with
  | member pre k mid pre' v post =>
    cases List.mem_singleton.mp he
    exact delimited_ws post hrest
  | members pre k mid pre' v post more _ ih =>
    rcases List.mem_cons.mp he with rfl | he
    · exact delimited_ws post ⟨_, _, rfl, .inr (.inl rfl)⟩
    · exact ih hrest he
  | obj ms ih => exact ih ⟨_, _, rfl, .inr (.inr rfl)⟩ he
  | _ => cases he

theorem Syn.delimited_of_find {v : Value} {name rest tail : Bytes} {u : Value} (h : v.find name rest = some (u, tail)) :
    Delimited tail := by
  obtain ⟨e, he, htail⟩ := Option.map_eq_some_iff.mp h
  have hmem := List.mem_of_find?_eq_some he
  rw [show tail = e.2.2 from (congrArg Prod.snd htail).symm]
  cases v with
  | obj ms => exact ms.delimited_of_mem ⟨_, _, rfl, .inr (.inr rfl)⟩ hmem
  | _ => cases hmem

theorem Syn.delimited_of_findPath {v : Value} {path : List Bytes} (hpath : path ≠ []) {rest tail : Bytes} {u : Value}
    (h : v.findPath path rest = some (u, tail)) : Delimited tail := by
  induction path generalizing v rest with
  | nil => exact absurd rfl hpath
  | cons n path ih =>
    obtain ⟨e, hfind, h⟩ := Option.bind_eq_some_iff.mp h
    cases path with
    | nil =>
      cases h
      exact Syn.delimited_of_find hfind
    | cons m path => exact ih (List.cons_ne_nil _ _) h

/-- Only objects have members. -/
theorem Syn.find_eq_none {v : Value} (h : v.isObj = false) (name rest : Bytes) : v.find name rest = none := by
  cases v with
  | obj ms => cases h
  | _ => rfl

end Json
