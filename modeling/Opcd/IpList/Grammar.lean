import Opcd.IpList.RoundTrip

/-!
# The grammar of the list text

`textParse` against a grammar that names no parser: a line that is not blank assigns a value to a key of
a list number, as `keyLine` prints it, and no key of a list is assigned twice (`Written`).

What a text means does not depend on the order of its lines. A line alone says one of four things
(`Said`), what is said adds up slot by slot in any order (`Sense.hear_comm`), and the parser computes
that sum (`Means`).

* `parseIpv4_eq_some`, `parseEssid_eq_some`: a value that is read is the one that was written.
* `text_grammar`: the texts without an error are the written ones, their values are read exactly, and
  permuting terminated lines changes nothing.
-/

namespace Opcd.IpList

open Bytes Protocol

/-! ## Values -/

/-- The value is written as one of the key. -/
def WellFormed (k : Key) (v : Bytes) : Prop :=
  match k with
  | .essid => ∃ s : Bytes, v = ch '"' :: s ++ [ch '"'] ∧ s.length ≤ 31 ∧ ch '"' ∉ s
  | _ => ∃ a : BitVec 32, v = ipv4Str a

/-- The entry holds the written value. -/
def Holds (e : Entry) (k : Key) (v : Bytes) : Prop :=
  match k with
  | .ip => v = ipv4Str e.ipAddress
  | .mask => v = ipv4Str e.subnetMask
  | .gw => v = ipv4Str e.defaultGateway
  | .essid => ∃ s : Bytes, v = ch '"' :: s ++ [ch '"'] ∧ e.essid = Buf.ofBytes 32 s
  | .ntp => v = ipv4Str e.ntpServer

theorem octet_eq_some {s rest : Bytes} {v : BitVec 32} (h : octet s = some (v, rest)) :
    ∃ n < 256, s = decimal n ++ rest := by
  unfold octet at h
  dsimp only at h
  split_ifs at h with h1 h2
  obtain ⟨-, rfl⟩ := Prod.mk.inj (Option.some.inj h)
  simp only [not_or, not_and, not_lt] at h1
  obtain ⟨hlen, hval, hlead⟩ := h1
  generalize hd : (s.take 3).takeWhile isDigit = d at hlen hval hlead ⊢
  have hs : s = d ++ s.drop d.length := hd ▸ (scan_append_drop isDigit 3 s).symm
  have hdig : ∀ b ∈ d, isDigit b := fun b hb => List.mem_takeWhile_imp (hd ▸ hb)
  have hne : d ≠ [] := fun e => hlen (by simp [e])
  have hhead : s.head? = d.head? := by rw [hs, List.head?_append_of_ne_nil _ hne]
  rw [hhead] at hlead
  refine ⟨readDecimal d, by omega, ?_⟩
  by_cases hz : d.head? = some (ch '0')
  · -- a zero stands alone
    have hone : d.length ≤ 1 := not_lt.mp fun hl => hlead hl hz
    obtain ⟨b, rfl⟩ := List.length_eq_one_iff.mp (by omega : d.length = 1)
    have hval : readDecimal [b] = digitVal b := by simp [readDecimal]
    rw [hval, (digitVal_spec b (hdig b (by simp))).1]
    exact hs
  · rw [decimal_readDecimal hdig hne hz]
    exact hs

theorem afterDot_eq_some {s rest : Bytes} (h : afterDot s = some rest) : s = ch '.' :: rest := by
  cases s with
  | nil => cases h
  | cons b s =>
    simp only [afterDot] at h
    split_ifs at h with hb
    rw [hb, Option.some.inj h]

/-- Four octets are the address they make, printed. -/
theorem ipv4Str_ofOctets {a b c d : Nat} (ha : a < 256) (hb : b < 256) (hc : c < 256) (hd : d < 256) :
    ∃ v, ipv4Str v = decimal a ++ ch '.' :: (decimal b ++ ch '.' :: (decimal c ++ ch '.' :: decimal d)) := by
  refine ⟨BitVec.ofNat 32 (a * 2 ^ 24 + b * 2 ^ 16 + c * 2 ^ 8 + d), ?_⟩
  have hn : (BitVec.ofNat 32 (a * 2 ^ 24 + b * 2 ^ 16 + c * 2 ^ 8 + d)).toNat =
      a * 2 ^ 24 + b * 2 ^ 16 + c * 2 ^ 8 + d := by
    rw [BitVec.toNat_ofNat]
    omega
  have hmask : ∀ m : Nat, m &&& 255 = m % 256 := fun m => Nat.and_two_pow_sub_one_eq_mod m 8
  have h1 : ((BitVec.ofNat 32 (a * 2 ^ 24 + b * 2 ^ 16 + c * 2 ^ 8 + d)) >>> 24).toNat = a := by
    rw [BitVec.toNat_ushiftRight, hn, Nat.shiftRight_eq_div_pow]
    omega
  have h2 : ((BitVec.ofNat 32 (a * 2 ^ 24 + b * 2 ^ 16 + c * 2 ^ 8 + d)) >>> 16 &&& 0xFF).toNat = b := by
    rw [BitVec.toNat_and, BitVec.toNat_ushiftRight, hn, Nat.shiftRight_eq_div_pow,
      show (0xFF : BitVec 32).toNat = 255 from rfl, hmask]
    omega
  have h3 : ((BitVec.ofNat 32 (a * 2 ^ 24 + b * 2 ^ 16 + c * 2 ^ 8 + d)) >>> 8 &&& 0xFF).toNat = c := by
    rw [BitVec.toNat_and, BitVec.toNat_ushiftRight, hn, Nat.shiftRight_eq_div_pow,
      show (0xFF : BitVec 32).toNat = 255 from rfl, hmask]
    omega
  have h4 : ((BitVec.ofNat 32 (a * 2 ^ 24 + b * 2 ^ 16 + c * 2 ^ 8 + d)) &&& 0xFF).toNat = d := by
    rw [BitVec.toNat_and, hn, show (0xFF : BitVec 32).toNat = 255 from rfl, hmask]
    omega
  simp only [ipv4Str, h1, h2, h3, h4, List.append_assoc, List.cons_append]

/-- An address that is read is the one that was written. -/
theorem parseIpv4_eq_some {p : Bytes} {v : BitVec 32} (h : parseIpv4 p = some v) : p = ipv4Str v := by
  have hread := h
  simp only [parseIpv4, Option.bind_eq_bind, Option.bind_eq_some_iff] at h
  obtain ⟨⟨a, s₁⟩, h1, t₁, hd1, ⟨b, s₂⟩, h2, t₂, hd2, ⟨c, s₃⟩, h3, t₃, hd3, ⟨d, s₄⟩, h4, hend⟩ := h
  split_ifs at hend with hs
  obtain rfl := not_not.mp hs
  obtain ⟨na, hna, rfl⟩ := octet_eq_some h1
  obtain ⟨nb, hnb, rfl⟩ := octet_eq_some h2
  obtain ⟨nc, hnc, rfl⟩ := octet_eq_some h3
  obtain ⟨nd, hnd, rfl⟩ := octet_eq_some h4
  obtain ⟨w, hw⟩ := ipv4Str_ofOctets hna hnb hnc hnd
  have e1 : s₁ = _ := afterDot_eq_some hd1
  have e2 : s₂ = _ := afterDot_eq_some hd2
  have e3 : s₃ = _ := afterDot_eq_some hd3
  have heq : decimal na ++ s₁ = ipv4Str w := by rw [hw, e1, e2, e3, List.append_nil]
  rw [heq, parseIpv4_ipv4Str] at hread
  rw [heq, Option.some.inj hread]

/-- An ESSID that is read is the one between the quotes. -/
theorem parseEssid_eq_some {p : Bytes} {b : Buf 32} (h : parseEssid p = some b) :
    ∃ s : Bytes, p = ch '"' :: s ++ [ch '"'] ∧ s.length ≤ 31 ∧ ch '"' ∉ s ∧ b = Buf.ofBytes 32 s := by
  unfold parseEssid at h
  dsimp only at h
  split_ifs at h with hc
  obtain ⟨hlen, hfirst, hlast, hlt, hq⟩ := hc
  refine ⟨(p.drop 1).dropLast, ?_, by omega, hq, (Option.some.inj h).symm⟩
  cases p with
  | nil => simp at hlen
  | cons c p =>
    obtain rfl : c = ch '"' := Option.some.inj hfirst
    have hne : p ≠ [] := by
      rintro rfl
      simp at hlen
    have hlast' : p.getLast? = some (ch '"') := by
      rwa [List.getLast?_cons_of_ne_nil hne] at hlast
    have hp := List.dropLast_append_getLast? (ch '"') hlast'
    simp [hp]

theorem wellFormed_iff {k : Key} {v : Bytes} (e : Entry) : WellFormed k v ↔ ∃ e', setValue e k v = some e' := by
  have haddr : (∃ a, v = ipv4Str a) ↔ ∃ a, parseIpv4 v = some a :=
    ⟨fun ⟨a, ha⟩ => ⟨a, ha ▸ parseIpv4_ipv4Str a⟩, fun ⟨a, ha⟩ => ⟨a, parseIpv4_eq_some ha⟩⟩
  have hessid : (∃ s : Bytes, v = ch '"' :: s ++ [ch '"'] ∧ s.length ≤ 31 ∧ ch '"' ∉ s) ↔
      ∃ b, parseEssid v = some b := by
    constructor
    · rintro ⟨s, rfl, hl, hq⟩
      exact ⟨_, parseEssid_quoted hq (by omega)⟩
    · rintro ⟨b, hb⟩
      obtain ⟨s, hs, hl, hq, -⟩ := parseEssid_eq_some hb
      exact ⟨s, hs, hl, hq⟩
  cases k with
  | essid => simpa [WellFormed, setValue, Option.map_eq_some_iff] using hessid
  | _ => simpa [WellFormed, setValue, Option.map_eq_some_iff] using haddr

/-! ## Lines -/

/-- A line without the CR before its end. -/
def stripCr (s : Bytes) : Bytes := if s.getLast? = some (ch '\r') then s.dropLast else s

/-- A value for a key of a list. -/
structure Assignment where
  slot : SlotIdx
  key : Key
  value : Bytes

namespace Assignment

/-- The line that makes it. -/
def line (a : Assignment) : Bytes := keyLine (a.slot + 1) a.key a.value

structure Grammatical (a : Assignment) : Prop where
  wellFormed : WellFormed a.key a.value
  noNul : 0#8 ∉ a.value

/-- What is assigned. -/
def place (a : Assignment) : SlotIdx × Key := (a.slot, a.key)

end Assignment

/-- What a line says on its own: nothing, nothing that is understood, a bad value for a list, or a
value. -/
inductive Said
  | blank
  | junk
  | spoilt (i : SlotIdx)
  | value (a : Assignment)

/-- What a line without its CR says. -/
def saidLine (s : Bytes) : Said :=
  if s = [] then .blank
  else if 0#8 ∈ s then .junk
  else
    match lineKey s with
    | none => .junk
    | some k =>
      let p := s.drop k.name.length
      let d := (p.take 4).takeWhile isDigit
      let n := readDecimal d
      let rest := p.drop d.length
      if h : 1 ≤ n ∧ n ≤ maxSlots ∧ p.head? ≠ some (ch '0') ∧ rest.head? = some (ch '=') then
        if (setValue Entry.zero k (rest.drop 1)).isSome then
          .value ⟨⟨n - 1, Nat.sub_one_lt_of_le h.1 h.2.1⟩, k, rest.drop 1⟩
        else .spoilt ⟨n - 1, Nat.sub_one_lt_of_le h.1 h.2.1⟩
      else .junk

/-- What a line says. -/
def said (s : Bytes) : Said := saidLine (stripCr s)

/-- What the parser makes of a line, by what it says. -/
inductive Heard (t : Text) (n : Nat) : Said → Text → Prop
  | blank : Heard t n .blank t
  | junk (why : LineError) : Heard t n .junk (t.note n why)
  | spoilt (i : SlotIdx) (why : LineError) : Heard t n (.spoilt i) (t.spoil i n why)
  | repeated {a : Assignment} (h : t.keys a.slot a.key = true) :
      Heard t n (.value a) (t.spoil a.slot n .repeatedKey)
  | value {a : Assignment} {e : Entry} (h : t.keys a.slot a.key = false)
      (he : setValue (t.entry a.slot) a.key a.value = some e) :
      Heard t n (.value a)
        { t with
          entry := Function.update t.entry a.slot
            { e with listNumber := BitVec.ofNat 16 (a.slot + 1) }
          keys := Function.update t.keys a.slot (Function.update (t.keys a.slot) a.key true) }

theorem heard (t : Text) (n : Nat) (s : Bytes) : Heard t n (said s) (t.addLine n s) := by
  unfold said Text.addLine
  dsimp only
  rw [← stripCr]
  generalize stripCr s = s
  unfold saidLine
  by_cases hblank : s = []
  · rw [if_pos hblank, if_pos hblank]
    exact .blank
  rw [if_neg hblank, if_neg hblank]
  unfold Text.parseLine
  by_cases hnul : 0#8 ∈ s
  · rw [if_pos hnul, if_pos hnul]
    exact .junk _
  rw [if_neg hnul, if_neg hnul]
  cases lineKey s with
  | none => exact .junk _
  | some k =>
    dsimp only
    split
    · next hsaid =>
      rw [dif_pos ⟨hsaid.2.2.2, hsaid.2.2.1, hsaid.1, hsaid.2.1⟩]
      have hn : readDecimal (((s.drop k.name.length).take 4).takeWhile isDigit) - 1 + 1 =
          readDecimal (((s.drop k.name.length).take 4).takeWhile isDigit) := by omega
      generalize ((s.drop k.name.length).drop _).drop 1 = v
      generalize hi : (⟨readDecimal (((s.drop k.name.length).take 4).takeWhile isDigit) - 1,
        by omega⟩ : SlotIdx) = i
      have hi' : BitVec.ofNat 16 (readDecimal (((s.drop k.name.length).take 4).takeWhile isDigit)) =
          BitVec.ofNat 16 (i + 1) := by
        rw [← hi, hn]
      rw [hi']
      have hwf := wellFormed_iff (k := k) (v := v) Entry.zero
      rw [wellFormed_iff (t.entry i)] at hwf
      by_cases hk : t.keys i k = true
      · rw [if_pos hk]
        split
        · exact .repeated (a := ⟨i, k, v⟩) hk
        · exact .spoilt i _
      · rw [if_neg hk]
        cases he : setValue (t.entry i) k v with
        | none =>
          have hnone : ¬ (setValue Entry.zero k v).isSome := by
            rw [Option.isSome_iff_exists, ← hwf, he]
            simp
          rw [if_neg hnone]
          exact .spoilt i _
        | some e =>
          have hsome : (setValue Entry.zero k v).isSome := by
            rw [Option.isSome_iff_exists, ← hwf]
            exact ⟨e, he⟩
          rw [if_pos hsome]
          exact .value (a := ⟨i, k, v⟩) (by simpa using hk) he
    · next hsaid =>
      rw [dif_neg fun h => hsaid ⟨h.2.2.1, h.2.2.2, h.2.1, h.1⟩]
      exact .junk _

theorem said_value {s : Bytes} {a : Assignment} (h : saidLine s = .value a) : s = a.line ∧ a.Grammatical := by
  unfold saidLine at h
  split_ifs at h with hblank hnul
  split at h
  · cases h
  next k hk =>
  dsimp only at h
  split at h
  · next hnum =>
    split_ifs at h with hval
    obtain ⟨hfind, -⟩ : k.name.isPrefixOf s = true ∧ _ := by
      simpa only [Bool.and_eq_true] using List.find?_some hk
    obtain ⟨p, rfl⟩ := List.isPrefixOf_iff_prefix.mp hfind
    have ha := Said.value.inj h
    have hslot : a.slot.val = _ := congrArg (fun b => b.slot.val) ha.symm
    have hkey : a.key = k := by rw [← ha]
    have hvalue : a.value = _ := congrArg Assignment.value ha.symm
    dsimp only at hslot hvalue
    rw [List.drop_left] at hnum hval hslot hvalue
    obtain ⟨hpos, -, hlead, heq⟩ := hnum
    generalize hd : (p.take 4).takeWhile isDigit = d at heq hpos hval hslot hvalue
    have hp : p = d ++ p.drop d.length := hd ▸ (scan_append_drop isDigit 4 p).symm
    have hdig : ∀ b ∈ d, isDigit b := fun b hb => List.mem_takeWhile_imp (hd ▸ hb)
    have hne : d ≠ [] := by
      rintro rfl
      simp [readDecimal] at hpos
    have hlead' : d.head? ≠ some (ch '0') := by
      rwa [hp, List.head?_append_of_ne_nil _ hne] at hlead
    have hrest : p.drop d.length = ch '=' :: (p.drop d.length).drop 1 := by
      cases hr : p.drop d.length with
      | nil => simp [hr] at heq
      | cons b rest =>
        rw [hr] at heq
        rw [Option.some.inj heq]
        rfl
    refine ⟨?_, ⟨?_, ?_⟩⟩
    · have hn : a.slot.val + 1 = readDecimal d := by omega
      simp only [Assignment.line, keyLine, hn, hkey, hvalue, decimal_readDecimal hdig hne hlead']
      rw [List.append_assoc, ← hrest, ← hp]
    · rw [hkey, hvalue]
      exact (wellFormed_iff Entry.zero).mpr (Option.isSome_iff_exists.mp hval)
    · intro hz
      rw [hvalue] at hz
      refine hnul (List.mem_append_right _ ?_)
      exact List.mem_of_mem_drop (List.mem_of_mem_drop hz)
  · cases h

theorem said_line {a : Assignment} (h : a.Grammatical) : saidLine a.line = .value a := by
  have hi : a.slot.val < 128 := a.slot.isLt
  have hlt : a.slot.val + 1 < 1000 := by omega
  obtain ⟨-, hlen, hval, hlead⟩ := decimal_spec _ hlt
  have hne : a.line ≠ [] := by simp [Assignment.line, keyLine]
  have hname : ∀ k : Key, 0#8 ∉ k.name := by
    intro k
    cases k <;> decide
  have hnul : 0#8 ∉ a.line := by
    simp only [Assignment.line, keyLine, List.mem_append, List.mem_cons, not_or]
    exact ⟨⟨hname _, notMem_decimal rfl _⟩, by decide, h.noNul⟩
  have hdrop : a.line.drop a.key.name.length = decimal (a.slot + 1) ++ ch '=' :: a.value := by
    rw [Assignment.line, keyLine, List.append_assoc, List.drop_left]
  have hdig : ((decimal (a.slot + 1) ++ ch '=' :: a.value).take 4).takeWhile isDigit
      = decimal (a.slot + 1) :=
    takeWhile_take_append (fun b hb => isDigit_of_mem_decimal hb) (by omega) rfl
  have hcond : 1 ≤ a.slot.val + 1 ∧ a.slot.val + 1 ≤ maxSlots ∧
      (decimal (a.slot + 1) ++ ch '=' :: a.value).head? ≠ some (ch '0') ∧
      (ch '=' :: a.value).head? = some (ch '=') :=
    ⟨by omega, by omega, by rw [head?_append_decimal hlt]; exact hlead (.inl (by omega)), rfl⟩
  have hset : (setValue Entry.zero a.key a.value).isSome :=
    Option.isSome_iff_exists.mpr ((wellFormed_iff Entry.zero).mp h.wellFormed)
  have hkey : lineKey a.line = some a.key := lineKey_keyLine hlt _ _
  rw [saidLine, if_neg hne, if_neg hnul, hkey]
  simp only [hdrop, hdig, hval, List.drop_left, dif_pos hcond, Nat.add_sub_cancel, Fin.eta,
    List.drop_one, List.tail_cons, hset, if_true]

theorem said_blank {s : Bytes} : saidLine s = .blank ↔ s = [] := by
  constructor
  · intro h
    by_contra hne
    unfold saidLine at h
    rw [if_neg hne] at h
    split_ifs at h
    split at h
    · cases h
    · dsimp only at h
      split_ifs at h
  · rintro rfl
    rfl

/-! ## What the lines add up to -/

/-- What was assigned in one list so far, or nothing once it is spoilt. -/
abbrev Content := Option (Key → Option Bytes)

/-- One more value. A second one for the same key spoils the list. -/
def Content.assign (f : Content) (k : Key) (v : Bytes) : Content :=
  f.bind fun g => if (g k).isSome then none else some (Function.update g k (some v))

theorem Content.assign_comm (f : Content) (k k' : Key) (v v' : Bytes) :
    (f.assign k v).assign k' v' = (f.assign k' v').assign k v := by
  cases f with
  | none => rfl
  | some g =>
    by_cases he : k = k'
    · subst he
      by_cases hg : (g k).isSome <;> simp [assign, hg]
    · have he' : k' ≠ k := fun e => he e.symm
      by_cases hg : (g k).isSome <;> by_cases hg' : (g k').isSome <;>
        simp [assign, hg, hg', he, he', Function.update_comm he]

/-- What a text means: whether a line was not understood, and what each list holds. -/
@[ext]
structure Sense where
  junk : Bool
  content : SlotIdx → Content

namespace Sense

/-- Nothing was said. -/
def silent : Sense := ⟨false, fun _ => some fun _ => none⟩

/-- What a line does to one list. -/
def on (i : SlotIdx) (f : Content) : Said → Content
  | .spoilt j => if j = i then none else f
  | .value a => if a.slot = i then f.assign a.key a.value else f
  | _ => f

/-- One more line. -/
def hear (m : Sense) (s : Said) : Sense := ⟨m.junk || s matches .junk, fun i => on i (m.content i) s⟩

theorem on_comm (i : SlotIdx) (f : Content) (a b : Said) : on i (on i f a) b = on i (on i f b) a := by
  cases a with
  | blank => rfl
  | junk => rfl
  | spoilt j =>
    cases b with
    | blank => rfl
    | junk => rfl
    | spoilt j' =>
      simp only [on]
      split_ifs <;> rfl
    | value c =>
      simp only [on]
      split_ifs <;> rfl
  | value c =>
    cases b with
    | blank => rfl
    | junk => rfl
    | spoilt j =>
      simp only [on]
      split_ifs <;> rfl
    | value c' =>
      simp only [on]
      split_ifs
      · exact f.assign_comm _ _ _ _
      all_goals rfl

/-- **Lines add up in any order.** -/
theorem hear_comm (m : Sense) (a b : Said) : (m.hear a).hear b = (m.hear b).hear a := by
  refine Sense.ext ?_ (funext fun i => on_comm i _ a b)
  simp only [hear, Bool.or_assoc]
  rw [Bool.or_comm (a matches .junk)]

end Sense

/-- What lines mean together. -/
def sense (ls : List Bytes) : Sense := (ls.map said).foldl Sense.hear .silent

theorem sense_perm {ls ls' : List Bytes} (h : ls.Perm ls') : sense ls = sense ls' :=
  (h.map said).foldl_eq' (fun a _ b _ m => m.hear_comm a b) _

theorem sense_snoc (ls : List Bytes) (s : Bytes) : sense (ls ++ [s]) = (sense ls).hear (said s) := by
  simp [sense, List.foldl_append]

/-- The entry a list's values make. -/
def entryOf (i : SlotIdx) (g : Key → Option Bytes) : Entry where
  boundaryFlag := 0
  listNumber := if Key.all.any fun k => (g k).isSome then BitVec.ofNat 16 (i + 1) else 0
  ipAddress := ((g .ip).bind parseIpv4).getD 0
  subnetMask := ((g .mask).bind parseIpv4).getD 0
  defaultGateway := ((g .gw).bind parseIpv4).getD 0
  ntpServer := ((g .ntp).bind parseIpv4).getD 0
  essid := ((g .essid).bind parseEssid).getD (Buf.zero 32)

theorem entryOf_update {i : SlotIdx} {g : Key → Option Bytes} {k : Key} {v : Bytes} {e : Entry}
    (h : setValue (entryOf i g) k v = some e) :
    { e with listNumber := BitVec.ofNat 16 (i + 1) } = entryOf i (Function.update g k (some v)) := by
  cases k <;>
    · simp only [setValue, Option.map_eq_some_iff] at h
      obtain ⟨x, hx, rfl⟩ := h
      simp [entryOf, Key.all, hx]

/-- The parser has read what the lines mean. -/
structure Means (t : Text) (m : Sense) : Prop where
  error : t.firstError.isSome = true ↔ m.junk = true ∨ ∃ i, m.content i = none
  bad : ∀ i, t.bad i = true ↔ m.content i = none
  named : ∀ i g, m.content i = some g → ∀ k, t.keys i k = (g k).isSome
  entry : ∀ i g, m.content i = some g → t.entry i = entryOf i g

theorem means_init (final : Bool) : Means (Text.init final) .silent where
  error := by simp [Text.init, Sense.silent]
  bad i := by simp [Text.init, Sense.silent]
  named i g h k := by
    obtain rfl := Option.some.inj h
    rfl
  entry i g h := by
    obtain rfl := Option.some.inj h
    rfl

theorem isSome_note (t : Text) (n : Nat) (why : LineError) : (t.note n why).firstError.isSome = true := by
  unfold Text.note
  split
  · assumption
  · rfl

@[simp] theorem bad_note (t : Text) (n : Nat) (why : LineError) : (t.note n why).bad = t.bad := by
  unfold Text.note
  split <;> rfl

@[simp] theorem keys_note (t : Text) (n : Nat) (why : LineError) : (t.note n why).keys = t.keys := by
  unfold Text.note
  split <;> rfl

/-- A list that is spoilt. -/
theorem Means.spoil {t : Text} {m m' : Sense} (h : Means t m) (i : SlotIdx) (n : Nat) (why : LineError)
    (hi : m'.content i = none) (hother : ∀ j, j ≠ i → m'.content j = m.content j) :
    Means (t.spoil i n why) m' where
  error := by
    simp only [Text.spoil, isSome_note, true_iff]
    exact .inr ⟨i, hi⟩
  bad j := by
    by_cases he : j = i
    · subst he
      simp [Text.spoil, hi]
    · simp [Text.spoil, he, hother j he, h.bad j]
  named j g hg k := by
    by_cases he : j = i
    · subst he
      rw [hi] at hg
      cases hg
    · rw [hother j he] at hg
      simpa [Text.spoil] using h.named j g hg k
  entry j g hg := by
    by_cases he : j = i
    · subst he
      rw [hi] at hg
      cases hg
    · rw [hother j he] at hg
      simpa [Text.spoil, entry_note] using h.entry j g hg

/-- **One more line is read as it is meant.** -/
theorem Means.addLine {t : Text} {m : Sense} (h : Means t m) (n : Nat) (s : Bytes) :
    Means (t.addLine n s) (m.hear (said s)) := by
  have hheard := heard t n s
  generalize said s = r at hheard
  generalize t.addLine n s = t' at hheard
  cases hheard with
  | blank => simpa [Sense.hear, Sense.on] using h
  | junk why =>
    exact {
      error := by simp [isSome_note, Sense.hear]
      bad := fun i => by simpa [Sense.hear, Sense.on] using h.bad i
      named := fun i g hg k => by simpa using h.named i g hg k
      entry := fun i g hg => by simpa [entry_note] using h.entry i g hg }
  | spoilt i why =>
    exact h.spoil i n why (by simp [Sense.hear, Sense.on]) fun j hj => by
      simp [Sense.hear, Sense.on, Ne.symm hj]
  | @repeated a hk =>
    refine h.spoil a.slot n _ ?_ fun j hj => by simp [Sense.hear, Sense.on, Ne.symm hj]
    cases hc : m.content a.slot with
    | none => simp [Sense.hear, Sense.on, hc, Content.assign]
    | some g =>
      have hg := h.named _ g hc a.key
      rw [hk] at hg
      simp [Sense.hear, Sense.on, hc, Content.assign, ← hg]
  | @value a e hk he =>
    have hother : ∀ j, j ≠ a.slot → (m.hear (.value a)).content j = m.content j := fun j hj => by
      simp [Sense.hear, Sense.on, Ne.symm hj]
    have hself : (m.hear (.value a)).content a.slot =
        (m.content a.slot).map fun g => Function.update g a.key (some a.value) := by
      cases hc : m.content a.slot with
      | none => simp [Sense.hear, Sense.on, hc, Content.assign]
      | some g =>
        have hg := h.named _ g hc a.key
        rw [hk] at hg
        simp [Sense.hear, Sense.on, hc, Content.assign, ← hg]
    have hnone : ∀ i, (m.hear (.value a)).content i = none ↔ m.content i = none := by
      intro i
      by_cases hi : i = a.slot
      · rw [hi, hself, Option.map_eq_none_iff]
      · rw [hother i hi]
    refine ⟨?_, fun i => ?_, fun i g hg k => ?_, fun i g hg => ?_⟩
    · simp only [hnone]
      simpa [Sense.hear] using h.error
    · rw [hnone]
      exact h.bad i
    · by_cases hi : i = a.slot
      · subst hi
        rw [hself] at hg
        obtain ⟨g₀, hg₀, rfl⟩ := Option.map_eq_some_iff.mp hg
        by_cases hkk : k = a.key
        · subst hkk
          simp
        · simpa [hkk] using h.named _ g₀ hg₀ k
      · rw [hother i hi] at hg
        simpa [hi] using h.named i g hg k
    · by_cases hi : i = a.slot
      · subst hi
        rw [hself] at hg
        obtain ⟨g₀, hg₀, rfl⟩ := Option.map_eq_some_iff.mp hg
        rw [h.entry _ g₀ hg₀] at he
        simpa using entryOf_update he
      · rw [hother i hi] at hg
        simpa [hi] using h.entry i g hg

theorem Means.addLines {t : Text} (ls₀ : List Bytes) (h : Means t (sense ls₀)) (n : Nat)
    (ls : List Bytes) : Means (t.addLines n ls) (sense (ls₀ ++ ls)) := by
  induction ls generalizing t ls₀ n with
  | nil => simpa [Text.addLines] using h
  | cons s ls ih =>
    have hrest := ih (ls₀ ++ [s]) (sense_snoc ls₀ s ▸ h.addLine n s) (n + 1)
    simpa [Text.addLines] using hrest

theorem means_textParse (buf : Bytes) : Means (textParse buf) (sense (lines buf)) :=
  Means.addLines [] (means_init _) 1 (lines buf)

/-! ## Texts without an error -/

/-- The assignment a line makes. -/
def Said.assignment? : Said → Option Assignment
  | .value a => some a
  | _ => none

/-- The assignments the lines make. -/
def assigned (ls : List Bytes) : List Assignment := ls.filterMap fun s => (said s).assignment?

variable {ls : List Bytes}

theorem mem_assigned {a : Assignment} : a ∈ assigned ls ↔ ∃ s ∈ ls, said s = .value a := by
  simp only [assigned, List.mem_filterMap]
  refine exists_congr fun s => and_congr_right fun _ => ?_
  cases said s <;> simp [Said.assignment?]

theorem assigned_snoc (ls : List Bytes) (s : Bytes) :
    assigned (ls ++ [s]) = assigned ls ++ (said s).assignment?.toList := by
  simp only [assigned, List.filterMap_append, List.filterMap_cons, List.filterMap_nil]
  cases (said s).assignment? <;> rfl

/-- What a text means, by its lines: every list that no line spoils and no two lines assign the same
key of holds what was assigned. -/
structure Totals (ls : List Bytes) (m : Sense) : Prop where
  junk : m.junk = true ↔ ∃ s ∈ ls, said s = .junk
  spoilt : ∀ i, m.content i = none ↔
    (∃ s ∈ ls, said s = .spoilt i) ∨ ∃ k, 1 < ((assigned ls).map Assignment.place).count (i, k)
  holds : ∀ i g, m.content i = some g → ∀ k v, g k = some v ↔ ⟨i, k, v⟩ ∈ assigned ls

theorem Totals.count {m : Sense} (h : Totals ls m) {i : SlotIdx}
    {g : Key → Option Bytes} (hg : m.content i = some g) (k : Key) :
    (g k).isSome = true ↔ 0 < ((assigned ls).map Assignment.place).count (i, k) := by
  rw [List.count_pos_iff, List.mem_map, Option.isSome_iff_exists]
  constructor
  · rintro ⟨v, hv⟩
    exact ⟨⟨i, k, v⟩, (h.holds i g hg k v).mp hv, rfl⟩
  · rintro ⟨a, ha, hplace⟩
    obtain ⟨rfl, rfl⟩ := Prod.mk.inj hplace
    exact ⟨a.value, (h.holds _ g hg _ _).mpr ha⟩

/-- A line that assigns nothing. -/
theorem Totals.unassigned {m : Sense} (h : Totals ls m) {s : Bytes}
    (hs : (said s).assignment? = none) : Totals (ls ++ [s]) (m.hear (said s)) := by
  have hassigned : assigned (ls ++ [s]) = assigned ls := by simp [assigned_snoc, hs]
  cases hr : said s with
  | value a => simp [hr, Said.assignment?] at hs
  | blank =>
    refine ⟨?_, fun i => ?_, fun i g hg k v => ?_⟩
    · simpa [Sense.hear, hr] using h.junk
    · simpa [Sense.hear, Sense.on, hr, hassigned] using h.spoilt i
    · simpa [hassigned] using h.holds i g hg k v
  | junk =>
    refine ⟨?_, fun i => ?_, fun i g hg k v => ?_⟩
    · simp [Sense.hear, hr]
    · simpa [Sense.hear, Sense.on, hr, hassigned] using h.spoilt i
    · simpa [hassigned] using h.holds i g hg k v
  | spoilt j =>
    have hcontent : ∀ i, (m.hear (.spoilt j)).content i = if j = i then none else m.content i :=
      fun i => rfl
    refine ⟨?_, fun i => ?_, fun i g hg k v => ?_⟩
    · simpa [Sense.hear, hr] using h.junk
    · rw [hcontent]
      by_cases hj : j = i
      · simp [hj, hr]
      · simpa [hj, hr, hassigned] using h.spoilt i
    · rw [hcontent] at hg
      split_ifs at hg
      simpa [hassigned] using h.holds i g hg k v

/-- A value spoils its list when the list is spoilt, or the key was assigned before. -/
theorem Totals.assign_eq_none {m : Sense} (h : Totals ls m) (a : Assignment) :
    (m.content a.slot).assign a.key a.value = none ↔
      m.content a.slot = none ∨ 0 < ((assigned ls).map Assignment.place).count a.place := by
  cases hc : m.content a.slot with
  | none => simp [Content.assign]
  | some g =>
    rw [Assignment.place, ← h.count hc a.key]
    by_cases hk : (g a.key).isSome <;> simp [Content.assign, hk]

/-- A line that assigns a value. -/
theorem Totals.value {ls : List Bytes} {m : Sense} (h : Totals ls m) {s : Bytes} {a : Assignment}
    (hs : said s = .value a) : Totals (ls ++ [s]) (m.hear (.value a)) := by
  have hcontent : ∀ i, (m.hear (.value a)).content i =
      if a.slot = i then (m.content i).assign a.key a.value else m.content i := fun i => rfl
  have hassigned : assigned (ls ++ [s]) = assigned ls ++ [a] := by
    rw [assigned_snoc, hs]
    rfl
  have hcount : ∀ i k, ((assigned (ls ++ [s])).map Assignment.place).count (i, k) =
      ((assigned ls).map Assignment.place).count (i, k) + if a.place = (i, k) then 1 else 0 := by
    intro i k
    rw [hassigned, List.map_append, List.count_append, List.map_singleton, List.count_singleton]
    simp only [beq_iff_eq]
  have hspoilt : ∀ i, (∃ t ∈ ls ++ [s], said t = .spoilt i) ↔ ∃ t ∈ ls, said t = .spoilt i := by
    intro i
    simp [hs]
  refine ⟨?_, fun i => ?_, fun i g hg k v => ?_⟩
  · simpa [Sense.hear, hs] using h.junk
  · simp only [hcontent, hspoilt, hcount]
    by_cases hi : a.slot = i
    · subst hi
      rw [if_pos rfl, h.assign_eq_none, h.spoilt, or_assoc]
      refine or_congr_right ⟨?_, ?_⟩
      · rintro (⟨k, hk⟩ | hk)
        · exact ⟨k, by omega⟩
        · refine ⟨a.key, ?_⟩
          rw [if_pos (show a.place = (a.slot, a.key) from rfl)]
          exact Nat.lt_add_of_pos_left hk
      · rintro ⟨k, hk⟩
        split_ifs at hk with hp
        · exact .inr (hp ▸ by omega)
        · exact .inl ⟨k, hk⟩
    · have hp : ∀ k, a.place ≠ (i, k) := fun k he => hi (Prod.mk.inj he).1
      simp only [if_neg hi, hp, if_false, Nat.add_zero]
      exact h.spoilt i
  · rw [hcontent] at hg
    rw [hassigned, List.mem_append, List.mem_singleton]
    by_cases hi : a.slot = i
    · subst hi
      rw [if_pos rfl] at hg
      obtain ⟨g₀, hg₀, hg⟩ := Option.bind_eq_some_iff.mp hg
      split_ifs at hg with hsome
      obtain rfl := Option.some.inj hg
      have hold := h.holds a.slot g₀ hg₀ k v
      by_cases hk : k = a.key
      · subst hk
        have hnone : g₀ a.key = none := by simpa using hsome
        rw [hnone] at hold
        rw [Function.update_self, ← hold]
        constructor
        · intro he
          exact .inr (by rw [← Option.some.inj he])
        · rintro (he | he)
          · cases he
          · exact congrArg some (congrArg Assignment.value he).symm
      · rw [Function.update_of_ne hk, hold]
        exact ⟨.inl, fun he => he.resolve_right fun he => hk (congrArg Assignment.key he)⟩
    · rw [if_neg hi] at hg
      rw [h.holds i g hg k v]
      exact ⟨.inl, fun he => he.resolve_right fun he => hi (congrArg Assignment.slot he).symm⟩

theorem totals (ls : List Bytes) : Totals ls (sense ls) := by
  induction ls using List.reverseRecOn with
  | nil =>
    refine ⟨by simp [sense, Sense.silent], fun i => by simp [sense, Sense.silent, assigned], ?_⟩
    intro i g hg k v
    obtain rfl := Option.some.inj hg
    simp [assigned]
  | append_singleton ls s ih =>
    rw [sense_snoc]
    cases hs : said s with
    | value a => exact ih.value hs
    | _ => exact hs ▸ ih.unassigned (by rw [hs]; rfl)

/-- The lines of the text that are not blank are those of the assignments, and no key of a list is
assigned twice. -/
structure Written (buf : Bytes) (as : List Assignment) : Prop where
  text : ((lines buf).map stripCr).filter (· ≠ []) = as.map Assignment.line
  grammatical : ∀ a ∈ as, a.Grammatical
  nodup : (as.map Assignment.place).Nodup

theorem said_cases (s : Bytes) :
    said s = .blank ∧ stripCr s = [] ∨ stripCr s ≠ [] ∧
      ((∃ a : Assignment, said s = .value a ∧ stripCr s = a.line ∧ a.Grammatical) ∨
        said s = .junk ∨ ∃ i, said s = .spoilt i) := by
  cases hs : said s with
  | blank => exact .inl ⟨rfl, said_blank.mp hs⟩
  | junk => exact .inr ⟨fun e => by simp [said, said_blank.mpr e] at hs, .inr (.inl rfl)⟩
  | spoilt i => exact .inr ⟨fun e => by simp [said, said_blank.mpr e] at hs, .inr (.inr ⟨i, rfl⟩)⟩
  | value a =>
    obtain ⟨hline, hg⟩ := said_value hs
    exact .inr ⟨fun e => by simp [said, said_blank.mpr e] at hs, .inl ⟨a, rfl, hline, hg⟩⟩

/-- The assignments of lines that are all understood. -/
theorem lines_of_assigned (hjunk : ¬ ∃ s ∈ ls, said s = .junk) (hspoilt : ¬ ∃ i, ∃ s ∈ ls, said s = .spoilt i) :
    (ls.map stripCr).filter (· ≠ []) = (assigned ls).map Assignment.line := by
  induction ls with
  | nil => rfl
  | cons s ls ih =>
    have hrest := ih (fun ⟨t, ht, he⟩ => hjunk ⟨t, by simp [ht], he⟩)
      fun ⟨i, t, ht, he⟩ => hspoilt ⟨i, t, by simp [ht], he⟩
    rcases said_cases s with ⟨hs, hblank⟩ | ⟨hne, ⟨a, hs, hline, -⟩ | hs | ⟨i, hs⟩⟩
    · simpa [hblank, assigned, hs, Said.assignment?] using hrest
    · rw [hline] at hne
      simpa [hline, hne, assigned, hs, Said.assignment?] using hrest
    · exact absurd ⟨s, by simp, hs⟩ hjunk
    · exact absurd ⟨i, s, by simp, hs⟩ hspoilt

/-- Lines that are those of assignments make them. -/
theorem assigned_of_lines {as : List Assignment} (htext : (ls.map stripCr).filter (· ≠ []) = as.map Assignment.line)
    (hg : ∀ a ∈ as, a.Grammatical) :
    assigned ls = as ∧ (∀ s ∈ ls, said s ≠ .junk) ∧ ∀ i, ∀ s ∈ ls, said s ≠ .spoilt i := by
  induction ls generalizing as with
  | nil =>
    have : as = [] := by simpa using htext.symm
    simp [this, assigned]
  | cons s ls ih =>
    by_cases hblank : stripCr s = []
    · have hs : said s = .blank := said_blank.mpr hblank
      rw [List.map_cons, List.filter_cons_of_neg (by simp [hblank])] at htext
      obtain ⟨h1, h2, h3⟩ := ih htext hg
      refine ⟨?_, ?_, ?_⟩
      · simpa [assigned, hs, Said.assignment?] using h1
      · simpa [hs] using h2
      · simpa [hs] using h3
    · rw [List.map_cons, List.filter_cons_of_pos (by simp [hblank])] at htext
      cases as with
      | nil => simp at htext
      | cons a as =>
        rw [List.map_cons, List.cons.injEq] at htext
        obtain ⟨h1, h2, h3⟩ := ih htext.2 fun b hb => hg b (by simp [hb])
        have hs : said s = .value a := by
          rw [said, htext.1]
          exact said_line (hg a (by simp))
        refine ⟨?_, ?_, ?_⟩
        · simpa [assigned, hs, Said.assignment?] using h1
        · simpa [hs] using h2
        · simpa [hs] using h3

theorem written_iff (buf : Bytes) (as : List Assignment) :
    Written buf as ↔ (textParse buf).firstError = none ∧ as = assigned (lines buf) := by
  have hm := means_textParse buf
  have ht := totals (lines buf)
  have herr : (textParse buf).firstError = none ↔ ¬ ((sense (lines buf)).junk = true ∨
      ∃ i, (sense (lines buf)).content i = none) := by
    rw [← hm.error]
    simp
  rw [herr, not_or, ht.junk]
  simp only [ht.spoilt]
  constructor
  · rintro ⟨htext, hg, hnodup⟩
    obtain ⟨hassigned, hjunk, hspoilt⟩ := assigned_of_lines htext hg
    refine ⟨⟨fun ⟨s, hs, he⟩ => hjunk s hs he, ?_⟩, hassigned.symm⟩
    rintro ⟨i, ⟨s, hs, he⟩ | ⟨k, hk⟩⟩
    · exact hspoilt i s hs he
    · rw [hassigned] at hk
      exact absurd (List.nodup_iff_count_le_one.mp hnodup (i, k)) (by omega)
  · rintro ⟨⟨hjunk, hspoilt⟩, rfl⟩
    refine ⟨lines_of_assigned hjunk fun ⟨i, h⟩ => hspoilt ⟨i, .inl h⟩, ?_, ?_⟩
    · intro a ha
      obtain ⟨s, -, hs⟩ := mem_assigned.mp ha
      exact (said_value hs).2
    · refine List.nodup_iff_count_le_one.mpr fun p => not_lt.mp fun hlt => hspoilt ?_
      exact ⟨p.1, .inr ⟨p.2, hlt⟩⟩

/-- The values of a list are those that were assigned. -/
theorem holds_entryOf {i : SlotIdx} {g : Key → Option Bytes} {k : Key} {v : Bytes} (hg : g k = some v)
    (hv : WellFormed k v) : Holds (entryOf i g) k v := by
  cases k with
  | essid =>
    obtain ⟨s, rfl, hl, hq⟩ := hv
    have hread := parseEssid_quoted hq (Nat.lt_succ_of_le hl)
    exact ⟨s, rfl, by simp only [entryOf, hg, Option.bind_some, hread, Option.getD_some]⟩
  | _ =>
    obtain ⟨a, rfl⟩ := hv
    simp [Holds, entryOf, hg, parseIpv4_ipv4Str]

/-- What a written text is read as. -/
theorem Written.read {buf : Bytes} {as : List Assignment} (h : Written buf as) (i : SlotIdx) (k : Key) :
    ((textParse buf).keys i k = true ↔ ∃ v, ⟨i, k, v⟩ ∈ as) ∧
      ∀ v, ⟨i, k, v⟩ ∈ as → Holds ((textParse buf).entry i) k v := by
  obtain ⟨herr, rfl⟩ := (written_iff buf as).mp h
  have hm := means_textParse buf
  have ht := totals (lines buf)
  cases hc : (sense (lines buf)).content i with
  | none =>
    have := hm.error.mpr (.inr ⟨i, hc⟩)
    simp [herr] at this
  | some g =>
    rw [hm.named i g hc, hm.entry i g hc, Option.isSome_iff_exists]
    refine ⟨exists_congr (ht.holds i g hc k), fun v hv => ?_⟩
    exact holds_entryOf ((ht.holds i g hc k v).mpr hv) (h.grammatical _ hv).wellFormed

/-! ## The order of the lines -/

/-- What a text makes of a list follows from what it means. -/
theorem slotOf_congr {t t' : Text} {m : Sense} (h : Means t m) (h' : Means t' m) : slotOf t = slotOf t' := by
  funext i
  cases hc : m.content i with
  | none =>
    have hbad := (h.bad i).mpr hc
    have hbad' := (h'.bad i).mpr hc
    simp [slotOf, hbad, hbad']
  | some g =>
    have hbad : t.bad i = t'.bad i := by
      rw [Bool.eq_iff_iff, h.bad, h'.bad]
    simp only [slotOf, hbad, h.named i g hc, h'.named i g hc, h.entry i g hc, h'.entry i g hc]

theorem skipBom_terminated (h : ∀ l ∈ ls, ¬ bom <+: l) : skipBom (terminated ls) = terminated ls := by
  unfold skipBom
  rw [if_neg]
  intro hb
  have hb := List.isPrefixOf_iff_prefix.mp hb
  cases ls with
  | nil => exact absurd (List.prefix_nil.mp hb) (by decide)
  | cons l ls =>
    refine h l (by simp) (startsWith_of_notMem (x := nl) (r := terminated ls) ?_ (by decide))
    simpa [terminated] using hb

theorem fromText_perm {ls ls' : List Bytes} (hp : ls.Perm ls') (hnl : ∀ l ∈ ls, nl ∉ l)
    (hbom : ∀ l ∈ ls, ¬ bom <+: l) (strict : Bool) :
    fromText (terminated ls) strict = fromText (terminated ls') strict := by
  have hnl' : ∀ l ∈ ls', nl ∉ l := fun l hl => hnl l (hp.mem_iff.mpr hl)
  have hbom' : ∀ l ∈ ls', ¬ bom <+: l := fun l hl => hbom l (hp.mem_iff.mpr hl)
  have hm := means_textParse (terminated ls)
  have hm' := means_textParse (terminated ls')
  rw [lines_terminated hnl, sense_perm (hp.append_right [[]])] at hm
  rw [lines_terminated hnl'] at hm'
  have herr : (textParse (terminated ls)).firstError.isSome =
      (textParse (terminated ls')).firstError.isSome := by
    rw [Bool.eq_iff_iff, hm.error, hm'.error]
  unfold fromText
  simp only [skipBom_terminated hbom, skipBom_terminated hbom', herr, slotOf_congr hm hm']

/-- **The grammar of the list text.** A text is read without an error when and only when it is written
as the grammar says; each named value is then the one written. Permuting terminated lines that start
with no byte order mark changes neither the verdict of `iplist_from_text` nor its list. -/
theorem text_grammar :
    (∀ buf, (textParse buf).firstError = none ↔ ∃ as, Written buf as) ∧ (∀ buf as, Written buf as → ∀ i k,
      ((textParse buf).keys i k = true ↔ ∃ v, ⟨i, k, v⟩ ∈ as) ∧
        ∀ v, ⟨i, k, v⟩ ∈ as → Holds ((textParse buf).entry i) k v) ∧
    ∀ (ls ls' : List Bytes) (strict : Bool), ls.Perm ls' → (∀ l ∈ ls, nl ∉ l) → (∀ l ∈ ls, ¬ bom <+: l) →
      fromText (terminated ls) strict = fromText (terminated ls') strict := by
  refine ⟨fun buf => ?_, fun buf as h => h.read, fun ls ls' strict hp hnl hbom => ?_⟩
  · constructor
    · intro herr
      exact ⟨_, (written_iff buf _).mpr ⟨herr, rfl⟩⟩
    · rintro ⟨as, h⟩
      exact ((written_iff buf as).mp h).1
  · exact fromText_perm hp hnl hbom strict

end Opcd.IpList
