import Opcd.Lib.Decimal
import Opcd.Lib.Machine

/-!
# The memory in use

`opcd_fault_parse_meminfo` of `fault_probe.c`. Each turn of its loop scans what follows a newline for
`"%31[^:]: %llu"`: the conversions see the whole remaining text, not only the line. The loop keeps the last
number of each key and which keys were seen; the memory in use is the total less the other four, as long as
those do not exceed it.

For a text in the shape of `/proc/meminfo` (one `MemLine` after the other) the loop keeps exactly the last
number of each name (`foldl_entry`), and the saturating sum is the smaller of the total and the sum of
unbounded numbers (`toNat_notUsed`), so no addition wraps.
-/

namespace Opcd.Fault

open Bytes

/-! ## The scanner -/

/-- The entries of `keys`. -/
inductive MemKey
  | memTotal | memFree | buffers | cached | slab
  deriving DecidableEq, Repr

def MemKey.name : MemKey → Bytes
  | .memTotal => ofString "MemTotal"
  | .memFree => ofString "MemFree"
  | .buffers => ofString "Buffers"
  | .cached => ofString "Cached"
  | .slab => ofString "Slab"

/-- `keys`, in its order. -/
def memKeys : List MemKey := [.memTotal, .memFree, .buffers, .cached, .slab]

/-- `sscanf(line, "%31[^:]: %llu", key, &kb)`, if it converts both. -/
def scanKeyKb (line : Bytes) : Option (Bytes × BitVec 64) :=
  let key := (line.take 31).takeWhile (· ≠ ch ':')
  if key = [] then none
  else
    match line.drop key.length with
    | c :: rest => if c = ch ':' ∧ startsNumber rest then some (key, BitVec.ofNat 64 (strtoul rest)) else none
    | [] => none

/-- `v` and `seen`. -/
structure MemTable where
  v : MemKey → BitVec 64
  seen : MemKey → Bool

def MemTable.zero : MemTable := ⟨fun _ => 0, fun _ => false⟩

def MemTable.put (t : MemTable) (k : MemKey) (kb : BitVec 64) : MemTable :=
  ⟨Function.update t.v k kb, Function.update t.seen k true⟩

theorem MemTable.put_self (t : MemTable) (k : MemKey) (kb : BitVec 64) :
    (t.put k kb).seen k = true ∧ (t.put k kb).v k = kb := by
  simp [MemTable.put]

theorem MemTable.put_other (t : MemTable) {k k' : MemKey} (h : k' ≠ k) (kb : BitVec 64) :
    (t.put k kb).seen k' = t.seen k' ∧ (t.put k kb).v k' = t.v k' := by
  simp [MemTable.put, Function.update_of_ne h]

/-- The loop over `keys`, up to the first that is equal. -/
def MemTable.entry (t : MemTable) (key : Bytes) (kb : BitVec 64) : MemTable :=
  (memKeys.find? (·.name = key)).elim t (t.put · kb)

/-- One turn of the loop, before it looks for the newline. -/
def MemTable.line (t : MemTable) (line : Bytes) : MemTable :=
  (scanKeyKb line).elim t fun e => t.entry e.1 e.2

/-- The loop over the lines: each turn moves forward, so the length of the text is enough `turns`. -/
def scanMem : Nat → MemTable → Bytes → MemTable
  | 0, t, _ => t
  | _ + 1, t, [] => t
  | turns + 1, t, b :: s =>
    match (b :: s).dropWhile (· ≠ nl) with
    | [] => t.line (b :: s)
    | _ :: rest => scanMem turns (t.line (b :: s)) rest

/-- The sum of what is not in use, which stops at the total. -/
def notUsed (total : BitVec 64) (vs : List (BitVec 64)) : BitVec 64 :=
  vs.foldl (fun n v => if v > total - n then total else n + v) 0

/-- `*used_kb` and `*total_kb`. -/
structure MemUse where
  usedKb : BitVec 64
  totalKb : BitVec 64
  deriving DecidableEq, Repr

/-- `opcd_fault_parse_meminfo`: what it returns, and the outputs, which held `o` before. -/
def parseMeminfo (text : Bytes) (o : MemUse) : Int × MemUse :=
  let t := scanMem (cstr text).length MemTable.zero (cstr text)
  if ¬ memKeys.all t.seen ∨ t.v .memTotal = 0 then (-1, o)
  else
    let n := notUsed (t.v .memTotal) (memKeys.tail.map t.v)
    (0, ⟨t.v .memTotal - n, t.v .memTotal⟩)

example : parseMeminfo (ofString "SwapCached: 9 kB\nSlab: 4\nMemTotal:\t20 kB\nMemFree: 5\nBuffers: 1\nCached: 2\n")
    ⟨0, 0⟩ = (0, ⟨8, 20⟩) := by decide +kernel

/-! ## The sum -/

/-- **The sum is exact.** It is the smaller of the total and the sum of the numbers, and no step wraps. -/
theorem toNat_notUsed (total : BitVec 64) (vs : List (BitVec 64)) :
    (notUsed total vs).toNat = min total.toNat (vs.map BitVec.toNat).sum := by
  induction vs using List.reverseRecOn with
  | nil => exact (Nat.min_zero _).symm
  | append_singleton vs v ih =>
    have hstep : notUsed total (vs ++ [v]) =
        if v > total - notUsed total vs then total else notUsed total vs + v := by
      rw [notUsed, List.foldl_append]
      rfl
    rw [hstep, List.map_append, List.sum_append]
    generalize notUsed total vs = n at ih ⊢
    -- the sum so far is at most the total, so neither the subtraction nor the addition wraps
    have hle : n ≤ total := by
      rw [BitVec.le_def]
      omega
    have hsub : (total - n).toNat = total.toNat - n.toNat := BitVec.toNat_sub_of_le hle
    have htotal := total.isLt
    simp only [List.map_cons, List.map_nil, List.sum_cons, List.sum_nil]
    split
    next hv =>
      rw [gt_iff_lt, BitVec.lt_def, hsub] at hv
      omega
    next hv =>
      rw [gt_iff_lt, BitVec.lt_def, hsub] at hv
      have hadd : (n + v).toNat = n.toNat + v.toNat := BitVec.toNat_add_of_lt (by omega)
      omega

theorem notUsed_le (total : BitVec 64) (vs : List (BitVec 64)) : notUsed total vs ≤ total := by
  rw [BitVec.le_def, toNat_notUsed]
  exact Nat.min_le_left _ _

/-! ## A text of lines -/

/-- A byte of a name: a letter, a digit, a parenthesis or an underscore. -/
def nameByte (b : Byte) : Bool :=
  (ch 'a' ≤ b ∧ b ≤ ch 'z') ∨ (ch 'A' ≤ b ∧ b ≤ ch 'Z') ∨ isDigit b ∨ b = ch '(' ∨ b = ch ')' ∨ b = ch '_'

/-- A line `Name: number ...`, with any blanks before the number and any text after it. -/
structure MemLine where
  name : Bytes
  blanks : Bytes
  digits : Bytes
  rest : Bytes
  name_byte : ∀ b ∈ name, nameByte b = true
  blank : ∀ b ∈ blanks, b = ch ' ' ∨ b = ch '\t'
  digit : ∀ b ∈ digits, isDigit b = true
  digits_ne : digits ≠ []
  digits_lt : readDecimal digits < 2 ^ 64
  rest_stops : ∀ b ∈ rest.head?, isDigit b = false
  rest_clean : nl ∉ rest ∧ 0#8 ∉ rest

def MemLine.text (l : MemLine) : Bytes := l.name ++ ch ':' :: (l.blanks ++ l.digits ++ l.rest)

/-- The number of a line. -/
def MemLine.value (l : MemLine) : Nat := readDecimal l.digits

/-- The number of the last line of a name. -/
def lastOf (ls : List MemLine) (k : MemKey) : Option Nat := (ls.latest (·.name = k.name)).map MemLine.value

theorem nameByte_clean : ∀ b : Byte, nameByte b = true → b ≠ ch ':' ∧ b ≠ nl ∧ b ≠ 0#8 := by decide +kernel

theorem isDigit_clean : ∀ b : Byte, isDigit b = true → b ≠ nl ∧ b ≠ 0#8 := by decide +kernel

/-- A line holds no byte that neither its parts nor the colon hold. -/
theorem MemLine.notMem_text (l : MemLine) {x : Byte} (hname : ∀ b, nameByte b = true → b ≠ x)
    (hdigit : ∀ b, isDigit b = true → b ≠ x) (hcolon : x ≠ ch ':') (hblank : x ≠ ch ' ' ∧ x ≠ ch '\t')
    (hrest : x ∉ l.rest) : x ∉ l.text := by
  intro hx
  rcases List.mem_append.mp hx with h | h
  · exact hname x (l.name_byte x h) rfl
  rcases List.mem_cons.mp h with h | h
  · exact hcolon h
  rcases List.mem_append.mp h with h | h
  · rcases List.mem_append.mp h with h | h
    · exact (l.blank x h).elim hblank.1 hblank.2
    · exact hdigit x (l.digit x h) rfl
  · exact hrest h

theorem MemLine.nl_notMem (l : MemLine) : nl ∉ l.text :=
  l.notMem_text (fun b h => (nameByte_clean b h).2.1) (fun b h => (isDigit_clean b h).1) (by decide) (by decide)
    l.rest_clean.1

theorem MemLine.zero_notMem (l : MemLine) : 0#8 ∉ l.text :=
  l.notMem_text (fun b h => (nameByte_clean b h).2.2) (fun b h => (isDigit_clean b h).2) (by decide) (by decide)
    l.rest_clean.2

/-- The number of a line is converted, whatever follows the line. -/
theorem MemLine.number (l : MemLine) (more : Bytes) :
    startsNumber (l.blanks ++ l.digits ++ (l.rest ++ nl :: more)) = true ∧
      strtoul (l.blanks ++ l.digits ++ (l.rest ++ nl :: more)) = l.value := by
  have hblank : ∀ b ∈ l.blanks, isSpace b = true := by
    intro b hb
    rcases l.blank b hb with rfl | rfl <;> rfl
  have hstop : ∀ b ∈ (l.rest ++ nl :: more).head?, isDigit b = false := by
    intro b hb
    have hrest := l.rest_stops
    cases hr : l.rest with
    | nil =>
      rw [hr] at hb
      obtain rfl : nl = b := by simpa using hb
      rfl
    | cons c rest =>
      rw [hr] at hb hrest
      exact hrest b hb
  exact ⟨startsNumber_digits hblank l.digit l.digits_ne, strtoul_digits hblank l.digit l.digits_ne hstop l.digits_lt⟩

/-- The names of the keys are short, and none is empty. -/
theorem length_key (k : MemKey) : 0 < k.name.length ∧ k.name.length ≤ 31 := by
  cases k <;> decide

/-- An entry under a name that is no key's changes nothing. -/
theorem entry_other {t : MemTable} {key : Bytes} {kb : BitVec 64} (h : ∀ k : MemKey, k.name ≠ key) :
    t.entry key kb = t := by
  have hnone : memKeys.find? (·.name = key) = none := by
    refine List.find?_eq_none.mpr fun k _ => ?_
    simpa using h k
  rw [MemTable.entry, hnone]
  rfl

/-- What `%31[^:]` takes from the start of a line, and what it leaves. -/
theorem scanned_name (l : MemLine) (more : Bytes) :
    (((l.text ++ more).take 31).takeWhile (· ≠ ch ':')) = l.name.take 31 := by
  have hname : ∀ b ∈ l.name.take 31, decide (b ≠ ch ':') = true := by
    intro b hb
    simpa using (nameByte_clean b (l.name_byte b (List.mem_of_mem_take hb))).1
  rw [MemLine.text, List.append_assoc, List.take_append, List.takeWhile_append_of_pos hname]
  cases 31 - l.name.length with
  | zero => exact List.append_nil _
  | succ n => exact List.append_nil _

/-- **A turn on a line** enters its number under its name. The scan fails on a name that is empty or longer
than 31 bytes, which is no key's. -/
theorem line_text (t : MemTable) (l : MemLine) (more : Bytes) :
    t.line (l.text ++ nl :: more) = t.entry l.name (BitVec.ofNat 64 l.value) := by
  unfold MemTable.line scanKeyKb
  rw [scanned_name]
  dsimp only
  have htext : l.text ++ nl :: more = l.name ++ ch ':' :: (l.blanks ++ l.digits ++ (l.rest ++ nl :: more)) := by
    simp [MemLine.text]
  by_cases hlong : 31 < l.name.length
  · rw [entry_other fun k hk => absurd (length_key k).2 (by rw [hk]; omega)]
    have hne : l.name.take 31 ≠ [] := by
      intro h
      have := congrArg List.length h
      simp only [List.length_take, List.length_nil] at this
      omega
    have hlen : (l.name.take 31).length = 31 := by
      rw [List.length_take]
      omega
    rw [if_neg hne, hlen, htext, List.drop_append_of_le_length hlong.le]
    cases hdrop : l.name.drop 31 with
    | nil =>
      rw [List.drop_eq_nil_iff] at hdrop
      omega
    | cons b rest =>
      have hb : b ∈ l.name := List.mem_of_mem_drop (hdrop ▸ List.mem_cons_self)
      have hcolon := (nameByte_clean b (l.name_byte b hb)).1
      rw [List.cons_append]
      dsimp only
      rw [if_neg fun h => hcolon h.1]
      rfl
  · rw [List.take_of_length_le (not_lt.mp hlong)]
    by_cases hne : l.name = []
    · rw [if_pos hne, entry_other fun k hk => absurd (length_key k).1 (by rw [hk, hne]; decide)]
      rfl
    · rw [if_neg hne, htext, List.drop_left]
      obtain ⟨hstarts, hvalue⟩ := l.number more
      dsimp only
      rw [if_pos ⟨rfl, hstarts⟩, hvalue]
      rfl

/-- **The loop on a text of lines** is a fold over them. -/
theorem scanMem_terminated {ls : List MemLine} {turns : Nat} (h : (terminated (ls.map MemLine.text)).length ≤ turns)
    (t : MemTable) :
    scanMem turns t (terminated (ls.map MemLine.text)) =
      ls.foldl (fun t l => t.entry l.name (BitVec.ofNat 64 l.value)) t := by
  induction ls generalizing t turns with
  | nil =>
    cases turns with
    | zero => rfl
    | succ turns => rfl
  | cons l ls ih =>
    have htext : terminated ((l :: ls).map MemLine.text) = l.text ++ nl :: terminated (ls.map MemLine.text) := by
      simp [terminated]
    rw [htext] at h ⊢
    generalize hmore : terminated (ls.map MemLine.text) = more at h ih ⊢
    have hdrop : (l.text ++ nl :: more).dropWhile (· ≠ nl) = nl :: more := by
      rw [List.dropWhile_append_of_pos fun b hb => by
        simpa using fun e : b = nl => l.nl_notMem (e ▸ hb)]
      exact List.dropWhile_cons_of_neg (by simp)
    cases turns with
    | zero => simp at h
    | succ turns =>
      rw [List.length_append, List.length_cons] at h
      have hle : more.length ≤ turns := by omega
      rw [List.foldl_cons, ← line_text t l more, ← ih hle]
      cases hs : l.text ++ nl :: more with
      | nil => exact absurd hs (by simp)
      | cons b s =>
        rw [hs] at hdrop
        rw [scanMem, hdrop]

/-- An entry sets its key and no other. -/
theorem find_key (k : MemKey) (key : Bytes) : memKeys.find? (·.name = key) = some k ↔ k.name = key := by
  constructor
  · intro h
    simpa using List.find?_some h
  · rintro rfl
    cases k <;> rfl

/-- **The table after the lines** has, of each key, the number of its last line. -/
theorem foldl_entry (ls : List MemLine) (k : MemKey) :
    let t := ls.foldl (fun t l => t.entry l.name (BitVec.ofNat 64 l.value)) MemTable.zero
    t.seen k = (lastOf ls k).isSome ∧ t.v k = BitVec.ofNat 64 ((lastOf ls k).getD 0) := by
  have hlatest := List.foldl_latest (g := fun (t : MemTable) (l : MemLine) => t.entry l.name (BitVec.ofNat 64 l.value))
    (p := fun l => decide (l.name = k.name))
    (Q := fun o t => t.seen k = o.isSome ∧ t.v k = BitVec.ofNat 64 ((o.map MemLine.value).getD 0)) ?_ ?_
    (s := MemTable.zero) ⟨rfl, rfl⟩ ls
  · unfold lastOf
    rw [Option.isSome_map]
    exact hlatest
  · intro t l hl
    have hfind := (find_key k l.name).mpr (of_decide_eq_true hl).symm
    rw [MemTable.entry, hfind]
    exact t.put_self k (BitVec.ofNat 64 l.value)
  · intro t l o hl ho
    rw [MemTable.entry]
    cases hfind : memKeys.find? (·.name = l.name) with
    | none => exact ho
    | some k' =>
      have hk' : k ≠ k' := by
        rintro rfl
        exact of_decide_eq_false hl ((find_key k l.name).mp hfind).symm
      have hput := t.put_other hk' (BitVec.ofNat 64 l.value)
      exact ⟨hput.1.trans ho.1, hput.2.trans ho.2⟩

theorem mem_memKeys (k : MemKey) : k ∈ memKeys := by
  cases k <;> decide

theorem lastOf_lt {ls : List MemLine} {k : MemKey} {n : Nat} (h : lastOf ls k = some n) : n < 2 ^ 64 := by
  obtain ⟨l, -, rfl⟩ := Option.map_eq_some_iff.mp h
  exact l.digits_lt

/-- The lines hold no NUL, so the text is read to its end. -/
theorem cstr_terminated (ls : List MemLine) :
    cstr (terminated (ls.map MemLine.text)) = terminated (ls.map MemLine.text) := by
  refine cstr_eq_self fun h => ?_
  obtain ⟨s, hs, hmem⟩ := List.mem_flatMap.mp h
  obtain ⟨l, -, rfl⟩ := List.mem_map.mp hs
  rcases List.mem_append.mp hmem with h0 | h0
  · exact l.zero_notMem h0
  · exact absurd (List.mem_singleton.mp h0) (by decide)

/-- **Memory usage saturates exactly.** Of a text of lines in any order: if all five keys occur and the last
total is not 0, the parser returns 0, that total, and what is left of it after the exact sum of the last
other four, at least 0; if a key is missing it returns -1 and leaves the outputs as they were. -/
theorem memory_usage_saturates (ls : List MemLine) (o : MemUse) :
    (∀ total free buffers cached slab, lastOf ls .memTotal = some total → lastOf ls .memFree = some free →
      lastOf ls .buffers = some buffers → lastOf ls .cached = some cached → lastOf ls .slab = some slab → total ≠ 0 →
      ∃ m, parseMeminfo (terminated (ls.map MemLine.text)) o = (0, m) ∧ m.totalKb.toNat = total ∧
        m.usedKb.toNat = total - min total (free + buffers + cached + slab)) ∧
    ((∃ k, lastOf ls k = none) → parseMeminfo (terminated (ls.map MemLine.text)) o = (-1, o)) := by
  rw [parseMeminfo, cstr_terminated, scanMem_terminated le_rfl]
  have hlast := foldl_entry ls
  generalize ls.foldl (fun t l => t.entry l.name (BitVec.ofNat 64 l.value)) MemTable.zero = t at hlast ⊢
  dsimp only at hlast ⊢
  constructor
  · intro total free buffers cached slab htotal hfree hbuffers hcached hslab hpos
    have hv : ∀ k n, lastOf ls k = some n → (t.v k).toNat = n := by
      intro k n hk
      rw [(hlast k).2, hk]
      exact Nat.mod_eq_of_lt (lastOf_lt hk)
    have hseen : memKeys.all t.seen = true := by
      simp [memKeys, (hlast _).1, htotal, hfree, hbuffers, hcached, hslab]
    have hzero : t.v .memTotal ≠ 0 := by
      intro h0
      rw [← hv _ _ htotal, h0] at hpos
      exact hpos rfl
    rw [if_neg (not_or.mpr ⟨not_not.mpr hseen, hzero⟩)]
    refine ⟨_, rfl, hv _ _ htotal, ?_⟩
    dsimp only
    rw [BitVec.toNat_sub_of_le (notUsed_le _ _), toNat_notUsed, hv _ _ htotal]
    simp only [memKeys, List.tail_cons, List.map_cons, List.map_nil, List.sum_cons, List.sum_nil,
      hv _ _ hfree, hv _ _ hbuffers, hv _ _ hcached, hv _ _ hslab]
    omega
  · rintro ⟨k, hk⟩
    refine if_pos (.inl fun hall => ?_)
    have hseen := List.all_eq_true.mp hall k (mem_memKeys k)
    rw [(hlast k).1, hk] at hseen
    cases hseen

/-- A line as the kernel writes it. -/
def MemLine.kb (k : MemKey) (digits : Bytes)
    (h : (∀ b ∈ digits, isDigit b = true) ∧ digits ≠ [] ∧ readDecimal digits < 2 ^ 64) : MemLine :=
  ⟨k.name, [ch ' '], digits, ofString " kB", by cases k <;> decide, by decide, h.1, h.2.1, h.2.2, by decide, by decide⟩

/-- Five keys, one of them twice. -/
def sampleMeminfo : List MemLine :=
  [.kb .memFree (ofString "9") (by decide), .kb .slab (ofString "4") (by decide), .kb .memTotal (ofString "20") (by decide),
    .kb .memFree (ofString "5") (by decide), .kb .buffers (ofString "1") (by decide),
    .kb .cached (ofString "2") (by decide)]

theorem memory_usage_saturates_sample :
    ∃ m, parseMeminfo (terminated (sampleMeminfo.map MemLine.text)) ⟨0, 0⟩ = (0, m) ∧ m.totalKb.toNat = 20 ∧
      m.usedKb.toNat = 20 - min 20 (5 + 1 + 2 + 4) :=
  (memory_usage_saturates sampleMeminfo ⟨0, 0⟩).1 20 5 1 2 4 (by decide) (by decide) (by decide) (by decide) (by decide)
    (by decide)

end Opcd.Fault
