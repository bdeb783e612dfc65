import Opcd.IpList.Text

/-!
# What is written is read back

* `textFormat_eq`: the text of any list fits the buffer it is formatted into, and is `listText`.
* `fromText_listText`: the text of a list whose present slots pass the entry check is read back,
  strictly or leniently, as a list with the same slots and the same values in them (`Same`).
* `text_round_trip`: and that list is written as the same text.
-/

namespace Opcd.IpList

open Bytes Protocol

/-! ## The text as lines -/

/-- A value without its newline. -/
def valueLine (e : Entry) : Key → Bytes
  | .ip => ipv4Str e.ipAddress
  | .mask => ipv4Str e.subnetMask
  | .gw => ipv4Str e.defaultGateway
  | .essid => ch '"' :: cstr (e.essid.toList.take 31) ++ [ch '"']
  | .ntp => ipv4Str e.ntpServer

def keyLine (n : Nat) (k : Key) (v : Bytes) : Bytes := k.name ++ decimal n ++ ch '=' :: v

/-- The lines of one slot. -/
def slotLines (l : IpList) (i : SlotIdx) : List Bytes :=
  if l.present i then Key.all.map fun k => keyLine (i + 1) k (valueLine (l.slots i) k) else []

/-- The text of a list. -/
def listText (l : IpList) : Bytes := terminated ((List.finRange maxSlots).flatMap (slotLines l))

theorem valueText_eq (e : Entry) (k : Key) : valueText e k = valueLine e k ++ [nl] := by
  cases k <;> simp [valueText, valueLine]

/-! ## The text fits -/

theorem put_eq {cap n : Nat} {key value buf : Bytes}
    (h : (buf ++ (key ++ decimal n ++ ch '=' :: value)).length < cap) :
    put cap key n value buf = some (buf ++ (key ++ decimal n ++ ch '=' :: value)) := by
  simp only [List.length_append, List.length_cons] at h
  rw [put, if_neg, if_neg]
  · simp
  · simp only [List.length_append, List.length_cons, List.length_nil]; omega
  · simp only [List.length_append, List.length_cons, List.length_nil]; omega

/-- A fold of appends that never overflows. -/
theorem foldlM_append {α : Type} {cap : Nat} {f : Bytes → α → Option Bytes} {g : α → Bytes}
    (hf : ∀ buf a, (buf ++ g a).length < cap → f buf a = some (buf ++ g a)) (as : List α)
    (buf : Bytes) (h : (buf ++ as.flatMap g).length < cap) : as.foldlM f buf = some (buf ++ as.flatMap g) := by
  induction as generalizing buf with
  | nil => simp
  | cons a as ih =>
    rw [List.flatMap_cons, ← List.append_assoc] at h ⊢
    have hle : (buf ++ g a).length < cap := by
      simp only [List.length_append] at h ⊢
      omega
    rw [List.foldlM_cons, hf buf a hle]
    exact ih _ h

variable (a : BitVec 32) {e : Entry} {l : IpList}

theorem putSlot_eq {cap : Nat} {buf : Bytes} {i : SlotIdx} (h : (buf ++ terminated (slotLines l i)).length < cap) :
    putSlot cap l buf i = some (buf ++ terminated (slotLines l i)) := by
  unfold putSlot
  by_cases hp : l.present i
  · rw [if_neg (by simp [hp])]
    have hlines : terminated (slotLines l i) = Key.all.flatMap fun k =>
        k.name ++ decimal (i + 1) ++ ch '=' :: valueText (l.slots i) k := by
      simp [slotLines, hp, terminated, Key.all, keyLine, valueText_eq]
    rw [hlines] at h ⊢
    exact foldlM_append (f := fun buf k => put cap k.name (i + 1) (valueText (l.slots i) k) buf)
      (fun buf k hk => put_eq hk) _ _ h
  · rw [if_pos (by simp [hp])]
    simp [slotLines, hp, terminated]

theorem listText_eq_flatMap (l : IpList) :
    listText l = (List.finRange maxSlots).flatMap fun i => terminated (slotLines l i) := by
  rw [listText, terminated, List.flatMap_assoc]
  rfl

theorem textFormat_eq_of_length {cap : Nat} (h : (listText l).length < cap) :
    textFormat l cap = some (listText l) := by
  rw [textFormat, if_neg (by omega)]
  rw [listText_eq_flatMap] at h ⊢
  have hfold := foldlM_append (f := putSlot cap l) (fun buf i hi => putSlot_eq hi)
    (List.finRange maxSlots) []
  rw [List.nil_append] at hfold
  exact hfold h

theorem length_decimal_le : ∀ n < 1000, (decimal n).length ≤ 3 := by decide +kernel

theorem toNat_octet_lt : (a &&& 0xFF).toNat < 256 := by
  have := Nat.and_le_right (n := a.toNat) (m := 255)
  rw [BitVec.toNat_and]
  exact Nat.lt_succ_of_le this

theorem toNat_top_lt : (a >>> 24).toNat < 256 := by
  rw [BitVec.toNat_ushiftRight, Nat.shiftRight_eq_div_pow]
  omega

theorem length_ipv4Str : (ipv4Str a).length ≤ 15 := by
  have h (n : Nat) (hn : n < 256) := length_decimal_le n (by omega)
  have h1 := h _ (toNat_top_lt a)
  have h2 := h _ (toNat_octet_lt (a >>> 16))
  have h3 := h _ (toNat_octet_lt (a >>> 8))
  have h4 := h _ (toNat_octet_lt a)
  simp only [ipv4Str, List.length_append, List.length_cons]
  omega

/-- The longest five lines of a slot, its number's digits apart. -/
theorem length_terminated_slotLines (l : IpList) (i : SlotIdx) :
    (terminated (slotLines l i)).length ≤ 158 + 5 * (decimal (i + 1)).length := by
  unfold slotLines
  split
  · have hessid : (cstr ((l.slots i).essid.toList.take 31)).length ≤ 31 := by
      have hle := (List.takeWhile_prefix (p := (· ≠ 0#8))
        (l := (l.slots i).essid.toList.take 31)).length_le
      exact hle.trans (List.length_take_le _ _)
    have h1 := length_ipv4Str (l.slots i).ipAddress
    have h2 := length_ipv4Str (l.slots i).subnetMask
    have h3 := length_ipv4Str (l.slots i).defaultGateway
    have h4 := length_ipv4Str (l.slots i).ntpServer
    simp [terminated, Key.all, keyLine, valueLine, Key.name, ofString]
    omega
  · simp [terminated]

theorem length_flatMap_le {α : Type} {g : α → Bytes} {b : α → Nat}
    (h : ∀ a, (g a).length ≤ b a) (as : List α) : (as.flatMap g).length ≤ (as.map b).sum := by
  induction as with
  | nil => simp
  | cons a as ih =>
    have := h a
    simp only [List.flatMap_cons, List.length_append, List.map_cons, List.sum_cons]
    omega

theorem length_listText (l : IpList) : (listText l).length ≤ 21604 := by
  rw [listText_eq_flatMap]
  have hsum : ((List.finRange maxSlots).map fun i : SlotIdx =>
      158 + 5 * (decimal (i + 1)).length).sum = 21604 := by decide +kernel
  exact (length_flatMap_le (length_terminated_slotLines l) _).trans_eq hsum

/-- The text of every list fits its buffer. -/
theorem textFormat_eq (l : IpList) : textFormat l textMax = some (listText l) :=
  textFormat_eq_of_length (lt_of_le_of_lt (length_listText l) (by decide))

/-! ## Values are read back -/

theorem takeWhile_take_append {p : Byte → Bool} {d rest : Bytes} {n : Nat} (hd : ∀ b ∈ d, p b)
    (hn : d.length ≤ n) (hr : rest.head?.any p = false) : ((d ++ rest).take n).takeWhile p = d := by
  rw [List.take_append, List.take_of_length_le hn, List.takeWhile_append_of_pos hd]
  suffices (rest.take (n - d.length)).takeWhile p = [] by rw [this, List.append_nil]
  cases rest with
  | nil => simp
  | cons b rest =>
    cases n - d.length with
    | zero => simp
    | succ m => simpa using hr

/-- A small number as it is printed: its digits, their value, and no leading zero. -/
theorem decimal_spec : ∀ n < 1000, 1 ≤ (decimal n).length ∧ (decimal n).length ≤ 3 ∧ readDecimal (decimal n) = n ∧
    (0 < n ∨ 1 < (decimal n).length → (decimal n).head? ≠ some (ch '0')) := by decide +kernel

theorem head?_append_decimal {n : Nat} (hn : n < 1000) (rest : Bytes) :
    (decimal n ++ rest).head? = (decimal n).head? := by
  have := (decimal_spec n hn).1
  cases h : decimal n with
  | nil => simp [h] at this
  | cons b ds => rfl

theorem octet_decimal {n : Nat} (hn : n < 256) {rest : Bytes} (hr : rest.head?.any isDigit = false) :
    octet (decimal n ++ rest) = some (BitVec.ofNat 32 n, rest) := by
  obtain ⟨hpos, hlen, hval, hlead⟩ := decimal_spec n (by omega)
  have hd : ((decimal n ++ rest).take 3).takeWhile isDigit = decimal n :=
    takeWhile_take_append (fun b hb => isDigit_of_mem_decimal hb) hlen hr
  have hnz : ¬ ((decimal n).length = 0 ∨ 255 < n ∨
      (1 < (decimal n).length ∧ (decimal n).head? = some (ch '0'))) := by
    rintro (h | h | ⟨h, h'⟩)
    · omega
    · omega
    · exact hlead (.inr h) h'
  simp only [octet, hd, hval, List.drop_left, head?_append_decimal (show n < 1000 by omega)]
  rw [if_neg hnz, hr]
  simp

theorem join_octets :
    (((a >>> 24) <<< 8 ||| (a >>> 16 &&& 0xFF)) <<< 8 ||| (a >>> 8 &&& 0xFF)) <<< 8 |||
      (a &&& 0xFF) = a := by
  have hff (j : Nat) : (255#32).getLsbD j = decide (j < 8) := by
    rw [show 255#32 = BitVec.ofNat 32 (2 ^ 8 - 1) from rfl, BitVec.getLsbD_ofNat, Nat.testBit_two_pow_sub_one]
    grind
  refine BitVec.eq_of_getLsbD_eq fun i hi => ?_
  simp only [BitVec.ofNat_eq_ofNat, BitVec.getLsbD_or, BitVec.getLsbD_and, BitVec.getLsbD_shiftLeft,
    BitVec.getLsbD_ushiftRight, hff]
  grind

theorem parseIpv4_ipv4Str : parseIpv4 (ipv4Str a) = some a := by
  have hdot (s : Bytes) : (ch '.' :: s).head?.any isDigit = false := rfl
  have h4 : octet (decimal (a &&& 0xFF).toNat) = some (BitVec.ofNat 32 (a &&& 0xFF).toNat, []) := by
    simpa using @octet_decimal _ (toNat_octet_lt a) [] rfl
  simp only [parseIpv4, ipv4Str, List.append_assoc, List.cons_append,
    octet_decimal (toNat_top_lt a) (hdot _), octet_decimal (toNat_octet_lt (a >>> 16)) (hdot _),
    octet_decimal (toNat_octet_lt (a >>> 8)) (hdot _), h4, afterDot, Option.bind_eq_bind,
    Option.bind_some, BitVec.ofNat_toNat, BitVec.setWidth_eq, join_octets, if_true, ne_eq,
    not_true_eq_false, if_false]

theorem parseEssid_quoted {s : Bytes} (hq : ch '"' ∉ s) (hl : s.length < 32) :
    parseEssid (ch '"' :: s ++ [ch '"']) = some (Buf.ofBytes 32 s) := by
  have hv : ((ch '"' :: s ++ [ch '"']).drop 1).dropLast = s := by simp
  have hlast : (ch '"' :: s ++ [ch '"']).getLast? = some (ch '"') :=
    List.getLast?_concat
  simp only [parseEssid, hv, hlast]
  rw [if_pos ⟨by simp, rfl, trivial, hl, hq⟩]

/-! ## Entries that pass the check -/

/-- An entry the handlers and the loader accept into a slot. -/
structure Valid (e : Entry) : Prop where
  ip : e.ipAddress ≠ 0
  ok : ipcfgEntryError e true = 0
  terminated : 0#8 ∈ e.essid.toList

/-- Printable ASCII. -/
def printable (b : Byte) : Bool := 0x20 ≤ b ∧ b ≤ 0x7E

theorem printable_of_isDigit : ∀ b : Byte, isDigit b → printable b := by decide +kernel

theorem printable_of_opcChar : ∀ b : Byte, opcChar b → printable b ∧ b ≠ ch '"' := by decide +kernel

theorem ipcfgEntryError_charset {term : Bool} (h : ipcfgEntryError e term = 0) : validOpcCharset e.essid.str := by
  unfold ipcfgEntryError at h
  by_contra hc
  simp only [hc] at h
  grind

theorem Valid.opcChar (h : Valid e) {b : Byte} (hb : b ∈ e.essid.str) : opcChar b :=
  List.all_eq_true.mp (ipcfgEntryError_charset h.ok) b hb

theorem Valid.str_take (h : Valid e) : cstr (e.essid.toList.take 31) = e.essid.str :=
  cstr_take (Nat.le_of_lt_succ (Buf.length_str_lt h.terminated))

/-- Every byte of a printed value is printable. -/
theorem printable_valueLine (h : Valid e) (k : Key) : ∀ b ∈ valueLine e k, printable b := by
  have hdot : printable (ch '.') := rfl
  have hquote : printable (ch '"') := rfl
  have hdec (n : Nat) (b : Byte) (hb : b ∈ decimal n) : printable b :=
    printable_of_isDigit b (isDigit_of_mem_decimal hb)
  have hip (a : BitVec 32) : ∀ b ∈ ipv4Str a, printable b := by
    intro b hb
    simp only [ipv4Str, List.mem_append, List.mem_cons, List.append_assoc, List.cons_append] at hb
    rcases hb with hb | rfl | hb | rfl | hb | rfl | hb <;>
      first | exact hdot | exact hdec _ _ hb
  intro b hb
  cases k with
  | essid =>
    simp only [valueLine, h.str_take, List.cons_append, List.mem_cons, List.mem_append,
      List.not_mem_nil, or_false] at hb
    rcases hb with rfl | hb | rfl
    · exact hquote
    · exact (printable_of_opcChar b (h.opcChar hb)).1
    · exact hquote
  | ip => exact hip _ b hb
  | mask => exact hip _ b hb
  | gw => exact hip _ b hb
  | ntp => exact hip _ b hb

theorem printable_keyLine (h : Valid e) (n : Nat) (k : Key) : ∀ b ∈ keyLine n k (valueLine e k), printable b := by
  have hname : ∀ k : Key, ∀ b ∈ k.name, printable b := by
    intro k
    cases k <;> decide +kernel
  intro b hb
  simp only [keyLine, List.mem_append, List.mem_cons] at hb
  rcases hb with (hb | hb) | rfl | hb
  · exact hname k b hb
  · exact printable_of_isDigit b (isDigit_of_mem_decimal hb)
  · rfl
  · exact printable_valueLine h k b hb

/-! ## Lines are read back -/

/-- An entry with the value of one key copied from another. -/
def copyField (e₀ e : Entry) : Key → Entry
  | .ip => { e₀ with ipAddress := e.ipAddress }
  | .mask => { e₀ with subnetMask := e.subnetMask }
  | .gw => { e₀ with defaultGateway := e.defaultGateway }
  | .essid => { e₀ with essid := Buf.ofBytes 32 e.essid.str }
  | .ntp => { e₀ with ntpServer := e.ntpServer }

theorem setValue_valueLine (h : Valid e) (e₀ : Entry) (k : Key) :
    setValue e₀ k (valueLine e k) = some (copyField e₀ e k) := by
  have hq : ch '"' ∉ e.essid.str := fun hb => (printable_of_opcChar _ (h.opcChar hb)).2 rfl
  cases k <;> simp only [setValue, valueLine, parseIpv4_ipv4Str, h.str_take,
    parseEssid_quoted hq (Buf.length_str_lt h.terminated), Option.map_some, copyField]

/-- The first three bytes tell the names apart. -/
theorem isPrefixOf_name {k k' : Key} {s : Bytes} (h : k'.name.isPrefixOf (k.name ++ s)) : k' = k := by
  have h3 : k'.name.take 3 = (k.name ++ s).take 3 := by
    obtain ⟨t, ht⟩ := List.isPrefixOf_iff_prefix.mp h
    rw [← ht, List.take_append_of_le_length]
    cases k' <;> decide
  rw [List.take_append_of_le_length (by cases k <;> decide)] at h3
  revert h3
  cases k <;> cases k' <;> decide

theorem lineKey_keyLine {n : Nat} (hn : n < 1000) (k : Key) (v : Bytes) : lineKey (keyLine n k v) = some k := by
  have hdig : (decimal n ++ ch '=' :: v).head?.any isDigit := by
    rw [head?_append_decimal hn]
    have := (decimal_spec n hn).1
    cases h : decimal n with
    | nil => simp [h] at this
    | cons b ds => simpa using isDigit_of_mem_decimal (n := n) (by simp [h])
  have hkey (k' : Key) : (k'.name.isPrefixOf (keyLine n k v) &&
      ((keyLine n k v).drop k'.name.length).head?.any isDigit) = decide (k' = k) := by
    rw [keyLine, List.append_assoc]
    by_cases he : k' = k
    · subst he
      rw [List.drop_left, hdig]
      simp
    · have : k'.name.isPrefixOf (k.name ++ (decimal n ++ ch '=' :: v)) = false :=
        Bool.eq_false_iff.mpr fun h => he (isPrefixOf_name h)
      simp [this, he]
  rw [lineKey]
  simp only [hkey]
  cases k <;> rfl

/-- A text with the value of key `k` of list `i + 1` taken in. -/
def Text.take (t : Text) (i : SlotIdx) (e : Entry) (k : Key) : Text :=
  { t with
    entry := Function.update t.entry i
      { copyField (t.entry i) e k with listNumber := BitVec.ofNat 16 (i + 1) }
    keys := Function.update t.keys i (Function.update (t.keys i) k true) }

theorem addLine_keyLine (h : Valid e) {t : Text} {i : SlotIdx} {k : Key} (hk : t.keys i k = false) (line : Nat) :
    t.addLine line (keyLine (i + 1) k (valueLine e k)) = t.take i e k := by
  have hi : i.val < 128 := i.isLt
  have hlt : i.val + 1 < 1000 := by omega
  obtain ⟨hpos, hlen, hval, hlead⟩ := decimal_spec _ hlt
  have hpr := printable_keyLine h (i + 1) k
  have hcr : (keyLine (i + 1) k (valueLine e k)).getLast? ≠ some (ch '\r') := fun hl =>
    absurd (hpr _ (List.mem_of_getLast? hl)) (by decide)
  have hne : keyLine (i + 1) k (valueLine e k) ≠ [] := by simp [keyLine]
  have hnul : 0#8 ∉ keyLine (i + 1) k (valueLine e k) := fun hm => absurd (hpr _ hm) (by decide)
  have hdrop : (keyLine (i + 1) k (valueLine e k)).drop k.name.length
      = decimal (i + 1) ++ ch '=' :: valueLine e k := by
    rw [keyLine, List.append_assoc, List.drop_left]
  have hdig : ((decimal (i.val + 1) ++ ch '=' :: valueLine e k).take 4).takeWhile isDigit
      = decimal (i + 1) :=
    takeWhile_take_append (fun b hb => isDigit_of_mem_decimal hb) (by omega) rfl
  have hcond : (ch '=' :: valueLine e k).head? = some (ch '=') ∧
      (decimal (i.val + 1) ++ ch '=' :: valueLine e k).head? ≠ some (ch '0') ∧
      1 ≤ i.val + 1 ∧ i.val + 1 ≤ maxSlots :=
    ⟨rfl, by rw [head?_append_decimal hlt]; exact hlead (.inl (by omega)), by omega, by omega⟩
  rw [Text.addLine, if_neg hcr, if_neg hne, Text.parseLine, if_neg hnul, lineKey_keyLine hlt]
  simp only [hdrop, hdig, hval, List.drop_left, dif_pos hcond, Nat.add_sub_cancel, Fin.eta, hk,
    List.drop_one, List.tail_cons, setValue_valueLine h, Bool.false_eq_true, if_false]
  rfl

/-- What the five lines of an entry leave in list `i + 1`. -/
def readEntry (i : SlotIdx) (e : Entry) : Entry :=
  { boundaryFlag := 0, listNumber := BitVec.ofNat 16 (i + 1), ipAddress := e.ipAddress
    subnetMask := e.subnetMask, defaultGateway := e.defaultGateway, ntpServer := e.ntpServer
    essid := Buf.ofBytes 32 e.essid.str }

theorem addLines_append (t : Text) (n : Nat) (a b : List Bytes) :
    t.addLines n (a ++ b) = (t.addLines n a).addLines (n + a.length) b := by
  induction a generalizing t n with
  | nil => rfl
  | cons s a ih =>
    simp only [List.cons_append, Text.addLines, ih, List.length_cons]
    rw [Nat.add_right_comm, Nat.add_assoc]

theorem addLines_keyLines (h : Valid e) {i : SlotIdx} (ks : List Key) (hn : ks.Nodup)
    (t : Text) (hk : ∀ k ∈ ks, t.keys i k = false) (n : Nat) :
    t.addLines n (ks.map fun k => keyLine (i + 1) k (valueLine e k)) = ks.foldl (fun t k => t.take i e k) t := by
  induction ks generalizing t n with
  | nil => rfl
  | cons k ks ih =>
    obtain ⟨hnot, hn⟩ := List.nodup_cons.mp hn
    rw [List.map_cons, Text.addLines, addLine_keyLine h (hk k (by simp)), List.foldl_cons]
    refine ih hn _ (fun k' hk' => ?_) _
    have hne : k' ≠ k := fun e => hnot (e ▸ hk')
    simpa [Text.take, hne] using hk k' (by simp [hk'])

theorem addLines_slotLines {i : SlotIdx} (hp : l.present i)
    (h : Valid (l.slots i)) {t : Text} (hk : t.keys i = fun _ => false) (he : t.entry i = Entry.zero) (n : Nat) :
    t.addLines n (slotLines l i) =
      { t with
        entry := Function.update t.entry i (readEntry i (l.slots i))
        keys := Function.update t.keys i fun _ => true } := by
  rw [slotLines, if_pos hp, addLines_keyLines h _ (by decide) t (by simp [hk])]
  simp only [Key.all, List.foldl_cons, List.foldl_nil, Text.take, Function.update_self,
    Function.update_idem, he, hk, copyField]
  congr 2
  funext k
  cases k <;> rfl

/-- The state of a reader that has taken in the present slots among `js`. -/
def Text.afterSlots (t : Text) (l : IpList) (js : List SlotIdx) : Text :=
  { t with
    entry := fun i => if i ∈ js ∧ l.present i then readEntry i (l.slots i) else t.entry i
    keys := fun i => if i ∈ js ∧ l.present i then fun _ => true else t.keys i }

/-- The slots the list holds are valid entries. -/
def AllValid (l : IpList) : Prop := ∀ i, l.present i → Valid (l.slots i)

theorem addLines_slots (h : AllValid l) (js : List SlotIdx) (hn : js.Nodup) (t : Text)
    (ht : ∀ i ∈ js, (t.keys i = fun _ => false) ∧ t.entry i = Entry.zero) (n : Nat) :
    t.addLines n (js.flatMap (slotLines l)) = t.afterSlots l js := by
  induction js generalizing t n with
  | nil => simp [Text.addLines, Text.afterSlots]
  | cons j js ih =>
    obtain ⟨hnot, hn⟩ := List.nodup_cons.mp hn
    have hstep : t.addLines n (slotLines l j) = t.afterSlots l [j] := by
      by_cases hp : l.present j
      · obtain ⟨hk, he⟩ := ht j (by simp)
        rw [addLines_slotLines hp (h j hp) hk he]
        refine Text.ext ?_ ?_ rfl rfl rfl <;> funext i <;> by_cases hij : i = j <;>
          simp_all [Text.afterSlots]
      · rw [slotLines, if_neg hp, Text.addLines]
        refine Text.ext ?_ ?_ rfl rfl rfl <;> funext i <;> by_cases hij : i = j <;>
          simp_all [Text.afterSlots]
    rw [List.flatMap_cons, addLines_append, hstep, ih hn]
    · refine Text.ext ?_ ?_ rfl rfl rfl <;> funext i <;> by_cases hij : i = j <;>
        simp_all [Text.afterSlots]
    · intro i hi
      have hij : i ≠ j := fun e => hnot (e ▸ hi)
      simpa [Text.afterSlots, hij] using ht i (by simp [hi])

/-- Every byte of the text of a valid list is printable or a newline. -/
theorem printable_listText (h : AllValid l) :
    ∀ s ∈ (List.finRange maxSlots).flatMap (slotLines l), ∀ b ∈ s, printable b := by
  intro s hs b hb
  obtain ⟨i, -, hi⟩ := List.mem_flatMap.mp hs
  unfold slotLines at hi
  split at hi
  next hp =>
    obtain ⟨k, -, rfl⟩ := List.mem_map.mp hi
    exact printable_keyLine (h i hp) _ k b hb
  · simp at hi

theorem textParse_listText (h : AllValid l) :
    ∃ final, textParse (listText l) = (Text.init final).afterSlots l (List.finRange maxSlots) := by
  have hnl : ∀ s ∈ (List.finRange maxSlots).flatMap (slotLines l), nl ∉ s := fun s hs hm =>
    absurd (printable_listText h s hs nl hm) (by decide)
  refine ⟨decide (listText l = [] ∨ (listText l).getLast? = some nl), ?_⟩
  have hlines : lines (listText l) = (List.finRange maxSlots).flatMap (slotLines l) ++ [[]] :=
    lines_terminated hnl
  rw [textParse, hlines, addLines_append, addLines_slots h _ (List.nodup_finRange _) _ (fun _ _ => ⟨rfl, rfl⟩)]
  rfl

theorem skipBom_listText (h : AllValid l) : skipBom (listText l) = listText l := by
  rw [skipBom, if_neg]
  intro hb
  obtain ⟨t, ht⟩ := List.isPrefixOf_iff_prefix.mp hb
  have hmem : (0xEF : Byte) ∈ listText l := ht ▸ by simp [bom]
  obtain ⟨s, hs, hm⟩ := List.mem_flatMap.mp hmem
  rcases List.mem_append.mp hm with hm | hm
  · exact absurd (printable_listText h s hs _ hm) (by decide)
  · exact absurd (List.mem_singleton.mp hm) (by decide)

/-- The address, mask, gateway, time server and ESSID of two entries agree. -/
structure SameValues (a b : Entry) : Prop where
  ip : a.ipAddress = b.ipAddress
  mask : a.subnetMask = b.subnetMask
  gw : a.defaultGateway = b.defaultGateway
  ntp : a.ntpServer = b.ntpServer
  essid : a.essid.str = b.essid.str

/-- Two lists have the same present slots with the same values in them. -/
structure Same (a b : IpList) : Prop where
  present : a.present = b.present
  values : ∀ i, a.present i → SameValues (a.slots i) (b.slots i)

theorem sameValues_readEntry (h : Valid e) (i : SlotIdx) :
    SameValues (readEntry i e) e :=
  ⟨rfl, rfl, rfl, rfl, Buf.str_ofBytes (Buf.length_str_lt h.terminated).le (zero_notMem_cstr _)⟩

theorem ipcfgEntryError_congr {a b : Entry} (h : SameValues a b) (term : Bool) :
    ipcfgEntryError a term = ipcfgEntryError b term := by
  simp only [ipcfgEntryError, h.ip, h.mask, h.gw, h.ntp, h.essid]

/-- The list as it is read back. -/
def readList (l : IpList) : IpList :=
  { slots := fun i => if l.present i then readEntry i (l.slots i) else Entry.zero
    present := l.present }

theorem slotOf_afterSlots (h : AllValid l) (final : Bool) (i : SlotIdx) :
    slotOf ((Text.init final).afterSlots l (List.finRange maxSlots)) i
      = if l.present i then .entry (readEntry i (l.slots i)) else .unnamed := by
  by_cases hp : l.present i
  · have hv := h i hp
    have hok : ipcfgEntryError (readEntry i (l.slots i)) true = 0 :=
      (ipcfgEntryError_congr (sameValues_readEntry hv i) true).trans hv.ok
    have hip : (readEntry i (l.slots i)).ipAddress ≠ 0#32 := hv.ip
    simp [slotOf, Text.afterSlots, Text.init, hp, hok, hip, Key.all]
    rfl
  · simp [slotOf, Text.afterSlots, Text.init, hp]

/-- **The text of a list with valid slots is read back**, strictly or leniently. -/
theorem fromText_listText (h : AllValid l) (strict : Bool) : fromText (listText l) strict = some (readList l) := by
  obtain ⟨final, ht⟩ := textParse_listText h
  have hslots : slotOf ((Text.init final).afterSlots l (List.finRange maxSlots))
      = fun i => if l.present i then .entry (readEntry i (l.slots i)) else .unnamed :=
    funext (slotOf_afterSlots h final)
  have hread : ofSlots (fun i => if l.present i then .entry (readEntry i (l.slots i))
      else .unnamed) = readList l := by
    ext1 <;> funext i <;> by_cases hp : l.present i <;> simp [ofSlots, readList, hp]
  rw [fromText, skipBom_listText h, ht]
  simp only [hslots, hread]
  rw [if_neg]
  rintro ⟨-, herr | hany⟩
  · simp [Text.afterSlots, Text.init] at herr
  · obtain ⟨i, -, hi⟩ := List.any_eq_true.mp hany
    by_cases hp : l.present i <;> simp [hp] at hi

theorem same_readList (h : AllValid l) : Same (readList l) l where
  present := rfl
  values i hp := by
    have hp : l.present i := hp
    simpa [readList, hp] using sameValues_readEntry (h i hp) i

/-! ## What is read is valid -/

/-- Every ESSID of a text being read is terminated. -/
def Text.Terminated (t : Text) : Prop := ∀ i, 0#8 ∈ (t.entry i).essid.toList

theorem terminated_setValue {e e' : Entry} {k : Key} {p : Bytes} (h : setValue e k p = some e')
    (he : 0#8 ∈ e.essid.toList) : 0#8 ∈ e'.essid.toList := by
  cases k
  case essid =>
    simp only [setValue, Option.map_eq_some_iff, parseEssid] at h
    obtain ⟨v, hv, rfl⟩ := h
    split at hv
    next hc =>
      obtain rfl := Option.some.inj hv
      have hlt := hc.2.2.2.1
      rw [Buf.toList_ofBytes hlt.le]
      simp only [List.mem_append, List.mem_replicate]
      exact .inr ⟨by omega, rfl⟩
    · contradiction
  all_goals
    simp only [setValue, Option.map_eq_some_iff] at h
    obtain ⟨v, -, rfl⟩ := h
    exact he

theorem entry_note (t : Text) (line : Nat) (why : LineError) : (t.note line why).entry = t.entry := by
  unfold Text.note
  split <;> rfl

theorem Terminated.parseLine {t : Text} (h : t.Terminated) (line : Nat) (s : Bytes) :
    (t.parseLine line s).Terminated := by
  have hnote (t : Text) (h : t.Terminated) (why : LineError) : (t.note line why).Terminated := by
    intro i
    rw [entry_note]
    exact h i
  have hspoil (i : SlotIdx) (why : LineError) : (t.spoil i line why).Terminated :=
    hnote { t with bad := Function.update t.bad i true } h why
  unfold Text.parseLine
  split
  · exact hnote t h _
  split
  · exact hnote t h _
  dsimp only
  split
  · split
    · exact hspoil _ _
    split
    · exact hspoil _ _
    next hset =>
      have hterm := terminated_setValue hset (h _)
      intro j
      dsimp only
      rw [Function.update_apply]
      split
      · exact hterm
      · exact h j
  · exact hnote t h _

theorem Terminated.addLine {t : Text} (h : t.Terminated) (line : Nat) (s : Bytes) :
    (t.addLine line s).Terminated := by
  unfold Text.addLine
  dsimp only
  by_cases hs : (if s.getLast? = some (ch '\r') then s.dropLast else s) = []
  · rwa [if_pos hs]
  · rw [if_neg hs]
    exact Terminated.parseLine h line _

theorem Terminated.addLines {t : Text} (h : t.Terminated) (n : Nat) (ls : List Bytes) :
    (t.addLines n ls).Terminated := by
  induction ls generalizing t n with
  | nil => exact h
  | cons s ls ih => exact ih (Terminated.addLine h n s) _

/-- A list read from any text, strictly or leniently, holds valid entries only. -/
theorem allValid_fromText {buf : Bytes} {strict : Bool} (h : fromText buf strict = some l) : AllValid l := by
  have hterm : (textParse (skipBom buf)).Terminated :=
    Terminated.addLines (fun _ => by simp [Text.init, Entry.zero, Buf.zero]) _ _
  unfold fromText at h
  dsimp only at h
  split at h
  · contradiction
  obtain rfl := Option.some.inj h
  intro i hp
  cases hs : slotOf (textParse (skipBom buf)) i with
  | entry e =>
    simp only [ofSlots, hs]
    unfold slotOf at hs
    split_ifs at hs with h1 h2 h3 h4 h5
    obtain rfl := Reading.entry.inj hs
    exact ⟨h4, not_not.mp h5, hterm i⟩
  | _ => simp [ofSlots, hs] at hp

/-! ## There and back -/

theorem valueLine_congr {a b : Entry} (ha : Valid a) (hb : Valid b) (h : SameValues a b) (k : Key) :
    valueLine a k = valueLine b k := by
  cases k with
  | ip => simp only [valueLine, h.ip]
  | mask => simp only [valueLine, h.mask]
  | gw => simp only [valueLine, h.gw]
  | essid => simp only [valueLine, ha.str_take, hb.str_take, h.essid]
  | ntp => simp only [valueLine, h.ntp]

/-- Lists with the same slots and values have the same text. -/
theorem listText_congr {a b : IpList} (ha : AllValid a) (hb : AllValid b) (h : Same a b) :
    listText a = listText b := by
  have hslot : slotLines a = slotLines b := by
    funext i
    by_cases hp : a.present i
    · have hp' : b.present i := h.present ▸ hp
      simp only [slotLines, hp, hp', if_true, valueLine_congr (ha i hp) (hb i hp') (h.values i hp)]
    · have hp' : ¬ b.present i := h.present ▸ hp
      simp only [slotLines, hp, hp', Bool.false_eq_true, if_false]
  rw [listText, hslot, listText]

/-- **The round trip of the text.** A list whose present slots pass the entry check is formatted; the
text is read back, strictly or leniently, as the same slots with the same values, numbered by their
slots; and what was read is formatted as the same text. -/
theorem text_round_trip {l : IpList} (h : AllValid l) (strict : Bool) :
    ∃ text l', textFormat l textMax = some text ∧ fromText text strict = some l' ∧ Same l' l ∧
      (∀ i, l'.present i → (l'.slots i).boundaryFlag = 0 ∧ (l'.slots i).listNumber = BitVec.ofNat 16 (i + 1)) ∧
      textFormat l' textMax = some text := by
  have hread := fromText_listText h strict
  have hsame := same_readList h
  refine ⟨listText l, readList l, textFormat_eq l, hread, hsame, fun i hp => ?_, ?_⟩
  · have hp : l.present i := hp
    simp [readList, hp, readEntry]
  · rw [textFormat_eq, listText_congr (allValid_fromText hread) h hsame]

/-- An entry that passes the check. -/
def sampleEntry : Entry :=
  { boundaryFlag := 3, listNumber := 5, ipAddress := 0xC0A8000A, subnetMask := 0xFFFFFF00
    defaultGateway := 0xC0A80001, ntpServer := 0xC0A80002, essid := Buf.ofBytes 32 (ofString "ap-1") }

theorem valid_sampleEntry : Valid sampleEntry := ⟨by decide, by decide, by decide⟩

theorem text_round_trip_sample : AllValid ⟨fun _ => sampleEntry, fun i => i = 4⟩ ∧
    ∃ text l', textFormat ⟨fun _ => sampleEntry, fun i => i = 4⟩ textMax = some text ∧
      fromText text true = some l' ∧ Same l' ⟨fun _ => sampleEntry, fun i => i = 4⟩ ∧
      (∀ i, l'.present i → (l'.slots i).boundaryFlag = 0 ∧ (l'.slots i).listNumber = BitVec.ofNat 16 (i + 1)) ∧
      textFormat l' textMax = some text :=
  ⟨fun _ _ => valid_sampleEntry, text_round_trip (fun _ _ => valid_sampleEntry) true⟩

end Opcd.IpList
