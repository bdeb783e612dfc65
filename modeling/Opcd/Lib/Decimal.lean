import Opcd.Lib.Bytes

/-!
# Decimal numbers in byte strings

Printing as `%u` and `%lld` do, and reading as `strtoul` and `strtoll` do (base 10, 64-bit).
-/

namespace Bytes

/-- A decimal digit. -/
def isDigit (b : Byte) : Bool := ch '0' ≤ b ∧ b ≤ ch '9'

def digitVal (b : Byte) : Nat := b.toNat - (ch '0').toNat

/-- `%u`. -/
def decimal (n : Nat) : Bytes := (Nat.toDigits 10 n).map ch

/-- `%lld`. -/
def decimalInt : Int → Bytes
  | .ofNat n => decimal n
  | .negSucc n => ch '-' :: decimal (n + 1)

/-- The value of a string of digits. -/
def readDecimal (ds : Bytes) : Nat := ds.foldl (fun v d => v * 10 + digitVal d) 0

def isSpace (b : Byte) : Bool := b = ch ' ' ∨ (ch '\t' ≤ b ∧ b ≤ ch '\r')

/-- The sign and the digits a C number conversion takes from the start of `s`. -/
def scanNumber (s : Bytes) : Bool × Nat :=
  match s.dropWhile isSpace with
  | b :: rest =>
    if b = ch '-' then (true, readDecimal (rest.takeWhile isDigit))
    else if b = ch '+' then (false, readDecimal (rest.takeWhile isDigit))
    else (false, readDecimal ((b :: rest).takeWhile isDigit))
  | [] => (false, 0)

/-- A C number conversion finds digits at the start of `s`. -/
def startsNumber (s : Bytes) : Bool :=
  match s.dropWhile isSpace with
  | b :: rest => if b = ch '-' ∨ b = ch '+' then rest.head?.any isDigit else isDigit b
  | [] => false

/-- `strtoul(s, NULL, 10)`. -/
def strtoul (s : Bytes) : Nat :=
  let (neg, v) := scanNumber s
  if 2 ^ 64 ≤ v then 2 ^ 64 - 1 else if neg then (2 ^ 64 - v) % 2 ^ 64 else v

/-- `strtoll(s, NULL, 10)`. -/
def strtoll (s : Bytes) : Int :=
  let (neg, v) := scanNumber s
  if neg then -(min v (2 ^ 63) : Nat) else (min v (2 ^ 63 - 1) : Nat)

example : decimal 1207 = ofString "1207" ∧ strtoul (ofString " 1207x") = 1207 ∧
    strtoll (ofString "-12") = -12 := by decide

theorem isDigit_of_mem_decimal {n : Nat} {b : Byte} (h : b ∈ decimal n) : isDigit b := by
  obtain ⟨c, hc, rfl⟩ := List.mem_map.mp h
  have hd := Nat.isDigit_of_mem_toDigits (by decide) (by decide) hc
  simp only [Char.isDigit, Bool.and_eq_true, decide_eq_true_eq] at hd
  have h1 : 48 ≤ c.toNat := hd.1
  have h2 : c.toNat ≤ 57 := hd.2
  have hb : (BitVec.ofNat 8 c.toNat).toNat = c.toNat := by
    rw [BitVec.toNat_ofNat]
    omega
  simp only [isDigit, ch, BitVec.le_def, hb, decide_eq_true_eq]
  exact ⟨h1, h2⟩

/-- A byte that is no digit and no minus sign is in no printed number. -/
theorem notMem_decimalInt {b : Byte} (hd : isDigit b = false) (hm : b ≠ ch '-') (n : Int) : b ∉ decimalInt n := by
  have hdec : ∀ k, b ∉ decimal k := fun k h => by simp [isDigit_of_mem_decimal h] at hd
  cases n with
  | ofNat n => exact hdec n
  | negSucc n =>
    simp only [decimalInt, List.mem_cons, not_or]
    exact ⟨hm, hdec _⟩

theorem notMem_decimal {b : Byte} (hd : isDigit b = false) (n : Nat) : b ∉ decimal n :=
  fun h => by simp [isDigit_of_mem_decimal h] at hd

/-! ## Reading back -/

theorem digitVal_spec : ∀ b : Byte, isDigit b → decimal (digitVal b) = [b] ∧ digitVal b < 10 ∧
    (b ≠ ch '0' → 0 < digitVal b) := by decide +kernel

theorem readDecimal_snoc (ds : Bytes) (b : Byte) : readDecimal (ds ++ [b]) = readDecimal ds * 10 + digitVal b := by
  simp [readDecimal, List.foldl_append]

theorem readDecimal_pos {ds : Bytes} (hd : ∀ b ∈ ds, isDigit b) (hne : ds ≠ [])
    (hlead : ds.head? ≠ some (ch '0')) : 0 < readDecimal ds := by
  induction ds using List.reverseRecOn with
  | nil => exact absurd rfl hne
  | append_singleton ds b ih =>
    rw [readDecimal_snoc]
    by_cases hds : ds = []
    · subst hds
      have := (digitVal_spec b (hd b (by simp))).2.2 fun e => hlead (by simp [e])
      omega
    · have := ih (fun c hc => hd c (by simp [hc])) hds (by
        rwa [List.head?_append_of_ne_nil _ hds] at hlead)
      omega

/-- A number of several digits: those of its tenth, and the last. -/
theorem decimal_split {n : Nat} (h : 10 ≤ n) : decimal n = decimal (n / 10) ++ decimal (n % 10) := by
  have happ := Nat.toDigits_append_toDigits (b := 10) (n := n / 10) (d := n % 10) (by decide) (by omega) (by omega)
  have hn : 10 * (n / 10) + n % 10 = n := by omega
  rw [hn] at happ
  rw [decimal, ← happ, List.map_append]
  rfl

theorem decimal_digit : ∀ n < 10, ∃ b, decimal n = [b] ∧ digitVal b = n := by decide +kernel

/-- What is printed is read back. -/
theorem readDecimal_decimal (n : Nat) : readDecimal (decimal n) = n := by
  induction n using Nat.strongRecOn with
  | ind n ih =>
    by_cases h : 10 ≤ n
    · obtain ⟨b, hb, hval⟩ := decimal_digit (n % 10) (by omega)
      rw [decimal_split h, hb, readDecimal_snoc, ih _ (by omega), hval]
      omega
    · obtain ⟨b, hb, hval⟩ := decimal_digit n (by omega)
      rw [hb]
      simpa [readDecimal] using hval

theorem decimal_injective : Function.Injective decimal := fun m n h => by
  rw [← readDecimal_decimal m, h, readDecimal_decimal]

/-- A number below a power of ten has no more digits than the power. -/
theorem length_decimal_le_of_lt {k n : Nat} (h : n < 10 ^ (k + 1)) : (decimal n).length ≤ k + 1 := by
  induction k generalizing n with
  | zero =>
    obtain ⟨b, hb, -⟩ := decimal_digit n (by simpa using h)
    simp [hb]
  | succ k ih =>
    by_cases h10 : 10 ≤ n
    · obtain ⟨b, hb, -⟩ := decimal_digit (n % 10) (by omega)
      have hle := ih (n := n / 10) (by
        rw [Nat.pow_succ] at h
        omega)
      rw [decimal_split h10, hb, List.length_append, List.length_singleton]
      omega
    · obtain ⟨b, hb, -⟩ := decimal_digit n (by omega)
      simp [hb]

theorem decimal_ne_nil (n : Nat) : decimal n ≠ [] := by
  intro h
  have hread := readDecimal_decimal n
  rw [h] at hread
  obtain rfl : 0 = n := hread
  exact absurd h (by decide)

/-- Digits without a leading zero are the number they denote, printed. -/
theorem decimal_readDecimal {ds : Bytes} (hd : ∀ b ∈ ds, isDigit b) (hne : ds ≠ [])
    (hlead : ds.head? ≠ some (ch '0')) : decimal (readDecimal ds) = ds := by
  induction ds using List.reverseRecOn with
  | nil => exact absurd rfl hne
  | append_singleton ds b ih =>
    obtain ⟨hb, hlt, -⟩ := digitVal_spec b (hd b (by simp))
    rw [readDecimal_snoc]
    by_cases hds : ds = []
    · subst hds
      simpa [readDecimal] using hb
    · have hds' : ∀ c ∈ ds, isDigit c := fun c hc => hd c (by simp [hc])
      have hlead' : ds.head? ≠ some (ch '0') := by rwa [List.head?_append_of_ne_nil _ hds] at hlead
      have hpos := readDecimal_pos hds' hds hlead'
      have happ := Nat.toDigits_append_toDigits (b := 10) (by decide) hpos hlt
      have hsplit : decimal (readDecimal ds * 10 + digitVal b) =
          decimal (readDecimal ds) ++ decimal (digitVal b) := by
        rw [Nat.mul_comm, decimal, ← happ, List.map_append]
        rfl
      rw [hsplit, ih hds' hds hlead', hb]

/-! ## Numbers behind blanks -/

section Digits

variable {blanks ds s : Bytes} (hblanks : ∀ b ∈ blanks, isSpace b = true) (hds : ∀ b ∈ ds, isDigit b = true)
  (hne : ds ≠ []) (hstop : ∀ b ∈ s.head?, isDigit b = false)

theorem digit_starts : ∀ b : Byte, isDigit b = true → isSpace b = false ∧ b ≠ ch '-' ∧ b ≠ ch '+' := by
  decide +kernel

include hblanks hds hne in
/-- A conversion passes the blanks and stands at the first digit. -/
theorem dropWhile_blanks : (blanks ++ ds ++ s).dropWhile isSpace = ds ++ s := by
  rw [List.append_assoc, List.dropWhile_append_of_pos hblanks]
  cases ds with
  | nil => exact absurd rfl hne
  | cons d ds =>
    have hd := (digit_starts d (hds d List.mem_cons_self)).1
    exact List.dropWhile_cons_of_neg (by simp [hd])

include hds hstop in
theorem takeWhile_digits : (ds ++ s).takeWhile isDigit = ds := by
  rw [List.takeWhile_append_of_pos hds]
  cases s with
  | nil => exact List.append_nil _
  | cons b s =>
    have hb := hstop b rfl
    rw [List.takeWhile_cons_of_neg (by simp [hb]), List.append_nil]

include hblanks hds hne in
theorem startsNumber_digits : startsNumber (blanks ++ ds ++ s) = true := by
  rw [startsNumber, dropWhile_blanks hblanks hds hne]
  cases ds with
  | nil => exact absurd rfl hne
  | cons d ds =>
    have hd := hds d List.mem_cons_self
    obtain ⟨-, hminus, hplus⟩ := digit_starts d hd
    rw [List.cons_append]
    dsimp only
    rw [if_neg (not_or.mpr ⟨hminus, hplus⟩)]
    exact hd

include hblanks hds hne hstop in
theorem scanNumber_digits : scanNumber (blanks ++ ds ++ s) = (false, readDecimal ds) := by
  have htake := takeWhile_digits hds hstop
  rw [scanNumber, dropWhile_blanks hblanks hds hne]
  cases ds with
  | nil => exact absurd rfl hne
  | cons d ds =>
    obtain ⟨-, hminus, hplus⟩ := digit_starts d (hds d List.mem_cons_self)
    rw [List.cons_append] at htake ⊢
    dsimp only
    rw [if_neg hminus, if_neg hplus, htake]

include hblanks hds hne hstop in
/-- Digits behind blanks are converted to the number they denote, if it fits. -/
theorem strtoul_digits (hlt : readDecimal ds < 2 ^ 64) : strtoul (blanks ++ ds ++ s) = readDecimal ds := by
  rw [strtoul, scanNumber_digits hblanks hds hne hstop]
  dsimp only
  rw [if_neg (by omega)]
  rfl

end Digits

/-! ## What is printed is converted back -/

theorem scanNumber_decimal (n : Nat) : scanNumber (decimal n) = (false, n) := by
  have h := @scanNumber_digits [] (decimal n) [] (by simp) (fun b => isDigit_of_mem_decimal) (decimal_ne_nil n)
    (by simp)
  rwa [List.nil_append, List.append_nil, readDecimal_decimal] at h

theorem strtoul_decimal {n : Nat} (h : n < 2 ^ 64) : strtoul (decimal n) = n := by
  rw [strtoul, scanNumber_decimal]
  dsimp only
  rw [if_neg (by omega)]
  rfl

theorem scanNumber_minus (n : Nat) : scanNumber (ch '-' :: decimal n) = (true, n) := by
  have htake := @takeWhile_digits (decimal n) [] (fun b => isDigit_of_mem_decimal) (by simp)
  rw [List.append_nil] at htake
  have hscan : scanNumber (ch '-' :: decimal n) = (true, readDecimal ((decimal n).takeWhile isDigit)) := rfl
  rw [hscan, htake, readDecimal_decimal]

theorem strtoll_decimalInt {n : Int} (hlo : -2 ^ 63 ≤ n) (hhi : n < 2 ^ 63) : strtoll (decimalInt n) = n := by
  cases n with
  | ofNat n =>
    rw [decimalInt, strtoll, scanNumber_decimal]
    dsimp only
    rw [if_neg (by decide), Int.ofNat_eq_natCast]
    rw [Int.ofNat_eq_natCast] at hhi
    omega
  | negSucc n =>
    rw [decimalInt, strtoll, scanNumber_minus]
    dsimp only
    rw [if_pos rfl]
    omega

end Bytes
