import Opcd.Handler.Settings
import Opcd.Lib.Argmax
import Opcd.Lib.Decimal

/-!
# Direct routes

`opcd_route_direct_lookup` (`route_lookup.c`) reads the text of `/proc/net/route` line by line and keeps the
best of the rows that cover an address: the one with the most mask bits, then the lowest metric, then the first.
The notification recipient of a SetIndicationConfig has to be reached by it without a gateway.

The conversions are those of the C library's `sscanf` where `long` has 64 bits and words are little-endian. A
number that does not fit is the greatest one, and an `int` takes its low 32 bits.

* `scanLines_eq`: the loop visits the lines of the text.
* `foldl_row_eq`: what it keeps is `List.argmax` of the rows that cover the address.
* `direct_route_longest_match`: the lookup is longest-prefix match.
-/

namespace Opcd.Route

open Bytes

/-! ## The conversions -/

def isXDigit (b : Byte) : Bool :=
  isDigit b ∨ (ch 'a' ≤ b ∧ b ≤ ch 'f') ∨ (ch 'A' ≤ b ∧ b ≤ ch 'F')

def xdigitVal (b : Byte) : Nat :=
  if isDigit b then digitVal b
  else if ch 'a' ≤ b then b.toNat - (ch 'a').toNat + 10
  else b.toNat - (ch 'A').toNat + 10

def readHex (ds : Bytes) : Nat := ds.foldl (fun v d => v * 16 + xdigitVal d) 0

/-- The sign of a number, and what follows it. -/
def takeSign (s : Bytes) : Bool × Bytes :=
  match s with
  | b :: rest => if b = ch '-' then (true, rest) else if b = ch '+' then (false, rest) else (false, s)
  | [] => (false, [])

/-- The `0` or `0x` a hexadecimal number may start with, and what follows it. -/
def takeBase (s : Bytes) : Bool × Bytes :=
  match s with
  | b :: rest =>
    if b ≠ ch '0' then (false, s)
    else
      match rest with
      | x :: rest' => if x = ch 'x' ∨ x = ch 'X' then (true, rest') else (true, rest)
      | [] => (true, [])
  | [] => (false, [])

/-- `%lx`. A lone `0x` is a zero. -/
def scanHex (s : Bytes) : Option (BitVec 64 × Bytes) :=
  let (neg, s) := takeSign (s.dropWhile isSpace)
  let (zero, s) := takeBase s
  let digits := s.takeWhile isXDigit
  if ¬ zero ∧ digits = [] then none
  else
    let v := readHex digits
    let v := if 2 ^ 64 ≤ v then 2 ^ 64 - 1 else if neg then (2 ^ 64 - v) % 2 ^ 64 else v
    some (BitVec.ofNat 64 v, s.drop digits.length)

/-- `%d`. -/
def scanDec (s : Bytes) : Option (BitVec 32 × Bytes) :=
  let (neg, s) := takeSign (s.dropWhile isSpace)
  let digits := s.takeWhile isDigit
  if digits = [] then none
  else
    let v := readDecimal digits
    let v : Int := if neg then -(min v (2 ^ 63) : Nat) else (min v (2 ^ 63 - 1) : Nat)
    some (BitVec.ofInt 32 v, s.drop digits.length)

/-- `%31s`. -/
def scanWord (s : Bytes) : Option (Bytes × Bytes) :=
  let s := s.dropWhile isSpace
  let word := (s.take 31).takeWhile fun b => ¬ isSpace b
  if word = [] then none else some (word, s.drop word.length)

/-- `ntohl`. -/
def ntohl (x : BitVec 32) : BitVec 32 :=
  x.extractLsb' 0 8 ++ x.extractLsb' 8 8 ++ x.extractLsb' 16 8 ++ x.extractLsb' 24 8

/-! ## Rows -/

def rtUp : BitVec 64 := 0x0001

def rtGateway : BitVec 64 := 0x0002

def rtReject : BitVec 64 := 0x0200

/-- What is used of a row. Destination and mask are in host order, the others as they were read. -/
structure Row where
  iface : Bytes
  dest : BitVec 32
  gateway : BitVec 64
  flags : BitVec 64
  metric : BitVec 32
  mask : BitVec 32
  deriving DecidableEq, Repr

/-- `sscanf(buf, "%31s %lx %lx %lx %d %d %d %lx", …) == 8`. -/
def scanRow (line : Bytes) : Option Row := do
  let (iface, s) ← scanWord line
  let (dest, s) ← scanHex s
  let (gateway, s) ← scanHex s
  let (flags, s) ← scanHex s
  let (_, s) ← scanDec s
  let (_, s) ← scanDec s
  let (metric, s) ← scanDec s
  let (mask, _) ← scanHex s
  some ⟨iface, ntohl (dest.setWidth 32), gateway, flags, metric, ntohl (mask.setWidth 32)⟩

-- a connected subnet as the kernel prints it, and the header line
example : scanRow (ofString "eth0\t0001A8C0\t00000000\t0001\t0\t0\t10\t00FFFFFF\t0\t0\t0") =
      some ⟨ofString "eth0", 0xC0A80100, 0, 1, 10, 0xFFFFFF00⟩ ∧
    scanRow (ofString "Iface\tDestination\tGateway \tFlags\tRefCnt\tUse\tMetric\tMask") = none := by
  decide +kernel

/-- The row is a usable route that covers the address. -/
def Row.covers (r : Row) (dst : BitVec 32) : Bool := r.flags &&& rtUp ≠ 0 ∧ dst &&& r.mask = r.dest

/-- The route has no gateway, does not reject and has an output interface. -/
def Row.direct (r : Row) : Bool :=
  r.gateway = 0 ∧ r.flags &&& (rtGateway ||| rtReject) = 0 ∧ r.iface ≠ ofString "*"

/-- The loop of `mask_bits`, for as many turns as there are bits. -/
def maskBitsLoop : Nat → BitVec 32 → Nat
  | 0, _ => 0
  | turns + 1, m => if m = 0 then 0 else maskBitsLoop turns (m &&& (m - 1)) + 1

/-- `mask_bits`. -/
def maskBits (m : BitVec 32) : Nat := maskBitsLoop 32 m

/-! ## The lookup -/

/-- The best route so far. -/
structure Best where
  bits : Int
  metric : BitVec 32
  direct : Bool
  mask : BitVec 32

def Best.none : Best := ⟨-1, 0, false, 0⟩

/-- A row that was read. -/
def Best.row (dst : BitVec 32) (best : Best) (r : Row) : Best :=
  if ¬ r.covers dst then best
  else
    let bits := maskBits r.mask
    if bits > best.bits ∨ (bits = best.bits ∧ r.metric < best.metric) then ⟨bits, r.metric, r.direct, r.mask⟩
    else best

/-- A line, if it fits the buffer. -/
def Best.line (dst : BitVec 32) (best : Best) (line : Bytes) : Best :=
  if line.length < 256 then
    match scanRow line with
    | some r => best.row dst r
    | Option.none => best
  else best

/-- The loop over the lines, for as many turns as there are bytes. -/
def scanLines (dst : BitVec 32) : Nat → Best → Bytes → Best
  | 0, best, _ => best
  | _ + 1, best, [] => best
  | turns + 1, best, b :: s =>
    let line := (b :: s).takeWhile (· ≠ nl)
    let best := best.line dst line
    match (b :: s).drop line.length with
    | [] => best
    | _ :: rest => scanLines dst turns best rest

/-- `opcd_route_direct_lookup`: the mask of the route, or `none` for `-ENETUNREACH`. -/
def routeDirectLookup (text : Bytes) (dst : BitVec 32) : Option (BitVec 32) :=
  let text := cstr text
  let best := scanLines dst text.length Best.none text
  if best.bits < 0 ∨ ¬ best.direct then Option.none else some best.mask

/-! ## The lines -/

theorem drop_takeWhile (p : Byte → Bool) (s : Bytes) : s.drop (s.takeWhile p).length = s.dropWhile p := by
  induction s with
  | nil => rfl
  | cons b s ih =>
    by_cases hb : p b = true
    · rw [List.takeWhile_cons_of_pos hb, List.dropWhile_cons_of_pos hb, List.length_cons, List.drop_succ_cons, ih]
    · rw [List.takeWhile_cons_of_neg hb, List.dropWhile_cons_of_neg hb]
      rfl

/-- A text is its first line, or its first line and the rest after a newline. -/
theorem lines_takeWhile (text : Bytes) :
    lines text = text.takeWhile (· ≠ nl) :: (text.dropWhile (· ≠ nl)).tail?.elim [] lines := by
  have hno : nl ∉ text.takeWhile (· ≠ nl) := by
    intro hmem
    simpa using List.mem_takeWhile_imp hmem
  have hsplit : text.takeWhile (· ≠ nl) ++ text.dropWhile (· ≠ nl) = text := List.takeWhile_append_dropWhile
  cases hdrop : text.dropWhile (· ≠ nl) with
  | nil =>
    rw [hdrop, List.append_nil] at hsplit
    rw [hsplit]
    rw [hsplit] at hno
    have hone := lines_unlines (List.forall_mem_singleton.mpr hno) (List.cons_ne_nil text [])
    rwa [unlines, List.intercalate_singleton] at hone
  | cons x rest =>
    have hx : x = nl := by
      have hhead := List.head?_dropWhile_not (· ≠ nl) text
      rw [hdrop] at hhead
      simpa using hhead
    rw [hdrop, hx] at hsplit
    nth_rewrite 1 [← hsplit]
    exact lines_append_nl hno rest

variable (dst : BitVec 32)

theorem line_nil (best : Best) : best.line dst [] = best := rfl

/-- **The loop visits the lines of the text.** The empty line after a last newline holds no row. -/
theorem scanLines_eq {turns : Nat} {text : Bytes} (h : text.length ≤ turns) (best : Best) :
    scanLines dst turns best text = (lines text).foldl (Best.line dst) best := by
  induction turns generalizing text best with
  | zero =>
    obtain rfl := List.length_eq_zero_iff.mp (Nat.le_zero.mp h)
    exact (line_nil dst best).symm
  | succ turns ih =>
    cases text with
    | nil => exact (line_nil dst best).symm
    | cons b s =>
      rw [scanLines, lines_takeWhile, List.foldl_cons, drop_takeWhile]
      have hlen : ((b :: s).dropWhile (· ≠ nl)).length ≤ turns + 1 :=
        (List.dropWhile_sublist _).length_le.trans h
      cases hrest : (b :: s).dropWhile (· ≠ nl) with
      | nil => rfl
      | cons x rest =>
        rw [hrest, List.length_cons] at hlen
        exact ih (by omega) _

/-- The rows of a text, in its order. -/
def rows (text : Bytes) : List Row :=
  (lines (cstr text)).filterMap fun line => if line.length < 256 then scanRow line else none

/-- The rows that cover an address. -/
def candidates (text : Bytes) (dst : BitVec 32) : List Row := (rows text).filter fun r => r.covers dst

theorem line_eq (best : Best) (line : Bytes) :
    best.line dst line = ((if line.length < 256 then scanRow line else none).elim best (best.row dst)) := by
  unfold Best.line
  split
  · cases scanRow line <;> rfl
  · rfl

theorem foldl_line_eq (ls : List Bytes) (best : Best) :
    ls.foldl (Best.line dst) best =
      (ls.filterMap fun line => if line.length < 256 then scanRow line else none).foldl (Best.row dst) best := by
  induction ls generalizing best with
  | nil => rfl
  | cons line ls ih =>
    rw [List.foldl_cons, ih, line_eq, List.filterMap_cons]
    cases (if line.length < 256 then scanRow line else none) <;> rfl

/-! ## The best route -/

/-- What routes are compared by: the mask bits, then the lower metric. -/
def Row.rank (r : Row) : ℕ ×ₗ ℕᵒᵈ := toLex (maskBits r.mask, OrderDual.toDual r.metric.toNat)

/-- The rank is a matter of two fields. -/
def rankKey (k : Nat × BitVec 32) : ℕ ×ₗ ℕᵒᵈ := toLex (k.1, OrderDual.toDual k.2.toNat)

theorem rank_eq : (rankKey ∘ fun r : Row => (maskBits r.mask, r.metric)) = Row.rank := rfl

theorem rankKey_injective : Function.Injective rankKey := by
  intro k k' h
  obtain ⟨hbits, hmetric⟩ := Prod.mk.inj (toLex.injective h)
  exact Prod.ext hbits (BitVec.eq_of_toNat_eq (OrderDual.toDual.injective hmetric))

/-- A route is better than another. -/
def Row.Beats (r q : Row) : Prop :=
  maskBits q.mask < maskBits r.mask ∨ (maskBits q.mask = maskBits r.mask ∧ r.metric < q.metric)

theorem rank_lt_iff (q r : Row) : q.rank < r.rank ↔ r.Beats q := by
  rw [Row.rank, Row.rank, Prod.Lex.toLex_lt_toLex]
  rfl

/-- The best of a list: better than all before it, and none after it is better. -/
def IsBest (l : List Row) (r : Row) : Prop :=
  ∃ before after, l = before ++ r :: after ∧ (∀ q ∈ before, r.Beats q) ∧ ∀ q ∈ after, ¬ q.Beats r

theorem isBest_iff (l : List Row) (r : Row) : IsBest l r ↔ l.argmax Row.rank = some r := by
  rw [List.argmax_eq_some_iff_append]
  simp only [IsBest, rank_lt_iff, ← not_lt]

/-- The state of the loop after a best route. -/
def Best.ofRow? : Option Row → Best
  | Option.none => Best.none
  | some r => ⟨maskBits r.mask, r.metric, r.direct, r.mask⟩

/-- **The loop keeps the best route**, the first of its kind. -/
theorem foldl_row_eq (rs : List Row) :
    rs.foldl (Best.row dst) Best.none = Best.ofRow? ((rs.filter fun r => r.covers dst).argmax Row.rank) := by
  induction rs using List.reverseRecOn with
  | nil => rfl
  | append_singleton rs r ih =>
    rw [List.foldl_append, ih, List.foldl_cons, List.foldl_nil, List.filter_append, Best.row]
    by_cases hcov : r.covers dst = true
    · rw [if_neg (not_not.mpr hcov), List.filter_singleton, hcov, cond_true, List.argmax_concat]
      cases (rs.filter fun r => r.covers dst).argmax Row.rank with
      | none => exact if_pos (.inl (lt_of_lt_of_le (by decide : (-1 : Int) < 0) (Int.natCast_nonneg _)))
      | some c =>
        have hiff : ((maskBits r.mask : Int) > maskBits c.mask ∨
            ((maskBits r.mask : Int) = maskBits c.mask ∧ r.metric < c.metric)) ↔ c.rank < r.rank := by
          rw [rank_lt_iff, Row.Beats, gt_iff_lt, Nat.cast_lt, Nat.cast_inj, eq_comm]
        simp only [Best.ofRow?, hiff]
        split <;> rfl
    · rw [if_pos hcov, List.filter_singleton, (Bool.not_eq_true _).mp hcov, cond_false, List.append_nil]

theorem lookup_eq (text : Bytes) (dst : BitVec 32) :
    routeDirectLookup text dst =
      ((candidates text dst).argmax Row.rank).bind fun r => if r.direct then some r.mask else none := by
  have hbest : scanLines dst (cstr text).length Best.none (cstr text) =
      Best.ofRow? ((candidates text dst).argmax Row.rank) := by
    rw [scanLines_eq dst (Nat.le_refl _), foldl_line_eq, foldl_row_eq]
    rfl
  rw [routeDirectLookup, hbest]
  cases (candidates text dst).argmax Row.rank with
  | none => rfl
  | some r =>
    have hbits : ¬ (Best.ofRow? (some r)).bits < 0 := Int.not_lt.mpr (Int.natCast_nonneg _)
    simp only [hbits, false_or, Option.bind_some]
    cases hd : r.direct with
    | false => exact if_pos (by simp [Best.ofRow?, hd])
    | true => exact if_neg (by simp [Best.ofRow?, hd])

theorem lookup_eq_some_iff (text : Bytes) (dst m : BitVec 32) :
    routeDirectLookup text dst = some m ↔ ∃ r, IsBest (candidates text dst) r ∧ r.direct = true ∧ r.mask = m := by
  rw [lookup_eq, Option.bind_eq_some_iff]
  refine exists_congr fun r => ?_
  rw [isBest_iff]
  refine and_congr_right fun _ => ?_
  cases r.direct <;> simp

/-- A candidate with more mask bits than every direct one hides them all. -/
theorem lookup_hidden {text : Bytes} {dst : BitVec 32} {q : Row} (hq : q ∈ candidates text dst)
    (hmore : ∀ r ∈ candidates text dst, r.direct = true → maskBits r.mask < maskBits q.mask) :
    routeDirectLookup text dst = none := by
  rw [lookup_eq]
  cases hbest : (candidates text dst).argmax Row.rank with
  | none => rfl
  | some r =>
    cases hd : r.direct with
    | false => rw [Option.bind_some, hd]; rfl
    | true =>
      have hlt : r.rank < q.rank := (rank_lt_iff r q).mpr (.inl (hmore r (List.argmax_mem hbest) hd))
      exact absurd (List.le_of_mem_argmax hq hbest) (not_le.mpr hlt)

theorem candidates_perm {text text' : Bytes} (h : (lines (cstr text')).Perm (lines (cstr text)))
    (dst : BitVec 32) : (candidates text' dst).Perm (candidates text dst) :=
  (h.filterMap _).filter _

open St in
/-- **The lookup is longest-prefix match**, for every text and address. It finds the mask of the best candidate if
that one is direct, and nothing otherwise. The order of the lines only matters where two candidates tie. A
candidate with more mask bits than every direct one makes the address unreachable, and so no recipient of
notifications unless it is a loopback address. -/
theorem direct_route_longest_match (text : Bytes) (dst : BitVec 32) :
    (∀ m, routeDirectLookup text dst = some m ↔ ∃ r, IsBest (candidates text dst) r ∧ r.direct = true ∧ r.mask = m) ∧
    (candidates text dst ≠ [] → ∃! r, IsBest (candidates text dst) r) ∧
    (((candidates text dst).map fun r => (maskBits r.mask, r.metric)).Nodup →
      ∀ text', (lines (cstr text')).Perm (lines (cstr text)) →
        routeDirectLookup text' dst = routeDirectLookup text dst) ∧ ∀ q ∈ candidates text dst,
      (∀ r ∈ candidates text dst, r.direct = true → maskBits r.mask < maskBits q.mask) →
      routeDirectLookup text dst = none ∧
        ∀ env : Env, env.directRoute = routeDirectLookup text dst → dst >>> 24 ≠ 127 →
          indicationRecipientReachable env dst = false := by
  refine ⟨lookup_eq_some_iff text dst, fun hne => ?_, fun hties text' hperm => ?_, fun q hq hmore => ?_⟩
  · cases hbest : (candidates text dst).argmax Row.rank with
    | none => exact absurd (List.argmax_eq_none.mp hbest) hne
    | some r =>
      refine ⟨r, (isBest_iff _ _).mpr hbest, fun q hq => ?_⟩
      have hq' := (isBest_iff _ q).mp hq
      rw [hbest] at hq'
      exact (Option.some.inj hq').symm
  · have hnodup : ((candidates text dst).map Row.rank).Nodup := by
      rw [← rank_eq, ← List.map_map]
      exact hties.map rankKey_injective
    rw [lookup_eq, lookup_eq, List.argmax_perm (candidates_perm hperm dst) hnodup]
  · have hnone := lookup_hidden hq hmore
    refine ⟨hnone, fun env henv hloop => ?_⟩
    rw [indicationRecipientReachable, if_neg hloop, henv, hnone]

end Opcd.Route
