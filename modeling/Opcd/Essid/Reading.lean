import Opcd.Essid.Chain

/-!
# The two readings of an `ssid=` token

`opc_wpa_conf_ssid` decodes the token of a conf into a buffer, for `GetDeviceInfo`; `token_is_ssid` compares a
token with the hex digits of an SSID, for the marker. Both read a quoted token literally and any other as hex,
each with its own loop. They define one relation between tokens and SSIDs (`readToken_eq_iff`): a token reads
as `s` if and only if it denotes the hex digits of `s`.

The decoder stops at a NUL byte in the hex and at a token that does not fit; an SSID has neither.
-/

namespace Opcd.Essid

open Bytes

/-- The loop over the hex pairs: the decoded bytes, unless it breaks at a bad digit or a NUL. -/
def decodeHex : Bytes → Option Bytes
  | [] => some []
  | [_] => none
  | h :: l :: rest =>
    match hexval h, hexval l with
    | some hi, some lo =>
      if hi * 16 + lo = 0 then none else (decodeHex rest).map (BitVec.ofNat 8 (hi * 16 + lo) :: ·)
    | _, _ => none

/-- What a buffer of `cap` bytes holds for a token. -/
def readToken (cap : Nat) (tok : Bytes) : Bytes :=
  if 2 ≤ tok.length ∧ tok.head? = some (ch '"') ∧ tok.getLast? = some (ch '"') then
    if tok.length - 2 < cap then (tok.drop 1).dropLast else []
  else if 0 < tok.length ∧ tok.length % 2 = 0 ∧ tok.length / 2 < cap then (decodeHex tok).getD []
  else []

/-- `opc_wpa_conf_ssid`: the string it leaves in a buffer of `cap` bytes, which is empty on an error. The first
assignment counts. -/
def wpaConfSsid (fault : Option Errno) (file : Option Bytes) (cap : Nat) : Except Errno Bytes :=
  if cap = 0 then .error .inval
  else
    match slurp fault file with
    | .error e => .error e
    | .ok conf => .ok (readToken cap ((findSsid conf).2.elim [] Place.token))

example : wpaConfSsid none (some (ofString "network=\x7b\n\tssid=6162 \n\x7d\n")) 33 = .ok (ofString "ab") ∧
    wpaConfSsid none (some (ofString "ssid=\"a b\"\n")) 33 = .ok (ofString "a b") ∧
    wpaConfSsid none (some (ofString "ssid=6100\n")) 33 = .ok [] := by decide

/-! ## The hex readings -/

/-- Of two strings that the same digits denote, both are the same. -/
theorem hexDenotes_unique {t s s' : Bytes} (h : hexDenotes t s = true) (h' : hexDenotes t s' = true) : s = s' := by
  induction s generalizing t s' with
  | nil =>
    obtain rfl := hexDenotes_nil h
    cases s' with
    | nil => rfl
    | cons b s' => cases h'
  | cons b s ih =>
    obtain ⟨x, y, t', hi, lo, rfl, hx, hy, hb, ht⟩ := hexDenotes_cons h
    cases s' with
    | nil => cases hexDenotes_nil h'
    | cons b' s' =>
      obtain ⟨x', y', t'', hi', lo', ht', hx', hy', hb', hs'⟩ := hexDenotes_cons h'
      obtain ⟨rfl, rfl, rfl⟩ : x = x' ∧ y = y' ∧ t' = t'' := by simpa using ht'
      obtain rfl : hi = hi' := Option.some.inj (hx.symm.trans hx')
      obtain rfl : lo = lo' := Option.some.inj (hy.symm.trans hy')
      rw [ih ht hs', BitVec.eq_of_toNat_eq (hb.trans hb'.symm)]

/-- The quoted branch of `token_is_ssid` compares the bytes. -/
theorem hexDenotes_hexOf_iff {s c : Bytes} : hexDenotes (hexOf s) c = true ↔ c = s := by
  constructor
  · intro h
    exact hexDenotes_unique h (hexDenotes_hexOf s)
  · rintro rfl
    exact hexDenotes_hexOf c

/-- The bare branch asks whether the token denotes the SSID. -/
theorem hexAgrees_hexOf_iff {t s : Bytes} : hexAgrees t (hexOf s) = true ↔ hexDenotes t s = true := by
  refine ⟨fun h => ?_, hexAgrees_hexOf⟩
  induction s generalizing t with
  | nil =>
    cases t with
    | nil => rfl
    | cons x t => cases h
  | cons b s ih =>
    obtain ⟨u, v, huv, hu, hv⟩ := hexval_hexByte b
    have hex : hexOf (b :: s) = u :: v :: hexOf s := by
      rw [hexOf, List.flatMap_cons, huv]
      rfl
    rw [hex] at h
    rcases t with - | ⟨x, - | ⟨y, t⟩⟩
    · cases h
    · simp [hexAgrees] at h
    · simp only [hexAgrees, Bool.and_eq_true, decide_eq_true_eq] at h
      obtain ⟨⟨-, hx⟩, ⟨-, hy⟩, ht⟩ := h
      rw [hexDenotes, hx, hy, hu, hv, ih ht]
      simp only [Bool.and_true, decide_eq_true_eq]
      omega

/-- The decoder yields exactly the NUL-free strings that the digits denote. -/
theorem decodeHex_eq_some_iff {t s : Bytes} (hs : 0#8 ∉ s) : decodeHex t = some s ↔ hexDenotes t s = true := by
  induction t using decodeHex.induct generalizing s with
  | case1 => cases s <;> simp [decodeHex, hexDenotes]
  | case2 x => cases s <;> simp [decodeHex, hexDenotes]
  | case3 x y t hi lo hy hx hzero =>
    -- the loop breaks at a pair that denotes NUL
    have hnone : decodeHex (x :: y :: t) = none := by
      rw [decodeHex, hx, hy]
      exact if_pos hzero
    rw [hnone]
    refine ⟨fun h => absurd h (Option.some_ne_none s).symm, fun h => ?_⟩
    cases s with
    | nil => cases hexDenotes_nil h
    | cons b s =>
      obtain ⟨x', y', t', hi', lo', ht, hx', hy', hb, -⟩ := hexDenotes_cons h
      obtain ⟨rfl, rfl, -⟩ : x = x' ∧ y = y' ∧ t = t' := by simpa using ht
      obtain rfl : hi = hi' := Option.some.inj (hx.symm.trans hx')
      obtain rfl : lo = lo' := Option.some.inj (hy.symm.trans hy')
      rw [hzero] at hb
      obtain rfl : b = 0#8 := BitVec.eq_of_toNat_eq hb
      exact absurd List.mem_cons_self hs
  | case4 x y t hi lo hy hx hpos ih =>
    have hdecode : decodeHex (x :: y :: t) = (decodeHex t).map (BitVec.ofNat 8 (hi * 16 + lo) :: ·) := by
      rw [decodeHex, hx, hy]
      exact if_neg hpos
    rw [hdecode]
    cases s with
    | nil => simp [hexDenotes]
    | cons b s =>
      have hhi := hexval_lt hx
      have hlo := hexval_lt hy
      have hbyte : BitVec.ofNat 8 (hi * 16 + lo) = b ↔ b.toNat = hi * 16 + lo := by
        rw [← BitVec.toNat_inj, BitVec.toNat_ofNat, Nat.mod_eq_of_lt (by omega)]
        exact eq_comm
      rw [hexDenotes, hx, hy, Bool.and_eq_true, decide_eq_true_eq, ← hbyte,
        ← ih fun h => hs (List.mem_cons_of_mem b h), Option.map_eq_some_iff]
      simp [and_comm]
  | case5 x y t hbad =>
    have hnone : decodeHex (x :: y :: t) = none := by
      rw [decodeHex]
      split
      next hx hy => exact (hbad _ _ hx hy).elim
      · rfl
    rw [hnone]
    refine ⟨fun h => absurd h (Option.some_ne_none s).symm, fun h => ?_⟩
    cases s with
    | nil => cases hexDenotes_nil h
    | cons b s =>
      obtain ⟨x', y', t', hi', lo', ht, hx', hy', -, -⟩ := hexDenotes_cons h
      obtain ⟨rfl, rfl, -⟩ : x = x' ∧ y = y' ∧ t = t' := by simpa using ht
      exact (hbad _ _ hx' hy').elim

/-- **The readings agree on a token.** -/
theorem readToken_eq_iff {cap : Nat} {s : Bytes} (hne : s ≠ []) (hnul : 0#8 ∉ s) (hcap : s.length < cap)
    (tok : Bytes) : readToken cap tok = s ↔ tokenIsSsid tok (hexOf s) = true := by
  have hlen := length_hexOf s
  have hpos : 0 < s.length := List.length_pos_iff.mpr hne
  have hhex : ¬ ((hexOf s).length = 0 ∨ (hexOf s).length % 2 ≠ 0) := by omega
  unfold readToken tokenIsSsid
  rw [if_neg hhex]
  by_cases hq : 2 ≤ tok.length ∧ tok.head? = some (ch '"') ∧ tok.getLast? = some (ch '"')
  · rw [if_pos hq, if_pos hq, hexDenotes_hexOf_iff]
    split
    · rfl
    next hbig =>
      -- a literal value that does not fit is longer than the SSID
      refine ⟨fun h => absurd h.symm hne, fun h => ?_⟩
      have := congrArg List.length h
      rw [List.length_dropLast, List.length_drop] at this
      omega
  · rw [if_neg hq, if_neg hq, hexAgrees_hexOf_iff, ← decodeHex_eq_some_iff hnul]
    split
    · cases hd : decodeHex tok with
      | none => simpa using hne.symm
      | some c => simp
    next hbig =>
      refine ⟨fun h => absurd h.symm hne, fun h => absurd ?_ hbig⟩
      have := length_of_hexDenotes ((decodeHex_eq_some_iff hnul).mp h)
      omega

/-! ## The marker file -/

/-- A hex string holds neither NUL nor newline. -/
theorem cleanField_of_hexOf {s : Bytes} (h : s.length ≤ 32) : CleanField (hexOf s) := by
  have hden := hexDenotes_hexOf s
  refine ⟨?_, notMem_of_hexDenotes hden rfl, notMem_of_hexDenotes hden rfl⟩
  rw [length_hexOf, tokenMax]
  omega

theorem length_optional_le (key v : Bytes) :
    (terminated (Marker.optional key v)).length ≤ key.length + v.length + 1 := by
  unfold Marker.optional
  split
  · exact Nat.zero_le _
  · simp only [terminated, List.flatMap_singleton, List.length_append, List.length_singleton]
    exact le_rfl

/-- The buffer of `marker_write` is large enough for every clean marker. -/
theorem Marker.Clean.length_text {m : Marker} (h : m.Clean) : m.text.length < 3 * tokenMax + 96 := by
  have hslot : (decimal m.slot.toNat).length ≤ 10 := length_decimal_le_of_lt (by omega)
  have htime := length_decimalInt_le m.time
  have htarget := length_optional_le keyTarget m.targetHex
  have happlied := length_optional_le keyApplied m.applied
  have h1 := h.essid.length_lt
  have h2 := h.applied.length_lt
  have h3 := h.targetHex.length_lt
  have htext : m.text = (keyEssid ++ m.essid ++ [nl]) ++ (keySlot ++ decimal m.slot.toNat ++ [nl]) ++
      (keyTime ++ decimalInt m.time.toInt ++ [nl]) ++ terminated (optional keyTarget m.targetHex) ++
      terminated (optional keyApplied m.applied) := by
    simp [text, body, terminated]
  have hkeys : keyEssid.length = 6 ∧ keySlot.length = 5 ∧ keyTime.length = 5 ∧ keyTarget.length = 7 ∧
      keyApplied.length = 8 := by decide
  rw [htext]
  simp only [List.length_append, List.length_singleton, tokenMax] at *
  omega

/-- **SSID token readings agree.** Of a conf with one assignment, `opc_wpa_conf_ssid` yields an SSID if and only
if its token denotes the hex digits of that SSID; and a marker whose texts are clean is written, and is read
back from what was written. -/
theorem ssid_readings_agree :
    (∀ (conf : Bytes) (pl : Place) (cap : Nat) (s : Bytes), 0#8 ∉ conf → conf.length < fileMaxBytes →
      findSsid conf = (1, some pl) → pl.token.length < tokenMax → 33 ≤ cap → s ≠ [] → 0#8 ∉ s → s.length ≤ 32 →
      (wpaConfSsid none (some conf) cap = .ok s ↔ tokenIsSsid pl.token (hexOf s) = true)) ∧
    ∀ (f : Files) (m : Marker), m.essid ≠ [] → CleanField m.essid → CleanField m.applied →
      (m.targetHex = [] ∨ ∃ s : Bytes, s ≠ [] ∧ 0#8 ∉ s ∧ s.length ≤ 32 ∧ m.targetHex = hexOf s) →
      ∃ bytes, markerWrite .fine f m = ({ f with marker := some bytes }, .ok 0) ∧
        Marker.parse (cstr bytes) = .ok m := by
  constructor
  · intro conf pl cap s hconf hsmall hfind _ hcap hne hnul hlen
    have hslurp : slurp none (some conf) = .ok conf := by
      rw [slurp, if_neg (not_le.mpr hsmall), cstr_eq_self hconf]
    rw [wpaConfSsid, if_neg (by omega), hslurp]
    dsimp only
    rw [hfind, Except.ok.injEq]
    exact readToken_eq_iff hne hnul (by omega) pl.token
  · intro f m hne hessid happlied htarget
    have hhex : CleanField m.targetHex := by
      rcases htarget with h | ⟨s, -, -, hlen, h⟩
      · rw [h]
        exact CleanField.nil
      · rw [h]
        exact cleanField_of_hexOf hlen
    have hclean : m.Clean := ⟨hessid, hne, happlied, hhex⟩
    refine ⟨m.text, ?_, Marker.parse_text hclean⟩
    rw [markerWrite, if_neg (not_le.mpr hclean.length_text)]
    rfl

end Opcd.Essid
