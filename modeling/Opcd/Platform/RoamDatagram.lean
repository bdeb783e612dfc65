import Opcd.Lib.Json
import Opcd.Lib.Words
import Opcd.Protocol.ScanList

/-!
# Roam-notify datagrams

`roam_datagram_to_evt` of `roam_datagram.c`: a local sender's JSON text becomes a Roaming event. The
values are taken from the text by `json_util.c`, which looks for the quoted key and does not parse
what stands around it. A pointer into the text is the rest of the text from there on.

* **`roamDatagram_channel_iff`**: the channel field of an event is band-qualified exactly if the
  frequency of the datagram lies in a band of `opc_chan_field`, a narrower range than the one the
  datagram is checked against.
-/

namespace Opcd.Platform

open Bytes Protocol

/-! ## `json_util.c` -/

/-- `find_key_quote`: the text after the first occurrence of the needle that a colon or white space
follows. -/
def findKeyQuote (needle : Bytes) : Bytes → Option Bytes
  | [] => none
  | b :: s =>
    let after := (b :: s).drop needle.length
    if needle.isPrefixOf (b :: s) ∧ (after.head?.any fun a => a = ch ':' ∨ Json.isWs a) then
      some after
    else findKeyQuote needle s

/-- `advance_to_value`. -/
def advanceToValue (s : Bytes) : Option Bytes :=
  match s.dropWhile (· ≠ ch ':') with
  | [] => none
  | _ :: rest => some (rest.dropWhile Json.isWs)

/-- `copy_quoted_value`, into a buffer of `cap` bytes. -/
def copyQuotedValue (s : Bytes) (cap : Nat) : Option Bytes :=
  match s with
  | [] => none
  | b :: rest => if b = ch '"' then some ((rest.takeWhile (· ≠ ch '"')).take (cap - 1)) else none

/-- The value that follows a key; the quoted key has to fit a buffer of 64 bytes. -/
def jsonValue (json key : Bytes) : Option Bytes :=
  let needle := ch '"' :: key ++ [ch '"']
  if 64 ≤ needle.length then none else (findKeyQuote needle json).bind advanceToValue

/-- `opc_json_string`. -/
def jsonString (json key : Bytes) (cap : Nat) : Option Bytes :=
  (jsonValue json key).bind (copyQuotedValue · cap)

/-- `opc_json_integer`. -/
def jsonInteger (json key : Bytes) : Option Int :=
  (jsonValue json key).bind fun v => if startsNumber v then some (strtoll v) else none

/-! ## `roam_parse_bssid` -/

/-- The value of a hexadecimal digit. -/
def hexVal (b : Byte) : Option Nat :=
  if isDigit b then some (digitVal b)
  else if ch 'a' ≤ b ∧ b ≤ ch 'f' then some (b.toNat - (ch 'a').toNat + 10)
  else if ch 'A' ≤ b ∧ b ≤ ch 'F' then some (b.toNat - (ch 'A').toNat + 10)
  else none

/-- `%2x`: at most two characters after white space, of which the first may be a sign. The two
characters `0x` read as 0, as in the C library the daemon is built with. -/
def scanHex2 (s : Bytes) : Option (Nat × Bytes) :=
  match s.dropWhile isSpace with
  | [] => none
  | [b] => (hexVal b).map (·, [])
  | b :: c :: rest =>
    if b = ch '-' then (hexVal c).map fun v => ((2 ^ 32 - v) % 2 ^ 32, rest)
    else if b = ch '+' then (hexVal c).map (·, rest)
    else if b = ch '0' ∧ (c = ch 'x' ∨ c = ch 'X') then some (0, rest)
    else
      match hexVal b, hexVal c with
      | none, _ => none
      | some v, none => some (v, c :: rest)
      | some v, some w => some (16 * v + w, rest)

/-- Hexadecimal octets with colons between them. -/
def scanOctets : Nat → Bytes → Option (List Nat)
  | 0, _ => some []
  | 1, s => (scanHex2 s).map fun r => [r.1]
  | k + 2, s =>
    match scanHex2 s with
    | some (v, b :: rest) => if b = ch ':' then (scanOctets (k + 1) rest).map (v :: ·) else none
    | _ => none

/-- `roam_parse_bssid`; what follows the sixth octet is not looked at. -/
def roamParseBssid (s : Bytes) : Option (Buf 6) :=
  match scanOctets 6 s with
  | none => none
  | some vs =>
    if vs.any (0xFF < ·) then none else some (Buf.ofBytes 6 (vs.map (BitVec.ofNat 8)))

/-! ## The event -/

/-- The payload of a Roaming event. -/
structure Roaming where
  idx : Byte
  snr : BitVec 8
  rssi : BitVec 8
  mac : Buf 6
  channel : BitVec 16
  deriving DecidableEq

/-- `OPC_WLAN_SIGNAL_INVALID` -/
def signalInvalid : Int := -128

/-- The clamp to `int8_t`. -/
def clampInt8 (v : Int) : BitVec 8 := BitVec.ofInt 8 (max (-128) (min 127 v))

/-- The WLAN a datagram is about: the primary one unless it names another. -/
def roamIface (json : Bytes) : Option Byte :=
  match jsonString json (ofString "iface") 16 with
  | none => some 0
  | some iface =>
    if iface = ofString "mlan0" then some 0
    else if iface = ofString "mlan1" then some 1
    else none

/-- A mandatory number of a datagram, within its bounds. -/
def jsonBounded (json key : Bytes) (lo hi : Int) : Option Int :=
  (jsonInteger json key).filter fun v => lo ≤ v ∧ v ≤ hi

def roamChannel (json : Bytes) : Option Int := jsonBounded json (ofString "channel") 1 255

def roamFreq (json : Bytes) : Option Int := jsonBounded json (ofString "freq") 2400 7300

/-- `roam_datagram_to_evt`. -/
def roamDatagramToEvt (json : Bytes) : Option Roaming := do
  let mac ← (jsonString json (ofString "ap_mac") 32).bind roamParseBssid
  let idx ← roamIface json
  let rssi := (jsonInteger json (ofString "rssi")).getD signalInvalid
  let snr := (jsonInteger json (ofString "snr")).getD signalInvalid
  let channel ← roamChannel json
  let freq ← roamFreq json
  some
    { idx, mac
      snr := clampInt8 snr
      rssi := clampInt8 rssi
      channel := chanField freq.toNat channel.toNat }

/-! ## The channel field -/

/-- `OPC_WLAN_CH_UNSET` -/
def chUnset : BitVec 16 := 0xFFFF

/-- `opc_notify_chan_field`. -/
def notifyChanField (freqMhz c : Nat) : BitVec 16 :=
  if chanField freqMhz c >>> 8 ≠ 0 then chanField freqMhz c else chUnset

/-- A channel field that says what it has to: nothing, or a band and the channel. -/
def ValidCh (field : BitVec 16) (c : Nat) : Prop :=
  field = chUnset ∨
    (field >>> 8 = 1 ∨ field >>> 8 = 2 ∨ field >>> 8 = 6) ∧ (field &&& 0xFF).toNat = c

/-- The frequencies `opc_chan_field` knows a band for. -/
def InBand (freq : Nat) : Prop :=
  2412 ≤ freq ∧ freq ≤ 2484 ∨ 5000 ≤ freq ∧ freq ≤ 5895 ∨ 5955 ≤ freq ∧ freq ≤ 7115

instance (field : BitVec 16) (c : Nat) : Decidable (ValidCh field c) :=
  inferInstanceAs (Decidable (_ ∨ _))

instance (freq : Nat) : Decidable (InBand freq) := inferInstanceAs (Decidable (_ ∨ _))

/-- The channel field of a channel number, by the frequency's band. -/
theorem chanField_cases {freq c : Nat} (h0 : c ≠ 0) (hc : c ≤ 0xFF) :
    (∃ band, (band = 1 ∨ band = 2 ∨ band = 6) ∧ InBand freq ∧ chanField freq c = BitVec.ofNat 16 (band * 256 + c)) ∨
    ¬ InBand freq ∧ chanField freq c = BitVec.ofNat 16 c := by
  have hnot : ¬ (c = 0 ∨ c > 0xFF) := by omega
  unfold chanField InBand
  rw [if_neg hnot]
  dsimp only
  split_ifs with h1 h2 h3
  · exact .inl ⟨1, .inl rfl, .inl h1, rfl⟩
  · exact .inl ⟨2, .inr (.inl rfl), .inr (.inl h2), rfl⟩
  · exact .inl ⟨6, .inr (.inr rfl), .inr (.inr h3), rfl⟩
  · exact .inr ⟨by omega, by rw [Nat.zero_mul, Nat.zero_add]⟩

theorem ofNat_shiftRight_band {band c : Nat} (hb : band < 256) (hc : c ≤ 0xFF) :
    (BitVec.ofNat 16 (band * 256 + c) >>> 8).toNat = band := by
  rw [BitVec.toNat_ushiftRight, BitVec.toNat_ofNat, Nat.shiftRight_eq_div_pow]
  omega

theorem ofNat_and_channel {band c : Nat} (hc : c ≤ 0xFF) : (BitVec.ofNat 16 (band * 256 + c) &&& 0xFF).toNat = c := by
  rw [BitVec.toNat_and, BitVec.toNat_ofNat]
  refine (Nat.and_two_pow_sub_one_eq_mod _ 8).trans ?_
  omega

/-- The field `opc_chan_field` gives is valid exactly within the bands. -/
theorem validCh_chanField_iff {freq c : Nat} (h0 : c ≠ 0) (hc : c ≤ 0xFF) :
    ValidCh (chanField freq c) c ↔ InBand freq := by
  rcases @chanField_cases freq c h0 hc with ⟨band, hband, hin, hf⟩ | ⟨hout, hf⟩
  · have hb : band < 256 := by omega
    refine iff_of_true (.inr ⟨?_, ?_⟩) hin
    · rw [hf, ← BitVec.toNat_inj, ← BitVec.toNat_inj, ← BitVec.toNat_inj, ofNat_shiftRight_band hb hc]
      simpa using hband
    · rw [hf, ofNat_and_channel hc]
  · refine iff_of_false ?_ hout
    have hshift := @ofNat_shiftRight_band 0 c (by decide) hc
    rw [Nat.zero_mul, Nat.zero_add] at hshift
    have hne : BitVec.ofNat 16 c ≠ chUnset := by
      intro he
      rw [he] at hshift
      exact absurd hshift (by decide)
    rw [hf]
    rintro (he | ⟨hband, -⟩)
    · exact hne he
    · rcases hband with he | he | he <;> rw [he] at hshift <;> exact absurd hshift (by decide)

/-! ## The datagram -/

/-- What an accepted datagram says about the channel. -/
theorem roamDatagramToEvt_channel {json : Bytes} {evt : Roaming} (h : roamDatagramToEvt json = some evt) :
    ∃ channel freq, roamChannel json = some channel ∧ roamFreq json = some freq ∧
      evt.channel = chanField freq.toNat channel.toNat := by
  simp only [roamDatagramToEvt, Option.bind_eq_bind, Option.bind_eq_some_iff] at h
  obtain ⟨mac, -, idx, -, channel, hc, freq, hf, he⟩ := h
  exact ⟨channel, freq, hc, hf, by rw [← Option.some.inj he]⟩

theorem jsonBounded_eq_some {json key : Bytes} {lo hi v : Int}
    (h : jsonBounded json key lo hi = some v) : jsonInteger json key = some v ∧ lo ≤ v ∧ v ≤ hi := by
  simpa [jsonBounded, Option.filter_eq_some_iff] using h

/-- **The channel field of a roam-notify event** is valid exactly if the datagram's frequency lies in
a band. -/
theorem roamDatagram_channel_iff {json : Bytes} {evt : Roaming} (h : roamDatagramToEvt json = some evt) :
    ∃ channel freq : Nat, jsonInteger json (ofString "channel") = some ↑channel ∧
      jsonInteger json (ofString "freq") = some ↑freq ∧
      (ValidCh evt.channel channel ↔ InBand freq) := by
  obtain ⟨channel, freq, hc, hf, he⟩ := roamDatagramToEvt_channel h
  obtain ⟨hci, hc1, hc2⟩ := jsonBounded_eq_some hc
  obtain ⟨hfi, hf1, -⟩ := jsonBounded_eq_some hf
  refine ⟨channel.toNat, freq.toNat, ?_, ?_, ?_⟩
  · rw [hci, Int.toNat_of_nonneg (by omega)]
  · rw [hfi, Int.toNat_of_nonneg (by omega)]
  · rw [he]
    exact validCh_chanField_iff (by omega) (by omega)

/-- A datagram of a roam on channel 1 at a frequency. -/
def roamText (freq : Nat) : Bytes :=
  ofString "\x7b\"ap_mac\": \"04:ba:d6:ec:0b:08\", \"channel\": 1, \"freq\": " ++ decimal freq ++
    ofString "\x7d"

/-- At 2412 MHz the event carries 2.4 GHz and channel 1. -/
theorem roamDatagram_channel_inBand :
    ∃ evt, roamDatagramToEvt (roamText 2412) = some evt ∧ ValidCh evt.channel 1 := by
  obtain ⟨evt, h⟩ : ∃ evt, roamDatagramToEvt (roamText 2412) = some evt :=
    Option.isSome_iff_exists.mp (by decide)
  obtain ⟨channel, freq, hc, hf, hiff⟩ := roamDatagram_channel_iff h
  obtain rfl : channel = 1 := by
    have h1 : jsonInteger (roamText 2412) (ofString "channel") = some 1 := by decide
    exact Int.ofNat.inj (Option.some.inj (hc.symm.trans h1))
  obtain rfl : freq = 2412 := by
    have h1 : jsonInteger (roamText 2412) (ofString "freq") = some 2412 := by decide
    exact Int.ofNat.inj (Option.some.inj (hf.symm.trans h1))
  exact ⟨evt, h, hiff.mpr (by decide)⟩

/-- 2400 MHz passes the datagram's check and has no band: the event carries a band byte of 0. -/
theorem roamDatagram_channel_bandless :
    ∃ evt, roamDatagramToEvt (roamText 2400) = some evt ∧ evt.channel = 1 ∧ ¬ ValidCh evt.channel 1 :=
  ⟨⟨0, clampInt8 (-128), clampInt8 (-128), Buf.ofBytes 6 [0x04, 0xba, 0xd6, 0xec, 0x0b, 0x08], 1⟩,
    by decide⟩

end Opcd.Platform
