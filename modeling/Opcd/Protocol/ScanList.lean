import Opcd.Protocol.Commands

/-!
# SCAN bands and channel lists

The band tables of `scan_chlist.c` and the channel field of `chan_encode.c`. A channel list is two
32-bit rows, row A first on the wire; bit `b` of a row stands for the channel `scanRowChannel` gives it.
-/

namespace Opcd.Protocol

abbrev scanBand24 : BitVec 16 := 1
abbrev scanBand5 : BitVec 16 := 2
abbrev scanBand6 : BitVec 16 := 6
abbrev scanBandUnset : BitVec 16 := 0xFFFF

inductive Row
  | a
  | b
  deriving DecidableEq, Repr

def scanBandKnown (band : BitVec 16) : Bool :=
  band = scanBand24 ∨ band = scanBand5 ∨ band = scanBand6

def scanBandSupported (band : BitVec 16) : Bool := band = scanBand24 ∨ band = scanBand5

/-- A band field never configured reads as unset. -/
def scanBandOrUnset (band : BitVec 16) : BitVec 16 := if band = 0 then scanBandUnset else band

/-- The channel of a bit of a row, 0 when it has none. -/
def scanRowChannel (band : BitVec 16) (row : Row) (bit : Fin 32) : Nat :=
  if band = scanBand24 then
    if row = .a ∧ bit ≤ 13 then bit + 1 else 0
  else if band = scanBand5 then
    if row ≠ .a then 0
    else if bit ≤ 7 then 36 + 4 * bit
    else if bit ≤ 19 then 100 + 4 * (bit - 8)
    else if bit ≤ 24 then 149 + 4 * (bit - 20)
    else 0
  else if band = scanBand6 then
    if row = .a then 1 + 4 * bit
    else if bit ≤ 26 then 129 + 4 * bit
    else 0
  else 0

/-- The bits of a row that carry a channel, lowest first. -/
def rowBits (band : BitVec 16) (row : Row) : List (Fin 32) :=
  (List.finRange 32).filter fun b => scanRowChannel band row b ≠ 0

/-- `opc_scan_bit_for_channel`. -/
def scanBitForChannel (band : BitVec 16) (c : Nat) : Option (Row × Fin 32) :=
  if c = 0 ∨ ¬ scanBandKnown band then none
  else
    match (List.finRange 32).find? fun b => scanRowChannel band .a b = c with
    | some b => some (.a, b)
    | none => ((List.finRange 32).find? fun b => scanRowChannel band .b b = c).map (Row.b, ·)

/-- `opc_scan_channel_mhz`. -/
def scanChannelMhz (band : BitVec 16) (c : Nat) : Nat :=
  if scanBitForChannel band c = none then 0
  else if band = scanBand24 then if c = 14 then 2484 else 2407 + 5 * c
  else if band = scanBand5 then 5000 + 5 * c
  else if band = scanBand6 then 5950 + 5 * c
  else 0

/-- `opc_scan_row_word`. -/
def scanRowWord (l : BitVec 64) : Row → BitVec 32
  | .a => l.extractLsb' 32 32
  | .b => l.extractLsb' 0 32

/-- `opc_scan_list_empty`. -/
def scanListEmpty (l : BitVec 64) : Bool := l = 0

/-- Every set bit of a row has a channel. -/
def rowValid (band : BitVec 16) (l : BitVec 64) (row : Row) : Bool :=
  (List.finRange 32).all fun b => !((scanRowWord l row).getLsbD b.val) || scanRowChannel band row b ≠ 0

/-- `opc_scan_list_valid`. -/
def scanListValid (band : BitVec 16) (l : BitVec 64) : Bool :=
  if ¬ scanBandKnown band then scanListEmpty l
  else if band = scanBand6 then rowValid band l .a && rowValid band l .b
  else if scanRowWord l .b ≠ 0 then false
  else rowValid band l .a

/-- The channels of a row a list selects; an empty list selects every channel. -/
def rowChannels (band : BitVec 16) (l : BitVec 64) (row : Row) : List Nat :=
  ((rowBits band row).filter fun b => scanListEmpty l || (scanRowWord l row).getLsbD b.val).map
    (scanRowChannel band row)

/-- `opc_scan_list_channels`, with room for all of them. -/
def scanListChannels (band : BitVec 16) (l : BitVec 64) : List Nat :=
  if ¬ scanBandKnown band then []
  else if band = scanBand6 then rowChannels band l .a ++ rowChannels band l .b
  else rowChannels band l .a

/-- `opc_scan_derive_freq_ch`: frequency and channel field of the lowest selected channel. -/
def scanDeriveFreqCh (band : BitVec 16) (l : BitVec 64) : BitVec 16 × BitVec 16 :=
  if ¬ scanBandKnown band ∨ scanListEmpty l then (0, 0)
  else
    match scanListChannels band l with
    | [] => (0, 0)
    | c :: _ =>
      let mhz := scanChannelMhz band c
      if mhz = 0 then (0, 0)
      else (BitVec.ofNat 16 mhz, (band &&& 0xFF) <<< 8 ||| BitVec.ofNat 16 c)

/-- `opc_scan_list_normalize_rows`: a 2.4/5 GHz list found in row B alone is moved to row A. The
flag says whether it was. -/
def scanListNormalizeRows (band : BitVec 16) (l : BitVec 64) : Bool × BitVec 64 :=
  if ¬ scanBandSupported band then (false, l)
  else if scanRowWord l .a ≠ 0 ∨ scanRowWord l .b = 0 then (false, l)
  else (true, scanRowWord l .b ++ (0 : BitVec 32))

/-- `opc_chan_field`: band byte and channel number of a live link. -/
def chanField (freqMhz : Nat) (c : Nat) : BitVec 16 :=
  if c = 0 ∨ c > 0xFF then 0
  else
    let band : Nat :=
      if 2412 ≤ freqMhz ∧ freqMhz ≤ 2484 then 1
      else if 5000 ≤ freqMhz ∧ freqMhz ≤ 5895 then 2
      else if 5955 ≤ freqMhz ∧ freqMhz ≤ 7115 then 6
      else 0
    BitVec.ofNat 16 (band * 256 + c)

end Opcd.Protocol
