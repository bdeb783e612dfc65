import Opcd.Lib.Decimal
import Opcd.Handler.Validate

/-!
# The IP list and its text

The list of 128 configuration slots (`opcd_ip_list_t`) and the text file it is kept in
(`iplist_text.c`): five lines for each present slot, one key a line. Reading is line by line; a line
that is not understood is noted and, when its list number is known, marks that list as bad.

* `textFormat`: the text of a list in a buffer of a given size.
* `textParse`: what a text says, line by line.
* `fromText`: the list a text describes (`iplist_from_text`).
-/

namespace Opcd

open Bytes Protocol

/-- `OPC_IPCFG_LIST_MAX_SLOTS`. -/
abbrev maxSlots : Nat := 128

/-- The index of a slot: its list number less one. -/
abbrev SlotIdx := Fin maxSlots

/-- `opcd_ip_list_t`. -/
@[ext]
structure IpList where
  slots : SlotIdx → Entry
  present : SlotIdx → Bool
  deriving DecidableEq

namespace IpList

/-- The zeroed list. -/
def empty : IpList := ⟨fun _ => Entry.zero, fun _ => false⟩

/-- `OPC_IPLIST_TEXT_MAX`. -/
def textMax : Nat := 24576

/-- The five keys of a list, in the order of the key table. -/
inductive Key
  | ip | mask | gw | essid | ntp
  deriving DecidableEq, Repr

def Key.all : List Key := [.ip, .mask, .gw, .essid, .ntp]

def Key.name : Key → Bytes
  | ip => ofString "IPAddress"
  | mask => ofString "IPSubnetMask"
  | gw => ofString "IPDefaultGateway"
  | essid => ofString "WL54EssId"
  | ntp => ofString "NTPServer"

/-! ## Writing -/

/-- `ipv4_str`. -/
def ipv4Str (a : BitVec 32) : Bytes :=
  decimal (a >>> 24).toNat ++ ch '.' :: decimal ((a >>> 16) &&& 0xFF).toNat ++
    ch '.' :: decimal ((a >>> 8) &&& 0xFF).toNat ++ ch '.' :: decimal (a &&& 0xFF).toNat

/-- `put`: a key, a list number and a value into a buffer of `cap` bytes holding `buf` already. -/
def put (cap : Nat) (key : Bytes) (n : Nat) (value : Bytes) (buf : Bytes) : Option Bytes :=
  let w := key ++ decimal n ++ [ch '=']
  if cap - buf.length ≤ w.length then none
  else if cap - (buf ++ w).length ≤ value.length then none
  else some (buf ++ w ++ value)

/-- The value printed after a key, its newline included. -/
def valueText (e : Entry) : Key → Bytes
  | .ip => ipv4Str e.ipAddress ++ [nl]
  | .mask => ipv4Str e.subnetMask ++ [nl]
  | .gw => ipv4Str e.defaultGateway ++ [nl]
  | .essid => ch '"' :: cstr (e.essid.toList.take 31) ++ [ch '"', nl]
  | .ntp => ipv4Str e.ntpServer ++ [nl]

/-- The five lines of one slot. -/
def putSlot (cap : Nat) (l : IpList) (buf : Bytes) (i : SlotIdx) : Option Bytes :=
  if ¬ l.present i then some buf
  else Key.all.foldlM (fun buf k => put cap k.name (i + 1) (valueText (l.slots i) k) buf) buf

/-- `opc_iplist_text_format`: the text, or nothing when it does not fit in `cap` bytes with its
terminating NUL. -/
def textFormat (l : IpList) (cap : Nat) : Option Bytes :=
  if cap = 0 then none else (List.finRange maxSlots).foldlM (putSlot cap l) []

/-! ## Reading -/

/-- Why a line was not taken. -/
inductive LineError
  | nulByte
  | unknownKey
  | listNumber
  | repeatedKey
  | essidValue
  | ipv4Value
  deriving DecidableEq, Repr

/-- `opc_iplist_text_t`. The first error keeps its 1-based line number. -/
@[ext]
structure Text where
  entry : SlotIdx → Entry
  keys : SlotIdx → Key → Bool
  bad : SlotIdx → Bool
  firstError : Option (Nat × LineError)
  finalNewline : Bool

/-- One octet at the start of `s` and what follows it: up to three digits, at most 255, no leading
zero, and no fourth digit. -/
def octet (s : Bytes) : Option (BitVec 32 × Bytes) :=
  let d := (s.take 3).takeWhile isDigit
  let v := readDecimal d
  let rest := s.drop d.length
  if d.length = 0 ∨ 255 < v ∨ (1 < d.length ∧ s.head? = some (ch '0')) then none
  else if rest.head?.any isDigit then none
  else some (BitVec.ofNat 32 v, rest)

/-- What follows a dot. -/
def afterDot : Bytes → Option Bytes
  | [] => none
  | b :: s => if b = ch '.' then some s else none

/-- `parse_ipv4`. -/
def parseIpv4 (s : Bytes) : Option (BitVec 32) := do
  let (a, s) ← octet s
  let (b, s) ← octet (← afterDot s)
  let (c, s) ← octet (← afterDot s)
  let (d, s) ← octet (← afterDot s)
  if s ≠ [] then none else some (((a <<< 8 ||| b) <<< 8 ||| c) <<< 8 ||| d)

/-- The value between the quotes of an ESSID line. -/
def parseEssid (p : Bytes) : Option (Buf 32) :=
  let v := (p.drop 1).dropLast
  if 2 ≤ p.length ∧ p.head? = some (ch '"') ∧ p.getLast? = some (ch '"') ∧ v.length < 32 ∧
      ch '"' ∉ v then some (Buf.ofBytes 32 v)
  else none

/-- The key a line starts with: its name, then a digit. -/
def lineKey (s : Bytes) : Option Key :=
  Key.all.find? fun k => k.name.isPrefixOf s && (s.drop k.name.length).head?.any isDigit

/-- The value of a key into an entry. -/
def setValue (e : Entry) (k : Key) (p : Bytes) : Option Entry :=
  match k with
  | .ip => (parseIpv4 p).map fun v => { e with ipAddress := v }
  | .mask => (parseIpv4 p).map fun v => { e with subnetMask := v }
  | .gw => (parseIpv4 p).map fun v => { e with defaultGateway := v }
  | .essid => (parseEssid p).map fun v => { e with essid := v }
  | .ntp => (parseIpv4 p).map fun v => { e with ntpServer := v }

namespace Text

/-- The zeroed result. -/
def init (final : Bool) : Text :=
  ⟨fun _ => Entry.zero, fun _ _ => false, fun _ => false, none, final⟩

/-- `note`: only the first error is kept. -/
def note (t : Text) (line : Nat) (why : LineError) : Text :=
  if t.firstError.isSome then t else { t with firstError := some (line, why) }

/-- A malformed or repeated line of list `i`. -/
def spoil (t : Text) (i : SlotIdx) (line : Nat) (why : LineError) : Text :=
  { t with bad := Function.update t.bad i true }.note line why

/-- `parse_line` of a non-blank line. -/
def parseLine (t : Text) (line : Nat) (s : Bytes) : Text :=
  if 0#8 ∈ s then t.note line .nulByte
  else
    match lineKey s with
    | none => t.note line .unknownKey
    | some k =>
      let p := s.drop k.name.length
      let d := (p.take 4).takeWhile isDigit
      let n := readDecimal d
      let rest := p.drop d.length
      if h : rest.head? = some (ch '=') ∧ p.head? ≠ some (ch '0') ∧ 1 ≤ n ∧ n ≤ maxSlots then
        let i : SlotIdx := ⟨n - 1, by omega⟩
        if t.keys i k then t.spoil i line .repeatedKey
        else
          match setValue (t.entry i) k (rest.drop 1) with
          | none => t.spoil i line (if k = .essid then .essidValue else .ipv4Value)
          | some e =>
            { t with
              entry := Function.update t.entry i { e with listNumber := BitVec.ofNat 16 n }
              keys := Function.update t.keys i (Function.update (t.keys i) k true) }
      else t.note line .listNumber

/-- One line of the text: a CR before its end is dropped, a blank line skipped. -/
def addLine (t : Text) (line : Nat) (s : Bytes) : Text :=
  let s := if s.getLast? = some (ch '\r') then s.dropLast else s
  if s = [] then t else t.parseLine line s

/-- The lines from number `line` on. -/
def addLines (t : Text) : Nat → List Bytes → Text
  | _, [] => t
  | line, s :: ss => addLines (t.addLine line s) (line + 1) ss

end Text

/-- `opc_iplist_text_parse`. -/
def textParse (buf : Bytes) : Text :=
  (Text.init (buf = [] ∨ buf.getLast? = some nl)).addLines 1 (lines buf)

/-- What `iplist_from_text` makes of list number `i + 1` of a text: nothing named, a reason to
refuse it, an unset list, or an entry. -/
inductive Reading
  | unnamed
  | refused
  | unset
  | entry (e : Entry)

def slotOf (t : Text) (i : SlotIdx) : Reading :=
  if Key.all.all (fun k => !t.keys i k) && !t.bad i then .unnamed
  else if t.bad i then .refused
  else if ¬ Key.all.all (fun k => t.keys i k) then .refused
  else if (t.entry i).ipAddress = 0 then .unset
  else if ipcfgEntryError (t.entry i) true ≠ 0 then .refused
  else .entry { t.entry i with boundaryFlag := 0, listNumber := BitVec.ofNat 16 (i + 1) }

/-- The UTF-8 byte order mark. -/
def bom : Bytes := [0xEF, 0xBB, 0xBF]

def skipBom (buf : Bytes) : Bytes := if bom.isPrefixOf buf then buf.drop 3 else buf

/-- The slots a text fills. -/
def ofSlots (f : SlotIdx → Reading) : IpList :=
  { slots := fun i => match f i with | .entry e => e | _ => Entry.zero
    present := fun i => match f i with | .entry _ => true | _ => false }

/-- `iplist_from_text`. Strictly, any malformed line or refused list rejects the text; leniently
they are dropped. -/
def fromText (buf : Bytes) (strict : Bool) : Option IpList :=
  let t := textParse (skipBom buf)
  if strict ∧ (t.firstError.isSome ∨
      (List.finRange maxSlots).any fun i => slotOf t i matches .refused) then none
  else some (ofSlots (slotOf t))

end IpList

end Opcd
