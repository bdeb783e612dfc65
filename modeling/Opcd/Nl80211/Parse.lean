import Opcd.Lib.Attributes

/-!
# Netlink events

`nl80211_parse.c` and the message walk of `nxp_drain_events`. A message is a place and a length in the buffer
it was received into. Every read is checked against the buffer, and `none` is a read outside of it; a `memcpy`
reads all its bytes, and the comparisons of a management frame read the header up to the BSSID at once.

Offsets are numbers that do not wrap, as no buffer is near the end of the address space; so the guards against an
advance of no bytes are left out.
-/

namespace Opcd.Nl80211

open Bytes Attributes

/-! ## Events -/

/-- `opcd_nl_kind_t`. -/
inductive Kind
  | ignore | connect | disconnect | roam | chSwitch | interface | deauth | disassoc
  deriving DecidableEq, Repr

/-- `cmd_to_kind`. -/
def cmdToKind (cmd : Byte) : Kind :=
  if cmd = 46 then .connect
  else if cmd = 47 then .roam
  else if cmd = 48 then .disconnect
  else if cmd = 39 then .deauth
  else if cmd = 40 then .disassoc
  else if cmd = 88 then .chSwitch
  else if cmd = 7 then .interface
  else .ignore

/-- `freq_to_channel`. -/
def freqToChannel (freq : BitVec 32) : BitVec 16 :=
  if 2412 ≤ freq ∧ freq ≤ 2472 then ((freq - 2407) / 5).setWidth 16
  else if freq = 2484 then 14
  else if 5000 ≤ freq ∧ freq ≤ 5895 then ((freq - 5000) / 5).setWidth 16
  else if 5955 ≤ freq ∧ freq ≤ 7115 then ((freq - 5950) / 5).setWidth 16
  else 0

/-- `opcd_nl_evt_t`; `ifindex` as the bits of the `int`. -/
structure Evt where
  kind : Kind
  ifindex : BitVec 32
  freqMhz : BitVec 32
  channel : BitVec 16
  mac : Buf 6
  macPresent : Bool
  apFrameMac : Buf 6
  reasonCode : BitVec 16
  statusCode : BitVec 16
  byAp : Bool
  ssid : Buf 33
  ssidPresent : Bool
  deriving DecidableEq

def Evt.zero : Evt :=
  ⟨.ignore, 0, 0, 0, Buf.zero 6, false, Buf.zero 6, 0, 0, false, Buf.zero 33, false⟩

/-- `memcpy(out->ssid, pl, pl_len)` and the terminating NUL: what is behind it stays. -/
def setSsid (old : Buf 33) (s : Bytes) : Buf 33 :=
  Vector.ofFn fun i => if i.val < s.length then s.byteAt i else if i.val = s.length then 0 else old[i]

/-- The header of a management frame says that an AP sent a deauthentication or a disassociation: the subtype
of the event, not from or to a distribution system, and a unicast sender that is the BSSID. -/
def sentByAp (kind : Kind) (h : Bytes) : Bool :=
  let sender := (h.drop 10).take 6
  h.byteAt 0 = (if kind = .deauth then 0xc0 else 0xa0) ∧ h.byteAt 1 &&& 3 = 0 ∧
    h.byteAt 10 &&& 1 = 0 ∧ sender ≠ List.replicate 6 0 ∧ sender = (h.drop 16).take 6

/-- The attributes of an event that are read. -/
inductive Field
  | ifindex | wiphyFreq | statusCode | reasonCode | mac | frame | disconnectedByAp | ssid
  deriving DecidableEq, Repr

/-- `NL80211_ATTR_*`. -/
def Field.code : Field → BitVec 16
  | .ifindex => 3
  | .wiphyFreq => 38
  | .statusCode => 72
  | .reasonCode => 54
  | .mac => 6
  | .frame => 51
  | .disconnectedByAp => 71
  | .ssid => 52

/-- The `switch (nla_type)`. -/
def Field.ofType (type : BitVec 16) : Option Field :=
  [.ifindex, .wiphyFreq, .statusCode, .reasonCode, .mac, .frame, .disconnectedByAp, .ssid].find?
    (Field.code · = type)

/-- One attribute of an event, of `n` bytes at `pl`. -/
def Evt.attr (b : Bytes) (kind : Kind) (e : Evt) (type : BitVec 16) (pl n : Nat) : Option Evt :=
  match Field.ofType type with
  | some .ifindex =>
    if n ≥ 4 then (b.le32? pl).map fun v => { e with ifindex := v } else some e
  | some .wiphyFreq =>
    if n ≥ 4 then (b.le32? pl).map fun v => { e with freqMhz := v, channel := freqToChannel v }
    else some e
  | some .statusCode =>
    if n ≥ 2 then (b.le16? pl).map fun v => { e with statusCode := v } else some e
  | some .reasonCode =>
    if n ≥ 2 then (b.le16? pl).map fun v => { e with reasonCode := v } else some e
  | some .mac =>
    if n ≥ 6 then
      (b.slice? pl 6).map fun s => { e with mac := Buf.ofBytes 6 s, macPresent := true }
    else some e
  | some .frame =>
    if (kind = .deauth ∨ kind = .disassoc) ∧ n ≥ 26 then
      (b.slice? pl 22).map fun h =>
        if sentByAp kind h then { e with apFrameMac := Buf.ofBytes 6 ((h.drop 10).take 6) } else e
    else some e
  | some .disconnectedByAp => some { e with byAp := true }
  | some .ssid =>
    if n > 0 ∧ n ≤ 32 then
      (b.slice? pl n).map fun s => { e with ssid := setSsid e.ssid s, ssidPresent := true }
    else some e
  | none => some e

/-- `nl80211_parse_evt`: whether it returns 0, and `*out`. -/
def parseEvt (b : Bytes) (base len : Nat) (family : Int) : Option (Bool × Evt) :=
  if len < 20 then some (false, .zero)
  else if family < 0 ∨ family > 0xffff then some (false, .zero)
  else
    match b.le16? (base + 4) with
    | none => none
    | some type =>
      if (type.toNat : Int) ≠ family then some (false, .zero)
      else
        match b.slice? (base + 16) 1 with
        | none => none
        | some cmd =>
          let kind := cmdToKind (cmd.byteAt 0)
          if kind = .ignore then some (false, .zero)
          else
            (walk b base len (fun e type pl n => (e.attr b kind type pl n).map (·, false)) 20
              { Evt.zero with kind }).map (true, ·)

/-! ## The family -/

/-- What `ctrl_grp_is_mlme` keeps. -/
structure Group where
  haveId : Bool
  isMlme : Bool
  grpId : BitVec 16

/-- One attribute of a multicast group. -/
def Group.attr (b : Bytes) (g : Group) (type : BitVec 16) (pl n : Nat) : Option Group :=
  if type = 1 then
    if n ≥ 5 then
      (b.slice? pl 5).map fun s => if s = ofString "mlme" ++ [0] then { g with isMlme := true } else g
    else some g
  else if type = 2 then
    if n ≥ 4 then (b.le32? pl).map fun v => { g with grpId := v.setWidth 16, haveId := true }
    else some g
  else some g

/-- `ctrl_grp_is_mlme`: the id of the group, if it is the one. -/
def ctrlGrpIsMlme (b : Bytes) (base len : Nat) : Option (Option (BitVec 16)) :=
  (walk b base len (fun (g : Group) type pl n => (g.attr b type pl n).map (·, false)) 0 ⟨false, false, 0⟩).map
    fun g => if g.isMlme ∧ g.haveId then some g.grpId else none

/-- What `nl80211_parse_ctrl_family` keeps. -/
structure Family where
  famId : Option (BitVec 16)
  grpId : Option (BitVec 16)

/-- One attribute of the family. The groups are an array of nested streams, searched until the group is
found; the type of an element is its index. -/
def Family.attr (b : Bytes) (f : Family) (type : BitVec 16) (pl n : Nat) : Option Family :=
  if type = 1 then
    if n ≥ 2 then (b.le16? pl).map fun v => { f with famId := some v } else some f
  else if type = 7 then
    if f.grpId = none then
      walk b pl n (fun f _ epl m => (ctrlGrpIsMlme b epl m).map fun
        | some id => ({ f with grpId := some id }, true)
        | none => (f, false)) 0 f
    else some f
  else some f

/-- `nl80211_parse_ctrl_family`: the ids of the family and of the group. -/
def parseCtrlFamily (b : Bytes) (base len : Nat) : Option (Option (BitVec 16 × BitVec 16)) :=
  if len < 20 then some none
  else
    (walk b base len (fun (f : Family) type pl n => (f.attr b type pl n).map (·, false)) 20
      ⟨none, none⟩).map fun f =>
        match f.famId, f.grpId with
        | some fam, some grp => some (fam, grp)
        | _, _ => none

/-! ## The messages of a datagram -/

/-- The walk of `nxp_drain_events` over a datagram of `n` bytes, from offset `off` on: the events that are
recognised, in order. -/
def drainMessages (b : Bytes) (n : Nat) (family : Int) (off : Nat) : Option (List Evt) :=
  if _hoff : off + 16 ≤ n then
    match b.le32? off with
    | none => none
    | some msglen =>
      if _hm : msglen.toNat < 16 then some []
      else if msglen.toNat > n - off then some []
      else
        match parseEvt b off msglen.toNat family with
        | none => none
        | some (ok, e) =>
          (drainMessages b n family (off + align4 msglen.toNat)).map
            fun es => if ok then e :: es else es
  else some []
termination_by n - off
decreasing_by
  have hle := le_align4 msglen.toNat
  omega

end Opcd.Nl80211
