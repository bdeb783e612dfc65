import Opcd.Handler.Session
import Opcd.Lib.Attributes

/-!
# Radio configurations

The checks SetRadioConfig makes on a request, the comparison of two configurations, the raw image
`radio.conf` holds and how it is restored, and the deferred return to the last good configuration.
-/

namespace Opcd

open Bytes Protocol

abbrev stationSingle : BitVec 16 := 1
abbrev stationDual : BitVec 16 := 2

/-- `valid_wlan_mode`. -/
def validWlanMode (m : Byte) : Bool := m ∈ [4, 5, 6, 7, 9, 11]

/-- `valid_wlan_bw`. -/
def validWlanBw (b : Byte) : Bool := b ∈ [0, 1, 2, 3, 4, 12]

/-- `valid_scan_band`. -/
def validScanBand (band : BitVec 16) : Bool := band = scanBandUnset ∨ scanBandSupported band

/-- `prio_ch_verdict_t`. -/
inductive PrioVerdict
  | ok | badBand | badCh
  deriving DecidableEq, Repr

/-- `check_priority_ch`. -/
def checkPriorityCh (prio : BitVec 16) : PrioVerdict :=
  let band := prio >>> 8
  let c := (prio &&& 0xFF).toNat
  if ¬ scanBandSupported band then .badBand
  else if c = 0xFF then .ok
  else if (scanBitForChannel band c).isSome then .ok
  else .badCh

/-- `wlan_cfg_differs`. -/
def wlanCfgDiffers (a b : WlanCfg) : Bool :=
  a.mode ≠ b.mode ∨ a.bandwidth ≠ b.bandwidth ∨ a.scanBand ≠ b.scanBand ∨
    a.scanChlist ≠ b.scanChlist

/-- `radio_cfg_differs`: the second link and the priority channel count only for two stations. -/
def radioCfgDiffers (a b : RadioConfig) : Bool :=
  if a.stationType ≠ b.stationType ∨ wlanCfgDiffers a.wlan1 b.wlan1 then true
  else decide (a.stationType = stationDual) &&
    (decide (a.priorityCh ≠ b.priorityCh) || wlanCfgDiffers a.wlan2 b.wlan2)

/-- The checks one link of a baseline has to pass. -/
def wlanCovers (w : WlanCfg) : Bool :=
  validWlanMode w.mode ∧ validWlanBw w.bandwidth ∧ validScanBand w.scanBand ∧
    scanListValid w.scanBand w.scanChlist

/-- `radio_baseline_covers`: going back to the published configuration undoes an apply of `next`. -/
def radioBaselineCovers (r : RadioState) (next : RadioConfig) : Bool :=
  r.appliedKnown ∧ (r.radio.stationType = stationSingle ∨ r.radio.stationType = stationDual) ∧
    wlanCovers r.radio.wlan1 ∧
    (next.stationType = stationDual →
      r.radio.stationType = stationDual ∧ wlanCovers r.radio.wlan2 ∧
        checkPriorityCh r.radio.priorityCh = .ok)

/-- `radio_arm_revert`. -/
def RadioState.armRevert (r : RadioState) (baseline : RadioConfig)
    (baselineCommitted baselineValid : Bool) : RadioState :=
  if ¬ baselineValid then
    { r with appliedKnown := false, committed := false, recovery := .unknownBaseline }
  else
    { r with
      revertCfg := baseline, revertCommitted := baselineCommitted, revertPending := true }

/-- What `opcd_radio_revert_drain` makes of the result of its apply. -/
def RadioState.reverted (r : RadioState) : ApplyResult → RadioState
  | .ok =>
    { r with
      radio := r.revertCfg, committed := r.revertCommitted, appliedKnown := true
      recovery := .healthy, revertPending := false }
  | .failed _ =>
    { r with
      appliedKnown := false, committed := false, recovery := .restoreFailed
      revertPending := false }

/-- `opcd_radio_revert_drain`. -/
def St.radioRevertDrain (st : St) (apply : ApplyResult) : Turn Unit :=
  if ¬ st.rad.revertPending then st.done ()
  else ⟨{ st with rad := st.rad.reverted apply }, [.applyRadio st.rad.revertCfg apply], ()⟩

/-! ## The image in `radio.conf` -/

def rawWlan (w : WlanCfg) : Bytes :=
  [w.mode, w.bandwidth] ++ le16Write w.scanBand ++ packChlist w.scanChlist

/-- The 28 bytes of an `opc_set_radio_config_req_t`, which has no padding. -/
def rawRadio (c : RadioConfig) : Bytes :=
  le16Write c.stationType ++ le16Write c.priorityCh ++ rawWlan c.wlan1 ++ rawWlan c.wlan2

def unrawWlan (b : Bytes) (i : Nat) : WlanCfg :=
  { mode := b.byteAt i
    bandwidth := b.byteAt (i + 1)
    scanBand := le16Read b (i + 2)
    scanChlist := unpackChlist b (i + 4) }

def unrawRadio (b : Bytes) : RadioConfig :=
  { stationType := le16Read b 0
    priorityCh := le16Read b 2
    wlan1 := unrawWlan b 4
    wlan2 := unrawWlan b 16 }

/-- `row_set_bit`. -/
def rowSetBit (l : BitVec 64) (row : Row) (bit : Fin 32) : BitVec 64 :=
  l ||| (1 : BitVec 64) <<< (match row with | .a => 32 + bit.val | .b => bit.val)

/-- `opc_scan_list_set_channel`. -/
def scanListSetChannel (l : BitVec 64) (band : BitVec 16) (c : Nat) : BitVec 64 :=
  match scanBitForChannel band c with
  | none => l
  | some (row, bit) => rowSetBit l row bit

/-- `legacy_radio_wlan_convert` of the 6 bytes at an offset. -/
def legacyWlanConvert (b : Bytes) (i : Nat) : WlanCfg :=
  let freq := (le16Read b i).toNat
  let band :=
    if 2400 ≤ freq ∧ freq ≤ 2484 then scanBand24
    else if 4900 ≤ freq ∧ freq ≤ 5925 then scanBand5
    else scanBandUnset
  let c := (le16Read b (i + 2) &&& 0xFF).toNat
  { mode := b.byteAt (i + 4)
    bandwidth := b.byteAt (i + 5)
    scanBand := band
    scanChlist := if band ≠ scanBandUnset ∧ c ≠ 0 then scanListSetChannel 0 band c else 0 }

def legacyRadioConvert (b : Bytes) : RadioConfig :=
  { stationType := le16Read b 0
    priorityCh := le16Read b 2
    wlan1 := legacyWlanConvert b 4
    wlan2 := legacyWlanConvert b 10 }

/-- The size of the current image and of the one before Rev1.01. -/
def radioConfLen : Nat := 28

def radioConfLegacyLen : Nat := 16

theorem length_rawRadio (c : RadioConfig) : (rawRadio c).length = radioConfLen := by
  simp [rawRadio, rawWlan, le16Write, packChlist, radioConfLen, be16Write, be32Write]

/-- `opcd_radio_conf_decode`: the configuration, and whether the image was a legacy one. -/
def radioConfDecode (b : Bytes) : Option (RadioConfig × Bool) :=
  if b.length = radioConfLen then some (unrawRadio b, false)
  else if b.length = radioConfLegacyLen then some (legacyRadioConvert b, true)
  else none

/-- One link with its list moved to row A, and whether it was. -/
def normalizeWlan (w : WlanCfg) : Bool × WlanCfg :=
  let r := scanListNormalizeRows w.scanBand w.scanChlist
  (r.1, { w with scanChlist := r.2 })

/-- `opcd_radio_conf_migrate_lists`: the configuration with its lists in row A, whether one was
moved, and whether they are valid now. -/
def radioConfMigrateLists (c : RadioConfig) : RadioConfig × Bool × Bool :=
  let dual := decide (c.stationType = stationDual)
  let m1 := normalizeWlan c.wlan1
  let m2 := if dual then normalizeWlan c.wlan2 else (false, c.wlan2)
  let c' := { c with wlan1 := m1.2, wlan2 := m2.2 }
  (c', m1.1 || m2.1,
    scanListValid c'.wlan1.scanBand c'.wlan1.scanChlist &&
      (!dual || scanListValid c'.wlan2.scanBand c'.wlan2.scanChlist))

/-- `opcd_radio_restore_t`, with the configuration where there is one. -/
inductive Restore
  | discardSize
  | discardInvalid
  | legacy (c : RadioConfig)
  | migrated (c : RadioConfig)
  | committed (c : RadioConfig)
  deriving DecidableEq, Repr

/-- `opcd_radio_conf_restore` of the bytes read, `[]` for none. -/
def radioConfRestore (b : Bytes) : Restore :=
  if b = [] then .discardSize
  else
    match radioConfDecode b with
    | none => .discardSize
    | some (c, isLegacy) =>
      let m := radioConfMigrateLists c
      if ¬ m.2.2 then .discardInvalid
      else if isLegacy then .legacy m.1
      else if m.2.1 then .migrated m.1
      else .committed m.1

end Opcd
