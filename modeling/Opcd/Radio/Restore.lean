import Opcd.Protocol.Codec
import Opcd.Radio.Channels

/-!
# Restoring `radio.conf`

What `opcd_radio_conf_restore` makes of any bytes. The image of the current layout is read field by field
(`unrawRadio`), one of the layout before it is converted, and lists found in the wrong row are moved.

* `rawRadio_unrawRadio`, `unrawRadio_rawRadio`: the image and the configuration are the same thing.
* `normalizeRows_cases`: when a list is moved, and what becomes of it.
* `migrate_migrated`: lists that were moved stay where they are.
* `radio_conf_restore`: the answers, and what each of them says.
-/

namespace Opcd

open Bytes Protocol

/-! ## The image -/

theorem extract_low {n k : Nat} (x : BitVec n) (y : BitVec k) : (x ++ y).extractLsb' 0 k = y := by
  refine BitVec.eq_of_getLsbD_eq fun i hi => ?_
  rw [BitVec.getLsbD_extractLsb', BitVec.getLsbD_append]
  simp [hi]

theorem extract_high {n k : Nat} (x : BitVec n) (y : BitVec k) : (x ++ y).extractLsb' k n = x := by
  refine BitVec.eq_of_getLsbD_eq fun i hi => ?_
  rw [BitVec.getLsbD_extractLsb', BitVec.getLsbD_append]
  simp [hi]

/-- The bytes of two bytes put together. -/
theorem be16Write_append (x y : Byte) : be16Write (x ++ y) = [x, y] := by
  have hhigh : (x ++ y : BitVec 16).extractLsb' 8 8 = x := extract_high x y
  have hlow : (x ++ y : BitVec 16).extractLsb' 0 8 = y := extract_low x y
  rw [be16Write, hhigh, hlow]

variable (b : Bytes)

theorem le16Write_le16Read (i : Nat) : le16Write (le16Read b i) = [b.byteAt i, b.byteAt (i + 1)] := by
  have hlow : (le16Read b i).extractLsb' 0 8 = b.byteAt i := extract_low _ _
  have hhigh : (le16Read b i).extractLsb' 8 8 = b.byteAt (i + 1) := extract_high _ _
  rw [le16Write, hlow, hhigh]

theorem be32Write_be32Read (i : Nat) :
    be32Write (be32Read b i) = [b.byteAt i, b.byteAt (i + 1), b.byteAt (i + 2), b.byteAt (i + 3)] := by
  have hlow : (be32Read b i).extractLsb' 0 16 = be16Read b (i + 2) := extract_low _ _
  have hhigh : (be32Read b i).extractLsb' 16 16 = be16Read b i := extract_high _ _
  rw [be32Write, hlow, hhigh, be16Read, be16Read, be16Write_append, be16Write_append]
  rfl

theorem packChlist_unpackChlist (i : Nat) :
    packChlist (unpackChlist b i) = (List.range 8).map fun k => b.byteAt (i + k) := by
  have hlow : (unpackChlist b i).extractLsb' 0 32 = be32Read b (i + 4) := extract_low _ _
  have hhigh : (unpackChlist b i).extractLsb' 32 32 = be32Read b i := extract_high _ _
  rw [packChlist, hlow, hhigh, be32Write_be32Read, be32Write_be32Read]
  rfl

theorem rawWlan_unrawWlan (i : Nat) : rawWlan (unrawWlan b i) = (List.range 12).map fun k => b.byteAt (i + k) := by
  simp only [rawWlan, unrawWlan, le16Write_le16Read, packChlist_unpackChlist]
  rfl

/-- **The image of a configuration that was read is what was read.** -/
theorem rawRadio_unrawRadio {b : Bytes} (h : b.length = radioConfLen) : rawRadio (unrawRadio b) = b := by
  have hbytes : rawRadio (unrawRadio b) = (List.range 28).map fun k => b.byteAt k := by
    simp only [rawRadio, unrawRadio, le16Write_le16Read, rawWlan_unrawWlan]
    rfl
  rw [hbytes]
  refine List.ext_getElem (by simpa [radioConfLen] using h.symm) fun i hi hi' => ?_
  simp [byteAt, List.getD_eq_getElem?_getD, hi']

theorem le16Read_past {a b : Bytes} {i : Nat} (h : a.length ≤ i) :
    le16Read (a ++ b) i = le16Read b (i - a.length) := by
  rw [le16Read, le16Read, byteAt_past h, byteAt_past_add h]

theorem length_rawWlan (w : WlanCfg) : (rawWlan w).length = 12 := by simp [rawWlan]

theorem unrawWlan_past {a b : Bytes} {i : Nat} (h : a.length ≤ i) :
    unrawWlan (a ++ b) i = unrawWlan b (i - a.length) := by
  have h₂ : i + 2 - a.length = i - a.length + 2 := by omega
  have h₄ : i + 4 - a.length = i - a.length + 4 := by omega
  simp only [unrawWlan, byteAt_past h, byteAt_past_add h]
  rw [le16Read_past (by omega), unpackChlist_past (by omega), h₂, h₄]

theorem unrawWlan_rawWlan (w : WlanCfg) (rest : Bytes) : unrawWlan (rawWlan w ++ rest) 0 = w := by
  simp (disch := simp) only [unrawWlan, rawWlan, List.append_assoc, two_bytes, byteAt_past, byteAt_singleton,
    le16Read_past, le16Read_le16Write, unpackChlist_past, unpackChlist_packChlist, length_le16Write,
    List.length_singleton, Nat.reduceSub, Nat.reduceAdd]

/-- A configuration is read back from its image. -/
theorem unrawRadio_rawRadio (c : RadioConfig) : unrawRadio (rawRadio c) = c := by
  have hend : rawRadio c = le16Write c.stationType ++ (le16Write c.priorityCh ++ (rawWlan c.wlan1 ++
      (rawWlan c.wlan2 ++ []))) := by simp [rawRadio]
  rw [hend]
  simp (disch := simp [length_rawWlan]) only [unrawRadio, le16Read_past, le16Read_le16Write, unrawWlan_past,
    unrawWlan_rawWlan, length_le16Write, length_rawWlan, Nat.reduceSub]

/-! ## Lists in the wrong row -/

/-- A list of a band with one row that has its bits in the other. -/
def Misplaced (band : BitVec 16) (l : BitVec 64) : Prop :=
  scanBandSupported band = true ∧ scanRowWord l .a = 0 ∧ scanRowWord l .b ≠ 0

/-- The bits of the second row are those of the first now. -/
structure MovedUp (l l' : BitVec 64) : Prop where
  stored : ∀ bit, listHas l .a bit = false
  first : ∀ bit, listHas l' .a bit = listHas l .b bit
  second : ∀ bit, listHas l' .b bit = false

/-- **A list is moved** when it is misplaced, and only then. -/
theorem normalizeRows_cases (band : BitVec 16) (l : BitVec 64) :
    (¬ Misplaced band l ∧ scanListNormalizeRows band l = (false, l)) ∨
      ∃ l', Misplaced band l ∧ MovedUp l l' ∧ scanListNormalizeRows band l = (true, l') := by
  unfold scanListNormalizeRows
  split
  · rename_i hband
    exact .inl ⟨fun h => hband h.1, rfl⟩
  · rename_i hband
    split
    · rename_i hrows
      refine .inl ⟨fun h => ?_, rfl⟩
      rcases hrows with ha | hb
      · exact ha h.2.1
      · exact h.2.2 hb
    · rename_i hrows
      obtain ⟨ha, hb⟩ := not_or.mp hrows
      have ha' := not_not.mp ha
      have hhigh : (scanRowWord l .b ++ (0 : BitVec 32)).extractLsb' 32 32 = scanRowWord l .b := extract_high _ _
      have hlow : (scanRowWord l .b ++ (0 : BitVec 32)).extractLsb' 0 32 = 0 := extract_low _ _
      refine .inr ⟨_, ⟨not_not.mp hband, ha', hb⟩, ⟨(rowWord_eq_zero l .a).mp ha', fun bit => ?_, ?_⟩, rfl⟩
      · exact congrArg (fun w : BitVec 32 => w.getLsbD bit) hhigh
      · exact (rowWord_eq_zero _ .b).mp hlow

/-- A list that was moved is not misplaced. -/
theorem MovedUp.placed {l l' : BitVec 64} (h : MovedUp l l') (band : BitVec 16) : ¬ Misplaced band l' :=
  fun hm => hm.2.2 ((rowWord_eq_zero l' .b).mpr h.second)

/-- What the migration leaves of a link: its list is where it was, or was moved. -/
structure LinkMigrated (w w' : WlanCfg) (moved : Bool) : Prop where
  mode : w'.mode = w.mode
  bandwidth : w'.bandwidth = w.bandwidth
  scanBand : w'.scanBand = w.scanBand
  kept : moved = false → w'.scanChlist = w.scanChlist
  moved : moved = true → MovedUp w.scanChlist w'.scanChlist
  placed : ¬ Misplaced w'.scanBand w'.scanChlist

theorem linkMigrated_normalize (w : WlanCfg) : LinkMigrated w (normalizeWlan w).2 (normalizeWlan w).1 := by
  unfold normalizeWlan
  rcases normalizeRows_cases w.scanBand w.scanChlist with ⟨hno, h⟩ | ⟨l', -, hup, h⟩
  · rw [h]
    exact ⟨rfl, rfl, rfl, fun _ => rfl, nofun, hno⟩
  · rw [h]
    exact ⟨rfl, rfl, rfl, nofun, fun _ => hup, hup.placed _⟩

/-- What is in its place stays there. -/
theorem normalizeWlan_placed {w : WlanCfg} (h : ¬ Misplaced w.scanBand w.scanChlist) :
    normalizeWlan w = (false, w) := by
  unfold normalizeWlan
  rcases normalizeRows_cases w.scanBand w.scanChlist with ⟨-, heq⟩ | ⟨l', hm, -⟩
  · rw [heq]
  · exact absurd hm h

/-! ## The migration of a configuration -/

/-- What the migration leaves of a configuration, and which of the two lists it moved. The second link is
looked at for two stations only. -/
structure Migrated (c c' : RadioConfig) (moved₁ moved₂ : Bool) : Prop where
  stationType : c'.stationType = c.stationType
  priorityCh : c'.priorityCh = c.priorityCh
  wlan1 : LinkMigrated c.wlan1 c'.wlan1 moved₁
  dual : c.stationType = stationDual → LinkMigrated c.wlan2 c'.wlan2 moved₂
  single : c.stationType ≠ stationDual → c'.wlan2 = c.wlan2 ∧ moved₂ = false

/-- The lists that are in use are valid. -/
def ListsValid (c : RadioConfig) : Prop :=
  scanListValid c.wlan1.scanBand c.wlan1.scanChlist = true ∧
    (c.stationType = stationDual → scanListValid c.wlan2.scanBand c.wlan2.scanChlist = true)

theorem migrateLists_dual {c : RadioConfig} (hdual : c.stationType = stationDual) :
    radioConfMigrateLists c =
      let c' := { c with wlan1 := (normalizeWlan c.wlan1).2, wlan2 := (normalizeWlan c.wlan2).2 }
      (c', (normalizeWlan c.wlan1).1 || (normalizeWlan c.wlan2).1,
        scanListValid c'.wlan1.scanBand c'.wlan1.scanChlist &&
          scanListValid c'.wlan2.scanBand c'.wlan2.scanChlist) := by
  simp only [radioConfMigrateLists, decide_eq_true hdual, if_true, Bool.not_true, Bool.false_or]

theorem migrateLists_single {c : RadioConfig} (hsingle : c.stationType ≠ stationDual) :
    radioConfMigrateLists c =
      let c' := { c with wlan1 := (normalizeWlan c.wlan1).2 }
      (c', (normalizeWlan c.wlan1).1, scanListValid c'.wlan1.scanBand c'.wlan1.scanChlist) := by
  simp only [radioConfMigrateLists, decide_eq_false hsingle, Bool.false_eq_true, if_false, Bool.not_false,
    Bool.true_or, Bool.and_true, Bool.or_false]

theorem migrateLists_valid (c : RadioConfig) :
    (radioConfMigrateLists c).2.2 = true ↔ ListsValid (radioConfMigrateLists c).1 := by
  by_cases hdual : c.stationType = stationDual
  · rw [migrateLists_dual hdual, ListsValid]
    exact (Bool.and_eq_true_iff).trans (and_congr_right fun _ => ⟨fun h _ => h, fun h => h hdual⟩)
  · rw [migrateLists_single hdual, ListsValid]
    exact ⟨fun h => ⟨h, fun hd => absurd hd hdual⟩, fun h => h.1⟩

theorem migrated_migrateLists (c : RadioConfig) : ∃ moved₁ moved₂,
    Migrated c (radioConfMigrateLists c).1 moved₁ moved₂ ∧ (radioConfMigrateLists c).2.1 = (moved₁ || moved₂) := by
  by_cases hdual : c.stationType = stationDual
  · rw [migrateLists_dual hdual]
    exact ⟨_, _, ⟨rfl, rfl, linkMigrated_normalize c.wlan1, fun _ => linkMigrated_normalize c.wlan2,
      fun hs => absurd hdual hs⟩, rfl⟩
  · rw [migrateLists_single hdual]
    exact ⟨_, false, ⟨rfl, rfl, linkMigrated_normalize c.wlan1, fun hd => absurd hd hdual, fun _ => ⟨rfl, rfl⟩⟩,
      (Bool.or_false _).symm⟩

/-- **Lists that were migrated stay where they are.** -/
theorem migrate_migrated {c c' : RadioConfig} {moved₁ moved₂ : Bool} (h : Migrated c c' moved₁ moved₂) :
    (radioConfMigrateLists c').1 = c' ∧ (radioConfMigrateLists c').2.1 = false := by
  have h₁ := normalizeWlan_placed h.wlan1.placed
  by_cases hdual : c.stationType = stationDual
  · have h₂ := normalizeWlan_placed (h.dual hdual).placed
    rw [migrateLists_dual (h.stationType.trans hdual), h₁, h₂]
    exact ⟨rfl, rfl⟩
  · rw [migrateLists_single (h.stationType.trans_ne hdual), h₁]
    exact ⟨rfl, rfl⟩

/-- A configuration none of whose lists moves is the one it was. -/
theorem Migrated.eq_of_kept {c c' : RadioConfig} (h : Migrated c c' false false) : c' = c := by
  have hlink : ∀ {w w' : WlanCfg}, LinkMigrated w w' false → w' = w := by
    intro w w' hw
    cases w
    cases w'
    obtain ⟨hmode, hbw, hband, hkept, -, -⟩ := hw
    cases hmode
    cases hbw
    cases hband
    cases hkept rfl
    rfl
  have h₂ : c'.wlan2 = c.wlan2 := by
    by_cases hdual : c.stationType = stationDual
    · exact hlink (h.dual hdual)
    · exact (h.single hdual).1
  have h₁ := hlink h.wlan1
  have hs := h.stationType
  have hp := h.priorityCh
  cases c
  cases c'
  cases h₁
  cases h₂
  cases hs
  cases hp
  rfl

/-! ## The layout before -/

/-- **Every list that is converted is valid** for the band it was given: it is empty or has the one channel
that was stored. -/
theorem scanListValid_legacy (i : Nat) :
    scanListValid (legacyWlanConvert b i).scanBand (legacyWlanConvert b i).scanChlist = true := by
  unfold legacyWlanConvert
  generalize (le16Read b i).toNat = freq
  generalize (le16Read b (i + 2) &&& 0xFF).toNat = c
  have hbuilt : ∀ band, scanBandKnown band = true →
      scanListValid band (if band ≠ scanBandUnset ∧ c ≠ 0 then scanListSetChannel 0 band c else 0) = true := by
    intro band hband
    split
    · exact scanListValid_built hband [c]
    · exact scanListValid_built hband []
  dsimp only
  split
  · exact hbuilt scanBand24 rfl
  · split
    · exact hbuilt scanBand5 rfl
    · exact rfl

/-- A valid list is in its place. -/
theorem placed_of_valid {band : BitVec 16} {l : BitVec 64} (h : scanListValid band l = true) :
    ¬ Misplaced band l := by
  rintro ⟨hband, -, hb⟩
  have hcase : band = scanBand24 ∨ band = scanBand5 := of_decide_eq_true hband
  have hzero : scanRowWord l .b = 0#32 := by
    rcases hcase with rfl | rfl
    · exact (show scanRowWord l .b = 0#32 ∧ _ by simpa [scanListValid, scanBandKnown] using h).1
    · exact (show scanRowWord l .b = 0#32 ∧ _ by simpa [scanListValid, scanBandKnown] using h).1
  exact hb hzero

theorem migrateLists_legacy : (radioConfMigrateLists (legacyRadioConvert b)).2.2 = true := by
  have h₁ := scanListValid_legacy b 4
  have h₂ := scanListValid_legacy b 10
  by_cases hdual : (legacyRadioConvert b).stationType = stationDual
  · rw [migrateLists_dual hdual]
    have hn₁ : normalizeWlan (legacyRadioConvert b).wlan1 = (false, legacyWlanConvert b 4) :=
      normalizeWlan_placed (placed_of_valid h₁)
    have hn₂ : normalizeWlan (legacyRadioConvert b).wlan2 = (false, legacyWlanConvert b 10) :=
      normalizeWlan_placed (placed_of_valid h₂)
    rw [hn₁, hn₂]
    exact Bool.and_eq_true_iff.mpr ⟨h₁, h₂⟩
  · rw [migrateLists_single hdual]
    have hn₁ : normalizeWlan (legacyRadioConvert b).wlan1 = (false, legacyWlanConvert b 4) :=
      normalizeWlan_placed (placed_of_valid h₁)
    rw [hn₁]
    exact h₁

/-! ## The answers -/

/-- The configuration of an answer that has one. -/
def Restore.config? : Restore → Option RadioConfig
  | .legacy c | .migrated c | .committed c => some c
  | .discardSize | .discardInvalid => none

/-- The answer to an image of the current layout. -/
theorem radioConfRestore_current {b : Bytes} (h : b.length = radioConfLen) :
    radioConfRestore b =
      let m := radioConfMigrateLists (unrawRadio b)
      if ¬ m.2.2 then .discardInvalid else if m.2.1 then .migrated m.1 else .committed m.1 := by
  have hne : b ≠ [] := by
    rintro rfl
    exact absurd h (by decide)
  rw [radioConfRestore, if_neg hne, radioConfDecode, if_pos h]
  rfl

/-- The answer to an image of the layout before. -/
theorem radioConfRestore_legacy {b : Bytes} (h : b.length = radioConfLegacyLen) :
    radioConfRestore b = .legacy (radioConfMigrateLists (legacyRadioConvert b)).1 := by
  have hne : b ≠ [] := by
    rintro rfl
    exact absurd h (by decide)
  have hlen : b.length ≠ radioConfLen := by rw [h]; decide
  rw [radioConfRestore, if_neg hne, radioConfDecode, if_neg hlen, if_pos h]
  simp only [migrateLists_legacy, not_true, if_false, if_true]

/-- Any other size is refused. -/
theorem radioConfRestore_size {b : Bytes} (h : b.length ≠ radioConfLen) (h' : b.length ≠ radioConfLegacyLen) :
    radioConfRestore b = .discardSize := by
  unfold radioConfRestore
  split
  · rfl
  · rw [radioConfDecode, if_neg h, if_neg h']

/-- What the answers to an image of the current layout say of it. -/
inductive Current (b : Bytes) : Restore → Prop
  | invalid : Current b .discardInvalid
  | migrated {c moved₁ moved₂} (hc : Migrated (unrawRadio b) c moved₁ moved₂) (hmoved : (moved₁ || moved₂) = true)
      (hvalid : ListsValid c) : Current b (.migrated c)
  | committed (hvalid : ListsValid (unrawRadio b)) (hplaced : Migrated (unrawRadio b) (unrawRadio b) false false) :
      Current b (.committed (unrawRadio b))

theorem current_restore {b : Bytes} (h : b.length = radioConfLen) : Current b (radioConfRestore b) := by
  rw [radioConfRestore_current h]
  obtain ⟨moved₁, moved₂, hc, hmoved⟩ := migrated_migrateLists (unrawRadio b)
  have hvalid := migrateLists_valid (unrawRadio b)
  generalize radioConfMigrateLists (unrawRadio b) = m at hc hmoved hvalid ⊢
  obtain ⟨c, moved, valid⟩ := m
  dsimp only at hc hmoved hvalid ⊢
  split
  · exact .invalid
  · rename_i hv
    have hlists := hvalid.mp (not_not.mp hv)
    split
    · rename_i hm
      exact .migrated hc (hmoved.symm.trans hm) hlists
    · rename_i hm
      rw [hmoved] at hm
      obtain ⟨rfl, rfl⟩ : moved₁ = false ∧ moved₂ = false := by simpa using hm
      cases hc.eq_of_kept
      exact .committed hlists hc

/-- **What was migrated is committed** once it is stored. -/
theorem restore_rawRadio {c₀ c : RadioConfig} {moved₁ moved₂ : Bool} (hc : Migrated c₀ c moved₁ moved₂)
    (hvalid : ListsValid c) : radioConfRestore (rawRadio c) = .committed c := by
  rw [radioConfRestore_current (length_rawRadio c), unrawRadio_rawRadio]
  obtain ⟨hkept, hmoved⟩ := migrate_migrated hc
  have hv : (radioConfMigrateLists c).2.2 = true := (migrateLists_valid c).mpr (hkept.symm ▸ hvalid)
  simp only [hkept, hmoved, hv, not_true, if_false, Bool.false_eq_true]

/-- **The restore of `radio.conf`**, for bytes of any number: a configuration that is taken has valid lists;
an image of the layout before is always taken; what was migrated differs from what was stored in the lists that
were moved only, the first row of each being the second row it had, and is committed as it is once it is written
back; and what is committed is what was stored. -/
theorem radio_conf_restore (b : Bytes) :
    (∀ c, (radioConfRestore b).config? = some c → ListsValid c) ∧
      (b.length = radioConfLegacyLen → ∃ c, radioConfRestore b = .legacy c) ∧ (∀ c, radioConfRestore b = .migrated c →
        b.length = radioConfLen ∧ radioConfRestore (rawRadio c) = .committed c ∧
          ∃ moved₁ moved₂, Migrated (unrawRadio b) c moved₁ moved₂ ∧ (moved₁ || moved₂) = true) ∧
      ∀ c, radioConfRestore b = .committed c → rawRadio c = b := by
  by_cases hlen : b.length = radioConfLen
  · have hlegacy : b.length ≠ radioConfLegacyLen := by rw [hlen]; decide
    have hcur := current_restore hlen
    refine ⟨fun c hc => ?_, fun h => absurd h hlegacy, fun c hc => ?_, fun c hc => ?_⟩
    · generalize radioConfRestore b = r at hcur hc
      cases hcur with
      | invalid => cases hc
      | migrated _ _ hvalid => cases hc; exact hvalid
      | committed hvalid _ => cases hc; exact hvalid
    · rw [hc] at hcur
      cases hcur with
      | migrated hm hmoved hvalid => exact ⟨hlen, restore_rawRadio hm hvalid, _, _, hm, hmoved⟩
    · rw [hc] at hcur
      cases hcur with
      | committed _ _ => exact rawRadio_unrawRadio hlen
  · by_cases hlegacy : b.length = radioConfLegacyLen
    · rw [radioConfRestore_legacy hlegacy]
      refine ⟨fun c hc => ?_, fun _ => ⟨_, rfl⟩, nofun, nofun⟩
      cases hc
      exact (migrateLists_valid _).mp (migrateLists_legacy b)
    · rw [radioConfRestore_size hlen hlegacy]
      exact ⟨nofun, fun h => absurd h hlegacy, nofun, nofun⟩

end Opcd
