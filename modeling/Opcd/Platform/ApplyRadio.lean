import Opcd.Lib.Memory
import Opcd.Radio.Channels
import Opcd.Startup

/-!
# Applying a radio configuration

`nxp_validate_radio_config`, `scan_freqs_render` and `nxp_apply_radio_config` of `platform_nxp.c`. The helper is
given the frequencies of a link as a text, which is printed into a buffer of 320 bytes; each buffer has a memory
of its own, with whatever was in it before.

* `renderFreqs_printed`: the loop prints all the frequencies while there is room.
* `scanFreqsRender_printed`: there is room for every list.
* `freqText_injective`: the text tells which channels are selected.
* `radio_handed_over`: an accepted configuration reaches the helper in full.
-/

namespace Opcd.Platform

open Bytes Protocol

/-! ## What the platform supports -/

/-- `radio_mode_token`. -/
def radioModeToken (mode : Byte) : Option Bytes :=
  if mode = 5 then some (ofString "b")
  else if mode = 6 then some (ofString "g")
  else if mode = 4 then some (ofString "a")
  else if mode = 7 then some (ofString "n")
  else if mode = 9 then some (ofString "ac")
  else if mode = 11 then some (ofString "ax")
  else none

/-- `radio_bw_token`. -/
def radioBwToken (bandwidth : Byte) : Option Bytes :=
  if bandwidth = 0 then some (ofString "20")
  else if bandwidth = 1 then some (ofString "40")
  else if bandwidth = 2 then some (ofString "80")
  else none

/-- `validate_one_radio`. -/
def validateOneRadio (w : WlanCfg) (mlan1 : Bool) : RadioCapability :=
  if radioModeToken w.mode = none ∨ (mlan1 ∧ w.mode = 11) ∨
      ((w.mode = 5 ∨ w.mode = 6) ∧ w.scanBand = scanBand5) ∨
      (w.mode = 4 ∧ w.scanBand = scanBand24) then .mode
  else if radioBwToken w.bandwidth = none then .bandwidth
  else .ok

/-- `nxp_validate_radio_config`. -/
def nxpValidateRadioConfig (cfg : RadioConfig) : RadioCapability :=
  if validateOneRadio cfg.wlan1 false ≠ .ok then validateOneRadio cfg.wlan1 false
  else if cfg.stationType = stationDual then validateOneRadio cfg.wlan2 true
  else .ok

/-! ## The frequencies -/

/-- The loop of `scan_freqs_render` at offset `off` of the buffer of `cap` bytes at `p`, after `total` channels. -/
def renderFreqs (band : BitVec 16) (p cap : Nat) : List Nat → Mem → Nat → Nat → Mem × Nat
  | [], m, _, total => (m, total)
  | c :: cs, m, off, total =>
    let mhz := scanChannelMhz band c
    if mhz = 0 then renderFreqs band p cap cs m off total
    else
      let s := (if off ≠ 0 then [ch ' '] else []) ++ decimal mhz
      let m := m.snprintf (p + off) (sizeSub cap off) s
      if s.length ≥ sizeSub cap off then (m, total)
      else renderFreqs band p cap cs m (off + s.length) (total + 1)

/-- `scan_freqs_render`: the memory, and the number of channels. -/
def scanFreqsRender (w : WlanCfg) (m : Mem) (p cap : Nat) : Mem × Nat :=
  let m := m.store p [0#8]
  if w.scanBand = scanBandUnset then
    if cap < 5 then (m, 0) else (m.store p (ofString "none" ++ [0#8]), 1)
  else if ¬ scanBandSupported w.scanBand then (m, 0)
  else renderFreqs w.scanBand p cap ((scanListChannels w.scanBand w.scanChlist).take 64) m 0 0

/-! ## The helper -/

/-- The arguments of the helper; a text that is empty is left out. -/
def wlanApplyArgv (iface freqs mode bw : Bytes) : List Bytes :=
  [ofString "opc_wlan_apply.sh", iface] ++ (if freqs ≠ [] then [ofString "freq", freqs] else []) ++
    (if mode ≠ [] then [ofString "mode", mode] else []) ++ (if bw ≠ [] then [ofString "bw", bw] else [])

/-- `run_opc_wlan_apply` without an ESSID: what it returns, and the helper's arguments if it is run. -/
def runOpcWlanApply (run : List Bytes → Int) (iface freqs mode bw : Bytes) : Int × List (List Bytes) :=
  if freqs = [] ∧ mode = [] ∧ bw = [] then (-22, [])
  else (run (wlanApplyArgv iface freqs mode bw), [wlanApplyArgv iface freqs mode bw])

/-- `sizeof f1`. -/
def freqsCap : Nat := 320

/-- The text in the buffer at the start of a memory. -/
def freqsIn (m : Mem) : Bytes := cstr (m.load 0 freqsCap)

/-- `nxp_apply_radio_config`: what it returns, and the calls of the helper. -/
def nxpApplyRadioConfig (cfg : RadioConfig) (m₁ m₂ : Mem) (run : List Bytes → Int) : Int × List (List Bytes) :=
  if nxpValidateRadioConfig cfg ≠ .ok then (-95, [])
  else
    let dual := cfg.stationType = stationDual
    let r₁ := scanFreqsRender cfg.wlan1 m₁ 0 freqsCap
    let r₂ := if dual then scanFreqsRender cfg.wlan2 m₂ 0 freqsCap else (m₂, 0)
    let a₁ :=
      if r₁.2 > 0 then
        runOpcWlanApply run (ofString "mlan0") (freqsIn r₁.1) ((radioModeToken cfg.wlan1.mode).getD [])
          ((radioBwToken cfg.wlan1.bandwidth).getD [])
      else (0, [])
    if a₁.1 ≠ 0 then a₁
    else
      let a₂ :=
        if dual ∧ r₂.2 > 0 then
          runOpcWlanApply run (ofString "mlan1") (freqsIn r₂.1) ((radioModeToken cfg.wlan2.mode).getD [])
            ((radioBwToken cfg.wlan2.bandwidth).getD [])
        else (0, [])
      (a₂.1, a₁.2 ++ a₂.2)

/-! ## The loop -/

/-- A piece behind what there is, with a space between. -/
def joined (text : Bytes) (ss : List Bytes) : Bytes :=
  ss.foldl (fun t s => t ++ ((if t ≠ [] then [ch ' '] else []) ++ s)) text

theorem joined_append {text : Bytes} (ht : text ≠ []) (ss : List Bytes) :
    joined text ss = text ++ ss.flatMap fun s => ch ' ' :: s := by
  induction ss generalizing text with
  | nil => simp [joined]
  | cons s ss ih =>
    have hcons : joined text (s :: ss) = joined (text ++ ch ' ' :: s) ss := by simp [joined, ht]
    rw [hcons, ih (by simp), List.flatMap_cons, List.append_assoc]

/-- The first piece, and each other behind a space. -/
theorem intercalate_cons (s : Bytes) (ss : List Bytes) :
    [ch ' '].intercalate (s :: ss) = s ++ ss.flatMap fun s => ch ' ' :: s := by
  induction ss generalizing s with
  | nil => simp
  | cons s' ss ih =>
    rw [List.intercalate_cons_cons, ih s', List.flatMap_cons]
    simp

/-- Pieces that are not empty are joined with spaces. -/
theorem joined_nil {ss : List Bytes} (hss : ∀ s ∈ ss, s ≠ []) : joined [] ss = [ch ' '].intercalate ss := by
  cases ss with
  | nil => rfl
  | cons s ss =>
    have hcons : joined [] (s :: ss) = joined s ss := by simp [joined]
    rw [hcons, joined_append (hss s List.mem_cons_self), intercalate_cons]

theorem notMem_intercalate {b : Byte} (hb : b ≠ ch ' ') {ss : List Bytes} (hss : ∀ s ∈ ss, b ∉ s) :
    b ∉ [ch ' '].intercalate ss := by
  cases ss with
  | nil => exact List.not_mem_nil
  | cons s ss =>
    rw [intercalate_cons, List.mem_append, not_or]
    refine ⟨hss s List.mem_cons_self, fun hmem => ?_⟩
    obtain ⟨s', hs', hmem⟩ := List.mem_flatMap.mp hmem
    rcases List.mem_cons.mp hmem with h | h
    · exact hb h
    · exact hss s' (List.mem_cons_of_mem _ hs') h

/-- The frequencies of channels as they are printed. -/
def freqPieces (band : BitVec 16) (cs : List Nat) : List Bytes := cs.map fun c => decimal (scanChannelMhz band c)

/-- **The loop prints everything while there is room**: a frequency takes no more than four digits and a space. -/
theorem renderFreqs_printed {band : BitVec 16} {p cap : Nat} {m₀ : Mem} (hcap : cap < 2 ^ 64) {cs : List Nat}
    (hcs : ∀ c ∈ cs, scanChannelMhz band c ≠ 0 ∧ scanChannelMhz band c < 10000) {m : Mem} {text : Bytes}
    (hm : Mem.Printed p cap m₀ text m) (hroom : text.length + 5 * cs.length < cap) (total : Nat) :
    Mem.Printed p cap m₀ (joined text (freqPieces band cs))
      (renderFreqs band p cap cs m text.length total).1 ∧
      (renderFreqs band p cap cs m text.length total).2 = total + cs.length := by
  induction cs generalizing m text total with
  | nil => exact ⟨hm, rfl⟩
  | cons c cs ih =>
    obtain ⟨hne, hlt⟩ := hcs c List.mem_cons_self
    have hdig : (decimal (scanChannelMhz band c)).length ≤ 4 := length_decimal_le_of_lt (k := 3) hlt
    have hsep : (if text.length ≠ 0 then [ch ' '] else []) = if text ≠ [] then [ch ' '] else [] := by
      simp only [ne_eq, List.length_eq_zero_iff]
    rw [List.length_cons] at hroom
    unfold renderFreqs
    dsimp only
    rw [if_neg hne, hsep, sizeSub_eq hm.room.le hcap]
    have hpiece : ((if text ≠ [] then [ch ' '] else []) ++ decimal (scanChannelMhz band c)).length ≤ 5 := by
      rw [List.length_append]
      split <;> simp only [List.length_singleton, List.length_nil] <;> omega
    have hjoin : joined text (freqPieces band (c :: cs)) =
        joined (text ++ ((if text ≠ [] then [ch ' '] else []) ++ decimal (scanChannelMhz band c)))
          (freqPieces band cs) := rfl
    rw [hjoin]
    generalize (if text ≠ [] then [ch ' '] else []) ++ decimal (scanChannelMhz band c) = s at hpiece ⊢
    rw [if_neg (by omega), ← List.length_append]
    have hm' := hm.snprintf (s := s) (by omega)
    obtain ⟨hprinted, htotal⟩ := ih (fun c hc => hcs c (List.mem_cons_of_mem _ hc)) hm'
      (by rw [List.length_append]; omega) (total + 1)
    refine ⟨hprinted, htotal.trans ?_⟩
    rw [List.length_cons]
    omega

/-! ## The text of a link -/

/-- The text that the helper is given for a link. -/
def freqText (w : WlanCfg) : Bytes :=
  if w.scanBand = scanBandUnset then ofString "none"
  else [ch ' '].intercalate (freqPieces w.scanBand (scanListChannels w.scanBand w.scanChlist))

section Bands

variable {band : BitVec 16}

theorem scanBandSupported_iff : scanBandSupported band = true ↔ band = scanBand24 ∨ band = scanBand5 := by
  simp [scanBandSupported]

theorem known_of_supported (h : scanBandSupported band = true) : scanBandKnown band = true := by
  rw [scanBandKnown_iff]
  rcases scanBandSupported_iff.mp h with h | h
  · exact .inl h
  · exact .inr (.inl h)

theorem mhz_band24 {row : Row} {bit : Fin 32} (hne : scanRowChannel scanBand24 row bit ≠ 0) :
    scanRowChannel scanBand24 row bit ≤ 14 ∧
      scanChannelMhz scanBand24 (scanRowChannel scanBand24 row bit) =
        if scanRowChannel scanBand24 row bit = 14 then 2484 else 2407 + 5 * scanRowChannel scanBand24 row bit := by
  constructor
  · unfold scanRowChannel
    simp only [Fin.le_def]
    split_ifs <;> omega
  · unfold scanChannelMhz
    rw [scanBitForChannel_eq_some.mpr ⟨rfl, hne⟩, if_neg (by simp), if_pos rfl]

theorem mhz_band5 {row : Row} {bit : Fin 32} (hne : scanRowChannel scanBand5 row bit ≠ 0) :
    scanRowChannel scanBand5 row bit ≤ 165 ∧
      scanChannelMhz scanBand5 (scanRowChannel scanBand5 row bit) =
        5000 + 5 * scanRowChannel scanBand5 row bit := by
  constructor
  · unfold scanRowChannel
    simp only [Fin.le_def]
    split_ifs <;> omega
  · unfold scanChannelMhz
    rw [scanBitForChannel_eq_some.mpr ⟨rfl, hne⟩, if_neg (by simp), if_neg (by decide), if_pos rfl]

/-- A channel of a supported band has a frequency of four digits. -/
theorem mhz_of_supported (h : scanBandSupported band = true) {row : Row} {bit : Fin 32}
    (hne : scanRowChannel band row bit ≠ 0) :
    scanChannelMhz band (scanRowChannel band row bit) ≠ 0 ∧
      scanChannelMhz band (scanRowChannel band row bit) < 10000 := by
  rcases scanBandSupported_iff.mp h with rfl | rfl
  · obtain ⟨hle, hmhz⟩ := mhz_band24 hne
    rw [hmhz]
    split <;> omega
  · obtain ⟨hle, hmhz⟩ := mhz_band5 hne
    omega

/-- No two channels of a supported band have one frequency. -/
theorem mhz_injective (h : scanBandSupported band = true) {row row' : Row} {bit bit' : Fin 32}
    (hne : scanRowChannel band row bit ≠ 0) (hne' : scanRowChannel band row' bit' ≠ 0)
    (heq : scanChannelMhz band (scanRowChannel band row bit) = scanChannelMhz band (scanRowChannel band row' bit')) :
    scanRowChannel band row bit = scanRowChannel band row' bit' := by
  rcases scanBandSupported_iff.mp h with rfl | rfl
  · obtain ⟨hle, hmhz⟩ := mhz_band24 hne
    obtain ⟨hle', hmhz'⟩ := mhz_band24 hne'
    rw [hmhz, hmhz'] at heq
    split_ifs at heq <;> omega
  · obtain ⟨hle, hmhz⟩ := mhz_band5 hne
    obtain ⟨hle', hmhz'⟩ := mhz_band5 hne'
    omega

/-- A supported band has its channels in the first row. -/
theorem length_scanListChannels (h : scanBandSupported band = true) (l : BitVec 64) :
    (scanListChannels band l).length ≤ 32 := by
  have h6 : band ≠ scanBand6 := by
    rcases scanBandSupported_iff.mp h with rfl | rfl <;> decide
  unfold scanListChannels
  rw [if_neg (by simp [known_of_supported h]), if_neg h6]
  unfold rowChannels rowBits
  rw [List.length_map]
  calc (((List.finRange 32).filter _).filter _).length
      ≤ ((List.finRange 32).filter _).length := List.length_filter_le _ _
    _ ≤ (List.finRange 32).length := List.length_filter_le _ _
    _ = 32 := List.length_finRange

/-- A valid list of a known band selects something. -/
theorem scanListChannels_ne_nil (h : scanBandSupported band = true) {l : BitVec 64}
    (hl : scanListValid band l = true) : scanListChannels band l ≠ [] := by
  have hknown := known_of_supported h
  by_cases h0 : l = 0
  · have hfirst : scanRowChannel band .a 0 ≠ 0 := by
      rcases scanBandSupported_iff.mp h with rfl | rfl <;> decide
    exact List.ne_nil_of_mem (mem_scanListChannels.mpr ⟨.a, 0, rfl, hfirst, .inl h0⟩)
  · have hbit : ∃ row bit, listHas l row bit = true := by
      by_contra hno
      refine h0 (list_ext fun row bit => ?_)
      have hfalse : listHas l row bit = false := by
        cases hb : listHas l row bit with
        | false => rfl
        | true => exact absurd ⟨row, bit, hb⟩ hno
      exact hfalse.trans (listHas_zero row bit).symm
    obtain ⟨row, bit, hb⟩ := hbit
    have hne := (scanListValid_iff hknown l).mp hl row bit hb
    exact List.ne_nil_of_mem (mem_scanListChannels.mpr ⟨row, bit, rfl, hne, .inr hb⟩)

end Bands

/-- What the checks leave of a link: a band that is unset with an empty list, or a supported one with a valid
list. -/
structure LinkAccepted (w : WlanCfg) : Prop where
  band : validScanBand w.scanBand = true
  list : scanListValid w.scanBand w.scanChlist = true

theorem LinkAccepted.supported {w : WlanCfg} (h : LinkAccepted w) (hset : w.scanBand ≠ scanBandUnset) :
    scanBandSupported w.scanBand = true := by
  have hband := h.band
  unfold validScanBand at hband
  exact (of_decide_eq_true hband).resolve_left hset

theorem freqPieces_ne_nil (band : BitVec 16) (cs : List Nat) : ∀ s ∈ freqPieces band cs, s ≠ [] := by
  intro s hs
  obtain ⟨c, -, rfl⟩ := List.mem_map.mp hs
  exact decimal_ne_nil _

/-- The bytes of the text are digits, spaces, or those of the word for no band. -/
theorem zero_notMem_freqText (w : WlanCfg) : 0#8 ∉ freqText w := by
  unfold freqText
  split
  · decide
  · refine notMem_intercalate (by decide) fun s hs => ?_
    obtain ⟨c, -, rfl⟩ := List.mem_map.mp hs
    exact notMem_decimal rfl _

/-- **There is room for every list.** -/
theorem scanFreqsRender_printed {w : WlanCfg} (h : LinkAccepted w) (m : Mem) (p : Nat) :
    Mem.Printed p freqsCap m (freqText w) (scanFreqsRender w m p freqsCap).1 ∧
      1 ≤ (scanFreqsRender w m p freqsCap).2 := by
  have hcap : freqsCap = 320 := rfl
  have hstart : Mem.Printed p freqsCap m [] (m.store p [0#8]) := Mem.printed_nil (by decide) m p
  unfold scanFreqsRender freqText
  by_cases hset : w.scanBand = scanBandUnset
  · rw [if_pos hset, if_pos hset, if_neg (by decide)]
    refine ⟨⟨by decide, Mem.load_store _ p _, fun a ha => ?_⟩, le_rfl⟩
    have hlen : (ofString "none" ++ [0#8]).length = 5 := by decide
    exact (Mem.store_frame (by omega)).trans (hstart.frame a ha)
  · have hsup := h.supported hset
    have hlen := length_scanListChannels hsup w.scanChlist
    have hne := scanListChannels_ne_nil hsup h.list
    rw [if_neg hset, if_neg hset, if_neg (by simp [hsup]), List.take_of_length_le (by omega)]
    have hmhz : ∀ c ∈ scanListChannels w.scanBand w.scanChlist,
        scanChannelMhz w.scanBand c ≠ 0 ∧ scanChannelMhz w.scanBand c < 10000 := by
      intro c hc
      obtain ⟨row, bit, rfl, hc0, -⟩ := mem_scanListChannels.mp hc
      exact mhz_of_supported hsup hc0
    obtain ⟨hprinted, htotal⟩ := renderFreqs_printed (by decide) hmhz hstart
      (by rw [List.length_nil]; omega) 0
    rw [joined_nil (freqPieces_ne_nil _ _)] at hprinted
    refine ⟨hprinted, ?_⟩
    have hpos := List.length_pos_of_ne_nil hne
    rw [List.length_nil] at htotal
    omega

/-- What was printed is the C string in the buffer. -/
theorem freqsIn_printed {m m₀ : Mem} {text : Bytes} (h : Mem.Printed 0 freqsCap m₀ text m) (hnul : 0#8 ∉ text) :
    freqsIn m = text := by
  have hroom := h.room
  obtain ⟨k, hk⟩ : ∃ k, freqsCap = text.length + 1 + k := ⟨freqsCap - (text.length + 1), by omega⟩
  unfold freqsIn
  rw [hk, Mem.load_add, h.reads, List.append_assoc, cstr,
    List.takeWhile_append_of_pos fun b hb => by simpa using fun e : b = 0#8 => hnul (e ▸ hb)]
  simp

/-! ## The text tells the channels -/

/-- **The text tells the channels**: what one list selects, another list with the same text selects. -/
theorem freqText_injective {w w' : WlanCfg} (h : LinkAccepted w) (h' : LinkAccepted w')
    (hband : w'.scanBand = w.scanBand) (hset : w.scanBand ≠ scanBandUnset) (heq : freqText w = freqText w')
    {c : Nat} (hc : c ∈ scanListChannels w.scanBand w.scanChlist) :
    c ∈ scanListChannels w'.scanBand w'.scanChlist := by
  have hsup := h.supported hset
  have hlist' := h'.list
  unfold freqText at heq
  rw [hband] at hlist' heq ⊢
  rw [if_neg hset, if_neg hset] at heq
  have hspace (cs : List Nat) : ∀ s ∈ freqPieces w.scanBand cs, ch ' ' ∉ s := by
    intro s hs
    obtain ⟨c, -, rfl⟩ := List.mem_map.mp hs
    exact notMem_decimal rfl _
  have hne {l : BitVec 64} (hl : scanListValid w.scanBand l = true) :
      freqPieces w.scanBand (scanListChannels w.scanBand l) ≠ [] := by
    simpa [freqPieces] using scanListChannels_ne_nil hsup hl
  have hpieces := congrArg (List.splitOn (ch ' ')) heq
  rw [List.splitOn_intercalate _ (hspace _) (hne h.list), List.splitOn_intercalate _ (hspace _) (hne hlist')]
    at hpieces
  have hmem : decimal (scanChannelMhz w.scanBand c) ∈
      freqPieces w.scanBand (scanListChannels w.scanBand w'.scanChlist) :=
    hpieces ▸ List.mem_map.mpr ⟨c, hc, rfl⟩
  obtain ⟨c', hc', hdec⟩ := List.mem_map.mp hmem
  obtain ⟨row, bit, rfl, h0, -⟩ := mem_scanListChannels.mp hc
  obtain ⟨row', bit', rfl, h0', -⟩ := mem_scanListChannels.mp hc'
  rwa [← mhz_injective hsup h0' h0 (decimal_injective hdec)]

/-- Lists that select the same channels have one text. -/
theorem freqText_congr {w w' : WlanCfg} (hband : w'.scanBand = w.scanBand)
    (hsame : ∀ c, c ∈ scanListChannels w.scanBand w.scanChlist ↔ c ∈ scanListChannels w'.scanBand w'.scanChlist) :
    freqText w = freqText w' := by
  have heq := (sorted_scanListChannels w.scanBand w.scanChlist).eq_of_mem_iff
    (sorted_scanListChannels w'.scanBand w'.scanChlist) (fun {c} => hsame c)
  unfold freqText
  rw [heq, hband]

/-- The frequencies are never the word for no band. -/
theorem freqText_eq_none (w : WlanCfg) :
    freqText w = ofString "none" ↔ w.scanBand = scanBandUnset := by
  constructor
  · intro heq
    by_contra hset
    unfold freqText at heq
    rw [if_neg hset] at heq
    have hn : ch 'n' ∉ [ch ' '].intercalate
        (freqPieces w.scanBand (scanListChannels w.scanBand w.scanChlist)) := by
      refine notMem_intercalate (by decide) fun s hs => ?_
      obtain ⟨c, -, rfl⟩ := List.mem_map.mp hs
      exact notMem_decimal rfl _
    rw [heq] at hn
    exact hn (by decide)
  · exact fun hset => if_pos hset

/-! ## Accepted requests -/

/-- The request passes all checks of the handler, with the answer that the platform gives to it. -/
def Accepted (req : RadioConfig) : Prop :=
  ∃ env : Env, env.validateRadio = nxpValidateRadioConfig req ∧ St.setRadioError env req = none

theorem Accepted.checks {req : RadioConfig} (h : Accepted req) :
    LinkAccepted req.wlan1 ∧ req.stationType = stationSingle ∧ nxpValidateRadioConfig req = .ok := by
  obtain ⟨env, hplat, herr⟩ := h
  unfold St.setRadioError at herr
  dsimp only at herr
  split at herr
  · cases herr
  rename_i hsingle
  have hst : req.stationType = stationSingle := not_not.mp hsingle
  have hdual : ¬ req.stationType = stationDual := by rw [hst]; decide
  simp only [hdual, decide_false, Bool.false_eq_true, false_and, or_false, if_false] at herr
  split at herr
  · cases herr
  split at herr
  · cases herr
  split at herr
  · cases herr
  rename_i hband
  split at herr
  · cases herr
  rename_i hlist
  refine ⟨⟨not_not.mp hband, not_not.mp hlist⟩, hst, ?_⟩
  rw [← hplat]
  revert herr
  cases env.validateRadio <;> simp

/-- A link that the platform supports has its tokens. -/
theorem tokens_of_ok {w : WlanCfg} {mlan1 : Bool} (h : validateOneRadio w mlan1 = .ok) :
    ∃ mode bw, radioModeToken w.mode = some mode ∧ mode ≠ [] ∧ radioBwToken w.bandwidth = some bw := by
  unfold validateOneRadio at h
  split at h
  · cases h
  rename_i hmode
  split at h
  · cases h
  rename_i hbw
  obtain ⟨mode, hm⟩ := Option.ne_none_iff_exists'.mp fun h0 => hmode (.inl h0)
  obtain ⟨bw, hb⟩ := Option.ne_none_iff_exists'.mp hbw
  refine ⟨mode, bw, hm, ?_, hb⟩
  unfold radioModeToken at hm
  split_ifs at hm <;> rw [← Option.some.inj hm] <;> decide

/-- The platform runs the helper once for one station. -/
theorem apply_single {req : RadioConfig} (hlink : LinkAccepted req.wlan1)
    (hsingle : req.stationType = stationSingle) (hvalid : nxpValidateRadioConfig req = .ok) (m₁ m₂ : Mem)
    (run : List Bytes → Int) :
    ∃ mode bw, radioModeToken req.wlan1.mode = some mode ∧ radioBwToken req.wlan1.bandwidth = some bw ∧
      nxpApplyRadioConfig req m₁ m₂ run =
        (run (wlanApplyArgv (ofString "mlan0") (freqText req.wlan1) mode bw),
          [wlanApplyArgv (ofString "mlan0") (freqText req.wlan1) mode bw]) := by
  have hdual : ¬ req.stationType = stationDual := by rw [hsingle]; decide
  have hone : validateOneRadio req.wlan1 false = .ok := by
    by_contra hno
    unfold nxpValidateRadioConfig at hvalid
    rw [if_pos hno] at hvalid
    exact hno hvalid
  obtain ⟨mode, bw, hm, hne, hb⟩ := tokens_of_ok hone
  obtain ⟨hprinted, hcount⟩ := scanFreqsRender_printed hlink m₁ 0
  have htext := freqsIn_printed hprinted (zero_notMem_freqText _)
  have hrun : runOpcWlanApply run (ofString "mlan0") (freqText req.wlan1) ((some mode).getD []) ((some bw).getD []) =
      (run (wlanApplyArgv (ofString "mlan0") (freqText req.wlan1) mode bw),
        [wlanApplyArgv (ofString "mlan0") (freqText req.wlan1) mode bw]) := if_neg fun h => hne h.2.1
  refine ⟨mode, bw, hm, hb, ?_⟩
  unfold nxpApplyRadioConfig
  rw [if_neg (not_not.mpr hvalid)]
  dsimp only
  rw [if_pos (Nat.lt_of_succ_le hcount), htext, hm, hb]
  simp only [hrun, hdual, false_and, if_false]
  split
  · rfl
  · rename_i hrc
    rw [not_not.mp hrc]
    rfl

/-- **An accepted radio configuration reaches the helper.** For every accepted request, the frequencies of
WLAN#1 are printed whole into the 320 bytes, whatever was there, and no less than one is counted; the text is the
word for no band when the band is unset, and else the centre frequencies of the selected channels (of all of the
band when the list is empty), in ascending order of the channels. So the platform does not return success without
a run of the helper for `mlan0` with that text. Two accepted requests with one band have one text when they
select the same channels, and only then. -/
theorem radio_handed_over :
    (∀ req : RadioConfig, Accepted req → (∀ (m : Mem) (p : Nat),
        Mem.Printed p freqsCap m (freqText req.wlan1) (scanFreqsRender req.wlan1 m p freqsCap).1 ∧
          1 ≤ (scanFreqsRender req.wlan1 m p freqsCap).2) ∧ 0#8 ∉ freqText req.wlan1 ∧
      (freqText req.wlan1 = ofString "none" ↔ req.wlan1.scanBand = scanBandUnset) ∧
      (req.wlan1.scanBand ≠ scanBandUnset →
        let cs := scanListChannels req.wlan1.scanBand req.wlan1.scanChlist
        freqText req.wlan1 =
            [ch ' '].intercalate (cs.map fun c => decimal (scanChannelMhz req.wlan1.scanBand c)) ∧
          cs.Pairwise (· < ·) ∧ (∀ c ∈ cs, scanChannelMhz req.wlan1.scanBand c ≠ 0) ∧
          ∀ c, c ∈ cs ↔ ∃ row bit, scanRowChannel req.wlan1.scanBand row bit = c ∧ c ≠ 0 ∧
            (req.wlan1.scanChlist = 0 ∨ listHas req.wlan1.scanChlist row bit = true)) ∧
      ∀ (m₁ m₂ : Mem) (run : List Bytes → Int), (nxpApplyRadioConfig req m₁ m₂ run).1 = 0 →
        ∃ mode bw, radioModeToken req.wlan1.mode = some mode ∧ radioBwToken req.wlan1.bandwidth = some bw ∧
          (nxpApplyRadioConfig req m₁ m₂ run).2 =
            [wlanApplyArgv (ofString "mlan0") (freqText req.wlan1) mode bw]) ∧
    ∀ req req' : RadioConfig, Accepted req → Accepted req' → req'.wlan1.scanBand = req.wlan1.scanBand →
      (freqText req.wlan1 = freqText req'.wlan1 ↔
        ∀ c, c ∈ scanListChannels req.wlan1.scanBand req.wlan1.scanChlist ↔
          c ∈ scanListChannels req'.wlan1.scanBand req'.wlan1.scanChlist) := by
  constructor
  · intro req hreq
    obtain ⟨hlink, hsingle, hvalid⟩ := hreq.checks
    refine ⟨fun m p => scanFreqsRender_printed hlink m p, zero_notMem_freqText _, freqText_eq_none _,
      fun hset => ⟨if_neg hset, sorted_scanListChannels _ _, fun c hc => ?_, fun c => mem_scanListChannels⟩,
      fun m₁ m₂ run hrc => ?_⟩
    · obtain ⟨row, bit, rfl, hne, -⟩ := mem_scanListChannels.mp hc
      exact (mhz_of_supported (hlink.supported hset) hne).1
    · obtain ⟨mode, bw, hm, hb, happly⟩ := apply_single hlink hsingle hvalid m₁ m₂ run
      exact ⟨mode, bw, hm, hb, congrArg Prod.snd happly⟩
  · intro req req' hreq hreq' hband
    obtain ⟨hlink, -, -⟩ := hreq.checks
    obtain ⟨hlink', -, -⟩ := hreq'.checks
    refine ⟨fun heq c => ?_, fun hsame => freqText_congr hband hsame⟩
    by_cases hset : req.wlan1.scanBand = scanBandUnset
    · rw [hband, hset]
      exact Iff.rfl
    · exact ⟨freqText_injective hlink hlink' hband hset heq,
        freqText_injective hlink' hlink hband.symm (hband ▸ hset) heq.symm⟩

/-- 802.11ac at 80 MHz on two channels of the 5 GHz band. -/
theorem radio_handed_over_two :
    let w : WlanCfg := ⟨9, 2, scanBand5, builtList scanBand5 [36, 100]⟩
    let req : RadioConfig := ⟨stationSingle, 0, w, w⟩
    Accepted req ∧ freqText w = ofString "5180 5500" ∧
      1 ≤ (scanFreqsRender w (fun _ => 0) 0 freqsCap).2 := by
  have haccepted : Accepted ⟨stationSingle, 0, ⟨9, 2, scanBand5, builtList scanBand5 [36, 100]⟩,
      ⟨9, 2, scanBand5, builtList scanBand5 [36, 100]⟩⟩ := ⟨Env.allOk 0, by decide, by decide⟩
  exact ⟨haccepted, by decide, ((radio_handed_over.1 _ haccepted).1 _ _).2⟩

end Opcd.Platform
