import Opcd.Nl80211.Stage
import Opcd.Radio.Channels

/-!
# Frequencies and channels

Three tables relate frequencies and channels: `freq_to_channel` of `nl80211_parse.c`, the bands of
`opc_chan_field` in `chan_encode.c`, and `opc_scan_channel_mhz` of `scan_chlist.c`. They are kept apart in the
source and differ on purpose between 2473 and 2483 MHz, where `opc_chan_field` has a band and
`freq_to_channel` no channel.

* `toNat_freqToChannel`: the channel of a frequency, in numbers.
* `chanField_freqToChannel`: a frequency that has a channel has a band.
* `channel_of_parseEvt`: the channel of an event is that of its frequency, whichever attributes it had.
* **`frequency_tables_agree`**: the three tables agree, and what is staged for an event is unset or has a band
  and the channel of its frequency.
-/

namespace Opcd.Nl80211

open Bytes Protocol Platform

/-! ## The channel of a frequency -/

theorem toNat_freqToChannel (f : BitVec 32) :
    (freqToChannel f).toNat =
      if 2412 ≤ f.toNat ∧ f.toNat ≤ 2472 then (f.toNat - 2407) / 5
      else if f.toNat = 2484 then 14
      else if 5000 ≤ f.toNat ∧ f.toNat ≤ 5895 then (f.toNat - 5000) / 5
      else if 5955 ≤ f.toNat ∧ f.toNat ≤ 7115 then (f.toNat - 5950) / 5
      else 0 := by
  have hlt := f.isLt
  have hsub : ∀ k : Nat, k ≤ f.toNat → f.toNat ≤ 7115 →
      (((f - BitVec.ofNat 32 k) / 5).setWidth 16).toNat = (f.toNat - k) / 5 := by
    intro k hk hle
    have hk' : (BitVec.ofNat 32 k).toNat = k := by
      rw [BitVec.toNat_ofNat]
      omega
    have hdiff : (f - BitVec.ofNat 32 k).toNat = f.toNat - k := by
      rw [BitVec.toNat_sub, hk']
      omega
    have hfive : (5 : BitVec 32).toNat = 5 := rfl
    rw [BitVec.toNat_setWidth, BitVec.toNat_udiv, hdiff, hfive]
    omega
  have hle : ∀ a b : Nat, a < 2 ^ 32 → b < 2 ^ 32 →
      ((BitVec.ofNat 32 a ≤ f ∧ f ≤ BitVec.ofNat 32 b) ↔ a ≤ f.toNat ∧ f.toNat ≤ b) := by
    intro a b ha hb
    rw [BitVec.le_def, BitVec.le_def, BitVec.toNat_ofNat, BitVec.toNat_ofNat, Nat.mod_eq_of_lt ha,
      Nat.mod_eq_of_lt hb]
  have heq : f = 2484 ↔ f.toNat = 2484 := by
    rw [← BitVec.toNat_inj]
    rfl
  unfold freqToChannel
  have h₁ : (2412 ≤ f ∧ f ≤ 2472) ↔ 2412 ≤ f.toNat ∧ f.toNat ≤ 2472 :=
    hle 2412 2472 (by decide) (by decide)
  have h₂ : (5000 ≤ f ∧ f ≤ 5895) ↔ 5000 ≤ f.toNat ∧ f.toNat ≤ 5895 :=
    hle 5000 5895 (by decide) (by decide)
  have h₃ : (5955 ≤ f ∧ f ≤ 7115) ↔ 5955 ≤ f.toNat ∧ f.toNat ≤ 7115 :=
    hle 5955 7115 (by decide) (by decide)
  by_cases c₁ : 2412 ≤ f.toNat ∧ f.toNat ≤ 2472
  · rw [if_pos (h₁.mpr c₁), if_pos c₁]
    exact hsub 2407 (by omega) (by omega)
  rw [if_neg (mt h₁.mp c₁), if_neg c₁]
  by_cases c₀ : f.toNat = 2484
  · rw [if_pos (heq.mpr c₀), if_pos c₀]
    rfl
  rw [if_neg (mt heq.mp c₀), if_neg c₀]
  by_cases c₂ : 5000 ≤ f.toNat ∧ f.toNat ≤ 5895
  · rw [if_pos (h₂.mpr c₂), if_pos c₂]
    exact hsub 5000 (by omega) (by omega)
  rw [if_neg (mt h₂.mp c₂), if_neg c₂]
  by_cases c₃ : 5955 ≤ f.toNat ∧ f.toNat ≤ 7115
  · rw [if_pos (h₃.mpr c₃), if_pos c₃]
    exact hsub 5950 (by omega) (by omega)
  rw [if_neg (mt h₃.mp c₃), if_neg c₃]
  rfl

/-- A frequency that has a channel is in a band, and its channel fits a byte. -/
theorem inBand_of_channel {f : BitVec 32} (h : freqToChannel f ≠ 0) :
    InBand f.toNat ∧ (freqToChannel f).toNat ≠ 0 ∧ (freqToChannel f).toNat ≤ 0xFF := by
  have hne : (freqToChannel f).toNat ≠ 0 := fun h0 => h (BitVec.eq_of_toNat_eq h0)
  have hval := toNat_freqToChannel f
  unfold InBand
  refine ⟨?_, hne, ?_⟩
  · rw [hval] at hne
    split_ifs at hne <;> omega
  · rw [hval]
    split_ifs <;> omega

/-- The field names a band, and this channel. -/
def BandQualified (field : BitVec 16) (c : BitVec 16) : Prop :=
  (field >>> 8 = 1 ∨ field >>> 8 = 2 ∨ field >>> 8 = 6) ∧ field &&& 0xFF = c

/-- **A frequency that has a channel has a band.** -/
theorem chanField_freqToChannel {f : BitVec 32} (h : freqToChannel f ≠ 0) :
    BandQualified (chanField f.toNat (freqToChannel f).toNat) (freqToChannel f) := by
  obtain ⟨hin, h0, hc⟩ := inBand_of_channel h
  rcases @chanField_cases f.toNat (freqToChannel f).toNat h0 hc with ⟨band, hband, -, hf⟩ | ⟨hout, -⟩
  · have hb : band < 256 := by omega
    refine ⟨?_, BitVec.eq_of_toNat_eq ?_⟩
    · rw [hf, ← BitVec.toNat_inj, ← BitVec.toNat_inj, ← BitVec.toNat_inj, ofNat_shiftRight_band hb hc]
      simpa using hband
    · rw [hf]
      exact ofNat_and_channel hc
  · exact absurd hin hout

/-! ## Events -/

/-- **The channel of an event is that of its frequency**: the attribute that is read last sets both. -/
theorem channel_of_parseEvt {m : Bytes} {family : Int} {e : Evt}
    (h : parseEvt m 0 m.length family = some (true, e)) : e.channel = freqToChannel e.freqMhz := by
  have hd := decoded_parseEvt (by simp) h
  rw [hd.channel, hd.freqMhz]
  cases Field.wiphyFreq.last e.kind (attrsAt m 0 m.length 20) with
  | none => rfl
  | some p => rfl

/-- The event is what `nl80211_parse_evt` makes of some message. -/
def Parsed (e : Evt) : Prop := ∃ (m : Bytes) (family : Int), parseEvt m 0 m.length family = some (true, e)

/-- The kernel's answer about the interface, if there is one: any frequency, with its channel. -/
def Input.KernelAnswer (x : Input) : Prop := ∀ freq c, x.iface = some (freq, c) → c = freqToChannel freq

theorem Input.KernelAnswer.ifaceFreq {x : Input} (h : x.KernelAnswer) :
    x.ifaceFreq.2 = freqToChannel x.ifaceFreq.1 := by
  unfold Input.ifaceFreq
  cases hi : x.iface with
  | none => rfl
  | some p =>
    have hp := h p.1 p.2 hi
    dsimp only
    split
    · exact hp
    · rfl

/-- What is staged: unset, or a band with the channel of this frequency. -/
def Staged (ch : BitVec 16) (f : BitVec 32) : Prop :=
  ch = chUnset ∨ freqToChannel f ≠ 0 ∧ BandQualified ch (freqToChannel f)

theorem staged_notify (f : BitVec 32) : Staged (notifyChanField f.toNat (freqToChannel f).toNat) f := by
  unfold notifyChanField
  by_cases h : freqToChannel f = 0
  · have hzero : chanField f.toNat (freqToChannel f).toNat = 0 := by
      rw [h]
      rfl
    exact .inl (by rw [hzero]; rfl)
  · split
    · exact .inr ⟨h, chanField_freqToChannel h⟩
    · exact .inl rfl

/-- The field of an association is the event's own, or else the fallback's if that names a band. -/
theorem assocChanField_eq (ef ec : Nat) (valid : Bool) (ff fc : Nat) :
    assocChanField ef ec valid ff fc =
      if chanField ef ec ≠ 0 then chanField ef ec
      else if valid = true ∧ chanField ff fc >>> 8 ≠ 0 then chanField ff fc
      else chUnset := by
  unfold assocChanField
  dsimp only
  generalize chanField ef ec = own
  generalize chanField ff fc = fb
  by_cases hown : own = 0#16
  · have hfb : fb >>> 8 ≠ 0#16 → fb ≠ 0#16 := by
      intro h h0
      rw [h0] at h
      exact h rfl
    by_cases hband : fb >>> 8 = 0#16
    · simp [hown, hband]
    · cases valid with
      | false => simp [hown]
      | true => simp [hown, hband, hfb hband]
  · simp [hown]

/-- The field of an association, of the event's frequency or else of the kernel's. -/
theorem staged_assoc (f k : BitVec 32) (valid : Bool) :
    ∃ f', (f' = f ∨ freqToChannel f = 0 ∧ f' = k) ∧
      Staged (assocChanField f.toNat (freqToChannel f).toNat valid k.toNat (freqToChannel k).toNat) f' := by
  have hne : ∀ g : BitVec 32, chanField g.toNat (freqToChannel g).toNat ≠ 0 → freqToChannel g ≠ 0 := by
    intro g h h0
    rw [h0] at h
    exact h rfl
  rw [assocChanField_eq]
  split_ifs with hown hfb
  · exact ⟨f, .inl rfl, .inr ⟨hne f hown, chanField_freqToChannel (hne f hown)⟩⟩
  · have hk : freqToChannel k ≠ 0 := by
      refine hne k fun h0 => hfb.2 ?_
      rw [h0]
      rfl
    have hf : freqToChannel f = 0 := by
      by_contra hf
      obtain ⟨hb, -⟩ := chanField_freqToChannel hf
      rw [not_not.mp hown] at hb
      exact absurd hb (by decide)
    exact ⟨k, .inr ⟨hf, rfl⟩, .inr ⟨hk, chanField_freqToChannel hk⟩⟩
  · exact ⟨f, .inl rfl, .inl rfl⟩

/-- The field that an event stages. -/
theorem staged_channel {x : Input} (hx : Parsed x.evt) (hk : x.KernelAnswer) :
    ∃ f, (f = x.evt.freqMhz ∨ x.evt.kind = .connect ∧ x.evt.channel = 0 ∧ f = x.ifaceFreq.1) ∧
      Staged x.channel f := by
  obtain ⟨m, family, hm⟩ := hx
  have hch := channel_of_parseEvt hm
  unfold Input.channel
  split
  next hkind =>
    unfold Input.assocChannel
    dsimp only
    by_cases h0 : x.evt.channel = 0
    · rw [if_pos h0, hk.ifaceFreq]
      obtain ⟨f', hf', hst⟩ := staged_assoc x.evt.freqMhz x.ifaceFreq.1 (decide (x.ifaceFreq.1 ≠ 0))
      rw [← hch] at hst hf'
      exact ⟨f', hf'.imp_right fun h => ⟨hkind, h0, h.2⟩, hst⟩
    · rw [if_neg h0]
      obtain ⟨f', hf', hst⟩ := staged_assoc x.evt.freqMhz 0 (decide ((0 : BitVec 32) ≠ 0))
      rw [← hch] at hst hf'
      rcases hf' with rfl | ⟨h, -⟩
      · exact ⟨_, .inl rfl, hst⟩
      · exact absurd h h0
  · refine ⟨x.evt.freqMhz, .inl rfl, ?_⟩
    have hst := staged_notify x.evt.freqMhz
    rw [← hch] at hst
    exact hst

/-! ## The scan tables -/

/-- The channels of a band and their frequencies. -/
theorem scanChannelMhz_cases {b : BitVec 16} {c : Nat} (h : scanChannelMhz b c ≠ 0) :
    b = scanBand24 ∧ (1 ≤ c ∧ c ≤ 13 ∧ scanChannelMhz b c = 2407 + 5 * c ∨ c = 14 ∧ scanChannelMhz b c = 2484) ∨
    b = scanBand5 ∧ 36 ≤ c ∧ c ≤ 165 ∧ scanChannelMhz b c = 5000 + 5 * c ∨
    b = scanBand6 ∧ 1 ≤ c ∧ c ≤ 233 ∧ scanChannelMhz b c = 5950 + 5 * c := by
  unfold scanChannelMhz at h ⊢
  cases hbit : scanBitForChannel b c with
  | none => simp [hbit] at h
  | some p =>
    obtain ⟨row, bit⟩ := p
    obtain ⟨hrow, h0⟩ := scanBitForChannel_eq_some.mp hbit
    have hlt := bit.isLt
    rw [hbit, if_neg (by simp)] at h
    rw [if_neg (by simp)]
    unfold scanRowChannel at hrow
    simp only [Fin.le_def] at hrow
    by_cases h24 : b = scanBand24
    · rw [if_pos h24] at hrow ⊢
      refine .inl ⟨h24, ?_⟩
      split_ifs at hrow with hr
      · have hval : ((13 : Fin 32) : Nat) = 13 := rfl
        split
        · omega
        · omega
      · omega
    · rw [if_neg h24] at hrow ⊢
      by_cases h5 : b = scanBand5
      · rw [if_pos h5] at hrow ⊢
        refine .inr (.inl ⟨h5, ?_⟩)
        have h7 : ((7 : Fin 32) : Nat) = 7 := rfl
        have h19 : ((19 : Fin 32) : Nat) = 19 := rfl
        have h24 : ((24 : Fin 32) : Nat) = 24 := rfl
        split_ifs at hrow <;> omega
      · rw [if_neg h5] at hrow ⊢
        by_cases h6 : b = scanBand6
        · rw [if_pos h6] at hrow ⊢
          refine .inr (.inr ⟨h6, ?_⟩)
          have h26 : ((26 : Fin 32) : Nat) = 26 := rfl
          split_ifs at hrow <;> omega
        · rw [if_neg h6] at hrow
          omega

/-- The band byte of a channel in a band. -/
theorem band_chanField {f c : Nat} (h0 : c ≠ 0) (hc : c ≤ 0xFF) :
    (2412 ≤ f ∧ f ≤ 2484 → (chanField f c >>> 8).toNat = 1) ∧
      (5000 ≤ f ∧ f ≤ 5895 → (chanField f c >>> 8).toNat = 2) ∧
      (5955 ≤ f ∧ f ≤ 7115 → (chanField f c >>> 8).toNat = 6) := by
  have hnot : ¬ (c = 0 ∨ c > 0xFF) := by omega
  unfold chanField
  rw [if_neg hnot]
  dsimp only
  refine ⟨fun h => ?_, fun h => ?_, fun h => ?_⟩
  · rw [if_pos h]
    exact ofNat_shiftRight_band (by decide) hc
  · rw [if_neg (by omega), if_pos h]
    exact ofNat_shiftRight_band (by decide) hc
  · rw [if_neg (by omega), if_neg (by omega), if_pos h]
    exact ofNat_shiftRight_band (by decide) hc

/-- A channel of a scan band is the channel of its frequency, in that band. -/
theorem scan_channel_agrees {b : BitVec 16} {c : Nat} (h : scanChannelMhz b c ≠ 0) :
    freqToChannel (BitVec.ofNat 32 (scanChannelMhz b c)) = BitVec.ofNat 16 c ∧
      chanField (scanChannelMhz b c) c >>> 8 = b &&& 0xFF := by
  have hcases := scanChannelMhz_cases h
  have hrange : c ≠ 0 ∧ c ≤ 0xFF := by omega
  obtain ⟨b24, b5, b6⟩ := @band_chanField (scanChannelMhz b c) c hrange.1 hrange.2
  have hmhz : (BitVec.ofNat 32 (scanChannelMhz b c)).toNat = scanChannelMhz b c := by
    rw [BitVec.toNat_ofNat]
    omega
  constructor
  · refine BitVec.eq_of_toNat_eq ?_
    rw [toNat_freqToChannel, hmhz, BitVec.toNat_ofNat]
    split_ifs <;> omega
  · refine BitVec.eq_of_toNat_eq ?_
    rcases hcases with ⟨hb, hc⟩ | ⟨hb, hc⟩ | ⟨hb, hc⟩
    · rw [b24 (by omega), hb]
      rfl
    · rw [b5 (by omega), hb]
      rfl
    · rw [b6 (by omega), hb]
      rfl

/-- What is staged for an event with a channel has the channel of the event. -/
theorem channel_of_staged {s : Latches} {x : Input}
    (hkind : x.evt.kind = .connect ∨ x.evt.kind = .roam ∨ x.evt.kind = .chSwitch) {pe : PlatformEvt}
    (hpe : pe ∈ (stageEvt s x).2) : pe.channel? = some x.channel := by
  unfold stageEvt at hpe
  unfold Input.channel
  rcases hkind with hk | hk | hk
  · rw [hk] at hpe
    dsimp only at hpe
    split at hpe
    · cases hpe
    · rw [List.mem_singleton.mp hpe, if_pos hk]
      rfl
  · rw [hk] at hpe
    rw [List.mem_singleton.mp hpe, hk]
    rfl
  · rw [hk] at hpe
    rw [List.mem_singleton.mp hpe, hk]
    rfl

/-- **The frequency tables agree.** A frequency with a channel has a band; what is staged for an association, a
roaming or a channel switch is unset or has a band and the channel of the event's frequency, or of the
kernel's where an association has none; and a channel of a scan band is the channel of its frequency, in that
band. -/
theorem frequency_tables_agree :
    (∀ f : BitVec 32, freqToChannel f ≠ 0 →
      BandQualified (chanField f.toNat (freqToChannel f).toNat) (freqToChannel f)) ∧
    (∀ e, Parsed e → e.channel = freqToChannel e.freqMhz) ∧
    (∀ (s : Latches) (x : Input), Parsed x.evt → x.KernelAnswer →
      x.evt.kind = .connect ∨ x.evt.kind = .roam ∨ x.evt.kind = .chSwitch →
      ∀ pe ∈ (stageEvt s x).2, ∃ ch, pe.channel? = some ch ∧
        ∃ f, (f = x.evt.freqMhz ∨ x.evt.kind = .connect ∧ x.evt.channel = 0 ∧ f = x.ifaceFreq.1) ∧ Staged ch f) ∧
    ∀ (b : BitVec 16) (c : Nat), scanBandKnown b = true → scanChannelMhz b c ≠ 0 →
      freqToChannel (BitVec.ofNat 32 (scanChannelMhz b c)) = BitVec.ofNat 16 c ∧
        chanField (scanChannelMhz b c) c >>> 8 = b &&& 0xFF := by
  refine ⟨fun f => chanField_freqToChannel, fun e ⟨m, family, h⟩ => channel_of_parseEvt h,
    fun s x hx hk hkind pe hpe => ?_, fun b c _ h => scan_channel_agrees h⟩
  obtain ⟨f, hf, hst⟩ := staged_channel hx hk
  exact ⟨x.channel, channel_of_staged hkind hpe, f, hf, hst⟩

end Opcd.Nl80211
