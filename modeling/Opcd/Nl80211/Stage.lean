import Opcd.Nl80211.Decode
import Opcd.Platform.RoamDatagram

/-!
# From netlink events to platform events

`nl_stage_evt` of `platform_nxp.c`, with the latches it keeps for each WLAN interface: which frame the AP ended
the association with, who sent it, and the channel field of the association. `chan_encode.c` is in
`Protocol.ScanList` and `Platform.RoamDatagram`, but for the field of an association.

The index of an interface is 0 or 1, as `nl_ifindex_to_idx` gives it. The answers of the kernel query and of the
link readback are part of the input.

* `latches_run`: after any events, each latch is as the latest event that concerns it left it.
* `ap_disconnect_attribution`: what a disconnection reports.
-/

namespace Opcd.Nl80211

open Bytes Protocol Platform

/-! ## The staging -/

/-- `opc_assoc_chan_field`. -/
def assocChanField (evtFreq evtCh : Nat) (fbValid : Bool) (fbFreq fbCh : Nat) : BitVec 16 :=
  let own := chanField evtFreq evtCh
  let ch :=
    if own = 0 ∧ fbValid then
      if chanField fbFreq fbCh >>> 8 ≠ 0 then chanField fbFreq fbCh else own
    else own
  if ch ≠ 0 then ch else chUnset

/-- `OPCD_WLAN_STATUS_*`, those that are staged. -/
inductive LinkStatus
  | up | associated | channelChange
  deriving DecidableEq, Repr

/-- `opcd_platform_evt_t`, the kinds that are staged. -/
inductive PlatformEvt
  | wlanStatus (idx : Fin 2) (status : LinkStatus) (channel : BitVec 16)
  | roaming (idx : Fin 2) (snr rssi : BitVec 8) (channel : BitVec 16) (mac : Buf 6)
  | apDisconnect (idx : Fin 2) (reasonMsgId resultCode : BitVec 16) (mac : Buf 6)
  deriving DecidableEq

/-- `OPC_AP_MSG_*`. -/
def apMsgDisassociation : BitVec 16 := 0x000A
def apMsgDeauthentication : BitVec 16 := 0x000C

/-- `g_ap_disc_msgid`, `g_ap_disc_mac` and `g_last_ch`. -/
structure Latches where
  apDiscMsgid : Fin 2 → BitVec 16
  apDiscMac : Fin 2 → Buf 6
  lastCh : Fin 2 → BitVec 16

namespace Latches

def init : Latches := ⟨fun _ => apMsgDeauthentication, fun _ => Buf.zero 6, fun _ => chUnset⟩

/-- `nl_note_ch`. -/
def noteCh (s : Latches) (idx : Fin 2) (chField : BitVec 16) : Latches :=
  { s with lastCh := Function.update s.lastCh idx (if chField ≠ 0 then chField else chUnset) }

/-- `nl_clear_ap_disc_hint`. -/
def clearApDiscHint (s : Latches) (idx : Fin 2) : Latches :=
  { s with
    apDiscMsgid := Function.update s.apDiscMsgid idx apMsgDeauthentication
    apDiscMac := Function.update s.apDiscMac idx (Buf.zero 6) }

/-- `nl_seed_ch_cache`, with what the query says for each interface: nothing when the interface is not there or
the query fails. -/
def seedChCache (s : Latches) (query : Fin 2 → Option (BitVec 32 × BitVec 16)) : Latches :=
  (List.finRange 2).foldl (fun s idx =>
    match query idx with
    | none => s
    | some (freq, ch) => s.noteCh idx (chanField freq.toNat ch.toNat)) s

end Latches

/-- What `nxp_get_link` gives of the signal. -/
structure LinkSignal where
  snr : BitVec 8
  snrValid : Bool
  rssi : BitVec 8
  rssiValid : Bool

/-- An event for an interface, with what `nxp_query_iface` and `nxp_get_link` answer if they are asked. -/
structure Input where
  idx : Fin 2
  evt : Evt
  iface : Option (BitVec 32 × BitVec 16)
  link : LinkSignal

namespace Input

variable (x : Input)

/-- `nxp_get_iface_freq`, into two zeros. -/
def ifaceFreq : BitVec 32 × BitVec 16 :=
  match x.iface with
  | some (freq, ch) => if freq ≠ 0 then (freq, ch) else (0, 0)
  | none => (0, 0)

/-- The channel field of an association. The kernel is asked when the event has no channel. -/
def assocChannel : BitVec 16 :=
  let k := if x.evt.channel = 0 then x.ifaceFreq else (0, 0)
  assocChanField x.evt.freqMhz.toNat x.evt.channel.toNat (k.1 ≠ 0) k.1.toNat k.2.toNat

/-- The channel field of a roaming and of a channel switch. -/
def notifyChannel : BitVec 16 := notifyChanField x.evt.freqMhz.toNat x.evt.channel.toNat

/-- The event has an AP address of its own. -/
def ownMac : Bool := x.evt.macPresent ∧ x.evt.mac[0] &&& 1 = 0 ∧ x.evt.mac ≠ Buf.zero 6

end Input

/-- `nl_stage_evt`: the latches and the events that are put into the table, in order. -/
def stageEvt (s : Latches) (x : Input) : Latches × List PlatformEvt :=
  match x.evt.kind with
  | .connect =>
    if x.evt.statusCode ≠ 0 then (s, [])
    else
      ((s.clearApDiscHint x.idx).noteCh x.idx x.assocChannel,
        [.wlanStatus x.idx .associated x.assocChannel])
  | .disconnect =>
    (s.clearApDiscHint x.idx,
      (if x.evt.byAp then
        [.apDisconnect x.idx (s.apDiscMsgid x.idx) x.evt.reasonCode
          (if x.ownMac then x.evt.mac else s.apDiscMac x.idx)]
      else []) ++ [.wlanStatus x.idx .up (s.lastCh x.idx)])
  | .deauth | .disassoc =>
    ({ s with
      apDiscMsgid := Function.update s.apDiscMsgid x.idx
        (if x.evt.kind = .deauth then apMsgDeauthentication else apMsgDisassociation)
      apDiscMac := Function.update s.apDiscMac x.idx x.evt.apFrameMac }, [])
  | .roam =>
    ((s.clearApDiscHint x.idx).noteCh x.idx x.notifyChannel,
      [.roaming x.idx
        (if x.link.snrValid then x.link.snr else BitVec.ofInt 8 signalInvalid)
        (if x.link.rssiValid then x.link.rssi else BitVec.ofInt 8 signalInvalid)
        x.notifyChannel x.evt.mac])
  | .chSwitch => (s.noteCh x.idx x.notifyChannel, [.wlanStatus x.idx .channelChange x.notifyChannel])
  | .ignore | .interface => (s, [])

/-- The machine of the latches. -/
def staging : Machine Latches Input PlatformEvt where
  step s x := (stageEvt s x).1
  out s x := (stageEvt s x).2

/-! ## The latest event -/

/-- The event is about how the association of the interface ended, or that there is a new one. -/
def Input.hints (i : Fin 2) (x : Input) : Bool :=
  x.idx = i ∧ (x.evt.kind = .deauth ∨ x.evt.kind = .disassoc ∨
    x.evt.kind = .connect ∧ x.evt.statusCode = 0 ∨ x.evt.kind = .roam ∨ x.evt.kind = .disconnect)

/-- The event is about the channel of the interface. -/
def Input.tunes (i : Fin 2) (x : Input) : Bool :=
  x.idx = i ∧ (x.evt.kind = .connect ∧ x.evt.statusCode = 0 ∨ x.evt.kind = .roam ∨ x.evt.kind = .chSwitch)

/-- The channel field that the event stages. -/
def Input.channel (x : Input) : BitVec 16 :=
  if x.evt.kind = .connect then x.assocChannel else x.notifyChannel

/-- The channel field of a staged event. -/
def PlatformEvt.channel? : PlatformEvt → Option (BitVec 16)
  | .wlanStatus _ _ ch => some ch
  | .roaming _ _ _ ch _ => some ch
  | .apDisconnect _ _ _ _ => none

theorem chUnset_ne_zero : chUnset ≠ 0 := by decide

theorem assocChanField_ne_zero (ef ec : Nat) (v : Bool) (ff fc : Nat) : assocChanField ef ec v ff fc ≠ 0 := by
  unfold assocChanField
  dsimp only
  generalize (if chanField ef ec = 0 ∧ v = true then _ else _ : BitVec 16) = ch
  by_cases h : ch ≠ 0
  · rwa [if_pos h]
  · rw [if_neg h]
    exact chUnset_ne_zero

theorem notifyChanField_ne_zero (f c : Nat) : notifyChanField f c ≠ 0 := by
  unfold notifyChanField
  split
  · rename_i h
    intro h0
    exact h (by rw [h0]; rfl)
  · exact chUnset_ne_zero

theorem Input.channel_ne_zero (x : Input) : x.channel ≠ 0#16 := by
  unfold channel
  split
  · exact assocChanField_ne_zero _ _ _ _ _
  · exact notifyChanField_ne_zero _ _

/-- What an event leaves of how the association ended: the message and who sent the frame. -/
def Input.hint (x : Input) : BitVec 16 × Buf 6 :=
  (if x.evt.kind = .disassoc then apMsgDisassociation else apMsgDeauthentication,
    if x.evt.kind = .deauth ∨ x.evt.kind = .disassoc then x.evt.apFrameMac else Buf.zero 6)

/-! ## One event -/

section Step

variable (s : Latches) {x : Input} {i : Fin 2}

/-- An event changes nothing of the other interface. -/
theorem step_other (h : x.idx ≠ i) :
    (staging.step s x).apDiscMsgid i = s.apDiscMsgid i ∧ (staging.step s x).apDiscMac i = s.apDiscMac i ∧
      (staging.step s x).lastCh i = s.lastCh i := by
  have hi : i ≠ x.idx := h.symm
  cases hk : x.evt.kind with
  | connect =>
    by_cases hok : x.evt.statusCode = 0#16
    · simp [staging, stageEvt, Latches.clearApDiscHint, Latches.noteCh, hk, hok, hi]
    · simp [staging, stageEvt, hk, hok]
  | _ => simp [staging, stageEvt, Latches.clearApDiscHint, Latches.noteCh, hk, hi]

/-- A failed association changes nothing. -/
theorem step_failed (hk : x.evt.kind = .connect) (hfail : x.evt.statusCode ≠ 0#16) : staging.step s x = s := by
  simp [staging, stageEvt, hk, hfail]

theorem step_hint (h : x.hints i = true) :
    ((staging.step s x).apDiscMsgid i, (staging.step s x).apDiscMac i) = x.hint := by
  obtain ⟨rfl, hkind⟩ := of_decide_eq_true h
  cases hk : x.evt.kind with
  | connect =>
    have hok : x.evt.statusCode = 0 := by simpa [hk] using hkind
    simp [staging, stageEvt, Input.hint, Latches.clearApDiscHint, Latches.noteCh, hk, hok]
  | ignore => simp [hk] at hkind
  | interface => simp [hk] at hkind
  | chSwitch => simp [hk] at hkind
  | _ => simp [staging, stageEvt, Input.hint, Latches.clearApDiscHint, Latches.noteCh, hk]

theorem step_hint_keep (h : x.hints i = false) :
    ((staging.step s x).apDiscMsgid i, (staging.step s x).apDiscMac i) = (s.apDiscMsgid i, s.apDiscMac i) := by
  have hno := of_decide_eq_false h
  by_cases hi : x.idx = i
  · cases hk : x.evt.kind with
    | connect =>
      have hfail : x.evt.statusCode ≠ 0 := by simpa [hi, hk] using hno
      rw [step_failed s hk hfail]
    | ignore => simp [staging, stageEvt, hk]
    | interface => simp [staging, stageEvt, hk]
    | chSwitch => simp [staging, stageEvt, Latches.noteCh, hk]
    | _ => simp [hi, hk] at hno
  · obtain ⟨hid, hmac, -⟩ := step_other s hi
    rw [hid, hmac]

/-- An event about the channel stages its field and latches it. -/
theorem step_tune (h : x.tunes i = true) :
    (staging.step s x).lastCh i = x.channel ∧ (staging.out s x).filterMap PlatformEvt.channel? = [x.channel] := by
  have hne := x.channel_ne_zero
  obtain ⟨rfl, hkind⟩ := of_decide_eq_true h
  unfold Input.channel at hne ⊢
  cases hk : x.evt.kind with
  | connect =>
    have hok : x.evt.statusCode = 0 := by simpa [hk] using hkind
    simp only [hk, if_true] at hne
    simp [staging, stageEvt, Latches.noteCh, PlatformEvt.channel?, hk, hok, hne]
  | roam =>
    simp only [hk, reduceCtorEq, if_false] at hne
    simp [staging, stageEvt, Latches.noteCh, PlatformEvt.channel?, hk, hne]
  | chSwitch =>
    simp only [hk, reduceCtorEq, if_false] at hne
    simp [staging, stageEvt, Latches.noteCh, PlatformEvt.channel?, hk, hne]
  | _ => simp [hk] at hkind

theorem step_tune_keep (h : x.tunes i = false) : (staging.step s x).lastCh i = s.lastCh i := by
  have hno := of_decide_eq_false h
  by_cases hi : x.idx = i
  · cases hk : x.evt.kind with
    | connect =>
      have hfail : x.evt.statusCode ≠ 0 := by simpa [hi, hk] using hno
      rw [step_failed s hk hfail]
    | roam => simp [hi, hk] at hno
    | chSwitch => simp [hi, hk] at hno
    | _ => simp [staging, stageEvt, Latches.clearApDiscHint, hk]
  · exact (step_other s hi).2.2

end Step

/-! ## Any events -/

/-- The latches with a channel cache and no hint. -/
def Latches.cached (cache : Fin 2 → BitVec 16) : Latches := { Latches.init with lastCh := cache }

/-- The cache that the seeding leaves: the field the query gives, and no channel without one. -/
def seededCache (query : Fin 2 → Option (BitVec 32 × BitVec 16)) (i : Fin 2) : BitVec 16 :=
  match query i with
  | none => chUnset
  | some (freq, ch) =>
    if chanField freq.toNat ch.toNat ≠ 0 then chanField freq.toNat ch.toNat else chUnset

theorem seedChCache_init (query : Fin 2 → Option (BitVec 32 × BitVec 16)) :
    Latches.init.seedChCache query = .cached (seededCache query) := by
  have htwo : List.finRange 2 = [0, 1] := rfl
  have hcache : (Latches.init.seedChCache query).lastCh = seededCache query := by
    funext i
    unfold Latches.seedChCache seededCache
    rw [htwo]
    fin_cases i <;> cases h₀ : query 0 <;> cases h₁ : query 1 <;>
      simp [h₀, h₁, Latches.noteCh, Latches.init]
  unfold Latches.cached
  rw [← hcache]
  unfold Latches.seedChCache
  rw [htwo]
  cases h₀ : query 0 <;> cases h₁ : query 1 <;> simp [h₀, h₁, Latches.noteCh]

/-- **The latches after any events**: each is as the latest event that concerns it left it. -/
theorem latches_run (cache : Fin 2 → BitVec 16) (xs : List Input) (i : Fin 2) :
    let s := staging.run (.cached cache) xs
    (s.apDiscMsgid i, s.apDiscMac i) =
      (xs.latest (Input.hints i)).elim (apMsgDeauthentication, Buf.zero 6) Input.hint ∧
    s.lastCh i = (xs.latest (Input.tunes i)).elim (cache i) Input.channel := by
  constructor
  · exact staging.run_latest (fun s => (s.apDiscMsgid i, s.apDiscMac i))
      (fun s _ h => step_hint s h) (fun s _ h => step_hint_keep s h) _ xs
  · exact staging.run_latest (fun s => s.lastCh i)
      (fun s _ h => (step_tune s h).1) (fun s _ h => step_tune_keep s h) _ xs

/-- **AP-disconnect attribution.** After any events for the two interfaces, a disconnection of an interface
reports how the AP ended the association, from the latest event of that interface that says so or starts
another one; its own AP address if it has a usable one, else the sender of that frame; and the channel field
that the latest event about the channel staged. The sender is checked by the parser: it is that of the last
frame attribute that passes, or zero. -/
theorem ap_disconnect_attribution :
    (∀ (cache : Fin 2 → BitVec 16) (before : List Input) (d : Input), d.evt.kind = .disconnect →
      let ended := before.latest (Input.hints d.idx)
      let tuned := before.latest (Input.tunes d.idx)
      staging.out (staging.run (.cached cache) before) d =
        (if d.evt.byAp then
          [.apDisconnect d.idx
            (if ended.map (fun x => x.evt.kind) = some .disassoc then apMsgDisassociation
            else apMsgDeauthentication)
            d.evt.reasonCode
            (if d.ownMac then d.evt.mac
            else
              match ended with
              | some x =>
                if x.evt.kind = .deauth ∨ x.evt.kind = .disassoc then x.evt.apFrameMac else Buf.zero 6
              | none => Buf.zero 6)]
        else []) ++ [.wlanStatus d.idx .up (tuned.elim (cache d.idx) Input.channel)]) ∧
    (∀ (s : Latches) (x : Input) (i : Fin 2), x.tunes i →
      (staging.out s x).filterMap PlatformEvt.channel? = [x.channel]) ∧
    (∀ query, Latches.init.seedChCache query = .cached (seededCache query)) ∧
    (∀ (b : Bytes) (base len : Nat) (family : Int) (e : Evt), base + len ≤ b.length →
      parseEvt b base len family = some (true, e) →
      e.apFrameMac = (Field.frame.last e.kind (attrsAt b base len 20)).elim (Buf.zero 6)
        fun p => Buf.ofBytes 6 ((p.drop 10).take 6)) := by
  refine ⟨?_, fun s x i h => (step_tune s h).2, seedChCache_init, ?_⟩
  · intro cache before d hd
    obtain ⟨hhint, hch⟩ := latches_run cache before d.idx
    dsimp only at hhint hch ⊢
    generalize staging.run (.cached cache) before = s at hhint hch
    have hout : staging.out s d =
        (if d.evt.byAp then
          [.apDisconnect d.idx (s.apDiscMsgid d.idx) d.evt.reasonCode
            (if d.ownMac then d.evt.mac else s.apDiscMac d.idx)]
        else []) ++ [.wlanStatus d.idx .up (s.lastCh d.idx)] := by
      simp [staging, stageEvt, hd]
    rw [hout, hch]
    cases hended : before.latest (Input.hints d.idx) with
    | none =>
      rw [hended] at hhint
      obtain ⟨hid, hmac⟩ := Prod.mk.inj hhint
      rw [hid, hmac]
      rfl
    | some x =>
      rw [hended] at hhint
      obtain ⟨hid, hmac⟩ := Prod.mk.inj hhint
      rw [hid, hmac, Option.map_some]
      simp only [Option.some.injEq]
  · intro b base len family e h he
    exact (decoded_parseEvt h he).apFrameMac

end Opcd.Nl80211
