import Opcd.Indication.Notify
import Opcd.Startup

/-!
# The congestion notices

For one resource, what the notifier does under one configuration is a run of the alarm of
`Opcd.Lib.Alarm`: the band state and the notify latch of the probe, and the entry that is staged for the
end of the period. With period 0 an entry is sent within the tick that finds it, and reopens its latch if
that fails; else it waits for a boundary, and is withdrawn when the resource is released before that.

* `follows_take`: every input moves the alarm of each resource by the alarm's own steps.
* `congestion_automaton`: the band state, and when a congestion is sent.
-/

namespace Opcd

open Bytes Protocol Fault

/-- `OPC_CONGESTION_*` less one. -/
def Fault.Res.slot : Res → Fin 4
  | .cpu => 0
  | .mem => 1
  | .disk => 2
  | .net => 3

theorem faultSlot_congestionId (r : Res) : faultSlot r.congestionId = some r.slot := by
  cases r <;> rfl

theorem congestionId_slot (r : Res) : BitVec.ofNat 16 (r.slot + 1) = r.congestionId := by
  cases r <;> rfl

theorem exists_slot (k : Fin 4) : ∃ r : Res, r.slot = k := by
  fin_cases k
  exacts [⟨.cpu, rfl⟩, ⟨.mem, rfl⟩, ⟨.disk, rfl⟩, ⟨.net, rfl⟩]

theorem slot_injective : Function.Injective Res.slot := by
  intro r r' h
  revert h
  cases r <;> cases r' <;> decide

theorem congestionId_injective : Function.Injective Res.congestionId := by
  intro r r' h
  revert h
  cases r <;> cases r' <;> decide

/-- The resource a notice is about, by its congestion id. -/
def Notice.congestion? : Notice → Option (BitVec 16)
  | .faultDetect v => some v.congestionId
  | _ => none

/-- A datagram that reports the congestion of a resource. -/
def Datagram.FaultOf (d : Datagram) (r : Res) : Prop := d.notice.congestion? = some r.congestionId

instance Datagram.decidableFaultOf (d : Datagram) (r : Res) : Decidable (d.FaultOf r) :=
  inferInstanceAs (Decidable (_ = _))

theorem faultOf_mk (ip : BitVec 32) (port seq val : BitVec 16) (ok : Bool) (r : Res) :
    Datagram.FaultOf ⟨ip, port, seq, .faultDetect ⟨r.congestionId, val⟩, ok⟩ r := rfl

/-- What an event is to the alarm of a resource. -/
def Event.label (r : Res) : Event → Option (Alarm.Label Nat)
  | .sampled pct => some (.sample (pct r))
  | .sent d => if d.FaultOf r then some (.announce d.ok) else none
  | .boundary => none

theorem label_faultOf {d : Datagram} {r : Res} (h : d.FaultOf r) :
    (Event.sent d).label r = some (.announce d.ok) := if_pos h

theorem label_other {d : Datagram} {r r' : Res} (h : d.FaultOf r') (hr : r ≠ r') : (Event.sent d).label r = none := by
  refine if_neg fun h' => hr (congestionId_injective ?_)
  exact Option.some.inj (h'.symm.trans h)

theorem faultOf_of_label {e : Event} {r : Res} {ok : Bool} (h : e.label r = some (.announce ok)) :
    ∃ d, e = .sent d ∧ d.FaultOf r ∧ d.ok = ok := by
  cases e with
  | sampled pct => simp [Event.label] at h
  | boundary => simp [Event.label] at h
  | sent d =>
    by_cases hd : d.FaultOf r
    · rw [label_faultOf hd] at h
      exact ⟨d, rfl, hd, by simpa using h⟩
    · simp [Event.label, hd] at h

theorem sampled_of_label {e : Event} {r : Res} {p : Option Nat} (h : e.label r = some (.sample p)) :
    ∃ pct, e = .sampled pct ∧ pct r = p := by
  cases e with
  | sampled pct => exact ⟨pct, rfl, by simpa [Event.label] using h⟩
  | boundary => simp [Event.label] at h
  | sent d =>
    by_cases hd : d.FaultOf r
    · simp [label_faultOf hd] at h
    · simp [Event.label, hd] at h

namespace Indication

/-! ## What leaves the watch alone -/

/-- The settings as the congestion watch sees them did not change. -/
structure Same (ind ind' : Indication) : Prop where
  enabled : ind'.enabled = ind.enabled
  infoBits : ind'.infoBits = ind.infoBits
  periodS : ind'.periodS = ind.periodS
  recipientIp : ind'.recipientIp = ind.recipientIp
  recipientPort : ind'.recipientPort = ind.recipientPort
  faultProbe : ind'.faultProbe = ind.faultProbe
  faultPending : ∀ i, (ind'.coalesce i).faultPending = (ind.coalesce i).faultPending

theorem Same.refl (ind : Indication) : Same ind ind := ⟨rfl, rfl, rfl, rfl, rfl, rfl, fun _ => rfl⟩

theorem Same.trans {ind ind' ind'' : Indication} (h : Same ind ind') (h' : Same ind' ind'') :
    Same ind ind'' :=
  ⟨h'.enabled.trans h.enabled, h'.infoBits.trans h.infoBits, h'.periodS.trans h.periodS,
    h'.recipientIp.trans h.recipientIp, h'.recipientPort.trans h.recipientPort,
    h'.faultProbe.trans h.faultProbe, fun i => (h'.faultPending i).trans (h.faultPending i)⟩

/-- A sender that has nothing to do with congestion. -/
structure Aside (ind : Indication) (t : Told) : Prop where
  same : Same ind t.ind
  labels : ∀ r, t.out.filterMap (Event.label r) = []

theorem aside_still (ind : Indication) : Aside ind ind.still := ⟨.refl ind, fun _ => rfl⟩

/-- The settings are replaced, but not for the watch. -/
theorem Same.aside {ind ind' : Indication} (h : Same ind ind') : Aside ind ind'.still := ⟨h, fun _ => rfl⟩

theorem Aside.bind {ind : Indication} {t : Told} {f : Indication → Told} (h : Aside ind t)
    (hf : Aside t.ind (f t.ind)) : Aside ind (t.bind f) := by
  refine ⟨h.same.trans hf.same, fun r => ?_⟩
  rw [Told.bind_out, List.filterMap_append, h.labels r, hf.labels r]
  rfl

/-- A send goes out while notifications are enabled and there is a recipient. -/
theorem emit_eq (ind : Indication) (sends : Sends) (n : Notice) :
    ind.emit sends n =
      if ind.enabled = true ∧ ind.reaches = true then
        ⟨{ ind with seq := ind.seq + 1 },
          [.sent ⟨ind.recipientIp, ind.recipientPort, ind.seq, n, sends ind.seq⟩], sends ind.seq⟩
      else ⟨{ ind with seq := ind.seq + 1 }, [], true⟩ := by
  obtain ⟨f, hf⟩ := Option.isSome_iff_exists.mp (n.isSome_pack ind.seq)
  have hr : ind.reaches = true ↔ ¬ (ind.recipientIp = 0 ∨ ind.recipientPort = 0) := by
    simp [reaches]
  unfold emit
  rw [hf]
  dsimp only
  by_cases he : ind.enabled = true
  · by_cases hz : ind.recipientIp = 0 ∨ ind.recipientPort = 0
    · rw [if_neg (by simpa using he), if_pos hz, if_neg fun h => (hr.mp h.2) hz]
    · rw [if_neg (by simpa using he), if_neg hz, if_pos ⟨he, hr.mpr hz⟩]
  · rw [if_pos he, if_neg fun h => he h.1]

theorem same_emit (ind : Indication) (sends : Sends) (n : Notice) : Same ind (ind.emit sends n).ind := by
  rw [emit_eq]
  split <;> exact ⟨rfl, rfl, rfl, rfl, rfl, rfl, fun _ => rfl⟩

theorem aside_emit (ind : Indication) (sends : Sends) {n : Notice} (hn : n.kind ≠ .faultDetect) :
    Aside ind (ind.emit sends n) := by
  refine ⟨same_emit ind sends n, fun r => ?_⟩
  rw [emit_eq]
  split
  · have hno : ¬ Datagram.FaultOf
        ⟨ind.recipientIp, ind.recipientPort, ind.seq, n, sends ind.seq⟩ r := by
      cases n with
      | faultDetect v => exact absurd rfl hn
      | _ => simp [Datagram.FaultOf, Notice.congestion?]
    simp [Event.label, hno]
  · rfl

/-- Staging something else keeps the staged congestions. -/
theorem same_stage (ind : Indication) (i : Fin 2) {f : Coalesce → Coalesce}
    (hf : ∀ c, (f c).faultPending = c.faultPending) : Same ind (ind.stage i f) := by
  refine ⟨rfl, rfl, rfl, rfl, rfl, rfl, fun j => ?_⟩
  by_cases hj : j = i
  · subst hj
    simp [stage, hf]
  · simp [stage, Function.update_of_ne hj]

theorem aside_initComplete (ind : Indication) (sends : Sends) (status : BitVec 32) :
    Aside ind (ind.initComplete sends status) := by
  unfold initComplete
  split
  · exact aside_still ind
  · exact aside_emit ind sends (by simp [Notice.kind])

theorem aside_radioUp (ind : Indication) (sends : Sends) : Aside ind (ind.radioUp sends) := by
  unfold radioUp
  split
  · exact aside_still ind
  · have h := aside_initComplete { ind with radioUpReported := true } sends InitState.radioUp.code
    have hsame : Same ind { ind with radioUpReported := true } :=
      ⟨rfl, rfl, rfl, rfl, rfl, rfl, fun _ => rfl⟩
    exact ⟨hsame.trans h.same, h.labels⟩

theorem aside_resetNotice (ind : Indication) (sends : Sends) (cause : BitVec 32) :
    Aside ind (ind.resetNotice sends cause) := by
  unfold resetNotice
  split
  · exact aside_still ind
  · exact aside_emit ind sends (by simp [Notice.kind])

theorem aside_keepAlive (ind : Indication) (sends : Sends) (timestamp : Bytes) :
    Aside ind (ind.keepAlive sends timestamp) := by
  unfold keepAlive
  split
  · exact aside_still ind
  · exact aside_emit ind sends (by simp [Notice.kind])

theorem aside_roaming (ind : Indication) (sends : Sends) (v : RoamingInd) : Aside ind (ind.roaming sends v) := by
  unfold roaming
  split
  · exact aside_still ind
  · split
    · refine (same_stage ind 0 ?_).aside
      exact fun _ => rfl
    · exact aside_emit ind sends (by simp [Notice.kind])

theorem aside_apDisconnect (ind : Indication) (sends : Sends) (v : ApDisconnect) :
    Aside ind (ind.apDisconnect sends v) := by
  unfold apDisconnect
  split
  · exact aside_still ind
  · split
    · refine (same_stage ind 0 ?_).aside
      exact fun _ => rfl
    · exact aside_emit ind sends (by simp [Notice.kind])

theorem aside_wlanStatus (ind : Indication) (sends : Sends) (now : Nat) (v : WlanStatusChange) :
    Aside ind (ind.wlanStatus sends now v) := by
  have hrest : ∀ ind : Indication, Aside ind
      (if ¬ ind.wants .wlanStatusChange then ind.still
      else if ind.periodS > 0 then
        (ind.stage 0 fun c =>
          { c with wlanStatus := v.wlanStatus, wlanCh := v.indicationCh, wlanPending := true }).still
      else ind.emit sends (.wlanStatusChange v)) := by
    intro ind
    split
    · exact aside_still ind
    · split
      · refine (same_stage ind 0 ?_).aside
        exact fun _ => rfl
      · exact aside_emit ind sends (by simp [Notice.kind])
  have hnoted : ∀ known assoc (t : Nat), Same ind
      { ind with wlan0AssocKnown := known, wlan0Assoc := assoc, wlan0AssocAt := t } :=
    fun _ _ _ => ⟨rfl, rfl, rfl, rfl, rfl, rfl, fun _ => rfl⟩
  unfold wlanStatus
  refine Aside.bind ?_ (hrest _)
  split
  · have h := aside_radioUp { ind with
      wlan0AssocKnown := true, wlan0Assoc := decide (v.wlanStatus = wlanStatusConnected)
      wlan0AssocAt := now } sends
    exact ⟨(hnoted _ _ _).trans h.same, h.labels⟩
  · exact (hnoted _ _ _).aside

/-! ## The alarm of a resource -/

/-- What a configuration fixes for the watch: the period, whether there is a recipient, and the levels. -/
structure Setting where
  period : Byte
  reaches : Bool
  band : Band Nat
  one_le : 1 ≤ band.clear
  le_hundred : band.threshold ≤ 100

/-- With a period, a failed send stays staged. -/
def Setting.mode (S : Setting) : Alarm.Mode := ⟨decide (S.period ≠ 0), S.reaches⟩

/-- The settings agree with a setting. Nothing is staged for the second link, and with period 0
nothing at all. -/
structure Under (S : Setting) (ind : Indication) : Prop where
  wants : ind.wants .faultDetect = true
  period : ind.periodS = S.period
  reaches : ind.reaches = S.reaches
  threshold : ind.faultProbe.thresholdPct = S.band.threshold
  clear : ind.faultProbe.clearPct = S.band.clear
  link1 : ∀ k, (ind.coalesce 1).faultPending k = false
  immediate : S.period = 0 → ∀ k, (ind.coalesce 0).faultPending k = false

section Watch

variable {S : Setting} {ind ind' : Indication}

theorem Same.reaches (h : Same ind ind') : ind'.reaches = ind.reaches := by
  simp only [Indication.reaches, h.recipientIp, h.recipientPort]

theorem Under.same (hu : Under S ind) (h : Same ind ind') : Under S ind' where
  wants := by
    rw [← hu.wants]
    simp only [Indication.wants, h.infoBits]
  period := h.periodS.trans hu.period
  reaches := h.reaches.trans hu.reaches
  threshold := by
    rw [h.faultProbe]
    exact hu.threshold
  clear := by
    rw [h.faultProbe]
    exact hu.clear
  link1 k := by
    rw [h.faultPending 1]
    exact hu.link1 k
  immediate hp k := by
    rw [h.faultPending 0]
    exact hu.immediate hp k

theorem Under.levels (hu : Under S ind) : ind.faultProbe.Levels := by
  refine ⟨?_, ?_, ?_⟩
  · rw [hu.clear]
    exact S.one_le
  · rw [hu.clear, hu.threshold]
    exact S.band.le
  · rw [hu.threshold]
    exact S.le_hundred

/-- The alarm of a resource while a sample is handled: `due` entries are still to be notified, and staged
entries of the `gone` resources still to be withdrawn. -/
def midAlarm (ind : Indication) (due gone : Res → Bool) (r : Res) : Alarm :=
  ⟨ind.faultProbe.congested r, ind.faultProbe.notified r,
    !gone r && ((ind.coalesce 0).faultPending r.slot || due r)⟩

/-- The alarm of a resource. -/
def alarm (ind : Indication) (r : Res) : Alarm :=
  ⟨ind.faultProbe.congested r, ind.faultProbe.notified r, (ind.coalesce 0).faultPending r.slot⟩

theorem Same.alarm (h : Same ind ind') (r : Res) : ind'.alarm r = ind.alarm r := by
  simp only [Indication.alarm, h.faultProbe, h.faultPending 0]

/-- What a sender did is what the alarm of each resource may do. -/
structure Follows (S : Setting) (ind : Indication) (t : Told) : Prop where
  under : Under S t.ind
  enabled : t.ind.enabled = ind.enabled
  steps : ∀ r, Steps (Alarm.Step S.band S.mode) (ind.alarm r) (t.out.filterMap (Event.label r))
    (t.ind.alarm r)

theorem Aside.follows {t : Told} (h : Aside ind t) (hu : Under S ind) : Follows S ind t := by
  refine ⟨hu.same h.same, h.same.enabled, fun r => ?_⟩
  rw [h.labels r, h.same.alarm r]
  exact .refl _

theorem Follows.bind {t : Told} {f : Indication → Told} (h : Follows S ind t)
    (hf : Follows S t.ind (f t.ind)) : Follows S ind (t.bind f) := by
  refine ⟨hf.under, hf.enabled.trans h.enabled, fun r => ?_⟩
  rw [Told.bind_out, List.filterMap_append]
  exact (h.steps r).trans (hf.steps r)

/-! ## A sample -/

/-- The reach of an emitted congestion notice: it is announced, or nobody is there. -/
theorem emit_fault (hu : Under S ind) (he : ind.enabled = true) (sends : Sends) (r' : Res) (val : BitVec 16) :
    let t := ind.emit sends (.faultDetect ⟨r'.congestionId, val⟩)
    (S.reaches = true ∧ ∃ d : Datagram, d.FaultOf r' ∧ t.out = [.sent d] ∧ d.ok = t.ok) ∨
      (S.reaches = false ∧ t.out = [] ∧ t.ok = true) := by
  intro t
  simp only [t, emit_eq, he, hu.reaches, true_and]
  cases S.reaches with
  | true => exact .inl ⟨rfl, _, faultOf_mk _ _ _ _ _ _, rfl, rfl⟩
  | false => exact .inr ⟨rfl, rfl, rfl⟩

/-- An entry under a period is staged. -/
theorem faultDetect_staged (hu : Under S ind) (hp : S.period ≠ 0) (sends : Sends) (r : Res) (val : BitVec 16) :
    ind.faultDetect sends ⟨r.congestionId, val⟩ =
      (ind.stage 0 fun c =>
        { c with
          faultVal := Function.update c.faultVal r.slot val
          faultPending := Function.update c.faultPending r.slot true }).still := by
  have hpos : ind.periodS > 0 := by
    rw [hu.period]
    bv_omega
  unfold faultDetect
  rw [if_neg (by simp [hu.wants]), if_pos hpos, faultSlot_congestionId]

/-- Without one it is sent. -/
theorem faultDetect_sent (hu : Under S ind) (hp : S.period = 0) (sends : Sends) (v : FaultDetect) :
    ind.faultDetect sends v = ind.emit sends (.faultDetect v) := by
  have hzero : ¬ ind.periodS > 0 := by
    rw [hu.period, hp]
    exact BitVec.lt_irrefl _
  unfold faultDetect
  rw [if_neg (by simp [hu.wants]), if_neg hzero]

/-- The entries among `rs`. -/
def dueIn (rep : Report) (rs : List Res) (r : Res) : Bool := rep.entered r && decide (r ∈ rs)

/-- The released resources among `rs`. -/
def goneIn (rep : Report) (rs : List Res) (r : Res) : Bool := rep.cleared r && decide (r ∈ rs)

theorem dueIn_cons_ne (rep : Report) {r r' : Res} (rs : List Res) (h : r ≠ r') :
    dueIn rep (r' :: rs) r = dueIn rep rs r := by
  simp [dueIn, h]

theorem goneIn_cons_ne (rep : Report) {r r' : Res} (rs : List Res) (h : r ≠ r') :
    goneIn rep (r' :: rs) r = goneIn rep rs r := by
  simp [goneIn, h]

/-- Staging or withdrawing the congestion of a resource. -/
theorem under_stage_fault (hu : Under S ind) (hp : S.period ≠ 0) (f : Coalesce → Coalesce) :
    Under S (ind.stage 0 f) where
  wants := hu.wants
  period := hu.period
  reaches := hu.reaches
  threshold := hu.threshold
  clear := hu.clear
  link1 := by simpa [stage] using hu.link1
  immediate h := absurd h hp

theorem pending_stage (f : Coalesce → Coalesce) :
    ((ind.stage 0 f).coalesce 0).faultPending = (f (ind.coalesce 0)).faultPending := by
  simp [stage]

/-- Announcing takes the entries off one by one. -/
def Announced (S : Setting) (rep : Report) (gone : Res → Bool) (ind : Indication) (r' : Res)
    (rs : List Res) (t : Told) : Prop :=
  Under S t.ind ∧ t.ind.enabled = true ∧
    ∀ r, Steps (Alarm.Step S.band S.mode) (ind.midAlarm (dueIn rep (r' :: rs)) gone r)
      (t.out.filterMap (Event.label r)) (t.ind.midAlarm (dueIn rep rs) gone r)

section Announce

variable (hu : Under S ind) (he : ind.enabled = true) {rep : Report} {gone : Res → Bool} {r' : Res}
  {rs : List Res}
include hu he

theorem announced_none (hent : rep.entered r' ≠ true) : Announced S rep gone ind r' rs ind.still := by
  refine ⟨hu, he, fun r => ?_⟩
  have heq : ind.midAlarm (dueIn rep (r' :: rs)) gone r = ind.midAlarm (dueIn rep rs) gone r := by
    by_cases hr : r = r'
    · subst hr
      simp [midAlarm, dueIn, hent]
    · simp [midAlarm, dueIn_cons_ne rep rs hr]
  rw [heq]
  exact .refl _

/-- Staged: what was due is pending now. -/
theorem announced_staged (hp : S.period ≠ 0) (hent : rep.entered r' = true) :
    Announced S rep gone ind r' rs
      (ind.stage 0 fun c =>
        { c with
          faultVal := Function.update c.faultVal r'.slot (rep.pct r')
          faultPending := Function.update c.faultPending r'.slot true }).still := by
  unfold Announced still
  dsimp only
  refine ⟨under_stage_fault hu hp _, he, fun r => ?_⟩
  have heq : (ind.stage 0 fun c =>
      { c with
        faultVal := Function.update c.faultVal r'.slot (rep.pct r')
        faultPending := Function.update c.faultPending r'.slot true }).midAlarm (dueIn rep rs) gone r =
      ind.midAlarm (dueIn rep (r' :: rs)) gone r := by
    unfold midAlarm
    rw [pending_stage]
    by_cases hr : r = r'
    · subst hr
      simp [dueIn, hent, stage]
    · have hslot : r.slot ≠ r'.slot := fun h => hr (slot_injective h)
      simp [Function.update_of_ne hslot, dueIn_cons_ne rep rs hr, stage]
  rw [heq]
  exact .refl _

/-- Sent at once: announced, or failed and rearmed, or nobody is there. -/
theorem announced_sent (hp : S.period = 0) (hent : rep.entered r' = true) (hgone : gone r' = false)
    (hr' : r' ∉ rs) (sends : Sends) :
    let t := ind.emit sends (.faultDetect ⟨r'.congestionId, rep.pct r'⟩)
    Announced S rep gone ind r' rs
      (if t.ok then t else ⟨{ t.ind with faultProbe := t.ind.faultProbe.rearm r' }, t.out, t.ok⟩) := by
  intro t
  have hsame : Same ind t.ind := same_emit ind sends _
  have hcases := emit_fault hu he sends r' (rep.pct r')
  change (S.reaches = true ∧ ∃ d : Datagram, d.FaultOf r' ∧ t.out = [.sent d] ∧ d.ok = t.ok) ∨
    (S.reaches = false ∧ t.out = [] ∧ t.ok = true) at hcases
  generalize t = t at hsame hcases
  have hu' := hu.same hsame
  have he' := hsame.enabled.trans he
  have hkeeps : S.mode.keeps = false := by simp [Setting.mode, hp]
  have hbefore : ind.midAlarm (dueIn rep (r' :: rs)) gone r' =
      ⟨ind.faultProbe.congested r', ind.faultProbe.notified r', true⟩ := by
    simp [midAlarm, hgone, dueIn, hent]
  have hafter : ∀ notified : Res → Bool, Indication.midAlarm
      { t.ind with faultProbe := { t.ind.faultProbe with notified := notified } } (dueIn rep rs) gone r' =
      ⟨ind.faultProbe.congested r', notified r', false⟩ := by
    intro notified
    simp [midAlarm, hsame.faultProbe, hsame.faultPending 0, hu.immediate hp, dueIn, hr']
  have hother : ∀ (notified : Res → Bool) (r : Res), r ≠ r' →
      notified r = ind.faultProbe.notified r → Indication.midAlarm
      { t.ind with faultProbe := { t.ind.faultProbe with notified := notified } } (dueIn rep rs) gone r =
      ind.midAlarm (dueIn rep (r' :: rs)) gone r := by
    intro notified r hr hn
    simp [midAlarm, hsame.faultProbe, hsame.faultPending 0, dueIn_cons_ne rep rs hr, hn]
  have hkept : t.ind = { t.ind with faultProbe :=
      { t.ind.faultProbe with notified := ind.faultProbe.notified } } := by
    rw [← hsame.faultProbe]
  by_cases hok : t.ok = true
  · rw [if_pos hok]
    refine ⟨hu', he', fun r => ?_⟩
    rw [hkept]
    by_cases hr : r = r'
    · subst hr
      rw [hafter, hbefore]
      rcases hcases with ⟨hreach, d, hd, hout, hdok⟩ | ⟨hreach, hout, -⟩
      · have hl : [Event.sent d].filterMap (Event.label r) = [.announce true] := by
          simp [label_faultOf hd, hdok, hok]
        rw [hout, hl]
        exact .single (.announced hreach rfl)
      · rw [hout]
        exact .single (.silent hreach rfl)
    · rw [hother _ r hr rfl]
      rcases hcases with ⟨-, d, hd, hout, -⟩ | ⟨-, hout, -⟩
      · rw [hout, List.filterMap_cons, label_other hd hr]
        exact .refl _
      · rw [hout]
        exact .refl _
  · rw [if_neg hok]
    obtain ⟨hreach, d, hd, hout, hdok⟩ := hcases.resolve_right fun h => hok h.2.2
    refine ⟨⟨hu'.wants, hu'.period, hu'.reaches, hu'.threshold, hu'.clear, hu'.link1,
      hu'.immediate⟩, he', fun r => ?_⟩
    change Steps _ _ _ (Indication.midAlarm { t.ind with faultProbe :=
      { t.ind.faultProbe with notified := Function.update t.ind.faultProbe.notified r' false } } _ _ _)
    dsimp only
    rw [hout]
    by_cases hr : r = r'
    · subst hr
      have hl : [Event.sent d].filterMap (Event.label r) = [.announce false] := by
        simp [label_faultOf hd, hdok, hok]
      rw [hl, hafter, hbefore, Function.update_self]
      have hstep := @Alarm.Step.failed Nat _ S.band S.mode
        ⟨ind.faultProbe.congested r, ind.faultProbe.notified r, true⟩ hreach rfl
      rw [if_neg (by simp [hkeeps])] at hstep
      exact .single hstep
    · rw [hother _ r hr (by rw [Function.update_of_ne hr, hsame.faultProbe]), List.filterMap_cons, label_other hd hr]
      exact .refl _

/-- One entry is notified, of this resource or of another one. -/
theorem announced (hgone : ∀ r, rep.entered r = true → gone r = false) (hr' : r' ∉ rs) (sends : Sends) :
    Announced S rep gone ind r' rs (announce rep sends ind r') := by
  unfold announce
  by_cases hent : rep.entered r' = true
  · rw [if_pos hent]
    by_cases hp : S.period = 0
    · rw [faultDetect_sent hu hp]
      exact announced_sent hu he hp hent (hgone r' hent) hr' sends
    · rw [faultDetect_staged hu hp]
      exact announced_staged hu he hp hent
  · rw [if_neg hent]
    exact announced_none hu he hent

end Announce

/-- The entries are notified one after the other. -/
theorem announce_each (rep : Report) (sends : Sends) (gone : Res → Bool)
    (hgone : ∀ r, rep.entered r = true → gone r = false) {rs : List Res} (hrs : rs.Nodup)
    (hu : Under S ind) (he : ind.enabled = true) :
    Under S (ind.each (announce rep sends) rs).ind ∧ (ind.each (announce rep sends) rs).ind.enabled = true ∧
      ∀ r, Steps (Alarm.Step S.band S.mode) (ind.midAlarm (dueIn rep rs) gone r)
        ((ind.each (announce rep sends) rs).out.filterMap (Event.label r))
        ((ind.each (announce rep sends) rs).ind.midAlarm (fun _ => false) gone r) := by
  induction rs generalizing ind with
  | nil =>
    refine ⟨hu, he, fun r => ?_⟩
    have heq : ind.midAlarm (dueIn rep []) gone r = ind.midAlarm (fun _ => false) gone r := by
      simp [midAlarm, dueIn]
    rw [heq]
    exact .refl _
  | cons r' rs ih =>
    obtain ⟨hr', hrs'⟩ := List.nodup_cons.mp hrs
    obtain ⟨hu₁, he₁, h₁⟩ := announced hu he hgone hr' sends
    obtain ⟨hu₂, he₂, h₂⟩ := ih hrs' hu₁ he₁
    refine ⟨hu₂, he₂, fun r => ?_⟩
    rw [each, Told.bind_out, List.filterMap_append]
    exact (h₁ r).trans (h₂ r)

/-- Withdrawing a staged entry that the alarm no longer counts. -/
theorem withdraw_same (hu : Under S ind) (rep : Report) {r' : Res} {rs : List Res} (hr' : r' ∉ rs) :
    Under S (withdraw rep ind r') ∧ (withdraw rep ind r').enabled = ind.enabled ∧
      ∀ r, (withdraw rep ind r').midAlarm (fun _ => false) (goneIn rep rs) r =
        ind.midAlarm (fun _ => false) (goneIn rep (r' :: rs)) r := by
  unfold withdraw
  by_cases hc : rep.cleared r' = true
  · rw [if_pos hc]
    unfold faultClear
    by_cases hp : ind.periodS = 0
    · have hp' : S.period = 0 := hu.period ▸ hp
      rw [if_pos hp]
      refine ⟨hu, rfl, fun r => ?_⟩
      simp [midAlarm, hu.immediate hp']
    · rw [if_neg hp, faultSlot_congestionId]
      refine ⟨under_stage_fault hu (fun h => hp (hu.period.trans h)) _, rfl, fun r => ?_⟩
      dsimp only [midAlarm]
      rw [pending_stage]
      by_cases hr : r = r'
      · subst hr
        simp [goneIn, hc, stage]
      · have hslot : r.slot ≠ r'.slot := fun h => hr (slot_injective h)
        simp [Function.update_of_ne hslot, goneIn_cons_ne rep rs hr, stage]
  · rw [if_neg hc]
    refine ⟨hu, rfl, fun r => ?_⟩
    by_cases hr : r = r'
    · subst hr
      simp [midAlarm, goneIn, hc]
    · simp [midAlarm, goneIn_cons_ne rep rs hr]

theorem withdraw_each (rep : Report) {rs : List Res} (hrs : rs.Nodup) (hu : Under S ind) :
    Under S (rs.foldl (withdraw rep) ind) ∧ (rs.foldl (withdraw rep) ind).enabled = ind.enabled ∧
      ∀ r, (rs.foldl (withdraw rep) ind).alarm r = ind.midAlarm (fun _ => false) (goneIn rep rs) r := by
  induction rs generalizing ind with
  | nil => exact ⟨hu, rfl, fun r => by simp [midAlarm, alarm, goneIn]⟩
  | cons r' rs ih =>
    obtain ⟨hr', hrs'⟩ := List.nodup_cons.mp hrs
    obtain ⟨hu₁, he₁, h₁⟩ := withdraw_same hu rep hr'
    obtain ⟨hu₂, he₂, h₂⟩ := ih hrs' hu₁
    exact ⟨hu₂, he₂.trans he₁, fun r => (h₂ r).trans (h₁ r)⟩

theorem mem_resources (r : Res) : r ∈ resources := by cases r <;> simp [resources]

/-- The sample itself, before anything is notified or withdrawn. -/
theorem sample_step (hu : Under S ind) (hsound : ∀ r, (ind.alarm r).Sound) {p : Probe}
    (hp : p.thresholdPct = ind.faultProbe.thresholdPct ∧ p.clearPct = ind.faultProbe.clearPct)
    (hlatch : p.congested = ind.faultProbe.congested ∧ p.notified = ind.faultProbe.notified)
    (rd : Reading) (r : Res) : Alarm.Step S.band S.mode (ind.alarm r) [.sample (p.percentages rd r)]
      ({ ind with faultProbe := (p.sample rd).1 }.midAlarm (dueIn (p.sample rd).2 resources)
        (goneIn (p.sample rd).2 resources) r) := by
  have hlevels : p.Levels := by
    have h := hu.levels
    refine ⟨?_, ?_, ?_⟩
    · rw [hp.2]
      exact h.one_le
    · rw [hp.1, hp.2]
      exact h.le
    · rw [hp.1]
      exact h.le_hundred
  have hband : hlevels.band = S.band := by
    simp only [Probe.Levels.band, hp.1, hp.2, hu.threshold, hu.clear]
  have hmid : { ind with faultProbe := (p.sample rd).1 }.midAlarm (dueIn (p.sample rd).2 resources)
      (goneIn (p.sample rd).2 resources) r =
      (p.percentages rd r).elim (ind.alarm r) (fun q => (ind.alarm r).measure S.band q) := by
    unfold midAlarm dueIn goneIn alarm
    simp only [mem_resources, decide_true, Bool.and_true, sample_congested hlevels,
      sample_notified hlevels, sample_entered hlevels, sample_cleared hlevels, hlatch, hband]
    cases p.percentages rd r with
    | none => simp
    | some q =>
      -- released with an entry staged: it was notified, so it is among those to withdraw
      have hnot := (hsound r).notified
      simp only [alarm] at hnot
      simp only [Option.elim_some, Alarm.measure]
      cases hn : S.band.next (ind.faultProbe.congested r) q <;>
        cases hpend : (ind.coalesce 0).faultPending r.slot <;> simp_all
  rw [hmid]
  cases p.percentages rd r with
  | none => exact .unmeasured _
  | some q => exact .measured _ q

theorem due_levels (p : Probe) (elapsed : Nat) :
    ((p.due elapsed).1.thresholdPct = p.thresholdPct ∧ (p.due elapsed).1.clearPct = p.clearPct) ∧
      (p.due elapsed).1.congested = p.congested ∧ (p.due elapsed).1.notified = p.notified := by
  unfold Probe.due
  dsimp only
  split_ifs <;> exact ⟨⟨rfl, rfl⟩, rfl, rfl⟩

/-- **The congestion watch.** -/
theorem follows_faultProbeTick (hu : Under S ind) (hsound : ∀ r, (ind.alarm r).Sound)
    (he : ind.enabled = true) (sends : Sends) (rd : Reading) (elapsed : Nat) :
    Follows S ind (ind.faultProbeTick sends rd elapsed) := by
  obtain ⟨hlv, hlatch⟩ := due_levels ind.faultProbe elapsed
  unfold faultProbeTick
  rw [if_neg (by simp [hu.wants])]
  generalize hdue : ind.faultProbe.due elapsed = due at hlv hlatch
  dsimp only
  by_cases hd : due.2 = true
  · rw [if_neg (by simp [hd])]
    have hsample := sample_step hu hsound hlv hlatch rd
    have hent : ∀ r, (due.1.sample rd).2.entered r = true →
        goneIn (due.1.sample rd).2 resources r = false := by
      intro r hr
      unfold Probe.sample at hr ⊢
      split at hr
      · rename_i hprimed
        simp only [Bool.and_eq_true] at hr
        simp [goneIn, hprimed, hr.1.2]
      · simp [Report.zero] at hr
    generalize hs : due.1.sample rd = s at hsample hent
    have hsl : s.1.thresholdPct = due.1.thresholdPct ∧ s.1.clearPct = due.1.clearPct := by
      rw [← hs]
      exact sample_levels rd
    have hu₁ : Under S { ind with faultProbe := s.1 } :=
      ⟨hu.wants, hu.period, hu.reaches, (hsl.1.trans hlv.1).trans hu.threshold,
        (hsl.2.trans hlv.2).trans hu.clear, hu.link1, hu.immediate⟩
    have hnodup : resources.Nodup := by decide
    obtain ⟨hu₂, he₂, h₂⟩ := announce_each s.2 sends (goneIn s.2 resources) hent hnodup hu₁ he
    obtain ⟨hu₃, he₃, h₃⟩ := withdraw_each s.2 hnodup hu₂
    refine ⟨hu₃, (he₃.trans he₂).trans he.symm, fun r => ?_⟩
    rw [Told.bind_out, Told.bind_out]
    dsimp only [Told.bind, still]
    rw [List.append_nil, List.filterMap_append, h₃ r]
    exact (Steps.single (hsample r)).trans (h₂ r)
  · rw [if_pos (by simpa using hd)]
    refine ⟨⟨hu.wants, hu.period, hu.reaches, hlv.1.trans hu.threshold, hlv.2.trans hu.clear, hu.link1,
      hu.immediate⟩, rfl, fun r => ?_⟩
    have heq : { ind with faultProbe := due.1 }.alarm r = ind.alarm r := by
      simp [alarm, hlatch.1, hlatch.2]
    dsimp only [still]
    rw [heq]
    exact .refl _

/-! ## A boundary -/

/-- What is flushed of a kind: only a staged congestion concerns the watch. -/
theorem follows_flushStage (hu : Under S ind) (he : ind.enabled = true) (hp : S.period ≠ 0)
    (sends : Sends) (i : Fin 2) (s : Stage) : Follows S ind (flushStage sends i ind s) := by
  unfold flushStage
  cases hs : (ind.coalesce i).staged s with
  | none => exact (aside_still ind).follows hu
  | some n =>
    dsimp only
    have hdrop : ∀ t : Told, Aside ind t → (∀ c, (Coalesce.drop c s).faultPending = c.faultPending) →
        Follows S ind (if t.ok then { t with ind := t.ind.stage i (·.drop s) } else t) := by
      intro t ht hkeep
      split
      · have hsame : Same t.ind (t.ind.stage i (·.drop s)) := same_stage t.ind i hkeep
        exact Aside.follows ⟨ht.same.trans hsame, ht.labels⟩ hu
      · exact ht.follows hu
    cases s with
    | wlan | roam | apd =>
      refine hdrop _ (aside_emit ind sends ?_) fun _ => rfl
      simp only [Coalesce.staged] at hs
      split at hs
      · obtain rfl := Option.some.inj hs
        simp [Notice.kind]
      · cases hs
    | fault k =>
      simp only [Coalesce.staged] at hs
      split at hs
      · rename_i hpend
        obtain rfl := Option.some.inj hs
        -- nothing is ever staged for the second link
        obtain rfl : i = 0 := by
          by_contra hi
          have hi : i = 1 := by omega
          rw [hi, hu.link1 k] at hpend
          cases hpend
        obtain ⟨r', rfl⟩ := exists_slot k
        rw [congestionId_slot]
        have hsame := same_emit ind sends (.faultDetect ⟨r'.congestionId, (ind.coalesce 0).faultVal r'.slot⟩)
        have hcases := emit_fault hu he sends r' ((ind.coalesce 0).faultVal r'.slot)
        generalize ind.emit sends (.faultDetect ⟨r'.congestionId, (ind.coalesce 0).faultVal r'.slot⟩) = t
          at hsame hcases
        have hkeeps : S.mode.keeps = true := decide_eq_true hp
        have hown : (t.ind.stage 0 (·.drop (.fault r'.slot))).alarm r' =
            { ind.alarm r' with staged := false } := by
          simp only [alarm, pending_stage, Coalesce.drop, Function.update_self]
          simp [stage, hsame.faultProbe]
        have hother : ∀ r, r ≠ r' →
            (t.ind.stage 0 (·.drop (.fault r'.slot))).alarm r = ind.alarm r := by
          intro r hr
          have hslot : r.slot ≠ r'.slot := fun h => hr (slot_injective h)
          simp only [alarm, pending_stage, Coalesce.drop, Function.update_of_ne hslot, hsame.faultPending 0]
          simp [stage, hsame.faultProbe]
        rcases hcases with ⟨hreach, d, hd, hout, hdok⟩ | ⟨hreach, hout, hok⟩
        · by_cases hok : t.ok = true
          · rw [if_pos hok]
            have hu' := under_stage_fault (hu.same hsame) hp (·.drop (.fault r'.slot))
            refine ⟨hu', hsame.enabled, fun r => ?_⟩
            dsimp only
            rw [hout]
            by_cases hr : r = r'
            · subst hr
              have hl : [Event.sent d].filterMap (Event.label r) = [.announce true] := by
                simp [label_faultOf hd, hdok, hok]
              rw [hl, hown]
              exact .single (.announced hreach hpend)
            · simp only [List.filterMap_cons, label_other hd hr, List.filterMap_nil, hother r hr]
              exact .refl _
          · rw [if_neg hok]
            refine ⟨hu.same hsame, hsame.enabled, fun r => ?_⟩
            rw [hout, hsame.alarm r]
            by_cases hr : r = r'
            · subst hr
              have hl : [Event.sent d].filterMap (Event.label r) = [.announce false] := by
                simp [label_faultOf hd, hdok, hok]
              have hstep := @Alarm.Step.failed Nat _ S.band S.mode (ind.alarm r) hreach hpend
              rw [if_pos hkeeps] at hstep
              rw [hl]
              exact .single hstep
            · simp only [List.filterMap_cons, label_other hd hr, List.filterMap_nil]
              exact .refl _
        · rw [if_pos hok]
          have hu' := under_stage_fault (hu.same hsame) hp (·.drop (.fault r'.slot))
          refine ⟨hu', hsame.enabled, fun r => ?_⟩
          dsimp only
          rw [hout]
          by_cases hr : r = r'
          · subst hr
            rw [hown]
            exact .single (.silent hreach hpend)
          · rw [hother r hr]
            exact .refl _
      · cases hs

theorem follows_each_flush (he : ind.enabled = true) (hu : Under S ind) (hp : S.period ≠ 0)
    (sends : Sends) (i : Fin 2) (ss : List Stage) : Follows S ind (ind.each (flushStage sends i) ss) := by
  induction ss generalizing ind with
  | nil => exact (aside_still ind).follows hu
  | cons s ss ih =>
    have h := follows_flushStage hu he hp sends i s
    exact h.bind (ih (h.enabled.trans he) h.under)

theorem follows_flush (he : ind.enabled = true) (hu : Under S ind) (hp : S.period ≠ 0)
    (sends : Sends) (timestamp : Bytes) : Follows S ind (ind.flush sends timestamp) := by
  have h₀ : Follows S ind ⟨ind, [.boundary], true⟩ := ⟨hu, rfl, fun r => .refl _⟩
  have h₁ := follows_each_flush he hu hp sends 0 stages
  have h₂ := follows_each_flush (h₁.enabled.trans he) h₁.under hp sends 1 stages
  exact h₀.bind (h₁.bind (h₂.bind ((aside_keepAlive _ sends timestamp).follows h₂.under)))

/-! ## Every input -/

/-- Neither a new configuration nor a congestion that the platform reports. -/
def Input.Steady : Input → Prop
  | .config _ => False
  | .faultDetect _ _ => False
  | _ => True

theorem follows_tick (hu : Under S ind) (hsound : ∀ r, (ind.alarm r).Sound) (env : TickEnv)
    (elapsed : BitVec 32) : Follows S ind (ind.tickElapsed env elapsed) := by
  unfold tickElapsed
  by_cases he : ind.enabled = true
  · rw [if_neg (by simpa using he)]
    have h := follows_faultProbeTick hu hsound he env.sends env.reading elapsed.toNat
    refine h.bind ?_
    have hu₁ := h.under
    have he₁ := h.enabled.trans he
    generalize (ind.faultProbeTick env.sends env.reading elapsed.toNat).ind = ind₁ at hu₁ he₁
    by_cases hp : ind₁.periodS = 0
    · rw [if_pos hp]
      exact (aside_still _).follows hu₁
    · rw [if_neg hp]
      split
      · exact (aside_still _).follows hu₁
      · have hcount : ∀ c, Same ind₁ { ind₁ with tickCounter := c } :=
          fun _ => ⟨rfl, rfl, rfl, rfl, rfl, rfl, fun _ => rfl⟩
        dsimp only
        split
        · exact (hcount _).aside.follows hu₁
        · have he₂ : { ind₁ with tickCounter := 0 }.enabled = true := he₁
          have hf := follows_flush he₂ (hu₁.same (hcount 0))
            (fun h => hp (hu₁.period.trans h)) env.sends env.timestamp
          exact ⟨hf.under, hf.enabled, hf.steps⟩
  · rw [if_pos (by simpa using he)]
    exact (aside_still ind).follows hu

/-- **Every input moves the alarm of each resource by its own steps.** -/
theorem follows_take (hu : Under S ind) (hsound : ∀ r, (ind.alarm r).Sound) {i : Input} (hi : i.Steady) :
    Under S (ind.take i).ind ∧ ∀ r, Steps (Alarm.Step S.band S.mode) (ind.alarm r)
      ((ind.take i).out.filterMap (Event.label r)) ((ind.take i).ind.alarm r) := by
  have haside : ∀ t, Aside ind t → Under S t.ind ∧ ∀ r, Steps (Alarm.Step S.band S.mode) (ind.alarm r)
      (t.out.filterMap (Event.label r)) (t.ind.alarm r) := by
    intro t ht
    have h := ht.follows hu
    exact ⟨h.under, h.steps⟩
  cases i with
  | config req => exact hi.elim
  | faultDetect sends v => exact hi.elim
  | ipChanged =>
    exact ⟨⟨hu.wants, hu.period, hu.reaches, hu.threshold, hu.clear, hu.link1, hu.immediate⟩,
      fun r => .refl _⟩
  | initComplete sends status => exact haside _ (aside_initComplete ind sends status)
  | radioUp sends => exact haside _ (aside_radioUp ind sends)
  | resetNotice sends cause => exact haside _ (aside_resetNotice ind sends cause)
  | wlanStatus sends now v => exact haside _ (aside_wlanStatus ind sends now v)
  | roaming sends v => exact haside _ (aside_roaming ind sends v)
  | apDisconnect sends v => exact haside _ (aside_apDisconnect ind sends v)
  | tick env elapsed =>
    have h := follows_tick hu hsound env elapsed
    exact ⟨h.under, h.steps⟩

/-- **Under one configuration the alarm of each resource follows its own steps.** -/
theorem follows_run (hu : Under S ind) (hsound : ∀ r, (ind.alarm r).Sound) {is : List Input}
    (his : ∀ i ∈ is, i.Steady) : Under S (notifier.run ind is) ∧ ∀ r, Steps (Alarm.Step S.band S.mode) (ind.alarm r)
      ((notifier.trace ind is).filterMap (Event.label r)) ((notifier.run ind is).alarm r) := by
  induction is generalizing ind with
  | nil => exact ⟨hu, fun r => .refl _⟩
  | cons i is ih =>
    obtain ⟨hu₁, h₁⟩ := follows_take hu hsound (his i List.mem_cons_self)
    obtain ⟨hu₂, h₂⟩ := ih hu₁ (fun r => Alarm.sound_steps (h₁ r) (hsound r))
      fun j hj => his j (List.mem_cons_of_mem i hj)
    refine ⟨hu₂, fun r => ?_⟩
    rw [Machine.trace_cons, List.filterMap_append]
    exact (h₁ r).trans (h₂ r)

end Watch

/-! ## The levels stay -/

/-- A sender leaves the levels, and takes no sample. -/
structure Settled (ind : Indication) (t : Told) : Prop where
  threshold : t.ind.faultProbe.thresholdPct = ind.faultProbe.thresholdPct
  clear : t.ind.faultProbe.clearPct = ind.faultProbe.clearPct
  unsampled : ∀ pct, .sampled pct ∉ t.out

section Settled

variable {ind : Indication}

theorem Aside.settled {t : Told} (h : Aside ind t) : Settled ind t := by
  refine ⟨by rw [h.same.faultProbe], by rw [h.same.faultProbe], fun pct hmem => ?_⟩
  have hlabel := List.filterMap_eq_nil_iff.mp (h.labels .cpu) _ hmem
  cases hlabel

theorem Settled.bind {t : Told} {f : Indication → Told} (h : Settled ind t)
    (hf : Settled t.ind (f t.ind)) : Settled ind (t.bind f) := by
  refine ⟨hf.threshold.trans h.threshold, hf.clear.trans h.clear, fun pct hmem => ?_⟩
  rcases List.mem_append.mp hmem with hmem | hmem
  · exact h.unsampled pct hmem
  · exact hf.unsampled pct hmem

theorem settled_emit (ind : Indication) (sends : Sends) (n : Notice) : Settled ind (ind.emit sends n) := by
  refine ⟨by rw [(same_emit ind sends n).faultProbe], by rw [(same_emit ind sends n).faultProbe],
    fun pct => ?_⟩
  rw [emit_eq]
  split <;> simp

theorem settled_faultDetect (ind : Indication) (sends : Sends) (v : FaultDetect) :
    Settled ind (ind.faultDetect sends v) := by
  unfold faultDetect
  split
  · exact (aside_still ind).settled
  · split
    · split
      · exact ⟨rfl, rfl, by simp⟩
      · exact ⟨rfl, rfl, by simp [still]⟩
    · exact settled_emit ind sends _

theorem settled_each {α : Type} {f : Indication → α → Told} (hf : ∀ ind a, Settled ind (f ind a))
    (as : List α) (ind : Indication) : Settled ind (ind.each f as) := by
  induction as generalizing ind with
  | nil => exact (aside_still ind).settled
  | cons a as ih => exact (hf ind a).bind (ih _)

theorem settled_announce (rep : Report) (sends : Sends) (ind : Indication) (r : Res) :
    Settled ind (announce rep sends ind r) := by
  unfold announce
  split
  · have h := settled_faultDetect ind sends ⟨r.congestionId, rep.pct r⟩
    dsimp only
    split
    · exact h
    · exact ⟨h.threshold, h.clear, h.unsampled⟩
  · exact (aside_still ind).settled

theorem faultProbe_withdraw (rep : Report) (rs : List Res) (ind : Indication) :
    (rs.foldl (withdraw rep) ind).faultProbe = ind.faultProbe := by
  induction rs generalizing ind with
  | nil => rfl
  | cons r rs ih =>
    rw [List.foldl_cons, ih]
    unfold withdraw faultClear
    split
    · split
      · rfl
      · split <;> rfl
    · rfl

theorem settled_flushStage (sends : Sends) (i : Fin 2) (ind : Indication) (s : Stage) :
    Settled ind (flushStage sends i ind s) := by
  unfold flushStage
  split
  · exact (aside_still ind).settled
  · have h := settled_emit ind sends
    dsimp only
    split
    · exact ⟨(h _).threshold, (h _).clear, (h _).unsampled⟩
    · exact h _

theorem settled_flush (ind : Indication) (sends : Sends) (timestamp : Bytes) :
    Settled ind (ind.flush sends timestamp) := by
  have h₀ : Settled ind ⟨ind, [.boundary], true⟩ := ⟨rfl, rfl, by simp⟩
  have h₁ := settled_each (settled_flushStage sends 0) stages ind
  exact h₀.bind (h₁.bind ((settled_each (settled_flushStage sends 1) stages _).bind
    (aside_keepAlive _ sends timestamp).settled))

/-- The levels stay, and at most the first event is a sample. -/
structure SampledOnce (ind : Indication) (t : Told) : Prop where
  threshold : t.ind.faultProbe.thresholdPct = ind.faultProbe.thresholdPct
  clear : t.ind.faultProbe.clearPct = ind.faultProbe.clearPct
  once : ∀ pct, .sampled pct ∉ t.out.tail

theorem Settled.once {t : Told} (h : Settled ind t) : SampledOnce ind t :=
  ⟨h.threshold, h.clear, fun pct hmem => h.unsampled pct (List.mem_of_mem_tail hmem)⟩

theorem once_faultProbeTick (ind : Indication) (sends : Sends) (rd : Reading) (elapsed : Nat) :
    SampledOnce ind (ind.faultProbeTick sends rd elapsed) := by
  obtain ⟨hlv, -⟩ := due_levels ind.faultProbe elapsed
  unfold faultProbeTick
  split
  · exact (aside_still ind).settled.once
  · dsimp only
    split
    · exact ⟨hlv.1, hlv.2, by simp [still]⟩
    · have hs := sample_levels (p := (ind.faultProbe.due elapsed).1) rd
      have h := settled_each
        (settled_announce ((ind.faultProbe.due elapsed).1.sample rd).2 sends) resources
        { ind with faultProbe := ((ind.faultProbe.due elapsed).1.sample rd).1 }
      have hw : ∀ ind' : Indication, Settled ind'
          (resources.foldl (withdraw ((ind.faultProbe.due elapsed).1.sample rd).2) ind').still := by
        intro ind'
        refine ⟨?_, ?_, by simp [still]⟩ <;> dsimp only [still] <;> rw [faultProbe_withdraw]
      have hb := h.bind (f := fun ind' => (resources.foldl
        (withdraw ((ind.faultProbe.due elapsed).1.sample rd).2) ind').still) (hw _)
      refine ⟨hb.threshold.trans (hs.1.trans hlv.1), hb.clear.trans (hs.2.trans hlv.2), fun pct hmem => ?_⟩
      exact hb.unsampled pct hmem

theorem SampledOnce.bind {t : Told} {f : Indication → Told} (h : SampledOnce ind t)
    (hf : Settled t.ind (f t.ind)) : SampledOnce ind (t.bind f) := by
  refine ⟨hf.threshold.trans h.threshold, hf.clear.trans h.clear, fun pct hmem => ?_⟩
  rw [Told.bind_out] at hmem
  cases hout : t.out with
  | nil =>
    rw [hout, List.nil_append] at hmem
    exact hf.unsampled pct (List.mem_of_mem_tail hmem)
  | cons e es =>
    rw [hout, List.cons_append, List.tail_cons] at hmem
    rcases List.mem_append.mp hmem with hmem | hmem
    · exact h.once pct (by rw [hout]; exact hmem)
    · exact hf.unsampled pct hmem

theorem once_tick (ind : Indication) (env : TickEnv) (elapsed : BitVec 32) :
    SampledOnce ind (ind.tickElapsed env elapsed) := by
  unfold tickElapsed
  split
  · exact (aside_still ind).settled.once
  · refine (once_faultProbeTick ind env.sends env.reading elapsed.toNat).bind ?_
    split
    · exact (aside_still _).settled
    · split
      · exact (aside_still _).settled
      · dsimp only
        split
        · exact ⟨rfl, rfl, by simp [still]⟩
        · have h := settled_flush { (ind.faultProbeTick env.sends env.reading elapsed.toNat).ind with
            tickCounter := 0 } env.sends env.timestamp
          exact ⟨h.threshold, h.clear, h.unsampled⟩

/-- Whatever happens, the levels stay, and an input takes at most one sample. -/
theorem once_take (ind : Indication) (i : Input) : SampledOnce ind (ind.take i) := by
  cases i with
  | config req => exact ⟨rfl, rfl, by simp [take, still]⟩
  | ipChanged => exact ⟨rfl, rfl, by simp [take, still]⟩
  | initComplete sends status => exact (aside_initComplete ind sends status).settled.once
  | radioUp sends => exact (aside_radioUp ind sends).settled.once
  | resetNotice sends cause => exact (aside_resetNotice ind sends cause).settled.once
  | wlanStatus sends now v => exact (aside_wlanStatus ind sends now v).settled.once
  | roaming sends v => exact (aside_roaming ind sends v).settled.once
  | apDisconnect sends v => exact (aside_apDisconnect ind sends v).settled.once
  | faultDetect sends v => exact (settled_faultDetect ind sends v).once
  | tick env elapsed => exact once_tick ind env elapsed

theorem levels_run (ind : Indication) (is : List Input) :
    (notifier.run ind is).faultProbe.thresholdPct = ind.faultProbe.thresholdPct ∧
      (notifier.run ind is).faultProbe.clearPct = ind.faultProbe.clearPct := by
  induction is generalizing ind with
  | nil => exact ⟨rfl, rfl⟩
  | cons i is ih =>
    obtain ⟨ht, hc⟩ := ih (notifier.step ind i)
    have h := once_take ind i
    exact ⟨ht.trans h.threshold, hc.trans h.clear⟩

end Settled

/-! ## When a congestion is sent -/

section Sent

variable {S : Setting} {ind : Indication} {is : List Input} {r : Res}

/-- An accepted configuration starts the alarms afresh. -/
theorem under_configure (S : Setting) {req : SetIndicationConfigReq}
    (hwants : req.infoBits &&& IndKind.faultDetect.bit ≠ 0) (hp : S.period = req.periodSeconds)
    (hr : S.reaches = (ind.configure req).reaches)
    (ht : ind.faultProbe.thresholdPct = S.band.threshold) (hc : ind.faultProbe.clearPct = S.band.clear) :
    Under S (ind.configure req) ∧ ∀ r, ((ind.configure req).alarm r).Sound := by
  refine ⟨⟨?_, hp.symm, hr.symm, ht, hc, fun _ => rfl, fun _ _ => rfl⟩, fun r => ⟨?_, ?_⟩⟩
  · exact decide_eq_true hwants
  · intro h
    cases h
  · intro h
    cases h

theorem mem_label_sample {es : List Event} {p : Option Nat}
    (h : .sample p ∈ es.filterMap (Event.label r)) : ∃ pct, .sampled pct ∈ es ∧ pct r = p := by
  obtain ⟨e, he, hl⟩ := List.mem_filterMap.mp h
  obtain ⟨pct, rfl, hp⟩ := sampled_of_label hl
  exact ⟨pct, he, hp⟩

variable (hu : Under S ind) (hsound : ∀ r, (ind.alarm r).Sound) (his : ∀ i ∈ is, i.Steady)
include hu hsound his

/-- Between two datagrams of a resource, of which the first was taken, it was measured low. -/
theorem low_between_sent {a b c : List Event} {d d' : Datagram}
    (htr : notifier.trace ind is = a ++ .sent d :: b ++ .sent d' :: c) (hd : d.FaultOf r)
    (hd' : d'.FaultOf r) (hok : d.ok = true) : ∃ pct p, .sampled pct ∈ b ∧ pct r = some p ∧ p < S.band.clear := by
  have h := (follows_run hu hsound his).2 r
  rw [htr] at h
  simp only [List.filterMap_append, List.filterMap_cons, label_faultOf hd, label_faultOf hd', hok] at h
  obtain ⟨p, hmem, hlow⟩ := Alarm.low_between_announced h (hsound r)
  obtain ⟨pct, hb, hp⟩ := mem_label_sample hmem
  exact ⟨pct, p, hb, hp, hlow⟩

/-- Between a low measurement of a resource and a datagram it was measured high. -/
theorem high_before_sent {a b c : List Event} {d : Datagram} {pct : Res → Option Nat} {p : Nat}
    (htr : notifier.trace ind is = a ++ .sampled pct :: b ++ .sent d :: c) (hd : d.FaultOf r)
    (hp : pct r = some p) (hlow : p < S.band.clear) :
    ∃ pct' p', .sampled pct' ∈ b ∧ pct' r = some p' ∧ S.band.threshold ≤ p' := by
  have h := (follows_run hu hsound his).2 r
  have hl : (Event.sampled pct).label r = some (.sample (some p)) := by rw [Event.label, hp]
  rw [htr] at h
  simp only [List.filterMap_append, List.filterMap_cons, label_faultOf hd, hl] at h
  obtain ⟨q, hmem, hhigh⟩ := Alarm.high_before_announce hlow h
  obtain ⟨pct', hb, hq⟩ := mem_label_sample hmem
  exact ⟨pct', q, hb, hq, hhigh⟩

/-- With period 0 a failed datagram is sent again with the next sample that is not low. -/
theorem sent_after_failed (hper : S.period = 0) {a b c : List Event} {d : Datagram} {pct : Res → Option Nat} {p : Nat}
    (htr : notifier.trace ind is = a ++ .sent d :: b ++ .sampled pct :: c) (hd : d.FaultOf r)
    (hfail : d.ok = false) (hnone : ∀ pct', .sampled pct' ∈ b → pct' r = none) (hp : pct r = some p)
    (hhigh : S.band.clear ≤ p) :
    ∃ c₁ d' c₂, c = c₁ ++ .sent d' :: c₂ ∧ d'.FaultOf r ∧ ∀ pct', .sampled pct' ∉ c₁ := by
  have hl : (Event.sampled pct).label r = some (.sample (some p)) := by rw [Event.label, hp]
  -- the input that takes the sample, and what it does before and after
  obtain ⟨is₁, i, is₂, b', c', rfl, hout, hbefore, hc⟩ := notifier.trace_split htr
  have his₁ : ∀ j ∈ is₁, j.Steady := fun j hj => his j (by simp [hj])
  obtain ⟨hu₁, h₁⟩ := follows_run hu hsound his₁
  have hsound₁ : ∀ r, ((notifier.run ind is₁).alarm r).Sound :=
    fun r => Alarm.sound_steps (h₁ r) (hsound r)
  obtain ⟨hu₂, h₂⟩ := follows_take hu₁ hsound₁ (his i (by simp))
  have hstep := h₂ r
  change ((notifier.run ind is₁).take i).out = _ at hout
  rw [hout, List.filterMap_append, List.filterMap_cons, hl] at hstep
  obtain ⟨a₁, a₂, ha₁, ht, ha₂⟩ := hstep.split fun _ _ _ => Alarm.Step.length_le
  -- up to the sample the alarm waits to be announced again
  have hup := (h₁ r).trans ha₁
  rw [← List.filterMap_append, ← hbefore, List.filterMap_append, List.filterMap_cons, label_faultOf hd, hfail] at hup
  have hreach : S.mode.reaches = true := by
    obtain ⟨x, y, -, hx, -⟩ := hup.split fun _ _ _ => Alarm.Step.length_le
    cases hx with
    | failed hr _ => exact hr
  have hkeeps : S.mode.keeps = false := by simp [Setting.mode, hper]
  have hstaged : a₂.staged = true := by
    cases ht with
    | measured =>
      refine Alarm.staged_after_failed hkeeps hhigh (fun q hq => ?_) hup (hsound r)
      obtain ⟨pct', hb, hq'⟩ := mem_label_sample hq
      rw [hnone pct' hb] at hq'
      cases hq'
  -- the rest of the input takes no other sample and leaves nothing staged
  have honce : ∀ pct', .sampled pct' ∉ c' := by
    intro pct' hmem
    refine (once_take (notifier.run ind is₁) i).once pct' ?_
    rw [hout]
    cases b' with
    | nil => exact hmem
    | cons e es => exact List.mem_append_right _ (List.mem_cons_of_mem _ hmem)
  obtain ⟨ok, hmem⟩ := Alarm.announce_of_staged hreach ha₂ hstaged (hu₂.immediate hper _) (by
    intro q hq
    obtain ⟨pct', hmem, -⟩ := mem_label_sample hq
    exact honce pct' hmem)
  obtain ⟨e, he, hel⟩ := List.mem_filterMap.mp hmem
  obtain ⟨d', rfl, hd', -⟩ := faultOf_of_label hel
  obtain ⟨c₁, c₂, rfl⟩ := List.append_of_mem he
  refine ⟨c₁, d', c₂ ++ notifier.trace (notifier.run ind (is₁ ++ [i])) is₂, ?_, hd',
    fun pct' hmem' => honce pct' (List.mem_append_left _ hmem')⟩
  rw [hc, List.append_assoc, List.cons_append]

end Sent

/-- **The congestion automaton.** With the levels of any `opc.conf`, the band state is that of the two-level
reference over the measured percentages, so that 100 percent sets it and 0 percent clears it. After an accepted
configuration that asks for FaultDetect, and while no other source reports a congestion: between two
datagrams of a resource, of which the first was taken, it was measured below the clear level; after such a
measurement a datagram needs a measurement at the threshold; and with period 0 the next measurement that is
not below the clear level sends a failed datagram again. -/
theorem congestion_automaton (conf : Conf) (paths : Paths) (disk : Disk) (env : StartEnv) (r : Res) :
    let B := (levels_start env.opcConf).band
    (∀ ops, (probing.run (Probe.start env.opcConf) ops).congested r =
      B.run false ((probing.trace (Probe.start env.opcConf) ops).map fun pct => pct r)) ∧
    (∀ ops rd, let p := probing.run (Probe.start env.opcConf) ops
      (p.percentages rd r = some 100 → (p.sample rd).1.congested r = true) ∧
        (p.percentages rd r = some 0 → (p.sample rd).1.congested r = false)) ∧
    ∀ (before after : List Input) (req : SetIndicationConfigReq),
      req.infoBits &&& IndKind.faultDetect.bit ≠ 0 → (∀ i ∈ after, i.Steady) →
      let ind := notifier.run (startup conf paths disk env).st.ind (before ++ [.config req])
      (∀ (a b c : List Event) (d d' : Datagram),
        notifier.trace ind after = a ++ .sent d :: b ++ .sent d' :: c → d.FaultOf r → d'.FaultOf r →
        d.ok = true → ∃ pct p, .sampled pct ∈ b ∧ pct r = some p ∧ p < B.clear) ∧
      (∀ (a b c : List Event) (pct : Res → Option Nat) (p : Nat) (d : Datagram),
        notifier.trace ind after = a ++ .sampled pct :: b ++ .sent d :: c → pct r = some p →
        p < B.clear → d.FaultOf r → ∃ pct' p', .sampled pct' ∈ b ∧ pct' r = some p' ∧ B.threshold ≤ p') ∧
      (req.periodSeconds = 0 →
        ∀ (a b c : List Event) (d : Datagram) (pct : Res → Option Nat) (p : Nat),
        notifier.trace ind after = a ++ .sent d :: b ++ .sampled pct :: c → d.FaultOf r → d.ok = false →
        (∀ pct', .sampled pct' ∈ b → pct' r = none) → pct r = some p → B.clear ≤ p →
        ∃ c₁ d' c₂, c = c₁ ++ .sent d' :: c₂ ∧ d'.FaultOf r ∧ ∀ pct', .sampled pct' ∉ c₁) := by
  intro B
  have hlevels := levels_start env.opcConf
  refine ⟨fun ops => congested_run env.opcConf ops r, fun ops rd => ?_, fun before after req hwants hafter => ?_⟩
  · intro p
    have hs : p.Sound _ _ := sound_run env.opcConf ops
    rw [sample_congested hs.levels]
    constructor
    · intro h
      rw [h]
      exact hs.levels.band.next_of_threshold_le _ hs.levels.le_hundred
    · intro h
      rw [h]
      exact hs.levels.band.next_of_lt_clear _ hs.levels.one_le
  · intro ind
    have hind : ind = (notifier.run (startup conf paths disk env).st.ind before).configure req := by
      simp only [ind, Machine.run_snoc]
      rfl
    have hstart : (startup conf paths disk env).st.ind.faultProbe = Probe.start env.opcConf := rfl
    obtain ⟨ht, hc⟩ := levels_run (startup conf paths disk env).st.ind before
    rw [hstart] at ht hc
    obtain ⟨S, hband, hper, hu, hsound⟩ : ∃ S : Setting, S.band = B ∧ S.period = req.periodSeconds ∧
        Under S ind ∧ ∀ r, (ind.alarm r).Sound := by
      refine ⟨⟨req.periodSeconds, ind.reaches, B, hlevels.one_le, hlevels.le_hundred⟩, rfl, rfl, ?_⟩
      rw [hind]
      exact under_configure _ hwants rfl rfl ht hc
    rw [← hband]
    refine ⟨fun a b c d d' htr hd hd' hok => ?_, fun a b c pct p d htr hp hlow hd => ?_,
      fun hzero a b c d pct p htr hd hfail hnone hp hhigh => ?_⟩
    · exact low_between_sent hu hsound hafter htr hd hd' hok
    · exact high_before_sent hu hsound hafter htr hd hp hlow
    · exact sent_after_failed hu hsound hafter (hper.trans hzero) htr hd hfail hnone hp hhigh

end Indication

end Opcd
