import Opcd.Lib.Along
import Opcd.Indication.Period

/-!
# The life of a configuration

The notifier keeps a journal: the configurations that were accepted, the IP changes that ended them, the state changes
it was told of, and what it did. From the journal one can say which configuration is in force (`inForce`) and which
state change of a kind is still to be sent (`owed`): the latest since the configuration, unless it was sent.

* `journal_take`: the settings and what is staged are as the journal says, after every input.
* `Fair`: every datagram goes where the configuration in force says and is of a kind it asks for; under a period a
  state change goes out at a boundary, once, and is the one owed.
* `journal_run`, `journal_boundary`: over every run.
-/

namespace Opcd

open Bytes Protocol Fault

/-! ## The journal -/

/-- What the notifier is told and does. -/
inductive Logged
  | accepted (req : SetIndicationConfigReq)
  | ipChanged
  | received (n : Notice)
  | event (e : Event)

namespace Logged

/-- A configuration begins or ends. -/
def isSetup : Logged → Bool
  | accepted _ | ipChanged => true
  | _ => false

/-- What settles which state change of a kind is still to be sent. -/
def concerns (k : IndKind) : Logged → Bool
  | accepted _ => true
  | received n => n.kind = k
  | event (.sent d) => d.ok && d.notice.kind = k
  | _ => false

end Logged

/-- The configuration in force: the latest, unless it asks for nothing or the address has changed. -/
def inForce (log : List Logged) : Option SetIndicationConfigReq :=
  match log.latest Logged.isSetup with
  | some (.accepted req) => if req.infoBits ≠ 0 then some req else none
  | _ => none

/-- The state change of a kind that is still to be sent. -/
def owed (k : IndKind) (log : List Logged) : Option Notice :=
  match log.latest (Logged.concerns k) with
  | some (.received n) => some n
  | _ => none

/-- The end of a period is being reported, and nothing of this kind has gone out yet. -/
def AtBoundary (k : IndKind) (log : List Logged) : Prop :=
  ∃ b c, log = b ++ .event .boundary :: c ∧ ∀ l ∈ c, ∃ d : Datagram, l = .event (.sent d) ∧ d.notice.kind ≠ k

/-- The kinds of state change that a period coalesces, other than congestions. -/
def IsChange (k : IndKind) : Prop := k = .wlanStatusChange ∨ k = .roaming ∨ k = .apDisconnect

/-- A datagram is as the configuration in force asks. -/
def Fair (log : List Logged) (d : Datagram) : Prop :=
  ∃ req, inForce log = some req ∧ d.ip = req.recipientIp ∧ d.port = req.recipientPort ∧
    req.infoBits &&& d.notice.kind.bit ≠ 0 ∧
    (req.periodSeconds ≠ 0 → IsChange d.notice.kind →
      owed d.notice.kind log = some d.notice ∧ AtBoundary d.notice.kind log)

section Journals

variable {log : List Logged} {k : IndKind}

theorem inForce_skip {l : Logged} (h : l.isSetup = false) : inForce (log ++ [l]) = inForce log := by
  unfold inForce
  rw [List.latest_concat, h]
  rfl

@[simp] theorem inForce_events (es : List Event) : inForce (log ++ es.map .event) = inForce log := by
  induction es using List.reverseRecOn with
  | nil => rw [List.map_nil, List.append_nil]
  | append_singleton es e ih => rw [List.map_append, List.map_singleton, ← List.append_assoc, inForce_skip rfl, ih]

@[simp] theorem inForce_ipChanged : inForce (log ++ [.ipChanged]) = none := by
  unfold inForce
  rw [List.latest_concat]
  rfl

@[simp] theorem inForce_accepted (req : SetIndicationConfigReq) :
    inForce (log ++ [.accepted req]) = if req.infoBits ≠ 0 then some req else none := by
  unfold inForce
  rw [List.latest_concat]
  rfl

@[simp] theorem owed_accepted (req : SetIndicationConfigReq) : owed k (log ++ [.accepted req]) = none := by
  unfold owed
  rw [List.latest_concat]
  rfl

theorem owed_skip {l : Logged} (h : l.concerns k = false) : owed k (log ++ [l]) = owed k log := by
  unfold owed
  rw [List.latest_concat, h]
  rfl

theorem owed_received (n : Notice) : owed k (log ++ [.received n]) = if n.kind = k then some n else owed k log := by
  unfold owed
  rw [List.latest_concat]
  by_cases h : n.kind = k <;> simp [Logged.concerns, h]

theorem owed_sent (d : Datagram) :
    owed k (log ++ [.event (.sent d)]) = if d.ok = true ∧ d.notice.kind = k then none else owed k log := by
  by_cases h : d.ok = true ∧ d.notice.kind = k
  · unfold owed
    rw [List.latest_concat]
    simp [Logged.concerns, h]
  · rw [if_neg h]
    exact owed_skip (by simpa [Logged.concerns] using h)

theorem owed_received_self (n : Notice) : owed n.kind (log ++ [.received n]) = some n := by
  rw [owed_received, if_pos rfl]

/-- Only a datagram of the kind settles what is owed. -/
theorem owed_events {es : List Event} (h : ∀ d, .sent d ∈ es → d.notice.kind ≠ k) :
    owed k (log ++ es.map .event) = owed k log := by
  induction es using List.reverseRecOn with
  | nil => rw [List.map_nil, List.append_nil]
  | append_singleton es e ih =>
    rw [List.map_append, List.map_singleton, ← List.append_assoc]
    refine Eq.trans ?_ (ih fun d hd => h d (List.mem_append_left _ hd))
    cases e with
    | sent d =>
      rw [owed_sent, if_neg]
      exact fun hd => h d (List.mem_append_right _ (List.mem_singleton_self _)) hd.2
    | _ => exact owed_skip rfl

theorem atBoundary_now : AtBoundary k (log ++ [.event .boundary]) := ⟨log, [], rfl, by simp⟩

/-- Other kinds go out. -/
theorem AtBoundary.events (h : AtBoundary k log) {es : List Event}
    (hes : ∀ e ∈ es, ∃ d : Datagram, e = .sent d ∧ d.notice.kind ≠ k) : AtBoundary k (log ++ es.map .event) := by
  obtain ⟨b, c, rfl, hc⟩ := h
  refine ⟨b, c ++ es.map .event, by simp, fun l hl => ?_⟩
  rcases List.mem_append.mp hl with hl | hl
  · exact hc l hl
  · obtain ⟨e, he, rfl⟩ := List.mem_map.mp hl
    obtain ⟨d, rfl, hd⟩ := hes e he
    exact ⟨d, rfl, hd⟩

end Journals

/-! ## What is staged -/

/-- The kind of the notice that is staged. -/
def Stage.kind : Stage → IndKind
  | .wlan => .wlanStatusChange
  | .roam => .roaming
  | .apd => .apDisconnect
  | .fault _ => .faultDetect

theorem Coalesce.kind_staged {c : Coalesce} {s : Stage} {n : Notice} (h : c.staged s = some n) : n.kind = s.kind := by
  cases s <;> simp only [Coalesce.staged, Option.ite_none_right_eq_some, Option.some.injEq] at h <;>
    simp [← h.2, Notice.kind, Stage.kind]

@[simp] theorem Coalesce.staged_zero (s : Stage) : Coalesce.zero.staged s = none := by
  cases s <;> rfl

theorem Coalesce.staged_drop_self (c : Coalesce) (s : Stage) : (c.drop s).staged s = none := by
  cases s <;> simp [Coalesce.drop, Coalesce.staged]

theorem Coalesce.staged_drop_ne (c : Coalesce) {s s' : Stage} (h : s' ≠ s) : (c.drop s).staged s' = c.staged s' := by
  cases s <;> cases s' <;> first | exact absurd rfl h | rfl | skip
  rename_i k k'
  have hk : k' ≠ k := fun he => h (congrArg Stage.fault he)
  simp [Coalesce.drop, Coalesce.staged, Function.update_of_ne hk]

theorem Stage.eq_of_kind {s s' : Stage} (hc : IsChange s.kind) (h : s'.kind = s.kind) : s' = s := by
  rcases hc with hc | hc | hc <;> cases s <;> cases s' <;> simp_all [Stage.kind]

namespace Indication

/-- The settings and what is staged, under a configuration. What is staged of the kind `free` is not accounted for. -/
structure Configured (free : Option Stage) (log : List Logged) (req : SetIndicationConfigReq) (ind : Indication) :
    Prop where
  recipientIp : ind.recipientIp = req.recipientIp
  recipientPort : ind.recipientPort = req.recipientPort
  infoBits : ind.infoBits = req.infoBits
  periodS : ind.periodS = req.periodSeconds
  asked : ∀ i s n, (ind.coalesce i).staged s = some n → ind.wants s.kind = true ∧ ind.periodS ≠ 0
  second : ∀ s, (ind.coalesce 1).staged s = none
  staged : ∀ s n, IsChange s.kind → free ≠ some s → (ind.coalesce 0).staged s = some n → owed s.kind log = some n
  full : ∀ s n, IsChange s.kind → free ≠ some s → ind.reaches = true → ind.wants s.kind = true → ind.periodS ≠ 0 →
    owed s.kind log = some n → (ind.coalesce 0).staged s = some n

/-- The settings are those that the journal says are in force. -/
structure Kept (free : Option Stage) (log : List Logged) (ind : Indication) : Prop where
  enabled : ind.enabled = (inForce log).isSome
  configured : ∀ req, inForce log = some req → Configured free log req ind

/-- The settings as `Kept` sees them did not change. -/
structure SameStaged (ind ind' : Indication) : Prop where
  enabled : ind'.enabled = ind.enabled
  recipientIp : ind'.recipientIp = ind.recipientIp
  recipientPort : ind'.recipientPort = ind.recipientPort
  infoBits : ind'.infoBits = ind.infoBits
  periodS : ind'.periodS = ind.periodS
  coalesce : ind'.coalesce = ind.coalesce

section Invariant

variable {free : Option Stage} {log : List Logged} {ind ind' : Indication}

theorem SameStaged.wants (h : SameStaged ind ind') (k : IndKind) : ind'.wants k = ind.wants k := by
  unfold Indication.wants
  rw [h.infoBits]

theorem SameStaged.reaches (h : SameStaged ind ind') : ind'.reaches = ind.reaches := by
  unfold Indication.reaches
  rw [h.recipientIp, h.recipientPort]

theorem Kept.same (h : Kept free log ind) (hs : SameStaged ind ind') : Kept free log ind' := by
  refine ⟨hs.enabled.trans h.enabled, fun req hreq => ?_⟩
  have hc := h.configured req hreq
  constructor
  · exact hs.recipientIp.trans hc.recipientIp
  · exact hs.recipientPort.trans hc.recipientPort
  · exact hs.infoBits.trans hc.infoBits
  · exact hs.periodS.trans hc.periodS
  · intro i s n hst
    rw [hs.coalesce] at hst
    rw [hs.wants, hs.periodS]
    exact hc.asked i s n hst
  · intro s
    rw [hs.coalesce]
    exact hc.second s
  · intro s n hch hfree hst
    rw [hs.coalesce] at hst
    exact hc.staged s n hch hfree hst
  · intro s n hch hfree hr hw hp ho
    rw [hs.reaches] at hr
    rw [hs.wants] at hw
    rw [hs.periodS] at hp
    rw [hs.coalesce]
    exact hc.full s n hch hfree hr hw hp ho

/-- The journal goes on with something that neither begins nor ends a configuration. -/
theorem Kept.extend {log' : List Logged} (h : Kept free log ind) (hforce : inForce log' = inForce log)
    (howed : ∀ s : Stage, IsChange s.kind → free ≠ some s → ind.periodS ≠ 0 → owed s.kind log' = owed s.kind log) :
    Kept free log' ind := by
  refine ⟨h.enabled.trans (by rw [hforce]), fun req hreq => ?_⟩
  have hc := h.configured req (hforce ▸ hreq)
  refine ⟨hc.recipientIp, hc.recipientPort, hc.infoBits, hc.periodS, hc.asked, hc.second, ?_, ?_⟩
  · intro s n hch hfree hst
    rw [howed s hch hfree (hc.asked 0 s n hst).2]
    exact hc.staged s n hch hfree hst
  · intro s n hch hfree hr hw hp ho
    rw [howed s hch hfree hp] at ho
    exact hc.full s n hch hfree hr hw hp ho

/-- What is accounted for may be left open. -/
theorem Kept.loosen (h : Kept none log ind) (free : Option Stage) : Kept free log ind := by
  refine ⟨h.enabled, fun req hreq => ?_⟩
  have hc := h.configured req hreq
  exact ⟨hc.recipientIp, hc.recipientPort, hc.infoBits, hc.periodS, hc.asked, hc.second,
    fun s n hch _ => hc.staged s n hch (by simp), fun s n hch _ => hc.full s n hch (by simp)⟩

end Invariant

end Indication

/-- What a sender logs. -/
def Told.log (t : Told) : List Logged := t.out.map .event

theorem Told.log_bind (t : Told) (f : Indication → Told) : (t.bind f).log = t.log ++ (f t.ind).log := List.map_append

/-- Each datagram is as the configuration in force asks. -/
def Fairly (log : List Logged) (l : Logged) : Prop := ∀ d, l = .event (.sent d) → Fair log d

namespace Indication

/-! ## The senders -/

/-- A sender that keeps to the journal, from what `free` leaves open to what `free'` does. -/
structure Sound (free free' : Option Stage) (log : List Logged) (t : Told) : Prop where
  kept : Kept free' (log ++ t.log) t.ind
  fair : List.Along Fairly log t.log

section Senders

variable {free free' free'' : Option Stage} {log : List Logged} {ind ind' : Indication}

theorem Kept.sound (h : Kept free log ind) : Sound free free log ind.still :=
  ⟨by simpa [Told.log, still] using h, trivial⟩

theorem Sound.bind {t : Told} {f : Indication → Told} (h : Sound free free' log t)
    (hf : Sound free' free'' (log ++ t.log) (f t.ind)) : Sound free free'' log (t.bind f) := by
  refine ⟨?_, ?_⟩
  · rw [Told.log_bind, ← List.append_assoc]
    exact hf.kept
  · rw [Told.log_bind, List.along_append]
    exact ⟨h.fair, hf.fair⟩

theorem sound_each {α : Type} {f : Indication → α → Told}
    (hf : ∀ log ind a, Kept free log ind → Sound free free log (f ind a)) (h : Kept free log ind) (as : List α) :
    Sound free free log (ind.each f as) := by
  induction as generalizing log ind with
  | nil => exact h.sound
  | cons a as ih => exact (hf log ind a h).bind (ih (hf log ind a h).kept)

/-- **A send.** A state change under a period goes out only if it is owed at a boundary, and leaves open what is staged. -/
theorem sound_emit (h : Kept free log ind) (sends : Sends) {n : Notice} (hw : ind.wants n.kind = true)
    (hchange : IsChange n.kind → ind.periodS ≠ 0 →
      (∀ s : Stage, s.kind = n.kind → free = some s) ∧ owed n.kind log = some n ∧ AtBoundary n.kind log) :
    Sound free free log (ind.emit sends n) := by
  have hsame : SameStaged ind { ind with seq := ind.seq + 1 } := ⟨rfl, rfl, rfl, rfl, rfl, rfl⟩
  rw [emit_eq]
  split
  next hgo =>
    obtain ⟨req, hreq⟩ : ∃ req, inForce log = some req := Option.isSome_iff_exists.mp (h.enabled.symm.trans hgo.1)
    have hc := h.configured req hreq
    refine ⟨?_, ?_, trivial⟩
    · refine (@Kept.extend free log ind (log ++ [.event (.sent _)]) h (inForce_skip rfl) fun s hs hfree hp => ?_).same hsame
      rw [owed_sent, if_neg]
      rintro ⟨-, hk⟩
      have hk : n.kind = s.kind := hk
      exact hfree ((hchange (hk ▸ hs) hp).1 s hk.symm)
    · intro d hd
      cases hd
      refine ⟨req, hreq, hc.recipientIp, hc.recipientPort, ?_, fun hp hch => ?_⟩
      · rw [← hc.infoBits]
        exact of_decide_eq_true hw
      · rw [← hc.periodS] at hp
        exact (hchange hch hp).2
  next => exact ⟨by simpa [Told.log] using h.same hsame, trivial⟩

/-- A notice that is no state change. -/
theorem sound_emit_other (h : Kept free log ind) (sends : Sends) {n : Notice} (hw : ind.wants n.kind = true)
    (hn : ¬ IsChange n.kind) : Sound free free log (ind.emit sends n) :=
  sound_emit h sends hw fun hch => absurd hch hn

theorem sound_initComplete (h : Kept free log ind) (sends : Sends) (status : BitVec 32) :
    Sound free free log (ind.initComplete sends status) := by
  unfold initComplete
  split
  · exact h.sound
  next hw => exact sound_emit_other h sends (not_not.mp hw) (by simp [IsChange, Notice.kind])

theorem sound_resetNotice (h : Kept free log ind) (sends : Sends) (cause : BitVec 32) :
    Sound free free log (ind.resetNotice sends cause) := by
  unfold resetNotice
  split
  · exact h.sound
  next hw => exact sound_emit_other h sends (not_not.mp hw) (by simp [IsChange, Notice.kind])

theorem sound_keepAlive (h : Kept free log ind) (sends : Sends) (timestamp : Bytes) :
    Sound free free log (ind.keepAlive sends timestamp) := by
  unfold keepAlive
  split
  · exact h.sound
  next hw => exact sound_emit_other h sends (not_not.mp hw) (by simp [IsChange, Notice.kind])

theorem sound_radioUp (h : Kept free log ind) (sends : Sends) : Sound free free log (ind.radioUp sends) := by
  unfold radioUp
  split
  · exact h.sound
  · have hsame : SameStaged ind { ind with radioUpReported := true } := ⟨rfl, rfl, rfl, rfl, rfl, rfl⟩
    exact sound_initComplete (h.same hsame) sends _

/-! ## State changes -/

/-- What is staged of the kind that was left open is accounted for again. -/
theorem Kept.tighten {s : Stage} (h : Kept (some s) log ind)
    (hs : IsChange s.kind → ind.wants s.kind = true → ind.periodS ≠ 0 → ∀ n,
      ((ind.coalesce 0).staged s = some n → owed s.kind log = some n) ∧
        (ind.reaches = true → owed s.kind log = some n → (ind.coalesce 0).staged s = some n)) : Kept none log ind := by
  refine ⟨h.enabled, fun req hreq => ?_⟩
  have hc := h.configured req hreq
  refine ⟨hc.recipientIp, hc.recipientPort, hc.infoBits, hc.periodS, hc.asked, hc.second, ?_, ?_⟩
  · intro s' n hch _ hst
    by_cases he : s' = s
    · subst he
      obtain ⟨hw, hp⟩ := hc.asked 0 s' n hst
      exact (hs hch hw hp n).1 hst
    · exact hc.staged s' n hch (fun hs' => he (Option.some.inj hs').symm) hst
  · intro s' n hch _ hr hw hp ho
    by_cases he : s' = s
    · subst he
      exact (hs hch hw hp n).2 hr ho
    · exact hc.full s' n hch (fun hs' => he (Option.some.inj hs').symm) hr hw hp ho

/-- The notifier is told of a state change. -/
theorem Kept.received {s : Stage} {n : Notice} (h : Kept none log ind) (hn : n.kind = s.kind) :
    Kept (some s) (log ++ [.received n]) ind := by
  refine (h.loosen (some s)).extend (inForce_skip rfl) fun s' hch hfree _ => ?_
  rw [owed_received, if_neg]
  intro hk
  exact hfree (congrArg some (Stage.eq_of_kind hch (hn.symm.trans hk)))

theorem staged_stage (i j : Fin 2) (f : Coalesce → Coalesce) (s : Stage) :
    ((ind.stage i f).coalesce j).staged s =
      if j = i then (f (ind.coalesce i)).staged s else (ind.coalesce j).staged s := by
  unfold stage
  dsimp only
  by_cases h : j = i
  · subst h
    rw [if_pos rfl, Function.update_self]
  · rw [if_neg h, Function.update_of_ne h]

/-- What is staged for the first link is replaced in one place. -/
theorem Kept.stage {s : Stage} {f : Coalesce → Coalesce} (h : Kept (some s) log ind)
    (hother : ∀ s', s' ≠ s → (f (ind.coalesce 0)).staged s' = (ind.coalesce 0).staged s')
    (hasked : ∀ n, (f (ind.coalesce 0)).staged s = some n → ind.wants s.kind = true ∧ ind.periodS ≠ 0) :
    Kept (some s) log (ind.stage 0 f) := by
  refine ⟨h.enabled, fun req hreq => ?_⟩
  have hc := h.configured req hreq
  refine ⟨hc.recipientIp, hc.recipientPort, hc.infoBits, hc.periodS, ?_, ?_, ?_, ?_⟩
  · intro i s' n hst
    rw [staged_stage] at hst
    split at hst
    · by_cases he : s' = s
      · subst he
        exact hasked n hst
      · rw [hother s' he] at hst
        exact hc.asked 0 s' n hst
    · exact hc.asked i s' n hst
  · intro s'
    rw [staged_stage, if_neg (by simp)]
    exact hc.second s'
  · intro s' n hch hfree hst
    have he : s' ≠ s := fun he => hfree (congrArg some he.symm)
    rw [staged_stage, if_pos rfl, hother s' he] at hst
    exact hc.staged s' n hch hfree hst
  · intro s' n hch hfree hr hw hp ho
    have he : s' ≠ s := fun he => hfree (congrArg some he.symm)
    rw [staged_stage, if_pos rfl, hother s' he]
    exact hc.full s' n hch hfree hr hw hp ho

/-- **A state change** is staged under a period, else sent at once. -/
theorem sound_change {s : Stage} {n : Notice} {f : Coalesce → Coalesce} (h : Kept (some s) log ind)
    (hn : n.kind = s.kind) (howed : owed s.kind log = some n) (hself : (f (ind.coalesce 0)).staged s = some n)
    (hother : ∀ s', s' ≠ s → (f (ind.coalesce 0)).staged s' = (ind.coalesce 0).staged s') (sends : Sends) :
    Sound (some s) none log (if ¬ ind.wants n.kind then ind.still
      else if ind.periodS > 0 then (ind.stage 0 f).still else ind.emit sends n) := by
  rw [hn]
  split
  next hw =>
    have hk : Kept none log ind := h.tighten fun _ hw' => absurd hw' hw
    exact ⟨by simpa [Told.log, still] using hk, trivial⟩
  next hw =>
    have hw : ind.wants s.kind = true := not_not.mp hw
    split
    next hp =>
      have hp : ind.periodS ≠ 0 := fun h0 => absurd hp (by rw [h0]; decide)
      have hk : Kept none log (ind.stage 0 f) := by
        refine (h.stage hother fun _ _ => ⟨hw, hp⟩).tighten fun _ _ _ m => ?_
        rw [staged_stage, if_pos rfl, hself, howed]
        exact ⟨id, fun _ => id⟩
      exact ⟨by simpa [Told.log, still] using hk, trivial⟩
    next hp =>
      have hp : ind.periodS = 0 := by
        by_contra hne
        exact hp (Nat.pos_of_ne_zero fun h0 => hne (BitVec.eq_of_toNat_eq h0))
      have he := sound_emit h sends (n := n) (hn ▸ hw) fun _ hne => absurd hp hne
      refine ⟨he.kept.tighten fun _ _ hne => absurd ?_ hne, he.fair⟩
      rw [(same_emit ind sends n).periodS, hp]

theorem kind_emit {sends : Sends} {n : Notice} {d : Datagram} (h : .sent d ∈ (ind.emit sends n).out) :
    d.notice = n := by
  rw [emit_eq] at h
  split at h
  · cases List.mem_singleton.mp h
    rfl
  · cases h

theorem kind_radioUp {sends : Sends} {d : Datagram} (h : .sent d ∈ (ind.radioUp sends).out) :
    d.notice.kind = .initComplete := by
  unfold radioUp initComplete at h
  split at h
  · cases h
  · split at h
    · cases h
    · rw [kind_emit h]
      rfl

theorem sound_wlanStatus (h : Kept none log ind) (sends : Sends) (now : Nat) (v : WlanStatusChange) :
    Sound (some .wlan) none (log ++ [.received (.wlanStatusChange v)]) (ind.wlanStatus sends now v) := by
  have hr : Kept (some .wlan) (log ++ [.received (.wlanStatusChange v)]) { ind with
      wlan0AssocKnown := true, wlan0Assoc := decide (v.wlanStatus = wlanStatusConnected), wlan0AssocAt := now } :=
    (h.received (s := .wlan) rfl).same ⟨rfl, rfl, rfl, rfl, rfl, rfl⟩
  have hlast : ∀ {t : Told}, Sound (some .wlan) (some .wlan) (log ++ [.received (.wlanStatusChange v)]) t →
      (∀ d, .sent d ∈ t.out → d.notice.kind = .initComplete) →
      Sound (some .wlan) none (log ++ [.received (.wlanStatusChange v)]) (t.bind fun ind =>
        if ¬ ind.wants .wlanStatusChange then ind.still
        else if ind.periodS > 0 then
          (ind.stage 0 fun c =>
            { c with wlanStatus := v.wlanStatus, wlanCh := v.indicationCh, wlanPending := true }).still
        else ind.emit sends (.wlanStatusChange v)) := by
    intro t ht hkind
    refine ht.bind (sound_change (s := .wlan) (n := .wlanStatusChange v) ht.kept rfl ?_ rfl ?_ sends)
    · have hne : ∀ d, .sent d ∈ t.out → d.notice.kind ≠ .wlanStatusChange := by
        intro d hd hk
        cases (hkind d hd).symm.trans hk
      exact (owed_events hne).trans (owed_received_self (.wlanStatusChange v))
    · intro s' hs'
      cases s' <;> first | exact absurd rfl hs' | rfl
  unfold wlanStatus
  dsimp only
  split
  · exact hlast (sound_radioUp hr sends) fun d hd => kind_radioUp hd
  · exact hlast hr.sound fun d hd => by cases hd

theorem sound_roaming (h : Kept none log ind) (sends : Sends) (v : RoamingInd) :
    Sound (some .roam) none (log ++ [.received (.roaming v)]) (ind.roaming sends v) := by
  have hr : Kept (some .roam) (log ++ [.received (.roaming v)]) ind := h.received rfl
  refine sound_change (n := .roaming v) hr rfl (owed_received_self (.roaming v)) rfl ?_ sends
  intro s' hs'
  cases s' <;> first | exact absurd rfl hs' | rfl

theorem sound_apDisconnect (h : Kept none log ind) (sends : Sends) (v : ApDisconnect) :
    Sound (some .apd) none (log ++ [.received (.apDisconnect v)]) (ind.apDisconnect sends v) := by
  have hr : Kept (some .apd) (log ++ [.received (.apDisconnect v)]) ind := h.received rfl
  refine sound_change (n := .apDisconnect v) hr rfl (owed_received_self (.apDisconnect v)) rfl ?_ sends
  intro s' hs'
  cases s' <;> first | exact absurd rfl hs' | rfl

/-! ## The congestion watch -/

/-- A congestion that is staged or withdrawn. -/
theorem Kept.stageFault {f : Coalesce → Coalesce} (h : Kept free log ind)
    (hother : ∀ s, IsChange s.kind → (f (ind.coalesce 0)).staged s = (ind.coalesce 0).staged s)
    (hasked : ∀ k n, (f (ind.coalesce 0)).staged (.fault k) = some n →
      (ind.coalesce 0).staged (.fault k) ≠ none ∨ ind.wants .faultDetect = true ∧ ind.periodS ≠ 0) :
    Kept free log (ind.stage 0 f) := by
  refine ⟨h.enabled, fun req hreq => ?_⟩
  have hc := h.configured req hreq
  refine ⟨hc.recipientIp, hc.recipientPort, hc.infoBits, hc.periodS, ?_, ?_, ?_, ?_⟩
  · intro i s n hst
    rw [staged_stage] at hst
    split at hst
    · cases s with
      | fault k =>
        rcases hasked k n hst with hwas | hnow
        · obtain ⟨m, hm⟩ := Option.ne_none_iff_exists'.mp hwas
          exact hc.asked 0 _ m hm
        · exact hnow
      | wlan => exact hc.asked 0 _ n ((hother .wlan (.inl rfl)) ▸ hst)
      | roam => exact hc.asked 0 _ n ((hother .roam (.inr (.inl rfl))) ▸ hst)
      | apd => exact hc.asked 0 _ n ((hother .apd (.inr (.inr rfl))) ▸ hst)
    · exact hc.asked i s n hst
  · intro s
    rw [staged_stage, if_neg (by simp)]
    exact hc.second s
  · intro s n hch hfree hst
    rw [staged_stage, if_pos rfl, hother s hch] at hst
    exact hc.staged s n hch hfree hst
  · intro s n hch hfree hr hw hp ho
    rw [staged_stage, if_pos rfl, hother s hch]
    exact hc.full s n hch hfree hr hw hp ho

theorem sound_faultDetect (h : Kept free log ind) (sends : Sends) (v : FaultDetect) :
    Sound free free log (ind.faultDetect sends v) := by
  unfold faultDetect
  split
  · exact h.sound
  next hw =>
    have hw : ind.wants .faultDetect = true := not_not.mp hw
    split
    next hp =>
      have hp : ind.periodS ≠ 0 := fun h0 => absurd hp (by rw [h0]; decide)
      split
      · exact ⟨by simpa [Told.log] using h, trivial⟩
      · refine (h.stageFault (fun s hch => ?_) fun _ _ _ => .inr ⟨hw, hp⟩).sound
        cases s with
        | fault k => rcases hch with hch | hch | hch <;> cases hch
        | _ => rfl
    next => exact sound_emit_other h sends hw (by simp [IsChange, Notice.kind])

theorem sound_announce (rep : Report) (sends : Sends) (log : List Logged) (ind : Indication) (r : Res)
    (h : Kept free log ind) : Sound free free log (announce rep sends ind r) := by
  unfold announce
  split
  · have hs := sound_faultDetect h sends ⟨r.congestionId, rep.pct r⟩
    dsimp only
    split
    · exact hs
    · exact ⟨hs.kept.same ⟨rfl, rfl, rfl, rfl, rfl, rfl⟩, hs.fair⟩
  · exact h.sound

theorem kept_withdraw (rep : Report) (h : Kept free log ind) (rs : List Res) :
    Kept free log (rs.foldl (withdraw rep) ind) := by
  induction rs generalizing ind with
  | nil => exact h
  | cons r rs ih =>
    refine ih ?_
    unfold withdraw faultClear
    split
    · split
      · exact h
      · split
        · exact h
        next k' _ =>
          refine h.stageFault (f := (·.drop (.fault k'))) (fun s hch => ?_) fun k n hst => .inl fun hno => ?_
          · refine Coalesce.staged_drop_ne _ ?_
            rintro rfl
            rcases hch with hch | hch | hch <;> cases hch
          · by_cases hk : Stage.fault k = .fault k'
            · rw [hk, Coalesce.staged_drop_self] at hst
              cases hst
            · rw [Coalesce.staged_drop_ne _ hk, hno] at hst
              cases hst
    · exact h

theorem sound_faultProbeTick (h : Kept free log ind) (sends : Sends) (rd : Reading) (elapsed : Nat) :
    Sound free free log (ind.faultProbeTick sends rd elapsed) := by
  unfold faultProbeTick
  split
  · exact h.sound
  · dsimp only
    split
    · have hsame : SameStaged ind { ind with faultProbe := (ind.faultProbe.due elapsed).1 } :=
        ⟨rfl, rfl, rfl, rfl, rfl, rfl⟩
      exact (h.same hsame).sound
    · have hsampled : Sound free free log ⟨{ ind with
          faultProbe := ((ind.faultProbe.due elapsed).1.sample rd).1 },
          [.sampled ((ind.faultProbe.due elapsed).1.percentages rd)], true⟩ := by
        refine ⟨(h.extend (inForce_skip rfl) fun s _ _ _ => owed_skip rfl).same ⟨rfl, rfl, rfl, rfl, rfl, rfl⟩, ?_, trivial⟩
        intro d hd
        cases hd
      refine hsampled.bind ?_
      have heach := sound_each (sound_announce ((ind.faultProbe.due elapsed).1.sample rd).2 sends) hsampled.kept resources
      exact heach.bind (kept_withdraw _ heach.kept resources).sound

/-! ## A boundary -/

/-- What goes out of a stage is of its kind. -/
theorem sent_flushStage {sends : Sends} {i : Fin 2} {s : Stage} {e : Event} (he : e ∈ (flushStage sends i ind s).out) :
    ∃ d : Datagram, e = .sent d ∧ d.notice.kind = s.kind := by
  unfold flushStage at he
  cases hst : (ind.coalesce i).staged s with
  | none =>
    rw [hst] at he
    cases he
  | some n =>
    rw [hst] at he
    have hmem : e ∈ (ind.emit sends n).out := by
      dsimp only at he
      split at he <;> exact he
    rw [emit_eq] at hmem
    split at hmem
    · exact ⟨_, List.mem_singleton.mp hmem, Coalesce.kind_staged hst⟩
    · cases hmem

/-- **A stage is flushed**: what it holds goes out, and stays only if that fails. -/
theorem sound_flushStage (h : Kept none log ind) (sends : Sends) {s : Stage}
    (hb : IsChange s.kind → AtBoundary s.kind log) : Sound none none log (flushStage sends 0 ind s) := by
  unfold flushStage
  cases hst : (ind.coalesce 0).staged s with
  | none => exact h.sound
  | some n =>
    dsimp only
    have hk : n.kind = s.kind := Coalesce.kind_staged hst
    cases hforce : inForce log with
    | none =>
      -- nothing goes out, and nothing is in force
      have hoff : ind.enabled = false := by rw [h.enabled, hforce]; rfl
      have hemit : ind.emit sends n = ⟨{ ind with seq := ind.seq + 1 }, [], true⟩ := by
        rw [emit_eq, if_neg]
        intro hgo
        cases hoff.symm.trans hgo.1
      have hlog : log ++ Told.log ⟨(ind.emit sends n).ind.stage 0 (·.drop s), (ind.emit sends n).out, true⟩ = log := by
        rw [hemit]
        exact List.append_nil log
      rw [if_pos (by rw [hemit])]
      refine ⟨⟨?_, fun req hreq => ?_⟩, ?_⟩
      · rw [hemit] at hlog ⊢
        rw [hlog, hforce]
        exact hoff
      · rw [hemit] at hlog hreq
        rw [hlog, hforce] at hreq
        cases hreq
      · rw [hemit]
        trivial
    | some req =>
      have hc := h.configured req hforce
      obtain ⟨hw, hp⟩ := hc.asked 0 s n hst
      have hon : ind.enabled = true := by rw [h.enabled, hforce]; rfl
      have hemit := sound_emit (h.loosen (some s)) sends (n := n) (hk ▸ hw) fun hch _ => by
        rw [hk] at hch ⊢
        exact ⟨fun s' hs' => congrArg some (Stage.eq_of_kind hch hs').symm, hc.staged s n hch (by simp) hst, hb hch⟩
      have hsame := same_emit ind sends n
      have hcoalesce : (ind.emit sends n).ind.coalesce = ind.coalesce := by
        rw [emit_eq]
        split <;> rfl
      split
      next hok =>
        refine ⟨?_, hemit.fair⟩
        refine (hemit.kept.stage (f := (·.drop s)) (fun s' hs' => Coalesce.staged_drop_ne _ hs') fun m hm => ?_).tighten
          fun hch _ _ m => ⟨fun hm => ?_, fun hr ho => ?_⟩
        · rw [Coalesce.staged_drop_self] at hm
          cases hm
        · rw [staged_stage, if_pos rfl, Coalesce.staged_drop_self] at hm
          cases hm
        · -- it was sent
          have hr : ind.reaches = true := hsame.reaches ▸ hr
          rw [emit_eq, if_pos ⟨hon, hr⟩] at ho hok
          change owed s.kind (log ++ [.event (.sent _)]) = some m at ho
          rw [owed_sent, if_pos ⟨hok, hk⟩] at ho
          cases ho
      next hok =>
        refine ⟨hemit.kept.tighten fun hch _ _ m => ?_, hemit.fair⟩
        have hsent : ind.enabled = true ∧ ind.reaches = true := by
          by_contra hno
          rw [emit_eq, if_neg hno] at hok
          exact hok rfl
        have howed : owed s.kind (log ++ (ind.emit sends n).log) = owed s.kind log := by
          rw [emit_eq, if_pos hsent] at hok ⊢
          change owed s.kind (log ++ [.event (.sent _)]) = _
          rw [owed_sent, if_neg fun hd => hok hd.1]
        rw [howed, hcoalesce]
        exact ⟨hc.staged s m hch (by simp), fun _ => hc.full s m hch (by simp) hsent.2 hw hp⟩

/-- The stages of the first link. -/
theorem sound_flushStages (sends : Sends) {ss : List Stage} (hss : ss.Nodup) (h : Kept none log ind)
    (hb : ∀ s ∈ ss, IsChange s.kind → AtBoundary s.kind log) :
    Sound none none log (ind.each (flushStage sends 0) ss) := by
  induction ss generalizing log ind with
  | nil => exact h.sound
  | cons s ss ih =>
    have hs := sound_flushStage h sends (hb s List.mem_cons_self)
    refine hs.bind (ih (List.nodup_cons.mp hss).2 hs.kept fun s' hs' hch => ?_)
    refine (hb s' (List.mem_cons_of_mem s hs') hch).events fun e he => ?_
    obtain ⟨d, rfl, hd⟩ := sent_flushStage he
    refine ⟨d, rfl, fun hk => ?_⟩
    obtain rfl := Stage.eq_of_kind hch (hd.symm.trans hk)
    exact (List.nodup_cons.mp hss).1 hs'

/-- The second link has nothing staged. -/
theorem each_second (sends : Sends) (h : ∀ s, (ind.coalesce 1).staged s = none) (ss : List Stage) :
    ind.each (flushStage sends 1) ss = ind.still := by
  induction ss with
  | nil => rfl
  | cons s ss ih =>
    have hs : flushStage sends 1 ind s = ind.still := by
      unfold flushStage
      rw [h s]
    rw [each, hs, Told.bind, still]
    dsimp only
    rw [ih]
    rfl

theorem sound_flush (h : Kept none log ind) (hon : ind.enabled = true) (sends : Sends) (timestamp : Bytes) :
    Sound none none log (ind.flush sends timestamp) := by
  have hbound : Sound none none log ⟨ind, [.boundary], true⟩ := by
    refine ⟨h.extend (inForce_skip rfl) fun s _ _ _ => owed_skip rfl, ?_, trivial⟩
    intro d hd
    cases hd
  have hfirst := sound_flushStages sends (show stages.Nodup by decide) hbound.kept fun s _ _ => atBoundary_now
  refine hbound.bind (hfirst.bind ?_)
  obtain ⟨req, hreq⟩ : ∃ req, inForce log = some req := Option.isSome_iff_exists.mp (h.enabled.symm.trans hon)
  have hsecond : ∀ s, ((ind.each (flushStage sends 0) stages).ind.coalesce 1).staged s = none := by
    refine (hfirst.kept.configured req ?_).second
    exact (inForce_events _).trans ((inForce_events [.boundary]).trans hreq)
  rw [each_second sends hsecond stages]
  exact hfirst.kept.sound.bind (sound_keepAlive (by simpa [Told.log, still] using hfirst.kept) sends timestamp)

theorem sound_tickElapsed (h : Kept none log ind) (env : TickEnv) (elapsed : BitVec 32) :
    Sound none none log (ind.tickElapsed env elapsed) := by
  unfold tickElapsed
  split
  · exact h.sound
  next hon =>
    have hon : ind.enabled = true := not_not.mp hon
    have hprobe := sound_faultProbeTick h env.sends env.reading elapsed.toNat
    refine hprobe.bind ?_
    have hkept := hprobe.kept
    have hstill : (ind.faultProbeTick env.sends env.reading elapsed.toNat).ind.enabled = true :=
      (offbeat_faultProbeTick ind env.sends env.reading elapsed.toNat).same.enabled.trans hon
    generalize (ind.faultProbeTick env.sends env.reading elapsed.toNat).ind = ind₁ at hkept hstill
    split
    · exact hkept.sound
    · split
      · exact hkept.sound
      · dsimp only
        split
        · have hcount : SameStaged ind₁ { ind₁ with
              tickCounter := ind₁.tickCounter + ↑(min elapsed.toNat ind₁.periodS.toNat) } :=
            ⟨rfl, rfl, rfl, rfl, rfl, rfl⟩
          exact (hkept.same hcount).sound
        · have hzero : SameStaged ind₁ { ind₁ with tickCounter := 0 } := ⟨rfl, rfl, rfl, rfl, rfl, rfl⟩
          exact sound_flush (hkept.same hzero) hstill env.sends env.timestamp

end Senders

/-! ## Every input -/

/-- What is logged of an input itself. -/
def Input.logged : Input → List Logged
  | .config req => [.accepted req]
  | .ipChanged => [.ipChanged]
  | .wlanStatus _ _ v => [.received (.wlanStatusChange v)]
  | .roaming _ v => [.received (.roaming v)]
  | .apDisconnect _ v => [.received (.apDisconnect v)]
  | _ => []

/-- The notifier with its journal. -/
def journal : Machine Indication Input Logged :=
  ⟨fun ind i => (ind.take i).ind, fun ind i => i.logged ++ (ind.take i).log⟩

/-- A configuration is accepted. -/
theorem kept_configure (log : List Logged) (ind : Indication) (req : SetIndicationConfigReq) :
    Kept none (log ++ [.accepted req]) (ind.configure req) := by
  refine ⟨?_, fun req' hreq => ?_⟩
  · rw [inForce_accepted]
    change decide (req.infoBits ≠ 0) = _
    split
    next h => exact decide_eq_true h
    next h => exact decide_eq_false h
  · rw [inForce_accepted] at hreq
    split at hreq
    · obtain rfl := Option.some.inj hreq
      have hzero : ∀ i s, ((ind.configure req).coalesce i).staged s = none := fun _ s => Coalesce.staged_zero s
      refine ⟨rfl, rfl, rfl, rfl, ?_, hzero 1, ?_, ?_⟩
      · intro i s n hst
        rw [hzero] at hst
        cases hst
      · intro s n _ _ hst
        rw [hzero] at hst
        cases hst
      · intro s n _ _ _ _ _ ho
        rw [owed_accepted] at ho
        cases ho
    · cases hreq

/-- **Every input keeps to the journal.** -/
theorem journal_take {log : List Logged} {ind : Indication} (h : Kept none log ind) (i : Input) :
    Kept none (log ++ journal.out ind i) (journal.step ind i) ∧ List.Along Fairly log (journal.out ind i) := by
  have hplain : ∀ {t : Told}, Sound none none log t → Kept none (log ++ ([] ++ t.log)) t.ind ∧
      List.Along Fairly log ([] ++ t.log) := by
    intro t ht
    rw [List.nil_append]
    exact ⟨ht.kept, ht.fair⟩
  have htold : ∀ {l : Logged} {free : Option Stage} {t : Told}, (∀ d, l ≠ .event (.sent d)) →
      Sound free none (log ++ [l]) t → Kept none (log ++ ([l] ++ t.log)) t.ind ∧
        List.Along Fairly log ([l] ++ t.log) := by
    intro l free t hl ht
    rw [← List.append_assoc, List.along_append]
    exact ⟨ht.kept, ⟨fun d hd => absurd hd (hl d), trivial⟩, ht.fair⟩
  cases i with
  | config req => exact htold (by simp) (kept_configure log ind req).sound
  | ipChanged =>
    have hoff : Kept none (log ++ [.ipChanged]) { ind with enabled := false } := by
      refine ⟨by simp, fun req hreq => ?_⟩
      rw [inForce_ipChanged] at hreq
      cases hreq
    exact htold (by simp) hoff.sound
  | initComplete sends status => exact hplain (sound_initComplete h sends status)
  | radioUp sends => exact hplain (sound_radioUp h sends)
  | resetNotice sends cause => exact hplain (sound_resetNotice h sends cause)
  | wlanStatus sends now v => exact htold (by simp) (sound_wlanStatus h sends now v)
  | roaming sends v => exact htold (by simp) (sound_roaming h sends v)
  | apDisconnect sends v => exact htold (by simp) (sound_apDisconnect h sends v)
  | faultDetect sends v => exact hplain (sound_faultDetect h sends v)
  | tick env elapsed => exact hplain (sound_tickElapsed h env elapsed)

/-- **Every run keeps to the journal**, and every datagram is as the configuration in force asks. -/
theorem journal_run {ind : Indication} (hoff : ind.enabled = false) (is : List Input) :
    Kept none (journal.trace ind is) (journal.run ind is) ∧ List.Along Fairly [] (journal.trace ind is) := by
  have hstart : Kept none [] ind := ⟨hoff, fun req hreq => by cases hreq⟩
  exact journal.trace_along (I := Kept none) (fun log ind i h => journal_take h i) hstart is

/-! ## Every boundary -/

section Boundaries

variable {ind : Indication} {sends : Sends}

theorem sent_each {α : Type} {f : Indication → α → Told} (hf : ∀ ind a, ∀ e ∈ (f ind a).out, ∃ d, e = .sent d)
    (ind : Indication) (as : List α) : ∀ e ∈ (ind.each f as).out, ∃ d, e = .sent d := by
  induction as generalizing ind with
  | nil =>
    intro e he
    cases he
  | cons a as ih =>
    intro e he
    rcases List.mem_append.mp he with he | he
    · exact hf ind a e he
    · exact ih _ e he

/-- A step that finds something, if the steps before it leave it alone. -/
theorem each_finds {α : Type} {f : Indication → α → Told} {P : Indication → Prop} {Q : Event → Prop} {a : α}
    (hkeep : ∀ ind b, b ≠ a → P ind → P (f ind b).ind) (hfind : ∀ ind, P ind → ∃ e ∈ (f ind a).out, Q e)
    {as : List α} (ha : a ∈ as) (h : P ind) : ∃ e ∈ (ind.each f as).out, Q e := by
  induction as generalizing ind with
  | nil => cases ha
  | cons b as ih =>
    by_cases hb : b = a
    · subst hb
      obtain ⟨e, he, hq⟩ := hfind ind h
      exact ⟨e, List.mem_append_left _ he, hq⟩
    · have ha' : a ∈ as := (List.mem_cons.mp ha).resolve_left (Ne.symm hb)
      obtain ⟨e, he, hq⟩ := ih ha' (hkeep ind b hb h)
      exact ⟨e, List.mem_append_right _ he, hq⟩

/-- After the boundary itself, a flush only sends; and it sends what is staged. -/
theorem flush_out (ind : Indication) (sends : Sends) (timestamp : Bytes) :
    ∃ post, (ind.flush sends timestamp).out = .boundary :: post ∧ (∀ e ∈ post, ∃ d, e = .sent d) ∧
      ∀ s ∈ stages, ∀ n, ind.enabled = true → ind.reaches = true → (ind.coalesce 0).staged s = some n →
        ∃ d : Datagram, .sent d ∈ post ∧ d.notice = n := by
  have hstage : ∀ (i : Fin 2) (ind : Indication) (s : Stage), ∀ e ∈ (flushStage sends i ind s).out, ∃ d, e = .sent d := by
    intro i ind s e he
    obtain ⟨d, rfl, -⟩ := sent_flushStage he
    exact ⟨d, rfl⟩
  have hout : (ind.flush sends timestamp).out = .boundary :: ((ind.each (flushStage sends 0) stages).out ++
      (((ind.each (flushStage sends 0) stages).ind.each (flushStage sends 1) stages).out ++
        (((ind.each (flushStage sends 0) stages).ind.each (flushStage sends 1) stages).ind.keepAlive sends timestamp).out)) := by
    unfold flush
    rw [Told.bind_out, Told.bind_out, Told.bind_out, List.singleton_append]
  refine ⟨_, hout, fun e he => ?_, fun s hs n hon hr hst => ?_⟩
  · rcases List.mem_append.mp he with he | he
    · exact sent_each (hstage 0) _ _ e he
    · rcases List.mem_append.mp he with he | he
      · exact sent_each (hstage 1) _ _ e he
      · unfold keepAlive at he
        split at he
        · cases he
        · rw [emit_eq] at he
          split at he
          · exact ⟨_, List.mem_singleton.mp he⟩
          · cases he
  · have hfinds := each_finds (f := flushStage sends 0) (a := s)
      (P := fun ind => ind.enabled = true ∧ ind.reaches = true ∧ (ind.coalesce 0).staged s = some n)
      (Q := fun e => ∃ d : Datagram, e = .sent d ∧ d.notice = n) ?_ ?_ hs ⟨hon, hr, hst⟩
    · obtain ⟨e, he, d, rfl, hd⟩ := hfinds
      exact ⟨d, List.mem_append_left _ he, hd⟩
    · rintro ind s' hne ⟨hon, hr, hst⟩
      unfold flushStage
      cases (ind.coalesce 0).staged s' with
      | none => exact ⟨hon, hr, hst⟩
      | some m =>
        dsimp only
        have hsame := same_emit ind sends m
        have hcoalesce : (ind.emit sends m).ind.coalesce = ind.coalesce := by
          rw [emit_eq]
          split <;> rfl
        split
        · refine ⟨hsame.enabled.trans hon, hsame.reaches.trans hr, ?_⟩
          rw [staged_stage, if_pos rfl, Coalesce.staged_drop_ne _ (Ne.symm hne), hcoalesce]
          exact hst
        · refine ⟨hsame.enabled.trans hon, hsame.reaches.trans hr, ?_⟩
          rw [hcoalesce]
          exact hst
    · rintro ind ⟨hon, hr, hst⟩
      have hout : (ind.emit sends n).out =
          [.sent ⟨ind.recipientIp, ind.recipientPort, ind.seq, n, sends ind.seq⟩] := by
        rw [emit_eq, if_pos ⟨hon, hr⟩]
      have hmem : .sent ⟨ind.recipientIp, ind.recipientPort, ind.seq, n, sends ind.seq⟩ ∈ (ind.emit sends n).out := by
        rw [hout]
        exact List.mem_singleton_self _
      refine ⟨.sent ⟨ind.recipientIp, ind.recipientPort, ind.seq, n, sends ind.seq⟩, ?_,
        ⟨ind.recipientIp, ind.recipientPort, ind.seq, n, sends ind.seq⟩, rfl, rfl⟩
      unfold flushStage
      rw [hst]
      dsimp only
      split <;> exact hmem

/-- **A tick that ends a period**: the probe, then the flush. -/
theorem tick_boundary {env : TickEnv} {elapsed : BitVec 32} {b c : List Event}
    (h : (ind.tickElapsed env elapsed).out = b ++ .boundary :: c) :
    ind.enabled = true ∧ b = (ind.faultProbeTick env.sends env.reading elapsed.toNat).out ∧
      (ind.faultProbeTick env.sends env.reading elapsed.toNat).ind.periodS ≠ 0 ∧
      .boundary :: c = ({ (ind.faultProbeTick env.sends env.reading elapsed.toNat).ind with
        tickCounter := 0 }.flush env.sends env.timestamp).out := by
  have hprobe := offbeat_faultProbeTick ind env.sends env.reading elapsed.toNat
  have hno : Event.boundary ∉ (ind.faultProbeTick env.sends env.reading elapsed.toNat).out := by
    intro hmem
    exact absurd hprobe.boundary (Nat.pos_iff_ne_zero.mp (List.countP_pos_iff.mpr ⟨_, hmem, rfl⟩))
  unfold tickElapsed at h
  split at h
  · simp [still] at h
  next hon =>
    refine ⟨not_not.mp hon, ?_⟩
    rw [Told.bind_out] at h
    generalize ind.faultProbeTick env.sends env.reading elapsed.toNat = t at h hno
    have hquiet : t.out ++ [] ≠ b ++ .boundary :: c := by
      intro heq
      refine hno ?_
      rw [List.append_nil] at heq
      rw [heq]
      exact List.mem_append_right _ List.mem_cons_self
    split at h
    · exact absurd h hquiet
    next hp =>
      split at h
      · exact absurd h hquiet
      · dsimp only at h
        split at h
        · exact absurd h hquiet
        · obtain ⟨post, hpost, hsent, -⟩ := flush_out { t.ind with tickCounter := 0 } env.sends env.timestamp
          have hnot : Event.boundary ∉ post := by
            intro hmem
            obtain ⟨d, hd⟩ := hsent _ hmem
            cases hd
          rw [hpost] at h ⊢
          obtain ⟨rfl, -, rfl⟩ := (List.append_cons_inj_of_notMem hno hnot).mp h
          exact ⟨rfl, hp, rfl⟩

end Boundaries

/-- Only a tick ends a period. -/
theorem tick_of_boundary {ind : Indication} {i : Input} (h : .boundary ∈ (ind.take i).out) :
    ∃ env elapsed, i = .tick env elapsed := by
  have hoff : i.keepsConfig = true → i.elapsed? ≠ none := by
    intro hi he
    exact absurd (offbeat_take ind hi he).boundary (Nat.pos_iff_ne_zero.mp (List.countP_pos_iff.mpr ⟨_, h, rfl⟩))
  cases i with
  | tick env elapsed => exact ⟨env, elapsed, rfl⟩
  | config req => cases h
  | ipChanged => cases h
  | _ => exact absurd rfl (hoff rfl)

/-- **At every boundary**, each state change that is owed goes out. -/
theorem journal_boundary {ind : Indication} (hoff : ind.enabled = false) {is : List Input} {b c : List Logged}
    (h : journal.trace ind is = b ++ .event .boundary :: c) {req : SetIndicationConfigReq} (hreq : inForce b = some req)
    (hreach : req.recipientIp ≠ 0 ∧ req.recipientPort ≠ 0) {k : IndKind} (hk : IsChange k)
    (hbit : req.infoBits &&& k.bit ≠ 0) {n : Notice} (howed : owed k b = some n) :
    ∃ c₁ d c₂, c = c₁ ++ .event (.sent d) :: c₂ ∧ d.notice = n ∧ ∀ l ∈ c₁, ∃ d, l = .event (.sent d) := by
  obtain ⟨is₁, i, is₂, b', c', rfl, hout, rfl, rfl⟩ := journal.trace_split h
  obtain ⟨hkept, -⟩ := journal_run hoff is₁
  generalize journal.run ind is₁ = ind₁ at hout hkept
  generalize journal.trace ind is₁ = log at hkept hreq howed
  have hmem : .boundary ∈ (ind₁.take i).out := by
    have hin : .event .boundary ∈ journal.out ind₁ i := by
      rw [hout]
      exact List.mem_append_right _ List.mem_cons_self
    rcases List.mem_append.mp hin with hin | hin
    · cases i <;> simp [Input.logged] at hin
    · obtain ⟨e, he, hev⟩ := List.mem_map.mp hin
      cases hev
      exact he
  obtain ⟨env, elapsed, rfl⟩ := tick_of_boundary hmem
  have hlog : (ind₁.tickElapsed env elapsed).out.map Logged.event = b' ++ .event .boundary :: c' := hout
  obtain ⟨b₀, c₀, hsplit, rfl, hc₀⟩ := List.map_eq_append_iff.mp hlog
  obtain ⟨e, c₁, rfl, he, rfl⟩ := List.map_eq_cons_iff.mp hc₀
  cases he
  obtain ⟨-, rfl, hp, hflush⟩ := tick_boundary hsplit
  have hprobe := sound_faultProbeTick hkept env.sends env.reading elapsed.toNat
  have hc := hprobe.kept.configured req hreq
  obtain ⟨s, hs, rfl⟩ : ∃ s ∈ stages, s.kind = k := by
    rcases hk with rfl | rfl | rfl
    · exact ⟨.wlan, by simp [stages], rfl⟩
    · exact ⟨.roam, by simp [stages], rfl⟩
    · exact ⟨.apd, by simp [stages], rfl⟩
  have hreaches : (ind₁.faultProbeTick env.sends env.reading elapsed.toNat).ind.reaches = true := by
    unfold reaches
    rw [hc.recipientIp, hc.recipientPort]
    exact decide_eq_true hreach
  have hwants : (ind₁.faultProbeTick env.sends env.reading elapsed.toNat).ind.wants s.kind = true := by
    unfold wants
    rw [hc.infoBits]
    exact decide_eq_true hbit
  have hon : (ind₁.faultProbeTick env.sends env.reading elapsed.toNat).ind.enabled = true := by
    rw [hprobe.kept.enabled]
    exact Option.isSome_iff_exists.mpr ⟨req, hreq⟩
  have hstaged := hc.full s n hk (by simp) hreaches hwants hp howed
  obtain ⟨post, hpost, hsent, hfind⟩ := flush_out
    { (ind₁.faultProbeTick env.sends env.reading elapsed.toNat).ind with tickCounter := 0 } env.sends env.timestamp
  obtain ⟨-, rfl⟩ := List.cons.inj (hflush.trans hpost)
  obtain ⟨d, hd, hn⟩ := hfind s hs n hon hreaches hstaged
  obtain ⟨p₁, p₂, rfl⟩ := List.append_of_mem hd
  have hrest : ∀ rest : List Logged, (p₁ ++ .sent d :: p₂).map Logged.event ++ rest =
      p₁.map .event ++ .event (.sent d) :: (p₂.map .event ++ rest) := by
    intro rest
    rw [List.map_append, List.map_cons, List.append_assoc, List.cons_append]
  refine ⟨p₁.map .event, d, _, hrest _, hn, fun l hl => ?_⟩
  · obtain ⟨e, he, rfl⟩ := List.mem_map.mp hl
    obtain ⟨d', rfl⟩ := hsent e (List.mem_append_left _ he)
    exact ⟨d', rfl⟩

end Indication

end Opcd
