import Opcd.Abstract.Simulation
import Opcd.IpList.Stored

/-!
# Stored slots are valid

Every copy of the IP list the daemon keeps (the list in effect, the open cycle, and both as a write in
flight would leave them) is `IpList.Stored`, and so is the entry of an armed change. No move breaks
that (`Sys.Slots.move`), and start-up establishes it whatever the files hold.

* `stored_slots_valid`: in every state the daemon reaches.
-/

namespace Opcd

open Bytes Protocol Store

/-- The four lists are stored. -/
structure IpListState.Stored (l : IpListState) : Prop where
  list : l.list.Stored
  staging : l.staging.Stored
  pending : l.pending.Stored
  pendingStaging : l.pendingStaging.Stored

namespace IpListState.Stored

variable {l : IpListState}

theorem folded (h : l.Stored) {src : Source} {loggedIn : Bool} {cl : Client}
    {es : List (Entry × Bool)} (due : EntriesDue src loggedIn cl es) : IpList.StoredFold (l.folded es).1 := by
  obtain ⟨frame, -, hes⟩ := due.source
  exact IpList.stored_foldEntries ⟨h.list, h.staging⟩ (IpList.terminated_of_unpack hes)

theorem closed (h : l.Stored) : l.closed.Stored :=
  ⟨h.list, IpList.stored_empty, h.pending, h.pendingStaging⟩

theorem publish (h : l.Stored) {f : St.Fold} (hf : IpList.StoredFold f) : (l.publish f).Stored :=
  ⟨hf.candidate, hf.staging, h.pending, h.pendingStaging⟩

theorem pend (h : l.Stored) {f : St.Fold} (hf : IpList.StoredFold f) (generation : BitVec 32) :
    (l.pend f generation).Stored :=
  ⟨h.list, h.staging, hf.candidate, hf.staging⟩

theorem unpend (h : l.Stored) : l.unpend.Stored :=
  ⟨h.list, h.staging, IpList.stored_empty, IpList.stored_empty⟩

theorem settle (h : l.Stored) (current : Bool) : (l.settle current).Stored := by
  unfold IpListState.settle
  split
  · exact unpend ⟨h.pending, h.pendingStaging, h.pending, h.pendingStaging⟩
  · exact unpend ⟨h.pending, h.staging, h.pending, h.pendingStaging⟩

end IpListState.Stored

/-- An armed change is to a slot of the list, with the entry it held. -/
def IpChange.Armed (c : IpChange) : Prop :=
  c.commitArmed = true → ∃ i, slotIdx? c.armedNo = some i ∧ IpList.Slotted i c.armedEntry

namespace IpChange.Armed

variable {c : IpChange} {l : IpList}

theorem arm (h : c.Armed) (hl : l.Stored) : (c.arm l).Armed := by
  unfold IpChange.arm
  cases hi : slotIdx? c.listNo with
  | none => exact h
  | some i =>
    dsimp only
    split
    next hp => exact fun _ => ⟨i, hi, hl i hp⟩
    · exact h

theorem logout (h : c.Armed) (hl : l.Stored) (busy : Bool) : (c.logout l busy).Armed := by
  unfold IpChange.logout
  split
  · split
    · exact h
    · exact h.arm hl
  · exact h

theorem settle (h : c.Armed) (hl : l.Stored) : (c.settle l).Armed := by
  have h' : Armed { c with logoutDeferred := false } := h
  unfold IpChange.settle
  split
  · split
    · exact h'.arm hl
    · exact h'
  · exact h

theorem atLogin (h : c.Armed) : c.atLogin.Armed := by
  unfold IpChange.atLogin
  split
  · intro harm
    cases harm
  · exact h

theorem cleared : c.cleared.Armed := by
  intro harm
  cases harm

end IpChange.Armed

/-- Every copy of the list and the armed change hold valid entries under their own numbers. -/
structure Sys.Slots (x : Sys) : Prop where
  lists : x.ipl.Stored
  armed : x.chg.Armed

/-- **No move stores an invalid slot.** -/
theorem Sys.Slots.move {src : Source} {x x' : Sys} {out : List Effect} (h : x.Slots)
    (hmove : Move src x out x') : x'.Slots := by
  obtain ⟨hl, hc⟩ := h
  cases hmove with
  | login => exact ⟨hl, hc.atLogin⟩
  | close => exact ⟨hl.closed, hc⟩
  | decide => exact ⟨hl, hc.logout hl.list _⟩
  | stage => exact ⟨hl, hc⟩
  | apply => exact ⟨hl, IpChange.Armed.cleared⟩
  | staging _ due =>
    exact ⟨⟨hl.list, (hl.folded due).staging, hl.pending, hl.pendingStaging⟩, hc⟩
  | ipListQueued due hf =>
    have hfold := hl.folded due
    rw [hf] at hfold
    exact ⟨hl.pend hfold _, hc⟩
  | ipListWritten _ due hf =>
    have hfold := hl.folded due
    rw [hf] at hfold
    exact ⟨hl.publish hfold, hc⟩
  | settleUnwritten => exact ⟨hl.unpend, hc.settle hl.list⟩
  | settleIpList => exact ⟨hl.settle _, hc.settle hl.pending⟩
  | _ =>
    constructor
    · simpa only [Sys.setTxn] using hl
    · simpa only [Sys.setTxn] using hc

theorem slots_startup (conf : Conf) (paths : Paths) (d : Disk) (env : StartEnv) :
    Sys.Slots ((startup conf paths d env).st.sys false (fun _ => none) none) := by
  refine ⟨⟨IpList.stored_load _ _ _, ?_, ?_, ?_⟩, ?_⟩
  · exact IpList.stored_empty
  · exact IpList.stored_empty
  · exact IpList.stored_empty
  · intro harm
    cases harm

/-- **Stored slots are always valid.** Whatever files the daemon starts from and whatever happens to it,
every present slot of the list in effect, of the open cycle, and of the lists of a write in flight has a
non-zero address, passes the entry check with a terminated ESSID and carries its own list number; and
an armed change has a list number between 1 and 128 and an entry that passes the check. -/
theorem stored_slots_valid (conf : Conf) (paths : Paths) (d : Disk) (env : StartEnv) (as : List Action) :
    let st := daemon.run (startup conf paths d env).st as
    (∀ l ∈ [st.ipl.list, st.ipl.staging, st.ipl.pending, st.ipl.pendingStaging],
      ∀ i, l.present i = true →
        (l.slots i).ipAddress ≠ 0 ∧ ipcfgEntryError (l.slots i) true = 0 ∧
          0#8 ∈ (l.slots i).essid.toList ∧ (l.slots i).listNumber = BitVec.ofNat 16 (i + 1)) ∧
      (st.chg.commitArmed = true →
        ipcfgEntryError st.chg.armedEntry true = 0 ∧ st.chg.armedEntry.ipAddress ≠ 0 ∧
          0#8 ∈ st.chg.armedEntry.essid.toList ∧
          1 ≤ st.chg.armedNo.toNat ∧ st.chg.armedNo.toNat ≤ 128) := by
  intro st
  obtain ⟨_, ⟨txn, copy, rfl, -⟩, hl, hc⟩ := daemon_simulated.run_inv
    (fun _ _ _ _ h hmove => Sys.Slots.move h hmove) (shows_startup conf paths d env) (slots_startup conf paths d env) as
  refine ⟨fun l hmem i hp => ?_, fun harm => ?_⟩
  · have hstored : l.Stored := by
      simp only [List.mem_cons, List.not_mem_nil, or_false] at hmem
      rcases hmem with rfl | rfl | rfl | rfl
      · exact hl.list
      · exact hl.staging
      · exact hl.pending
      · exact hl.pendingStaging
    have hs := hstored i hp
    exact ⟨hs.ip, hs.ok, hs.terminated, hs.number⟩
  · obtain ⟨i, hi, hs⟩ := hc harm
    obtain ⟨hlo, hhi⟩ : 1 ≤ st.chg.armedNo.toNat ∧ st.chg.armedNo.toNat ≤ maxSlots := by
      change slotIdx? st.chg.armedNo = some i at hi
      unfold slotIdx? at hi
      split at hi
      · assumption
      · cases hi
    exact ⟨hs.ok, hs.ip, hs.terminated, hlo, hhi⟩

end Opcd
