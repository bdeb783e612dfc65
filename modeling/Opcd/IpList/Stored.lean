import Opcd.Handler.Settings
import Opcd.IpList.Load
import Opcd.IpList.RoundTrip

/-!
# The slots of a stored list

A slot that is kept holds a valid entry under its own list number. The four ways a slot is filled (a
text, strictly or leniently read, a binary list of an older release, an entry of a request) keep to
that:

* `stored_load`: whatever the files hold, the list in effect after start-up is `Stored`.
* `stored_foldEntries`: the entries of a request lead from stored lists to stored lists.
-/

namespace Opcd.IpList

open Bytes Protocol Store

/-- The entry of a slot: valid, under the slot's list number. -/
structure Slotted (i : SlotIdx) (e : Entry) : Prop extends Valid e where
  number : e.listNumber = BitVec.ofNat 16 (i + 1)

/-- Every present slot holds an entry of its own. -/
def Stored (l : IpList) : Prop := ∀ i, l.present i = true → Slotted i (l.slots i)

theorem stored_empty : Stored empty := by
  intro i hp
  cases hp

theorem Stored.allValid {l : IpList} (h : Stored l) : AllValid l := fun i hp => (h i hp).toValid

theorem Stored.clearSlot {l : IpList} (h : Stored l) (i : SlotIdx) : Stored (l.clearSlot i) := by
  intro j hp
  by_cases hj : j = i
  · subst hj
    simp [IpList.clearSlot] at hp
  · have hp : l.present j = true := by simpa [IpList.clearSlot, hj] using hp
    simpa [IpList.clearSlot, hj] using h j hp

theorem Stored.setSlot {l : IpList} (h : Stored l) {i : SlotIdx} {e : Entry} (he : Slotted i e) :
    Stored (l.setSlot i e) := by
  intro j hp
  by_cases hj : j = i
  · subst hj
    simpa [IpList.setSlot] using he
  · have hp : l.present j = true := by simpa [IpList.setSlot, hj] using hp
    simpa [IpList.setSlot, hj] using h j hp

/-! ## Files -/

/-- An entry that passes the check has its ESSID terminated. -/
theorem terminated_of_ok {e : Entry} {term : Bool} (h : ipcfgEntryError e term = 0) : term = true := by
  by_contra hterm
  unfold ipcfgEntryError at h
  split_ifs at h
  all_goals exact absurd h (by decide)

theorem stored_fromText {buf : Bytes} {strict : Bool} {l : IpList} (h : fromText buf strict = some l) : Stored l := by
  intro i hp
  refine ⟨allValid_fromText h i hp, ?_⟩
  unfold fromText at h
  dsimp only at h
  split at h
  · contradiction
  obtain rfl := Option.some.inj h
  cases hs : slotOf (textParse (skipBom buf)) i with
  | entry e =>
    simp only [ofSlots, hs]
    unfold slotOf at hs
    split_ifs at hs
    exact (Reading.entry.inj hs) ▸ rfl
  | _ => simp [ofSlots, hs] at hp

theorem stored_legacyList (b : Bytes) : Stored (legacyList b) := by
  intro i hp
  obtain ⟨e, he⟩ := Option.isSome_iff_exists.mp hp
  have hslot : (legacyList b).slots i = e := by simp [legacyList, he]
  rw [hslot]
  unfold legacySlot at he
  dsimp only at he
  split_ifs at he with h₁ h₂ h₃
  obtain rfl := Option.some.inj he
  have hok := not_not.mp h₃
  have hterm := terminated_of_ok hok
  rw [hterm] at hok
  exact ⟨⟨h₂, hok, of_decide_eq_true hterm⟩, rfl⟩

theorem stored_ownText (f : File) : Stored (ownText f).1 := by
  unfold ownText
  split
  · exact stored_empty
  split
  · exact stored_empty
  dsimp only
  cases h : fromText _ false with
  | none => exact stored_empty
  | some l => exact stored_fromText h

theorem stored_convertLegacy (d : Disk) (own legacy : Path) (env : LoadEnv) :
    Stored (convertLegacy d own legacy env).list := by
  unfold convertLegacy
  split
  · exact stored_empty
  dsimp only
  split
  · exact stored_empty
  split <;> exact stored_legacyList _

theorem stored_loadOwn (d : Disk) (p : Paths) (env : LoadEnv) : Stored (loadOwn d p env).list := by
  unfold loadOwn
  split
  · split
    · exact stored_empty
    · exact stored_convertLegacy _ _ _ _
  · exact stored_empty
  · dsimp only
    split
    next r hr =>
      -- a verdict means that the binary list was converted
      unfold legacyBesideText at hr ⊢
      revert hr
      split
      · simp
      split
      · simp
      split
      · dsimp only
        split
        · exact fun _ => stored_convertLegacy _ _ _ _
        · exact fun _ => stored_convertLegacy _ _ _ _
        · simp
      · simp
    · exact stored_ownText _

/-- **Whatever the files hold, start-up stores valid slots only.** -/
theorem stored_load (d : Disk) (p : Paths) (env : LoadEnv) : Stored (load d p env).list := by
  have hown := stored_loadOwn d p env
  unfold load
  dsimp only
  split
  · exact hown
  split
  · exact hown
  · exact hown
  · exact hown
  split
  · exact hown
  split
  · exact hown
  next l hl =>
    split
    · exact hown
    · exact stored_fromText hl

/-! ## Requests -/

/-- The ESSID of every entry of a frame is terminated, if need be by the copy. -/
theorem terminated_of_unpack {frame : Bytes} {es : List (Entry × Bool)}
    (h : setIpConfigListReqUnpack frame = .ok es) : ∀ e ∈ es, 0#8 ∈ e.1.essid.toList := by
  unfold setIpConfigListReqUnpack at h
  split at h
  · cases h
  split at h
  · cases h
  dsimp only at h
  split at h
  · cases h
  obtain rfl := Except.ok.inj h
  intro e he
  obtain ⟨i, -, rfl⟩ := List.mem_map.mp he
  exact terminated_copyStringField (by decide) _ _

theorem listNumber_of_slotIdx? {n : BitVec 16} {i : SlotIdx} (h : slotIdx? n = some i) :
    n = BitVec.ofNat 16 (i + 1) := by
  unfold slotIdx? at h
  split at h
  next hn =>
    obtain rfl := Option.some.inj h
    rw [Nat.sub_add_cancel hn.1, BitVec.ofNat_toNat, BitVec.setWidth_eq]
  · cases h

/-- The list with an entry put in its slot, or the slot emptied by the address 0.0.0.0. -/
def assign (l : IpList) (i : SlotIdx) (e : Entry) : IpList :=
  if e.ipAddress = 0 then l.clearSlot i else l.setSlot i e

/-- The lists after an entry that is taken. -/
def enter (f : St.Fold) (i : SlotIdx) (e : Entry) : St.Fold :=
  let staging := (if St.opens e.boundaryFlag then f.candidate else f.staging).assign i e
  if St.closes e.boundaryFlag then ⟨staging, empty, false, true⟩
  else { f with staging, active := true }

/-- **One turn of the loop**: an entry is taken when its number is in range, its values pass the check or
its address empties the slot, and a cycle is open or opened by it. -/
theorem foldEntry_eq_ok {f f' : St.Fold} {e : Entry} {term : Bool} (hf : St.foldEntry f e term = .ok f') :
    ∃ i, slotIdx? e.listNumber = some i ∧ (e.ipAddress ≠ 0 → ipcfgEntryError e term = 0) ∧
      (St.opens e.boundaryFlag = true ∨ f.active = true) ∧ f' = enter f i e := by
  unfold St.foldEntry at hf
  cases hi : slotIdx? e.listNumber with
  | none =>
    rw [hi] at hf
    cases hf
  | some i =>
    rw [hi] at hf
    dsimp only at hf
    by_cases hverr : (if decide (e.ipAddress = 0) = true then 0 else ipcfgEntryError e term) = 0
    · rw [if_neg (not_not.mpr hverr)] at hf
      by_cases hseq : ¬ St.opens e.boundaryFlag = true ∧ ¬ f.active = true
      · rw [if_pos hseq] at hf
        cases hf
      · rw [if_neg hseq] at hf
        refine ⟨i, rfl, by simpa using hverr, by grind, ?_⟩
        simp only [decide_eq_true_eq] at hf
        unfold enter assign
        split at hf
        next hc =>
          rw [if_pos hc]
          exact (Except.ok.inj hf).symm
        next hc =>
          rw [if_neg hc]
          exact (Except.ok.inj hf).symm
    · rw [if_pos hverr] at hf
      cases hf

theorem Stored.assign {l : IpList} (h : Stored l) {i : SlotIdx} {e : Entry}
    (he : e.ipAddress ≠ 0 → Slotted i e) : Stored (l.assign i e) := by
  unfold IpList.assign
  split
  · exact h.clearSlot i
  next hip => exact h.setSlot (he hip)

/-- Both lists a request works on are stored. -/
structure StoredFold (f : St.Fold) : Prop where
  candidate : Stored f.candidate
  staging : Stored f.staging

theorem StoredFold.foldEntry {f f' : St.Fold} (h : StoredFold f) {e : Entry} {term : Bool}
    (hterm : 0#8 ∈ e.essid.toList) (hf : St.foldEntry f e term = .ok f') : StoredFold f' := by
  obtain ⟨i, hi, hok, -, rfl⟩ := foldEntry_eq_ok hf
  have he : e.ipAddress ≠ 0 → Slotted i e := by
    intro hip
    have hok := hok hip
    rw [terminated_of_ok hok] at hok
    exact ⟨⟨hip, hok, hterm⟩, listNumber_of_slotIdx? hi⟩
  have hseed : Stored (if St.opens e.boundaryFlag then f.candidate else f.staging) := by
    split
    · exact h.candidate
    · exact h.staging
  unfold enter
  dsimp only
  split
  · exact ⟨hseed.assign he, stored_empty⟩
  · exact ⟨h.candidate, hseed.assign he⟩

/-- **The entries of a request lead from stored lists to stored lists.** -/
theorem stored_foldEntries {f : St.Fold} {es : List (Entry × Bool)} (h : StoredFold f)
    (hterm : ∀ e ∈ es, 0#8 ∈ e.1.essid.toList) : StoredFold (St.foldEntries f es).1 := by
  induction es generalizing f with
  | nil => exact h
  | cons p es ih =>
    obtain ⟨e, term⟩ := p
    unfold St.foldEntries
    split
    · exact h
    next f' hf' =>
      refine ih (h.foldEntry (hterm (e, term) (by simp)) hf') fun q hq => ?_
      exact hterm q (List.mem_cons_of_mem _ hq)

end Opcd.IpList
