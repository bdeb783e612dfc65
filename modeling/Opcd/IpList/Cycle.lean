import Opcd.Lib.FoldOk
import Opcd.Abstract.System
import Opcd.IpList.Stored

/-!
# Cycles of list entries

A SetIpConfigList updates the committed list in cycles: START takes a copy of the list, the entries change the
copy, END commits it. `Cycle` is the state this has between two entries, and `Cycle.entry` says what one
entry does, in terms of these three steps and of what is wrong with it. It is stated apart from the loop of
`handle_set_ip_config_list`, which works on local copies and remembers whether it has to write.

* `foldEntries_cycle`: the loop comes to the same lists and stops with the same cause.
* `foldEntries_unclosed`: a loop that closes no cycle leaves the committed list.
-/

namespace Opcd

open Protocol

/-- The committed list and the open cycle. -/
@[ext]
structure Cycle where
  committed : IpList
  staging : IpList
  active : Bool

namespace Cycle

/-- START: the cycle works on a copy of the committed list. -/
def start (c : Cycle) : Cycle := { c with staging := c.committed, active := true }

/-- The entry overwrites its slot, or empties it. -/
def put (c : Cycle) (i : SlotIdx) (e : Entry) : Cycle :=
  { c with staging := if e.ipAddress = 0 then c.staging.clearSlot i else c.staging.setSlot i e }

/-- END: the cycle is committed and closed. -/
def finish (c : Cycle) : Cycle := ⟨c.staging, IpList.empty, false⟩

/-- The session ends, and the open cycle with it. -/
def drop (c : Cycle) : Cycle := { c with staging := IpList.empty, active := false }

/-- One entry, with whether its ESSID was terminated. -/
def entry (c : Cycle) (e : Entry × Bool) : Except (BitVec 16) Cycle :=
  match slotIdx? e.1.listNumber with
  | none => .error Err.slotRange
  | some i =>
    if e.1.ipAddress ≠ 0 ∧ ipcfgEntryError e.1 e.2 ≠ 0 then .error (ipcfgEntryError e.1 e.2)
    else if e.1.boundaryFlag = Boundary.start then .ok (c.start.put i e.1)
    else if e.1.boundaryFlag = Boundary.startEnd then .ok (c.start.put i e.1).finish
    else if ¬ c.active then .error Err.listSequence
    else if e.1.boundaryFlag = Boundary.fin then .ok (c.put i e.1).finish
    else .ok (c.put i e.1)

/-- The entries of a request, up to the first that is wrong. -/
def fold : Cycle → List (Entry × Bool) → Cycle × Option (BitVec 16) := foldOk entry

end Cycle

/-- The lists that a state publishes. -/
def IpListState.cycle (l : IpListState) : Cycle := ⟨l.list, l.staging, l.stagingActive⟩

namespace St

/-- The lists that the loop works on. -/
def Fold.cycle (f : Fold) : Cycle := ⟨f.candidate, f.staging, f.active⟩

/-- **One turn of the loop** is one entry of the cycle. -/
theorem foldEntry_cycle (f : Fold) (e : Entry × Bool) : f.cycle.entry e = (foldEntry f e.1 e.2).map Fold.cycle := by
  obtain ⟨e, term⟩ := e
  unfold Cycle.entry foldEntry
  cases hi : slotIdx? e.listNumber with
  | none => rfl
  | some i =>
    dsimp only
    by_cases hbad : e.ipAddress ≠ 0 ∧ ipcfgEntryError e term ≠ 0
    · have hverr : (if decide (e.ipAddress = 0) then 0 else ipcfgEntryError e term) = ipcfgEntryError e term :=
        if_neg (by simpa using hbad.1)
      rw [if_pos hbad, hverr, if_pos hbad.2]
      rfl
    · have hok : (if decide (e.ipAddress = 0) then 0 else ipcfgEntryError e term) = 0 := by
        by_cases hip : e.ipAddress = 0 <;> simp_all
      rw [if_neg hbad, hok, if_neg (not_not.mpr rfl)]
      by_cases hstart : e.boundaryFlag = Boundary.start
      · simp [hstart, opens, closes, Except.map, Fold.cycle, Cycle.start, Cycle.put]
      · by_cases hboth : e.boundaryFlag = Boundary.startEnd
        · simp [hboth, opens, closes, Except.map, Fold.cycle, Cycle.start, Cycle.put, Cycle.finish]
        · have hopen : opens e.boundaryFlag = false := by
            simp only [opens, hstart, hboth, or_self, decide_false]
          rw [if_neg hstart, if_neg hboth, hopen]
          cases hact : f.active with
          | false => simp [Fold.cycle, hact, Except.map]
          | true =>
            by_cases hfin : e.boundaryFlag = Boundary.fin
            · simp [hfin, hact, closes, Except.map, Fold.cycle, Cycle.put, Cycle.finish]
            · have hclose : closes e.boundaryFlag = false := by
                simp only [closes, hfin, hboth, or_self, decide_false]
              rw [if_neg hfin, hclose]
              simp [hact, Except.map, Fold.cycle, Cycle.put]

theorem foldEntries_eq (f : Fold) (es : List (Entry × Bool)) :
    foldEntries f es = foldOk (fun f e => foldEntry f e.1 e.2) f es := by
  induction es generalizing f with
  | nil => rfl
  | cons e es ih =>
    obtain ⟨e, term⟩ := e
    unfold foldEntries
    cases h : foldEntry f e term with
    | error cause => rw [foldOk_cons_error h]
    | ok f' =>
      rw [foldOk_cons_ok h]
      exact ih f'

/-- **The loop folds the entries**, up to the first that is wrong. -/
theorem foldEntries_cycle (f : Fold) (es : List (Entry × Bool)) :
    f.cycle.fold es = ((foldEntries f es).1.cycle, (foldEntries f es).2) := by
  rw [foldEntries_eq]
  exact foldOk_map Fold.cycle foldEntry_cycle f es

/-- A turn that closes no cycle leaves the committed list. -/
theorem foldEntry_unclosed {f f' : Fold} {e : Entry} {term : Bool} (h : foldEntry f e term = .ok f') :
    f'.committed = true ∨ f'.candidate = f.candidate ∧ f'.committed = f.committed := by
  obtain ⟨i, -, -, -, rfl⟩ := IpList.foldEntry_eq_ok h
  unfold IpList.enter
  dsimp only
  split
  · exact .inl rfl
  · exact .inr ⟨rfl, rfl⟩

/-- A loop that closes no cycle leaves the committed list. -/
theorem foldEntries_unclosed {f : Fold} {es : List (Entry × Bool)} (h : (foldEntries f es).1.committed = false) :
    f.committed = false ∧ (foldEntries f es).1.candidate = f.candidate := by
  induction es generalizing f with
  | nil => exact ⟨h, rfl⟩
  | cons e es ih =>
    unfold foldEntries at h ⊢
    split
    next hbad =>
      rw [hbad] at h
      exact ⟨h, rfl⟩
    next f' hok =>
      rw [hok] at h
      obtain ⟨hc, hcand⟩ := ih h
      rcases foldEntry_unclosed hok with hclosed | ⟨hsame, hcommitted⟩
      · rw [hc] at hclosed
        cases hclosed
      · exact ⟨hcommitted ▸ hc, hcand.trans hsame⟩

/-- What a request's entries lead to from a state. -/
theorem folded_cycle (st : St) (es : List (Entry × Bool)) :
    st.ipl.cycle.fold es = ((st.folded es).1.cycle, (st.folded es).2) :=
  foldEntries_cycle ⟨st.ipl.list, st.ipl.staging, st.ipl.stagingActive, false⟩ es

theorem folded_unclosed {st : St} {es : List (Entry × Bool)} (h : (st.folded es).1.committed = false) :
    (st.folded es).1.candidate = st.ipl.list :=
  (foldEntries_unclosed h).2

end St

end Opcd
