import Opcd.Crash
import Opcd.Daemon.Published

/-!
# Committed lists at a restart

Three files tell a start which list is in effect: opcd's own copy, the customer's file, and the record of what
opcd last put there. A commit writes the own copy, then the customer's file and, once it shows, the record; each
may fail by itself, and a crash may come after any of them.

With the own copy synced, a start brings the committed list back exactly if the customer's file does not pass for a
replacement by the customer (`Unreplaced`). It does pass for one when an earlier copy shows there but its record
failed, and the copy of the last commit failed too.

If what shows is synced and recorded, the customer's file is at every moment as recorded or as committed last
(`Tidy`): the writer makes the copy of a list, with its record, before it writes the next list.
-/

namespace Opcd

open Bytes Protocol Store

namespace Paths

variable (p : Paths) {user last : Path}

/-- The customer's file and its record are two files, and neither of the others that may be absent. -/
theorem user_last_apart (huser : p.ipListUser = some user) (hlast : p.ipListUserLast = some last) :
    user ≠ last ∧ ∀ o ∈ [p.ipListLegacy, p.radioMarker], o ≠ some user ∧ o ≠ some last := by
  have hnodup := p.nodup
  simp only [List.nodup_cons] at hnodup
  obtain ⟨-, -, -, hnodup⟩ := hnodup
  rw [huser, hlast, List.reduceOption_cons_of_some, List.reduceOption_cons_of_some, List.nodup_cons,
    List.nodup_cons] at hnodup
  obtain ⟨hu, hl, -⟩ := hnodup
  refine ⟨fun h => hu (h ▸ List.mem_cons_self), fun o ho => ⟨?_, ?_⟩⟩
  · rintro rfl
    exact hu (List.mem_cons_of_mem _ (List.reduceOption_mem_iff.mpr ho))
  · rintro rfl
    exact hl (List.reduceOption_mem_iff.mpr ho)

theorem user_mem_files (huser : p.ipListUser = some user) : user ∈ p.files := by
  simp [files, huser]

theorem last_mem_files (hlast : p.ipListUserLast = some last) : last ∈ p.files := by
  unfold files
  refine List.mem_cons_of_mem _ (List.mem_cons_of_mem _ (List.mem_cons_of_mem _ ?_))
  exact List.reduceOption_mem_iff.mpr (by simp [hlast])

end Paths

namespace IpList

variable {d : Disk} {p : Paths} {env : LoadEnv} {user last : Path} {l : IpList}

/-! ## The start -/

/-- The customer's file brings no other list: it is not taken, it is as recorded, or it holds this list. -/
def Unreplaced (d : Disk) (user last : Path) (l : IpList) : Prop :=
  ∀ input lu, d user = .bytes input → input.length ≤ importMax → fromText input true = some lu →
    (d last).readAll (importMax + 1) = some input ∨ Same lu l

/-- opcd's own copy is read, and a binary list beside it is set aside. -/
theorem loadOwn_listText (hl : l.Stored) (hown : d p.ipList = .bytes (listText l)) (hnewer : NotNewer d p env) :
    (loadOwn d p env).list = readList l ∧ (loadOwn d p env).val = .text ∧
      ((loadOwn d p env).out = [] ∨ ∃ legacy, p.ipListLegacy = some legacy ∧
        (loadOwn d p env).out = retireLegacy legacy env.retire) := by
  have hval : (legacyBesideText d p.ipList env p.ipListLegacy).val = none ∧
      ((legacyBesideText d p.ipList env p.ipListLegacy).out = [] ∨ ∃ legacy, p.ipListLegacy = some legacy ∧
        (legacyBesideText d p.ipList env p.ipListLegacy).out = retireLegacy legacy env.retire) := by
    cases hlegacy : p.ipListLegacy with
    | none => exact ⟨rfl, .inl rfl⟩
    | some legacy =>
      rw [legacyBesideText]
      by_cases hex : (d legacy).exists = true
      · rw [if_neg (by simp [hex])]
        by_cases hconv : (d legacy).size = rawListLen ∧ env.legacyNewer = true
        · rw [if_pos hconv]
          obtain ⟨hsize, hnew⟩ := hconv
          -- a newer file of that size cannot be read
          cases hf : d legacy with
          | bytes b =>
            rw [hf] at hsize
            rw [hnewer legacy b hlegacy hf hsize] at hnew
            cases hnew
          | absent => simp [convertLegacy, hf, File.readAll]
          | statFails => simp [convertLegacy, hf, File.readAll]
          | unreadable n => simp [convertLegacy, hf, File.readAll]
        · rw [if_neg hconv]
          exact ⟨rfl, .inr ⟨legacy, rfl, rfl⟩⟩
      · rw [if_pos (by simpa using hex)]
        exact ⟨rfl, .inl rfl⟩
  have heq : loadOwn d p env = ⟨(ownText (.bytes (listText l))).1,
      (legacyBesideText d p.ipList env p.ipListLegacy).out, (ownText (.bytes (listText l))).2⟩ := by
    unfold loadOwn
    rw [hown]
    dsimp only
    rw [hval.1]
  rw [heq, ownText_listText hl.allValid]
  exact ⟨rfl, rfl, hval.2⟩

/-- **What a start makes of a committed list**: it is in effect exactly if the customer's file brings no other. -/
theorem load_same_iff (haside : p.SetAside) (huser : p.ipListUser = some user) (hlast : p.ipListUserLast = some last)
    (hl : l.Stored) (hown : d p.ipList = .bytes (listText l)) (hnewer : NotNewer d p env) :
    Same (load d p env).list l ↔ Unreplaced d user last l := by
  obtain ⟨hlist, hval, hout⟩ := @loadOwn_listText d p env l hl hown hnewer
  have hsame : Same (loadOwn d p env).list l := by
    rw [hlist]
    exact same_readList hl.allValid
  have hframe : ∀ path ∈ p.files, p.ipListLegacy ≠ some path → d.after (loadOwn d p env).out path = d path := by
    intro path hpath hne
    rcases hout with hout | ⟨legacy, hlegacy, hout⟩
    · rw [hout]
      rfl
    · rw [hout]
      exact after_renameSuffix (fun h => hne (hlegacy.trans (congrArg some h.symm)))
        fun h => haside.migrated legacy hlegacy (h ▸ hpath)
  obtain ⟨-, hapart⟩ := p.user_last_apart huser hlast
  have hlegacy := hapart p.ipListLegacy (by simp)
  have huserFile := hframe user (p.user_mem_files huser) hlegacy.1
  have hlastFile := hframe last (p.last_mem_files hlast) hlegacy.2
  unfold load Unreplaced
  dsimp only
  rw [huser]
  dsimp only
  rw [huserFile]
  cases hf : d user with
  | absent => exact ⟨fun _ _ _ h => absurd h (by simp), fun _ => hsame⟩
  | statFails => exact ⟨fun _ _ _ h => absurd h (by simp), fun _ => hsame⟩
  | unreadable n => exact ⟨fun _ _ _ h => absurd h (by simp), fun _ => hsame⟩
  | bytes input =>
    dsimp only
    by_cases hlen : input.length > importMax
    · rw [if_pos hlen]
      refine ⟨fun _ input' _ h hle => ?_, fun _ => hsame⟩
      obtain rfl := File.bytes.inj h
      omega
    rw [if_neg hlen]
    cases hparse : fromText input true with
    | none =>
      refine ⟨fun _ input' lu h _ hlu => ?_, fun _ => hsame⟩
      obtain rfl := File.bytes.inj h
      rw [hparse] at hlu
      cases hlu
    | some lu =>
      dsimp only
      have hrecord : userUnreplaced (d.after (loadOwn d p env).out) p input =
          decide ((d last).readAll (importMax + 1) = some input) := by
        rw [userUnreplaced, hlast]
        dsimp only
        rw [hlastFile]
      by_cases hunreplaced : (d last).readAll (importMax + 1) = some input
      · rw [if_pos ⟨.inl hval, by rw [hrecord]; exact decide_eq_true hunreplaced⟩]
        refine ⟨fun _ input' _ h _ _ => ?_, fun _ => hsame⟩
        obtain rfl := File.bytes.inj h
        exact .inl hunreplaced
      · have hreplaced : ¬ (userUnreplaced (d.after (loadOwn d p env).out) p input = true) := by
          rw [hrecord]
          simpa using hunreplaced
        rw [if_neg fun h => hreplaced h.2]
        constructor
        · rintro h input' lu' hin - hlu
          obtain rfl := File.bytes.inj hin
          obtain rfl := Option.some.inj (hparse.symm.trans hlu)
          exact .inr h
        · intro h
          exact (h input lu rfl (by omega) hparse).resolve_left hunreplaced

end IpList

/-! ## The three files along a run -/

/-- What the files satisfy before each of these effects and after the last, as long as the effects are `fine`. -/
def Along (fine : Effect → Prop) (G : Disk → Prop) : Disk → List Effect → Prop
  | d, [] => G d
  | d, e :: es => G d ∧ (fine e → Along fine G (d.apply e) es)

namespace Along

variable {fine : Effect → Prop} {G : Disk → Prop} {d : Disk} {es es' : List Effect}

theorem append (h : Along fine G d es) (h' : (∀ e ∈ es, fine e) → Along fine G (d.after es) es') :
    Along fine G d (es ++ es') := by
  induction es generalizing d with
  | nil => exact h' (by simp)
  | cons e es ih =>
    refine ⟨h.1, fun he => ih (h.2 he) fun hes => h' fun e' he' => ?_⟩
    rcases List.mem_cons.mp he' with rfl | he'
    · exact he
    · exact hes e' he'

/-- **At every moment.** -/
theorem moment {pre : List Effect} (h : Along fine G d es) (hpre : pre <+: es) (hfine : ∀ e ∈ pre, fine e) :
    G (d.after pre) := by
  induction pre generalizing d es with
  | nil =>
    cases es with
    | nil => exact h
    | cons e es => exact h.1
  | cons e pre ih =>
    obtain ⟨es', rfl⟩ := hpre
    exact ih (h.2 (hfine e List.mem_cons_self)) (List.prefix_append _ _)
      fun e' he' => hfine e' (List.mem_cons_of_mem e he')

end Along

section Files

variable (p : Paths) (user last : Path)

/-- What is written of the three files is synced, except that a copy to the customer's file may not show. -/
def Recorded (e : Effect) : Prop :=
  ∀ w, e = .write w → (w.path = p.ipList → w.result.outcome = .durable) ∧
    (w.path = user → w.result.outcome ≠ .replacedUnsynced) ∧ (w.path = last → w.result.outcome = .durable)

/-- The customer's file is as recorded, or as committed last. -/
def Tidy (d : Disk) : Prop := d user = d last ∨ d user = d p.ipList

/-- The files while a copy is so far. -/
def CopyAt (d : Disk) : Option Copy → Prop
  | some ⟨text, .waiting⟩ => d user = d last ∧ d p.ipList = .bytes text
  | some ⟨text, .shown res⟩ =>
    if res.outcome = .unchanged then d user = d last else d user = .bytes text ∧ d p.ipList = .bytes text
  | _ => d user = d last

/-- The files while the daemon is in this state. -/
structure Copies (d : Disk) (x : Sys) : Prop where
  made : ∀ t res, x.txn .ipList = some t → t.result = some res → res.outcome ≠ .unchanged →
    d p.ipList = .bytes t.data
  copy : CopyAt p user last d x.copy

end Files

section Steps

variable {src : Source} {x x' : Sys} {out : List Effect} {p : Paths} {user last : Path} {d : Disk}

theorem CopyAt.tidy {c : Option Copy} (h : CopyAt p user last d c) : Tidy p user last d := by
  rcases c with _ | ⟨text, _ | res | _⟩
  · exact .inl h
  · exact .inl h.1
  · rw [CopyAt] at h
    split at h
    · exact .inl h
    · exact .inr (h.1.trans h.2.symm)
  · exact .inl h

/-- A copy that is over or was never begun. -/
theorem CopyAt.recorded {c : Option Copy} (h : CopyAt p user last d c) (hover : ∀ c', c = some c' → c'.phase = .over) :
    d user = d last := by
  rcases c with _ | ⟨text, _ | res | _⟩
  · exact h
  · cases hover _ rfl
  · cases hover _ rfl
  · exact h

theorem CopyAt.of_recorded {c : Option Copy} (h : d user = d last) (hover : ∀ c', c = some c' → c'.phase = .over) :
    CopyAt p user last d c := by
  rcases c with _ | ⟨text, _ | res | _⟩
  · exact h
  · cases hover _ rfl
  · cases hover _ rfl
  · exact h

theorem CopyAt.congr {d' : Disk} {c : Option Copy} (h : CopyAt p user last d c) (hown : d' p.ipList = d p.ipList)
    (huser : d' user = d user) (hlast : d' last = d last) : CopyAt p user last d' c := by
  rcases c with _ | ⟨text, _ | res | _⟩ <;> simpa only [CopyAt, hown, huser, hlast] using h

/-! ### Effects beside the three files -/

/-- Only files of the other settings are touched. -/
def Beside (p : Paths) (out : List Effect) : Prop :=
  ∀ e ∈ out, ∀ q ∈ e.touched, q = p.password ∨ q = p.radio ∨ p.radioMarker = some q

theorem Beside.of_untouched (h : ∀ e ∈ out, e.touched = []) : Beside p out := by
  intro e he q hq
  rw [h e he] at hq
  cases hq

theorem Beside.append {out' : List Effect} (h : Beside p out) (h' : Beside p out') : Beside p (out ++ out') := by
  intro e he
  rcases List.mem_append.mp he with he | he
  · exact h e he
  · exact h' e he

theorem Beside.cons {e : Effect} (he : e.touched = []) (h : Beside p out) : Beside p (e :: out) :=
  @Beside.append [e] p out (.of_untouched (by simpa using he)) h

theorem Beside.write {r : Resource} (hr : r = .password ∨ r = .radio) {data : Bytes} {mode : Nat} {res : WriteResult} :
    Beside p [.write ⟨r.path p, data, mode, res⟩] := by
  intro e he q hq
  obtain rfl := List.mem_singleton.mp he
  obtain rfl := List.mem_singleton.mp hq
  rcases hr with rfl | rfl
  · exact .inl rfl
  · exact .inr (.inl rfl)

theorem beside_armMarker (marker : WriteResult) (req : RadioConfig) : Beside p (p.armMarker marker req) := by
  unfold Paths.armMarker
  cases hm : p.radioMarker with
  | none => exact .of_untouched (by simp)
  | some m =>
    intro e he q hq
    obtain rfl := List.mem_singleton.mp he
    obtain rfl := List.mem_singleton.mp hq
    exact .inr (.inr hm)

theorem beside_clearMarker (ok : Bool) : Beside p (p.clearMarker ok) := by
  unfold Paths.clearMarker
  cases hm : p.radioMarker with
  | none => exact .of_untouched (by simp)
  | some m =>
    intro e he q hq
    obtain rfl := List.mem_singleton.mp he
    obtain rfl := List.mem_singleton.mp hq
    exact .inr (.inr hm)

theorem beside_settleOut (rad : RadioState) (revert : ApplyResult) (unlink : Bool) (o : Outcome) :
    Beside p (rad.settleOut p revert unlink o) := by
  unfold RadioState.settleOut
  cases o with
  | durable => exact beside_clearMarker unlink
  | replacedUnsynced => exact .of_untouched (by simp)
  | unchanged =>
    dsimp only
    split
    · exact .of_untouched (by simp [Effect.touched])
    · exact .of_untouched (by simp)

theorem beside_queuedOut {r : Resource} {path : Path} {data : Bytes} {noAck : Bool} {reqId : BitVec 16} {cl : Client}
    {s : Slot} {k : AckIdx} {before : List Effect} (h : Beside p before) :
    Beside p (queuedOut r path data noAck reqId cl s k before) := by
  unfold queuedOut
  exact .cons rfl (h.append (.of_untouched (by simp [Effect.touched])))

theorem beside_apply {req : RadioConfig} {res : ApplyResult} (h : Beside p out) :
    Beside p (out ++ [.applyRadio req res]) :=
  h.append (.of_untouched (by simp [Effect.touched]))

/-! ### The step -/

section Step

variable (huser : p.ipListUser = some user) (hlast : p.ipListUserLast = some last)

include huser hlast

theorem Beside.apart (h : Beside p out) : ∀ e ∈ out, p.ipList ∉ e.touched ∧ user ∉ e.touched ∧ last ∉ e.touched := by
  obtain ⟨-, hapart⟩ := p.user_last_apart huser hlast
  have hmarker := hapart p.radioMarker (by simp)
  have hres : ∀ {r : Resource}, r ≠ .none → r.path p ≠ user ∧ r.path p ≠ last := fun hr =>
    ⟨p.path_ne_optional hr (by simp) huser, p.path_ne_optional hr (by simp) hlast⟩
  intro e he
  refine ⟨fun hq => ?_, fun hq => ?_, fun hq => ?_⟩
  · rcases h e he _ hq with h | h | h
    · cases @Paths.path_inj p .ipList .password (by decide) (by decide) h
    · cases @Paths.path_inj p .ipList .radio (by decide) (by decide) h
    · exact p.path_ne_optional (r := .ipList) (by decide) (by simp) h rfl
  · rcases h e he _ hq with h | h | h
    · exact (@hres .password (by decide)).1 h.symm
    · exact (@hres .radio (by decide)).1 h.symm
    · exact hmarker.1 h
  · rcases h e he _ hq with h | h | h
    · exact (@hres .password (by decide)).2 h.symm
    · exact (@hres .radio (by decide)).2 h.symm
    · exact hmarker.2 h

theorem Beside.after (h : Beside p out) :
    d.after out p.ipList = d p.ipList ∧ d.after out user = d user ∧ d.after out last = d last :=
  ⟨Disk.after_other fun e he => (h.apart huser hlast e he).1,
    Disk.after_other fun e he => (h.apart huser hlast e he).2.1,
    Disk.after_other fun e he => (h.apart huser hlast e he).2.2⟩

theorem Beside.along {fine : Effect → Prop} (h : Beside p out) (ht : Tidy p user last d) :
    Along fine (Tidy p user last) d out := by
  induction out generalizing d with
  | nil => exact ht
  | cons e out ih =>
    refine ⟨ht, fun _ => ih (fun e' he' => h e' (List.mem_cons_of_mem e he')) ?_⟩
    obtain ⟨hown, hu, hl⟩ := h.apart huser hlast e List.mem_cons_self
    unfold Tidy
    rw [Disk.apply_other d hown, Disk.apply_other d hu, Disk.apply_other d hl]
    exact ht

/-- A move beside the three files. -/
theorem Copies.beside (h : Copies p user last d x) (hout : Beside p out)
    (htxn : ∀ t res, x'.txn .ipList = some t → t.result = some res → x.txn .ipList = some t)
    (hcopy : x'.copy = x.copy) :
    Along (Recorded p user last) (Tidy p user last) d out ∧
      ((∀ e ∈ out, Recorded p user last e) → Copies p user last (d.after out) x') := by
  obtain ⟨hown, hu, hl⟩ := @Beside.after out p user last d huser hlast hout
  refine ⟨hout.along huser hlast h.copy.tidy, fun _ => ⟨fun t res ht hres ho => ?_, ?_⟩⟩
  · rw [hown]
    exact h.made t res (htxn t res ht hres) hres ho
  · rw [hcopy]
    exact h.copy.congr hown hu hl

/-- The copy of a list that the own copy holds, in line. -/
theorem along_writeUser {l : IpList} (hown : d p.ipList = .bytes (IpList.listText l)) (hrec : d user = d last)
    (env : MirrorEnv) :
    Along (Recorded p user last) (Tidy p user last) d (p.writeUser l env) ∧
      ((∀ e ∈ p.writeUser l env, Recorded p user last e) →
        d.after (p.writeUser l env) p.ipList = .bytes (IpList.listText l) ∧
          d.after (p.writeUser l env) user = d.after (p.writeUser l env) last) := by
  obtain ⟨hne, -⟩ := p.user_last_apart huser hlast
  have huown : p.ipList ≠ user := p.path_ne_optional (r := .ipList) (by decide) (by simp) huser
  have hlown : p.ipList ≠ last := p.path_ne_optional (r := .ipList) (by decide) (by simp) hlast
  unfold Paths.writeUser
  rw [huser, hlast]
  dsimp only
  by_cases ho : env.user.outcome = .unchanged
  · have hsame : d.apply (.write ⟨user, IpList.listText l, 0o644, env.user⟩) = d := by rw [Disk.apply, if_pos ho]
    rw [if_neg (by simpa using ho), Disk.after_cons, hsame]
    refine ⟨⟨.inl hrec, fun _ => ?_⟩, fun _ => ⟨hown, hrec⟩⟩
    rw [hsame]
    exact .inl hrec
  · rw [if_pos ho, Disk.after_cons, Disk.after_cons, Disk.after_nil, Along, Along]
    have hshown : d.apply (.write ⟨user, IpList.listText l, 0o644, env.user⟩) user = .bytes (IpList.listText l) :=
      Disk.apply_write ho
    have hkept : d.apply (.write ⟨user, IpList.listText l, 0o644, env.user⟩) p.ipList = .bytes (IpList.listText l) :=
      (Disk.apply_write_other d huown).trans hown
    generalize d.apply (.write ⟨user, IpList.listText l, 0o644, env.user⟩) = d₁ at hshown hkept ⊢
    have hdone : Recorded p user last (.write ⟨last, IpList.listText l, 0o644, env.record⟩) →
        d₁.apply (.write ⟨last, IpList.listText l, 0o644, env.record⟩) user =
          d₁.apply (.write ⟨last, IpList.listText l, 0o644, env.record⟩) last := by
      intro hfine
      have hrecord : d₁.apply (.write ⟨last, IpList.listText l, 0o644, env.record⟩) last = _ :=
        Disk.apply_write (IpList.visible_of_durable ((hfine _ rfl).2.2 rfl))
      rw [hrecord, Disk.apply_write_other d₁ hne, hshown]
    refine ⟨⟨.inl hrec, fun _ => ⟨.inr (hshown.trans hkept.symm), fun hfine => .inl (hdone hfine)⟩⟩, fun hfine => ?_⟩
    refine ⟨?_, hdone (hfine _ (by simp))⟩
    rw [Disk.apply_write_other d₁ hlown, hkept]

/-- **The step.** -/
theorem Copies.move (hnamed : last ≠ []) (h : Copies p user last d x) (hp : x.paths = p) (hnone : x.txn .none = none)
    (hsync : x.async = false → ∀ r, x.txn r = none) (hnoCopy : x.async = false → x.copy = none)
    (hdata : ∀ t, x.txn .ipList = some t → t.data = IpList.listText x.ipl.pending) (hm : Move src x out x') :
    Along (Recorded p user last) (Tidy p user last) d out ∧
      ((∀ e ∈ out, Recorded p user last e) → Copies p user last (d.after out) x') := by
  subst hp
  have huown : x.paths.ipList ≠ user := x.paths.path_ne_optional (r := .ipList) (by decide) (by simp) huser
  have hlown : x.paths.ipList ≠ last := x.paths.path_ne_optional (r := .ipList) (by decide) (by simp) hlast
  obtain ⟨hul, -⟩ := x.paths.user_last_apart huser hlast
  have hsame : ∀ t res, x.txn .ipList = some t → t.result = some res → x.txn .ipList = some t := fun t _ ht _ => ht
  have hother : ∀ {y : Sys} {r : Resource} {o : Option Txn}, r ≠ .ipList → y.txn = x.txn →
      ∀ t res, (y.setTxn r o).txn .ipList = some t → t.result = some res → x.txn .ipList = some t := by
    intro y r o hr hy t _ ht _
    rwa [Sys.setTxn_txn_of_ne _ hr.symm, hy] at ht
  cases hm with
  | quiet hout =>
    refine h.beside huser hlast (.of_untouched fun e he => ?_) hsame rfl
    have hq := hout e he
    cases e <;> first | rfl | cases hq
  | probe => exact h.beside huser hlast (.of_untouched (by simp [Effect.touched])) hsame rfl
  | login => exact h.beside huser hlast (.of_untouched (by simp)) hsame rfl
  | close => exact h.beside huser hlast (.of_untouched (by simp)) hsame rfl
  | decide => exact h.beside huser hlast (.of_untouched (by simp)) hsame rfl
  | stage => exact h.beside huser hlast (.of_untouched (by simp)) hsame rfl
  | apply => exact h.beside huser hlast (.of_untouched (by simp [Effect.touched])) hsame rfl
  | staging => exact h.beside huser hlast (.of_untouched (by simp)) hsame rfl
  | @passwordQueued cl req data s k due ready =>
    -- unifying the buffer itself would compute it
    generalize Buf.ofBytes 128 data = v
    exact h.beside huser hlast (beside_queuedOut (.of_untouched (by simp))) (hother (by decide) rfl) rfl
  | ipListQueued =>
    refine h.beside huser hlast (beside_queuedOut (.of_untouched (by simp))) (fun t res ht hres => ?_) rfl
    rw [Sys.setTxn_txn_self] at ht
    obtain rfl := Option.some.inj ht
    cases hres
  | radioQueued =>
    exact h.beside huser hlast (beside_queuedOut (beside_apply (beside_armMarker _ _))) (hother (by decide) rfl) rfl
  | passwordWritten => exact h.beside huser hlast (.write (r := .password) (.inl rfl)) hsame rfl
  | @ipListUnwritten cl es f err r sync due hf closed hr =>
    -- a write of the own copy that fails is not a commit
    have hfailed : ¬ Recorded x.paths user last (.write ⟨x.paths.ipList, IpList.listText f.candidate, 0o644, r⟩) := by
      intro hfine
      have ho : r.outcome = .durable := (hfine _ rfl).1 rfl
      rw [hr] at ho
      cases ho
    exact ⟨⟨h.copy.tidy, fun hfine => absurd hfine hfailed⟩, fun hfine => absurd (hfine _ List.mem_cons_self) hfailed⟩
  | @ipListWritten cl es f err r env sync due hf closed hr =>
    have hrec := h.copy.recorded fun c hc => by cases (hnoCopy sync).symm.trans hc
    have hown : d.apply (.write ⟨x.paths.ipList, IpList.listText f.candidate, 0o644, r⟩) x.paths.ipList = _ :=
      Disk.apply_write hr
    have hrec' : d.apply (.write ⟨x.paths.ipList, IpList.listText f.candidate, 0o644, r⟩) user =
        d.apply (.write ⟨x.paths.ipList, IpList.listText f.candidate, 0o644, r⟩) last := by
      rw [Disk.apply_write_other d huown.symm, Disk.apply_write_other d hlown.symm, hrec]
    obtain ⟨halong, hdone⟩ := along_writeUser huser hlast hown hrec' env
    refine ⟨⟨h.copy.tidy, fun _ => halong⟩, fun hfine => ?_⟩
    obtain ⟨-, hrec''⟩ := hdone fun e he => hfine e (List.mem_cons_of_mem _ he)
    refine ⟨fun t res ht => ?_, ?_⟩
    · cases (hsync sync .ipList).symm.trans ht
    · exact .of_recorded hrec'' fun c hc => by cases (hnoCopy sync).symm.trans hc
  | radioWritten =>
    refine h.beside huser hlast (.append (.append (beside_armMarker _ _) ?_) ?_) hsame rfl
    · exact .cons rfl (.write (r := .radio) (.inr rfl))
    · split
      · exact beside_clearMarker _
      · exact .of_untouched (by simp)
  | markerFailed => exact h.beside huser hlast (beside_armMarker _ _) hsame rfl
  | radioFailed => exact h.beside huser hlast (beside_apply (beside_armMarker _ _)) hsame rfl
  | revert => exact h.beside huser hlast (.of_untouched (by simp [Effect.touched])) hsame rfl
  | @write r t res opened unmade turn =>
    cases r with
    | none => cases hnone.symm.trans opened
    | password => exact h.beside huser hlast (.write (.inl rfl)) (hother (by decide) rfl) rfl
    | radio => exact h.beside huser hlast (.write (.inr rfl)) (hother (by decide) rfl) rfl
    | ipList =>
      have hrec := h.copy.recorded (turn rfl)
      have hrec' : ∀ e, e = .write ⟨x.paths.ipList, t.data, 0o644, res⟩ → d.apply e user = d.apply e last := by
        rintro e rfl
        rw [Disk.apply_write_other d huown.symm, Disk.apply_write_other d hlown.symm, hrec]
      refine ⟨⟨h.copy.tidy, fun _ => .inl (hrec' _ rfl)⟩, fun hfine => ⟨fun t' res' ht' hres' ho => ?_, ?_⟩⟩
      · rw [Sys.setTxn_txn_self] at ht'
        obtain rfl := Option.some.inj ht'
        obtain rfl := Option.some.inj hres'
        exact Disk.apply_write ho
      · exact .of_recorded (hrec' _ rfl) (turn rfl)
  | settlePassword => exact h.beside huser hlast (.of_untouched (by simp [Effect.touched])) (hother (by decide) rfl) rfl
  | settleUnwritten =>
    refine h.beside huser hlast (.of_untouched (by simp [Effect.touched])) (fun t res ht => ?_) rfl
    rw [Sys.setTxn_txn_self] at ht
    cases ht
  | @settleIpList t res out c opened made hr copy ready =>
    have hown : d x.paths.ipList = .bytes (IpList.listText x.ipl.pending) := by
      rw [h.made t res opened made hr, hdata t opened]
    have hclosed : ∀ {y : Sys} (t' res'), (y.setTxn .ipList none).txn .ipList = some t' → t'.result = some res' →
        res'.outcome ≠ .unchanged → (d.after (out ++ [.settle t.slot (t.answer .ipList res)])) x.paths.ipList =
          .bytes t'.data := by
      intro y t' res' ht'
      rw [Sys.setTxn_txn_self] at ht'
      cases ht'
    cases copy with
    | nowhere hnone =>
      rw [huser] at hnone
      cases hnone
    | @queued user' huser' idle =>
      have hrec := h.copy.recorded fun c hc => by cases idle.symm.trans hc
      exact ⟨⟨.inl hrec, fun _ => ⟨.inl hrec, fun _ => .inl hrec⟩⟩, fun _ => ⟨hclosed, hrec, hown⟩⟩
    | @refused user' e env huser' idle why =>
      have hrec := h.copy.recorded fun c hc => by cases idle.symm.trans hc
      obtain ⟨halong, hdone⟩ := along_writeUser huser hlast hown hrec env
      have hwritten : (∀ e' ∈ Effect.submit user' (.error e) :: x.paths.writeUser x.ipl.pending env,
          Recorded x.paths user last e') → d.after (x.paths.writeUser x.ipl.pending env) user =
            d.after (x.paths.writeUser x.ipl.pending env) last :=
        fun hfine => (hdone fun e' he' => hfine e' (List.mem_cons_of_mem _ he')).2
      refine ⟨Along.append ⟨.inl hrec, fun _ => halong⟩ fun hfine => ?_, fun hfine => ⟨hclosed, ?_⟩⟩
      · exact ⟨.inl (hwritten hfine), fun _ => .inl (hwritten hfine)⟩
      · rw [Disk.after_append]
        exact .of_recorded (hwritten fun e' he' => hfine e' (List.mem_append_left _ he'))
          fun c hc => by cases idle.symm.trans hc
  | settleRadio =>
    exact h.beside huser hlast ((beside_settleOut _ _ _ _).append (.of_untouched (by simp [Effect.touched])))
      (hother (by decide) rfl) rfl
  | @copyShown text user' res huser' hc =>
    obtain rfl : user = user' := Option.some.inj (huser.symm.trans huser')
    have hat := h.copy
    rw [hc] at hat
    obtain ⟨hrec, hown⟩ := hat
    have hown' : d.apply (.write ⟨user, text, 0o644, res⟩) x.paths.ipList = .bytes text :=
      (Disk.apply_write_other d huown).trans hown
    have hat' : CopyAt x.paths user last (d.apply (.write ⟨user, text, 0o644, res⟩)) (some ⟨text, .shown res⟩) := by
      rw [CopyAt]
      by_cases ho : res.outcome = .unchanged
      · rw [if_pos ho, Disk.apply, if_pos ho]
        exact hrec
      · rw [if_neg ho]
        exact ⟨Disk.apply_write ho, hown'⟩
    refine ⟨⟨.inl hrec, fun _ => hat'.tidy⟩, fun _ => ⟨fun t res' ht hres ho => ?_, hat'⟩⟩
    exact (Disk.apply_write_other d huown).trans (h.made t res' ht hres ho)
  | @copyRecorded text last' res res' hlast' hne' hc hr =>
    obtain rfl : last = last' := Option.some.inj (hlast.symm.trans hlast')
    have hat := h.copy
    rw [hc, CopyAt, if_neg hr] at hat
    have hrec : Recorded x.paths user last (.write ⟨last, text, 0o644, res'⟩) →
        d.apply (.write ⟨last, text, 0o644, res'⟩) user = d.apply (.write ⟨last, text, 0o644, res'⟩) last := by
      intro hfine
      have hrecord : d.apply (.write ⟨last, text, 0o644, res'⟩) last = _ :=
        Disk.apply_write (IpList.visible_of_durable ((hfine _ rfl).2.2 rfl))
      rw [hrecord, Disk.apply_write_other d hul, hat.1]
    refine ⟨⟨h.copy.tidy, fun hfine => .inl (hrec hfine)⟩, fun hfine => ⟨fun t res' ht hres ho => ?_, ?_⟩⟩
    · exact (Disk.apply_write_other d hlown).trans (h.made t res' ht hres ho)
    · exact hrec (hfine _ List.mem_cons_self)
  | @copyUnrecorded text res hc why =>
    have hat := h.copy
    rw [hc, CopyAt, if_pos (why.resolve_left fun hnone => hnamed (hnone last hlast))] at hat
    exact ⟨.inl hat, fun _ => ⟨h.made, hat⟩⟩
  | @copyOver text hc =>
    have hat := h.copy
    rw [hc] at hat
    exact ⟨.inl hat, fun _ => ⟨h.made, hat⟩⟩

end Step

end Steps

/-! ## Runs -/

/-- The text of a list that can be committed. -/
def Committed (f : File) (l : IpList) : Prop := l.Stored ∧ f = .bytes (IpList.listText l)

/-- What a run has done to the own copy. -/
structure Commits (p : Paths) (tr : List Effect) (x : Sys) : Prop where
  paths : x.paths = p
  noFile : x.txn .none = none
  sync : x.async = false → ∀ r, x.txn r = none
  slots : x.Slots
  pending : ∀ t, x.txn .ipList = some t → Committed (.bytes t.data) x.ipl.pending
  written : ∀ w ∈ writesOf p.ipList tr, ∃ l, Committed (.bytes w.bytes) l
  noCopy : x.async = false → x.copy = none

/-- In line, no copy is begun. -/
theorem Move.noCopy {src : Source} {x x' : Sys} {out : List Effect} (h : Move src x out x')
    (hsync : x.async = false → ∀ r, x.txn r = none) (hnoCopy : x.async = false → x.copy = none) :
    x'.async = false → x'.copy = none := by
  intro hasync
  have hx : x.async = false := h.sameSetup.async ▸ hasync
  have hcopy := hnoCopy hx
  cases h with
  | settleIpList opened => cases (hsync hx .ipList).symm.trans opened
  | copyShown _ hc => cases hcopy.symm.trans hc
  | copyRecorded _ _ hc => cases hcopy.symm.trans hc
  | copyUnrecorded hc => cases hcopy.symm.trans hc
  | copyOver hc => cases hcopy.symm.trans hc
  | @passwordQueued _ _ data =>
    generalize Buf.ofBytes 128 data = v
    exact hcopy
  | _ => exact hcopy

theorem Commits.move {src : Source} {p : Paths} {tr out : List Effect} {x x' : Sys} (h : Commits p tr x)
    (hm : Move src x out x') : Commits p (tr ++ out) x' := by
  obtain ⟨rfl, hnone, hsync, hslots, hpending, hwritten, hnoCopy⟩ := h
  obtain ⟨-, hlm⟩ := @Move.files _ _ _ _ Committed (fun l hl => ⟨hl, rfl⟩) hm hnone hsync hslots
  obtain ⟨hnow, hpending'⟩ := hlm.data hpending
  refine ⟨hm.sameSetup.paths, hm.noFile hnone, hm.sync hnone hsync, hslots.move hm, hpending', fun w hw => ?_,
    hm.noCopy hsync hnoCopy⟩
  rw [writesOf_append] at hw
  rcases List.mem_append.mp hw with hw | hw
  · exact hwritten w hw
  · exact hnow w hw

theorem Commits.closing {p : Paths} {tr : List Effect} {x : Sys} (h : Commits p tr x) (closing : Bool) :
    Commits p tr { x with closing } :=
  ⟨h.paths, h.noFile, h.sync, ⟨h.slots.1, h.slots.2⟩, h.pending, h.written, h.noCopy⟩

theorem commits_startup (conf : Conf) (p : Paths) (d : Disk) (env : StartEnv) :
    Commits p [] ((startup conf p d env).st.sys false (fun _ => none) none) := by
  refine ⟨rfl, rfl, fun _ _ => rfl, slots_startup conf p d env, fun t ht => ?_, fun w hw => ?_, fun _ => rfl⟩
  · cases ht
  · cases hw

/-- The own copy and the files that no one removes, over a run that ends with the shutdown. -/
theorem commits_shutdown (conf : Conf) (p : Paths) (d : Disk) (env : StartEnv) (as : List Action)
    (rs : List WriteResult) (ready : ReadyEnv) :
    (∀ w ∈ writesOf p.ipList (fullTrace (startup conf p d env).st as rs ready), ∃ l, Committed (.bytes w.bytes) l) ∧
      ∀ path, p.radioMarker ≠ some path →
        ∀ e ∈ fullTrace (startup conf p d env).st as rs ready, e.leaves path = true := by
  obtain ⟨-, x, -, hcommits, hleaves⟩ := fullTrace_inv conf p d env as
    (P := fun tr x => Commits p tr x ∧ ∀ path, p.radioMarker ≠ some path → ∀ e ∈ tr, e.leaves path = true)
    (fun _ tr x es x' h hm => by
      refine ⟨h.1.move hm, fun path hpath e he => ?_⟩
      rcases List.mem_append.mp he with he | he
      · exact h.2 path hpath e he
      · exact hm.leaves (h.1.paths ▸ hpath) e he)
    (fun tr x closing h => ⟨h.1.closing closing, h.2⟩)
    ⟨commits_startup conf p d env, fun path _ e he => by cases he⟩ rs ready
  exact ⟨hcommits.written, hleaves⟩

/-- **The customer's file at every moment of a run**: as recorded or as committed last, while what shows is
synced and recorded. -/
theorem tidy_shutdown (conf : Conf) {p : Paths} (d : Disk) (env : StartEnv) (as : List Action) (rs : List WriteResult)
    (ready : ReadyEnv) {user last : Path} (huser : p.ipListUser = some user) (hlast : p.ipListUserLast = some last)
    (hnamed : last ≠ []) {d₀ : Disk} (hd : d₀ user = d₀ last) :
    Along (Recorded p user last) (Tidy p user last) d₀ (fullTrace (startup conf p d env).st as rs ready) := by
  obtain ⟨-, x, -, -, htidy, -⟩ := fullTrace_inv conf p d env as
    (P := fun tr x => Commits p tr x ∧ Along (Recorded p user last) (Tidy p user last) d₀ tr ∧
      ((∀ e ∈ tr, Recorded p user last e) → Copies p user last (d₀.after tr) x))
    (fun _ tr x es x' h hm => by
      obtain ⟨hcommits, htidy, hcopies⟩ := h
      have hstep := fun hfine => (hcopies hfine).move huser hlast hnamed hcommits.paths hcommits.noFile hcommits.sync
        hcommits.noCopy (fun t ht => File.bytes.inj (hcommits.pending t ht).2) hm
      refine ⟨hcommits.move hm, htidy.append fun hfine => (hstep hfine).1, fun hfine => ?_⟩
      rw [Disk.after_append]
      exact (hstep fun e he => hfine e (List.mem_append_left _ he)).2 fun e he => hfine e (List.mem_append_right _ he))
    (fun tr x closing h => ⟨h.1.closing closing, h.2.1, fun hfine => ⟨(h.2.2 hfine).made, (h.2.2 hfine).copy⟩⟩)
    ⟨commits_startup conf p d env, .inl hd, fun _ => ⟨fun t res ht => absurd ht (by simp [St.sys]), hd⟩⟩ rs ready
  exact htidy

/-- The last write of a path. -/
theorem writesOf_getLast? {path : Path} {es : List Effect} {w : FileWrite} (h : (writesOf path es).getLast? = some w) :
    ∃ a c, es = a ++ .write w :: c ∧ w.path = path ∧ ∀ w', .write w' ∈ c → w'.path ≠ path := by
  induction es using List.reverseRecOn with
  | nil => cases h
  | append_singleton es e ih =>
    rw [writesOf_append] at h
    by_cases hw : ∃ w', e = .write w' ∧ w'.path = path
    · obtain ⟨w', rfl, hp⟩ := hw
      have hone : writesOf path [.write w'] = [w'] := by simp [writesOf, hp]
      rw [hone, List.getLast?_concat] at h
      obtain rfl := Option.some.inj h
      exact ⟨es, [], rfl, hp, by simp⟩
    · have hnone : writesOf path [e] = [] := by
        refine List.filterMap_cons_none ?_
        cases e with
        | write w' => exact if_neg fun hp => hw ⟨w', rfl, hp⟩
        | _ => rfl
      rw [hnone, List.append_nil] at h
      obtain ⟨a, c, rfl, hp, hc⟩ := ih h
      refine ⟨a, c ++ [e], by simp, hp, fun w' hw' => ?_⟩
      rcases List.mem_append.mp hw' with hw' | hw'
      · exact hc w' hw'
      · obtain rfl := List.mem_singleton.mp hw'
        exact fun hp => hw ⟨w', rfl, hp⟩

/-- A write of the path is among its writes. -/
theorem mem_writesOf {path : Path} {es : List Effect} {w : FileWrite} :
    w ∈ writesOf path es ↔ .write w ∈ es ∧ w.path = path := by
  unfold writesOf
  rw [List.mem_filterMap]
  constructor
  · rintro ⟨e, he, hw⟩
    cases e with
    | write w' =>
      rw [Option.ite_none_right_eq_some] at hw
      obtain ⟨hp, hw⟩ := hw
      obtain rfl := Option.some.inj hw
      exact ⟨he, hp⟩
    | _ => cases hw
  · rintro ⟨he, hp⟩
    exact ⟨_, he, if_pos hp⟩

/-- **What becomes of a committed list.** After a run in which every own copy was synced, cut by a crash anywhere
after a commit, a start has the list of the last commit in effect exactly if the customer's file then brings no
other. It brings none if the run began with the customer's file as recorded, no copy was left unsynced there and no
record failed: the failure of copies alone never undoes a commit. -/
theorem committed_list_kept_iff (conf : Conf) (paths : Paths) (d : Disk) (env : StartEnv) (haside : paths.SetAside)
    {user last : Path} (huser : paths.ipListUser = some user) (hlast : paths.ipListUserLast = some last)
    (as : List Action) (rs : List WriteResult) (ready : ReadyEnv) {pre : List Effect}
    (hpre : pre <+: fullTrace (startup conf paths d env).st as rs ready)
    (hdurable : ∀ w ∈ writesOf paths.ipList pre, w.result.outcome = .durable) {w : FileWrite}
    (hcommit : (writesOf paths.ipList pre).getLast? = some w) :
    ∃ l : IpList, l.Stored ∧ w.bytes = IpList.listText l ∧
      ∀ (d₀ d' : Disk) (env' : IpList.LoadEnv), d₀.Crashed pre d' → IpList.NotNewer d' paths env' →
        (IpList.Same (IpList.load d' paths env').list l ↔ IpList.Unreplaced d' user last l) ∧
        (last ≠ [] → (∃ b, d₀ user = .bytes b ∧ d₀ last = .bytes b) →
          (∀ w ∈ writesOf user pre, w.result.outcome ≠ .replacedUnsynced) →
          (∀ w ∈ writesOf last pre, w.result.outcome = .durable) →
          IpList.Same (IpList.load d' paths env').list l) := by
  obtain ⟨hwritten, hleaves⟩ := commits_shutdown conf paths d env as rs ready
  have hmem : w ∈ writesOf paths.ipList pre := List.mem_of_getLast? hcommit
  obtain ⟨l, hstored, htext⟩ := hwritten w (mem_writesOf.mpr ((mem_writesOf.mp hmem).imp_left (hpre.subset ·)))
  obtain ⟨a, c, hsplit, hpath, hlastOne⟩ := writesOf_getLast? hcommit
  refine ⟨l, hstored, File.bytes.inj htext, fun d₀ d' env' hcrash hnewer => ?_⟩
  have hsub : ∀ e ∈ pre, e ∈ fullTrace (startup conf paths d env).st as rs ready := fun e he => hpre.subset he
  have hmarker : paths.radioMarker ≠ some paths.ipList :=
    fun h => paths.path_ne_optional (r := .ipList) (by decide) (by simp) h rfl
  have hown : d' paths.ipList = .bytes (IpList.listText l) := by
    have hin := hcrash w.path
    rw [hsplit, Disk.remains_durable (hdurable w hmem), List.mem_singleton] at hin
    · rw [← hpath, hin, htext]
    · refine fun e he => Effect.not_touched (hpath ▸ hleaves _ hmarker e (hsub e ?_)) fun w' hw' => ?_
      · rw [hsplit]
        exact List.mem_append_right _ (List.mem_cons_of_mem _ he)
      · rw [hpath]
        exact hlastOne w' (hw' ▸ he)
  have hiff := IpList.load_same_iff haside huser hlast hstored hown hnewer
  refine ⟨hiff, fun hnamed hstart hshown hrecorded => hiff.mpr ?_⟩
  obtain ⟨b, hb, hb'⟩ := hstart
  obtain ⟨-, hapart⟩ := paths.user_last_apart huser hlast
  have hmarker' := hapart paths.radioMarker (by simp)
  -- nothing of the three files is left unsynced, so the crash lost nothing of them
  have hfirm : ∀ path, paths.radioMarker ≠ some path →
      (∀ w ∈ writesOf path pre, w.result.outcome ≠ .replacedUnsynced) → d' path = d₀.after pre path := by
    intro path hne hw
    have hin := hcrash path
    rw [Disk.remains_firm, List.mem_singleton] at hin
    · exact hin
    · intro e he htouched
      by_contra hno
      refine Effect.not_touched (hleaves path hne e (hsub e he)) (fun w' hw' hp => hno ⟨w', hw', ?_⟩) htouched
      exact hw w' (mem_writesOf.mpr ⟨hw' ▸ he, hp⟩)
  have huserFile := hfirm user hmarker'.1 hshown
  have hlastFile := hfirm last hmarker'.2 fun w hw => by rw [hrecorded w hw]; decide
  have hownFile := hfirm paths.ipList hmarker fun w hw => by rw [hdurable w hw]; decide
  have htidy : Tidy paths user last (d₀.after pre) := by
    refine (tidy_shutdown conf d env as rs ready huser hlast hnamed (hb.trans hb'.symm)).moment hpre ?_
    intro e he w' hw'
    subst hw'
    exact ⟨fun hp => hdurable w' (mem_writesOf.mpr ⟨he, hp⟩), fun hp => hshown w' (mem_writesOf.mpr ⟨he, hp⟩),
      fun hp => hrecorded w' (mem_writesOf.mpr ⟨he, hp⟩)⟩
  unfold Tidy at htidy
  rw [← huserFile, ← hlastFile, ← hownFile] at htidy
  intro input lu hin hlen hparse
  rcases htidy with hrec | hcommitted
  · left
    rw [← hrec, hin]
    exact IpList.readAll_of_length_le (by omega)
  · right
    rw [hin, hown] at hcommitted
    obtain rfl := File.bytes.inj hcommitted
    rw [IpList.fromText_listText hstored.allValid] at hparse
    obtain rfl := Option.some.inj hparse
    exact IpList.same_readList hstored.allValid

/-! ### Two commits -/

/-- One list of one entry, with these answers to the copy and to its record. -/
def Action.commitEntry (seq : BitVec 16) (e : Entry) (user record : WriteResult) : Action :=
  .datagram { Env.allOk 0 with mirror := ⟨user, record⟩ } .ok 0xC0A80001 50000
    ((setIpConfigListReqPack frameMax seq [(e, true)]).getD [])

/-- Two commits, the second with another address; the copy of the second fails, and the record of the first comes
to `record`. -/
def secondCopyFails (record : WriteResult) : List Action :=
  [.holderLogin, .commitEntry 2 IpList.sampleEntry Env.durableWrite record,
    .commitEntry 3 { IpList.sampleEntry with ipAddress := 0xC0A80065 } ⟨.unchanged, 28⟩ Env.durableWrite]

/-- The start without a writer, on a device with no files. -/
def emptySyncStart : Turn Unit :=
  startup defaultConf defaultPaths (fun _ => .absent) { StartEnv.allOk with writer := false }

/-- The files after that start: an empty list for the customer, as recorded. -/
def emptySyncDisk : Disk := Disk.after (fun _ => .absent) emptySyncStart.out

theorem committed_list_kept_secondCopy :
    ∃ l : IpList, l.Stored ∧
      (writesOf defaultPaths.ipList (fullTrace emptySyncStart.st (secondCopyFails Env.durableWrite) []
        (Env.allOk 0).ready)).getLast?.map FileWrite.bytes = some (IpList.listText l) ∧
      IpList.Same (IpList.load (emptySyncDisk.after (fullTrace emptySyncStart.st (secondCopyFails Env.durableWrite) []
        (Env.allOk 0).ready)) defaultPaths StartEnv.allOk.load).list l := by
  have haside : defaultPaths.SetAside := by
    constructor <;> intro path h <;> cases h <;> decide +kernel
  cases hw : (writesOf defaultPaths.ipList (fullTrace emptySyncStart.st (secondCopyFails Env.durableWrite) []
    (Env.allOk 0).ready)).getLast? with
  | none => exact absurd hw (by decide +kernel)
  | some w =>
    obtain ⟨l, hstored, htext, h⟩ := committed_list_kept_iff defaultConf defaultPaths (fun _ => .absent)
      { StartEnv.allOk with writer := false } haside rfl rfl (secondCopyFails Env.durableWrite) [] (Env.allOk 0).ready
      (List.prefix_refl _) (by decide +kernel) hw
    refine ⟨l, hstored, congrArg some htext, ?_⟩
    refine (h emptySyncDisk _ StartEnv.allOk.load (Disk.crashed_after _ _) fun _ _ _ _ _ => rfl).2 ?_ ?_ ?_ ?_
    · decide
    · exact ⟨IpList.listText IpList.empty, by decide +kernel, by decide +kernel⟩
    · decide +kernel
    · decide +kernel

/-- The first list shows in the customer's file but its record fails; then the second copy fails. With both commits
synced in the own copy, the next start takes the first list for the customer's and puts it back. -/
theorem committed_list_undone :
    (∃ b, emptySyncDisk (ofString "/home/admin/iplist.txt") = .bytes b ∧
      emptySyncDisk (ofString "/usr/local/opc/etc/iplist.user.last") = .bytes b) ∧
    (∀ w ∈ writesOf defaultPaths.ipList (daemon.trace emptySyncStart.st (secondCopyFails ⟨.unchanged, 28⟩)),
      w.result.outcome = .durable) ∧
    (writesOf defaultPaths.ipList (daemon.trace emptySyncStart.st (secondCopyFails ⟨.unchanged, 28⟩))).getLast?.map
        FileWrite.bytes =
      some (IpList.listText (daemon.run emptySyncStart.st (secondCopyFails ⟨.unchanged, 28⟩)).ipl.list) ∧
    ¬ IpList.Same
        (IpList.load (emptySyncDisk.after (daemon.trace emptySyncStart.st (secondCopyFails ⟨.unchanged, 28⟩)))
          defaultPaths StartEnv.allOk.load).list
        (daemon.run emptySyncStart.st (secondCopyFails ⟨.unchanged, 28⟩)).ipl.list := by
  refine ⟨⟨IpList.listText IpList.empty, by decide +kernel, by decide +kernel⟩, by decide +kernel, by decide +kernel,
    fun hsame => ?_⟩
  have hpresent : (IpList.load (emptySyncDisk.after (daemon.trace emptySyncStart.st
      (secondCopyFails ⟨.unchanged, 28⟩))) defaultPaths StartEnv.allOk.load).list.present 4 = true := by decide +kernel
  have haddress := (hsame.values 4 hpresent).ip
  exact absurd haddress (by decide +kernel)

end Opcd
