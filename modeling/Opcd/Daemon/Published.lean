import Opcd.Abstract.Deferred
import Opcd.Abstract.Slots
import Opcd.IpList.Reload

/-!
# Published settings are what a restart would load

The password file and opcd's own copy of the IP list, along with the published values. A file shows the
published value, except between a visible write and its settlement, when it shows the pending one (`filed`).
`FileMove` lists what a move does to one such setting and its file, `Move.files` finds it for both settings, and
`Filed.step` is the invariant.

Start-up establishes it if the writes of the own copy that it attempts succeed (`load_yields`, `load_password`).
-/

namespace Opcd

open Bytes Protocol Store

/-! ## A file and its writes -/

/-- A file after writes of it. -/
def File.written (f : File) (ws : List FileWrite) : File :=
  ws.foldl (fun f w => if w.result.outcome = .unchanged then f else .bytes w.bytes) f

/-- The path is neither unlinked nor renamed. -/
def Effect.leaves (path : Path) : Effect → Bool
  | .unlink q _ => q ≠ path
  | .rename q q' _ => q ≠ path ∧ q' ≠ path
  | _ => true

theorem Effect.not_touched {path : Path} {e : Effect} (he : e.leaves path = true)
    (hw : ∀ w, e = .write w → w.path ≠ path) : path ∉ e.touched := by
  cases e with
  | write w =>
    simp only [Effect.touched, List.mem_singleton]
    exact fun hp => hw w rfl hp.symm
  | unlink q ok =>
    simp only [Effect.touched, List.mem_singleton]
    exact fun hp => absurd hp.symm (of_decide_eq_true he)
  | rename q q' ok =>
    have hne := of_decide_eq_true he
    simp only [Effect.touched, List.mem_cons, List.not_mem_nil, or_false, not_or]
    exact ⟨fun hp => hne.1 hp.symm, fun hp => hne.2 hp.symm⟩
  | _ => exact List.not_mem_nil

theorem Disk.after_eq_written {d : Disk} {out : List Effect} {path : Path} (h : ∀ e ∈ out, e.leaves path = true) :
    d.after out path = (d path).written (writesOf path out) := by
  induction out generalizing d with
  | nil => rfl
  | cons e out ih =>
    have he := h e List.mem_cons_self
    rw [Disk.after_cons, ih fun e' he' => h e' (List.mem_cons_of_mem e he')]
    by_cases hw : ∃ w, e = .write w ∧ w.path = path
    · obtain ⟨w, rfl, rfl⟩ := hw
      have hone : writesOf w.path (.write w :: out) = w :: writesOf w.path out := by simp [writesOf]
      rw [hone, File.written, File.written, List.foldl_cons]
      congr 1
      by_cases hr : w.result.outcome = .unchanged
      · rw [Disk.apply, if_pos hr, if_pos hr]
      · rw [Disk.apply_write hr, if_neg hr]
    · have hnone : writesOf path (e :: out) = writesOf path out := by
        refine List.filterMap_cons_none ?_
        cases e with
        | write w => exact if_neg fun hp => hw ⟨w, rfl, hp⟩
        | _ => rfl
      rw [hnone, Disk.apply_other d (Effect.not_touched he fun w hw' hp => hw ⟨w, hw', hp⟩)]

/-! ## A setting and its file -/

section Setting

variable {V : Type} {Yields : File → V → Prop}

/-- A setting: what is published, what is pending, and the transaction that writes it. -/
structure Setting (V : Type) where
  current : V
  pending : V
  txn : Option Txn

/-- What the file shows: the published value, or the pending one once its write shows. -/
def Setting.filed (s : Setting V) : V :=
  match s.txn.bind Txn.result with
  | some res => if res.outcome = .unchanged then s.current else s.pending
  | none => s.current

/-- What a move does to a setting, with the writes of its file. -/
inductive FileMove (Yields : File → V → Prop) : Setting V → List FileWrite → Setting V → Prop
  | aside {s : Setting V} : FileMove Yields s [] s
  | queued {c p p' : V} {t : Txn} (data : Yields (.bytes t.data) p') (unmade : t.result = none) :
      FileMove Yields ⟨c, p, none⟩ [] ⟨c, p', some t⟩
  | made {c p : V} {t : Txn} {w : FileWrite} (data : w.bytes = t.data) (unmade : t.result = none) :
      FileMove Yields ⟨c, p, some t⟩ [w] ⟨c, p, some { t with result := some w.result }⟩
  | settled {c p p' : V} {t : Txn} {res : WriteResult} (made : t.result = some res) :
      FileMove Yields ⟨c, p, some t⟩ [] ⟨if res.outcome = .unchanged then c else p, p', none⟩
  | written {c p v : V} {w : FileWrite} (data : Yields (.bytes w.bytes) v) :
      FileMove Yields ⟨c, p, none⟩ [w] ⟨if w.result.outcome = .unchanged then c else v, p, none⟩

/-- The file yields what it should, and so will the write under way. -/
structure Filed (Yields : File → V → Prop) (f : File) (s : Setting V) : Prop where
  file : Yields f s.filed
  data : ∀ t, s.txn = some t → Yields (.bytes t.data) s.pending

/-- What a move writes is some value's, and so is what it leaves to be written. -/
theorem FileMove.data {s s' : Setting V} {ws : List FileWrite} (hm : FileMove Yields s ws s')
    (h : ∀ t, s.txn = some t → Yields (.bytes t.data) s.pending) :
    (∀ w ∈ ws, ∃ v, Yields (.bytes w.bytes) v) ∧ ∀ t, s'.txn = some t → Yields (.bytes t.data) s'.pending := by
  cases hm with
  | aside => exact ⟨by simp, h⟩
  | queued data unmade => exact ⟨by simp, fun t' ht => Option.some.inj ht ▸ data⟩
  | @made c p t w data unmade =>
    have hdata := h t rfl
    refine ⟨fun w' hw => ⟨p, ?_⟩, fun t' ht => Option.some.inj ht ▸ hdata⟩
    rw [List.mem_singleton.mp hw, data]
    exact hdata
  | settled made => exact ⟨by simp, fun t' ht => absurd ht (by simp)⟩
  | @written c p v w data =>
    refine ⟨fun w' hw => ⟨v, ?_⟩, fun t' ht => absurd ht (by simp)⟩
    rw [List.mem_singleton.mp hw]
    exact data

/-- **A move keeps the file and the setting together.** -/
theorem Filed.step {f : File} {s s' : Setting V} {ws : List FileWrite} (h : Filed Yields f s)
    (hm : FileMove Yields s ws s') : Filed Yields (f.written ws) s' := by
  refine ⟨?_, (hm.data h.data).2⟩
  have hfile := h.file
  cases hm with
  | aside => exact hfile
  | @queued c p p' t data unmade =>
    simp only [Setting.filed, Option.bind, unmade] at hfile ⊢
    exact hfile
  | @made c p t w data unmade =>
    have hdata := h.data t rfl
    simp only [Setting.filed, Option.bind, unmade, File.written, List.foldl_cons, List.foldl_nil] at hfile ⊢
    split
    · exact hfile
    · rw [data]
      exact hdata
  | @settled c p p' t res made =>
    simp only [Setting.filed, Option.bind, made] at hfile ⊢
    exact hfile
  | @written c p v w data =>
    simp only [Setting.filed, Option.bind, File.written, List.foldl_cons, List.foldl_nil] at hfile ⊢
    split
    · exact hfile
    · exact data

end Setting

/-! ## The two settings -/

namespace Sys

def passwordSetting (x : Sys) : Setting (Buf 128) := ⟨x.pw.password, x.pw.pending, x.txn .password⟩

def listSetting (x : Sys) : Setting IpList := ⟨x.ipl.list, x.ipl.pending, x.txn .ipList⟩

end Sys

/-- The file loads as this password, at a start. -/
def PasswordYields (f : File) (v : Buf 128) : Prop := loadPassword f passwordDefault = v

/-- The file loads as this list, but for what follows the end of an ESSID. -/
def ListYields (f : File) (l : IpList) : Prop := IpList.Same (IpList.ownText f).1 l

theorem passwordYields_due {src : Source} {p : PasswordState} {cl : Client} {req : SetPasswordReq} {data : Bytes}
    (h : PasswordDue src p cl req data) : PasswordYields (.bytes data) (Buf.ofBytes 128 data) := by
  have hle : strnlen req.newPassword.toList 127 ≤ 127 := by
    unfold strnlen cstr
    refine (List.takeWhile_prefix _).length_le.trans ?_
    rw [List.length_take]
    omega
  have hlen : data.length = strnlen req.newPassword.toList 127 := by
    rw [h.data, List.length_take, Vector.length_toList]
    omega
  have hne : data ≠ [] := by
    intro h0
    rw [h0] at hlen
    exact h.nonempty hlen.symm
  unfold PasswordYields loadPassword
  rw [File.readAll, List.take_of_length_le (by omega)]
  cases data with
  | nil => exact absurd rfl hne
  | cons b data => rfl

theorem listYields_listText {l : IpList} (h : l.Stored) : ListYields (.bytes (IpList.listText l)) l := by
  unfold ListYields
  rw [IpList.ownText_listText h.allValid]
  exact IpList.same_readList h.allValid

section Moves

variable {src : Source} {x x' : Sys} {out : List Effect}

/-- Neither of the files is written. -/
def NoWrites (x : Sys) (out : List Effect) : Prop :=
  writesOf x.paths.password out = [] ∧ writesOf x.paths.ipList out = []

theorem noWrites_off (h : ∀ e ∈ out, e.onTable x.paths = false) : NoWrites x out := by
  have hnil : ∀ r : Resource, ∀ w, .write w ∈ tableEvents x.paths out → w.path ≠ r.path x.paths := by
    rw [tableEvents_eq_nil h]
    simp
  exact ⟨writesOf_eq_nil (by decide) (hnil .password), writesOf_eq_nil (by decide) (hnil .ipList)⟩

theorem noWrites_of_event {e : Effect} (hev : tableEvents x.paths out = [e]) (he : ∀ w, e ≠ .write w) :
    NoWrites x out := by
  have hnil : ∀ r : Resource, ∀ w, .write w ∈ tableEvents x.paths out → w.path ≠ r.path x.paths := by
    intro r w hw
    rw [hev, List.mem_singleton] at hw
    exact absurd hw.symm (he w)
  exact ⟨writesOf_eq_nil (by decide) (hnil .password), writesOf_eq_nil (by decide) (hnil .ipList)⟩

/-- A queued write shows in the table, but not in the files. -/
theorem noWrites_queued {r : Resource} {path : Path} {data : Bytes} {noAck : Bool} {reqId : BitVec 16} {cl : Client}
    {s : Slot} {k : AckIdx} {before : List Effect} (h : ∀ e ∈ before, e.onTable x.paths = false) :
    NoWrites x (queuedOut r path data noAck reqId cl s k before) :=
  noWrites_of_event (tableEvents_queuedOut h) fun w hw => by cases hw

/-- Nor does a settlement. -/
theorem noWrites_settled {l : List Effect} (h : ∀ e ∈ l, e.onTable x.paths = false) {k : AckIdx}
    {sent : Option (BitVec 32 × BitVec 16 × Bytes)} : NoWrites x (l ++ [.settle k sent]) :=
  noWrites_of_event (tableEvents_settle h k sent) fun w hw => by cases hw

/-- A move that writes neither of the files, and changes neither of the settings. -/
theorem FileMove.both_aside {Shown : File → IpList → Prop} (hp : x'.passwordSetting = x.passwordSetting)
    (hl : x'.listSetting = x.listSetting) (hw : NoWrites x out) :
    FileMove PasswordYields x.passwordSetting (writesOf x.paths.password out) x'.passwordSetting ∧
      FileMove Shown x.listSetting (writesOf x.paths.ipList out) x'.listSetting := by
  rw [hp, hl, hw.1, hw.2]
  exact ⟨.aside, .aside⟩

theorem passwordSetting_eq {o : Option Txn} (h : x.txn .password = o) :
    x.passwordSetting = ⟨x.pw.password, x.pw.pending, o⟩ := by
  rw [Sys.passwordSetting, h]

theorem listSetting_eq {o : Option Txn} (h : x.txn .ipList = o) : x.listSetting = ⟨x.ipl.list, x.ipl.pending, o⟩ := by
  rw [Sys.listSetting, h]

theorem publish_password (p : PasswordState) (v : Buf 128) (o : Outcome) :
    (p.publish v o).password = (if o = .unchanged then p.password else v) ∧ (p.publish v o).pending = p.pending := by
  unfold PasswordState.publish PasswordState.noteOutcome
  cases o with
  | unchanged => exact ⟨rfl, rfl⟩
  | durable => exact ⟨rfl, rfl⟩
  | replacedUnsynced =>
    dsimp only
    refine ⟨rfl, ?_⟩
    split_ifs <;> rfl

theorem settle_list (l : IpListState) (current : Bool) : (l.settle current).list = l.pending := by
  unfold IpListState.settle
  split <;> rfl

/-- **What a move does to the two settings and their files**, for whatever a stored list's text shows. -/
theorem Move.files {Shown : File → IpList → Prop}
    (hshown : ∀ l : IpList, l.Stored → Shown (.bytes (IpList.listText l)) l) (h : Move src x out x')
    (hnone : x.txn .none = none) (hsync : x.async = false → ∀ r, x.txn r = none) (hslots : x.Slots) :
    FileMove PasswordYields x.passwordSetting (writesOf x.paths.password out) x'.passwordSetting ∧
      FileMove Shown x.listSetting (writesOf x.paths.ipList out) x'.listSetting := by
  cases h with
  | quiet hout => exact FileMove.both_aside rfl rfl (noWrites_off fun e he => offTable_of_quiet (hout e he))
  | probe => exact FileMove.both_aside rfl rfl (noWrites_off (by simp [Effect.onTable]))
  | login => exact FileMove.both_aside rfl rfl (noWrites_off (by simp))
  | close => exact FileMove.both_aside rfl rfl (noWrites_off (by simp))
  | decide => exact FileMove.both_aside rfl rfl (noWrites_off (by simp))
  | stage => exact FileMove.both_aside rfl rfl (noWrites_off (by simp))
  | apply => exact FileMove.both_aside rfl rfl (noWrites_off (by simp [Effect.onTable]))
  | staging => exact FileMove.both_aside rfl rfl (noWrites_off (by simp))
  | @passwordQueued cl req data s k due ready =>
    obtain ⟨hp, hl⟩ := @noWrites_queued x .password x.paths.password data false Resource.password.reqId cl s k [] (by simp)
    rw [hp, hl, passwordSetting_eq ready.idle]
    have hyields := passwordYields_due due
    -- unifying the buffer itself would compute it
    generalize Buf.ofBytes 128 data = v at hyields ⊢
    exact ⟨.queued hyields rfl, .aside⟩
  | @ipListQueued cl es f err s k due hf closed ready =>
    have hfold := hslots.lists.folded due
    rw [hf] at hfold
    obtain ⟨hp, hl⟩ := @noWrites_queued x .ipList x.paths.ipList (IpList.listText f.candidate) err.isSome
      Resource.ipList.reqId cl s k [] (by simp)
    rw [hp, hl, listSetting_eq ready.idle]
    exact ⟨.aside, .queued (hshown _ hfold.candidate) rfl⟩
  | radioQueued => exact FileMove.both_aside rfl rfl (noWrites_queued (offTable_applied _ _ _))
  | @passwordWritten cl req data r sync due =>
    have hev : tableEvents x.paths [.write ⟨x.paths.password, data, 0o600, r⟩] = _ :=
      tableEvents_write (l := []) (m := []) (r := .password) (by decide) rfl (by simp) (by simp)
    have hp : writesOf x.paths.password _ = _ := writesOf_one (r := .password) (by decide) rfl hev
    have hl : writesOf x.paths.ipList _ = _ :=
      @writesOf_none x.paths _ .password .ipList (by decide) (by decide) (by decide) _ rfl hev
    obtain ⟨hpub, hpend⟩ := publish_password x.pw (Buf.ofBytes 128 data) r.outcome
    rw [hp, hl, passwordSetting_eq (hsync sync .password)]
    refine ⟨?_, .aside⟩
    rw [@passwordSetting_eq { x with pw := x.pw.publish (Buf.ofBytes 128 data) r.outcome } none (hsync sync .password),
      hpub, hpend]
    exact .written (passwordYields_due due)
  | @ipListUnwritten cl es f err r sync due hf closed hr =>
    have hfold := hslots.lists.folded due
    rw [hf] at hfold
    have hev : tableEvents x.paths [.write ⟨x.paths.ipList, IpList.listText f.candidate, 0o644, r⟩] = _ :=
      tableEvents_write (l := []) (m := []) (r := .ipList) (by decide) rfl (by simp) (by simp)
    have hl : writesOf x.paths.ipList _ = _ := writesOf_one (r := .ipList) (by decide) rfl hev
    have hp : writesOf x.paths.password _ = _ :=
      @writesOf_none x.paths _ .ipList .password (by decide) (by decide) (by decide) _ rfl hev
    rw [hp, hl, listSetting_eq (hsync sync .ipList)]
    refine ⟨.aside, ?_⟩
    have hmove := @FileMove.written _ Shown x.ipl.list x.ipl.pending f.candidate
      ⟨x.paths.ipList, IpList.listText f.candidate, 0o644, r⟩ (hshown _ hfold.candidate)
    rwa [if_pos hr] at hmove
  | @ipListWritten cl es f err r env sync due hf closed hr =>
    have hfold := hslots.lists.folded due
    rw [hf] at hfold
    have hev : tableEvents x.paths (.write ⟨x.paths.ipList, IpList.listText f.candidate, 0o644, r⟩ ::
        x.paths.writeUser f.candidate env) = _ :=
      tableEvents_write (l := []) (r := .ipList) (by decide) rfl (by simp) (offTable_writeUser _ _)
    have hl : writesOf x.paths.ipList _ = _ := writesOf_one (r := .ipList) (by decide) rfl hev
    have hp : writesOf x.paths.password _ = _ :=
      @writesOf_none x.paths _ .ipList .password (by decide) (by decide) (by decide) _ rfl hev
    rw [hp, hl, listSetting_eq (hsync sync .ipList),
      @listSetting_eq { x with ipl := x.ipl.publish f } none (hsync sync .ipList)]
    refine ⟨.aside, ?_⟩
    have hmove := @FileMove.written _ Shown x.ipl.list x.ipl.pending f.candidate
      ⟨x.paths.ipList, IpList.listText f.candidate, 0o644, r⟩ (hshown _ hfold.candidate)
    rwa [if_neg hr] at hmove
  | @radioWritten cl req marker r unlink sync due armed =>
    have hev := @tableEvents_radioWritten x.paths req marker r unlink
    have hp : writesOf x.paths.password _ = _ :=
      @writesOf_none x.paths _ .radio .password (by decide) (by decide) (by decide) _ rfl hev
    have hl : writesOf x.paths.ipList _ = _ :=
      @writesOf_none x.paths _ .radio .ipList (by decide) (by decide) (by decide) _ rfl hev
    exact FileMove.both_aside rfl rfl ⟨hp, hl⟩
  | markerFailed => exact FileMove.both_aside rfl rfl (noWrites_off (offTable_armMarker _ _))
  | radioFailed => exact FileMove.both_aside rfl rfl (noWrites_off (offTable_applied _ _ _))
  | revert => exact FileMove.both_aside rfl rfl (noWrites_off (by simp [Effect.onTable]))
  | @write r t res opened unmade turn =>
    have hr : r ≠ .none := by
      rintro rfl
      rw [hnone] at opened
      cases opened
    have hev : tableEvents x.paths [.write ⟨r.path x.paths, t.data, r.mode, res⟩] = _ :=
      tableEvents_write (l := []) (m := []) hr rfl (by simp) (by simp)
    cases r with
    | none => exact absurd rfl hr
    | password =>
      have hp : writesOf x.paths.password _ = _ := writesOf_one (r := .password) hr rfl hev
      have hl : writesOf x.paths.ipList _ = _ := @writesOf_none x.paths _ .password .ipList hr (by decide) (by decide) _ rfl hev
      rw [hp, hl, passwordSetting_eq opened]
      exact ⟨.made rfl unmade, .aside⟩
    | ipList =>
      have hl : writesOf x.paths.ipList _ = _ := writesOf_one (r := .ipList) hr rfl hev
      have hp : writesOf x.paths.password _ = _ := @writesOf_none x.paths _ .ipList .password hr (by decide) (by decide) _ rfl hev
      rw [hp, hl, listSetting_eq opened]
      exact ⟨.aside, .made rfl unmade⟩
    | radio =>
      have hp : writesOf x.paths.password _ = _ := @writesOf_none x.paths _ .radio .password hr (by decide) (by decide) _ rfl hev
      have hl : writesOf x.paths.ipList _ = _ := @writesOf_none x.paths _ .radio .ipList hr (by decide) (by decide) _ rfl hev
      rw [hp, hl]
      exact ⟨.aside, .aside⟩
  | @settlePassword t res opened made ready =>
    obtain ⟨hp, hl⟩ := @noWrites_settled x [] (by simp) t.slot (t.answer .password res)
    rw [List.nil_append] at hp hl
    obtain ⟨hpub, -⟩ := publish_password x.pw x.pw.pending res.outcome
    rw [hp, hl, passwordSetting_eq opened]
    refine ⟨?_, .aside⟩
    have hmove := @FileMove.settled _ PasswordYields x.pw.password x.pw.pending (Buf.zero 128) t res made
    rw [← hpub] at hmove
    exact hmove
  | @settleUnwritten t res opened made hr ready =>
    obtain ⟨hp, hl⟩ := @noWrites_settled x [] (by simp) t.slot (t.answer .ipList res)
    rw [List.nil_append] at hp hl
    rw [hp, hl, listSetting_eq opened]
    refine ⟨.aside, ?_⟩
    have hmove := @FileMove.settled _ Shown x.ipl.list x.ipl.pending IpList.empty t res made
    rw [if_pos hr] at hmove
    exact hmove
  | @settleIpList t res out c opened made hr copy ready =>
    obtain ⟨hp, hl⟩ := @noWrites_settled x out copy.offTable t.slot (t.answer .ipList res)
    rw [hp, hl, listSetting_eq opened]
    refine ⟨.aside, ?_⟩
    rw [@listSetting_eq (Sys.setTxn { x with
      ipl := x.ipl.settle x.current, chg := x.chg.settle x.ipl.pending, copy := c } .ipList none) none rfl]
    have hmove := @FileMove.settled _ Shown x.ipl.list x.ipl.pending (x.ipl.settle x.current).pending t res made
    rw [if_neg hr] at hmove
    dsimp only [Sys.setTxn]
    rwa [settle_list x.ipl x.current]
  | settleRadio => exact FileMove.both_aside rfl rfl (noWrites_settled (offTable_settleOut _ _ _ _))
  | copyShown huser => exact FileMove.both_aside rfl rfl (noWrites_off (offTable_user huser))
  | copyRecorded hlast => exact FileMove.both_aside rfl rfl (noWrites_off (offTable_last hlast))
  | copyUnrecorded => exact FileMove.both_aside rfl rfl (noWrites_off (by simp))
  | copyOver => exact FileMove.both_aside rfl rfl (noWrites_off (by simp))

/-- Of the files only the radio marker is removed, and none is renamed. -/
def Effect.removes : Effect → Option Path
  | .unlink q _ => some q
  | .rename q _ _ => some q
  | _ => none

theorem leaves_of_removes {e : Effect} {path : Path} (h : e.removes = none) : e.leaves path = true := by
  cases e with
  | unlink => cases h
  | rename => cases h
  | _ => rfl

theorem leaves_clearMarker {p : Paths} {path : Path} (h : p.radioMarker ≠ some path) (ok : Bool) :
    ∀ e ∈ p.clearMarker ok, e.leaves path = true := by
  intro e he
  unfold Paths.clearMarker at he
  cases hm : p.radioMarker with
  | none =>
    rw [hm] at he
    cases he
  | some m =>
    rw [hm] at he
    obtain rfl := List.mem_singleton.mp he
    exact decide_eq_true fun hp => h (hm.trans (congrArg some hp))

theorem removes_armMarker (p : Paths) (marker : WriteResult) (req : RadioConfig) :
    ∀ e ∈ p.armMarker marker req, e.removes = none := by
  unfold Paths.armMarker
  cases p.radioMarker <;> simp [Effect.removes]

theorem removes_writeUser (p : Paths) (l : IpList) (env : MirrorEnv) : ∀ e ∈ p.writeUser l env, e.removes = none := by
  unfold Paths.writeUser
  cases p.ipListUser with
  | none => simp
  | some user =>
    cases p.ipListUserLast with
    | none => simp [Effect.removes]
    | some last =>
      dsimp only
      split <;> simp [Effect.removes]

theorem CopyStart.removes {l : IpList} {c : Option Copy} (h : CopyStart x l out c) : ∀ e ∈ out, e.removes = none := by
  cases h with
  | nowhere => simp
  | queued => simp [Effect.removes]
  | refused =>
    intro e he
    rcases List.mem_cons.mp he with rfl | he
    · rfl
    · exact removes_writeUser _ _ _ e he

theorem removes_queuedOut {r : Resource} {path : Path} {data : Bytes} {noAck : Bool} {reqId : BitVec 16} {cl : Client}
    {s : Slot} {k : AckIdx} {before : List Effect} (h : ∀ e ∈ before, e.removes = none) :
    ∀ e ∈ queuedOut r path data noAck reqId cl s k before, e.removes = none := by
  intro e he
  simp only [queuedOut, List.cons_append, List.mem_cons, List.mem_append, List.not_mem_nil, or_false] at he
  rcases he with rfl | he | rfl | rfl
  · rfl
  · exact h e he
  · rfl
  · rfl

theorem leaves_settleOut {p : Paths} {path : Path} (h : p.radioMarker ≠ some path) (rad : RadioState)
    (revert : ApplyResult) (unlink : Bool) (o : Outcome) :
    ∀ e ∈ rad.settleOut p revert unlink o, e.leaves path = true := by
  cases o with
  | durable => exact leaves_clearMarker h unlink
  | replacedUnsynced => simp [RadioState.settleOut]
  | unchanged =>
    unfold RadioState.settleOut
    dsimp only
    split <;> simp [Effect.leaves]

theorem Move.leaves {path : Path} (hpath : x.paths.radioMarker ≠ some path) (h : Move src x out x') :
    ∀ e ∈ out, e.leaves path = true := by
  cases h with
  | quiet hout =>
    intro e he
    have hq := hout e he
    cases e <;> first | rfl | cases hq
  | radioQueued =>
    refine fun e he => leaves_of_removes (removes_queuedOut (fun e he => ?_) e he)
    rcases List.mem_append.mp he with he | he
    · exact removes_armMarker _ _ _ e he
    · obtain rfl := List.mem_singleton.mp he
      rfl
  | passwordQueued => exact fun e he => leaves_of_removes (removes_queuedOut (by simp) e he)
  | ipListQueued => exact fun e he => leaves_of_removes (removes_queuedOut (by simp) e he)
  | ipListWritten =>
    intro e he
    rcases List.mem_cons.mp he with rfl | he
    · rfl
    · exact leaves_of_removes (removes_writeUser _ _ _ e he)
  | radioWritten =>
    intro e he
    rcases List.mem_append.mp he with he | he
    · rcases List.mem_append.mp he with he | he
      · exact leaves_of_removes (removes_armMarker _ _ _ e he)
      · simp only [List.mem_cons, List.not_mem_nil, or_false] at he
        rcases he with rfl | rfl <;> rfl
    · split at he
      · exact leaves_clearMarker hpath _ e he
      · cases he
  | markerFailed => exact fun e he => leaves_of_removes (removes_armMarker _ _ _ e he)
  | radioFailed =>
    intro e he
    rcases List.mem_append.mp he with he | he
    · exact leaves_of_removes (removes_armMarker _ _ _ e he)
    · obtain rfl := List.mem_singleton.mp he
      rfl
  | settleIpList _ _ _ copy =>
    intro e he
    rcases List.mem_append.mp he with he | he
    · exact leaves_of_removes (copy.removes e he)
    · obtain rfl := List.mem_singleton.mp he
      rfl
  | settleRadio =>
    intro e he
    rcases List.mem_append.mp he with he | he
    · exact leaves_settleOut hpath _ _ _ _ e he
    · obtain rfl := List.mem_singleton.mp he
      rfl
  | _ => simp [Effect.leaves]

/-- What a run keeps: both files show their settings. -/
structure Published (p : Paths) (d : Disk) (x : Sys) : Prop where
  paths : x.paths = p
  noFile : x.txn .none = none
  sync : x.async = false → ∀ r, x.txn r = none
  slots : x.Slots
  password : Filed PasswordYields (d p.password) x.passwordSetting
  list : Filed ListYields (d p.ipList) x.listSetting

/-- **The step.** -/
theorem Published.move {p : Paths} {d : Disk} (h : Published p d x) (hm : Move src x out x') :
    Published p (d.after out) x' := by
  obtain ⟨rfl, hnone, hsync, hslots, hp, hl⟩ := h
  obtain ⟨hpm, hlm⟩ := Move.files (fun _ => listYields_listText) hm hnone hsync hslots
  have hmarker : ∀ r : Resource, r ≠ .none → x.paths.radioMarker ≠ some (r.path x.paths) :=
    fun r hr h => x.paths.path_ne_optional hr (by simp) h rfl
  refine ⟨hm.sameSetup.paths, hm.noFile hnone, hm.sync hnone hsync, hslots.move hm, ?_, ?_⟩
  · have hfile : d.after out x.paths.password = _ := Disk.after_eq_written (hm.leaves (hmarker .password (by decide)))
    rw [hfile]
    exact hp.step hpm
  · have hfile : d.after out x.paths.ipList = _ := Disk.after_eq_written (hm.leaves (hmarker .ipList (by decide)))
    rw [hfile]
    exact hl.step hlm

end Moves

/-! ## Start-up -/

namespace IpList

variable {d : Disk} {p : Paths} {env : LoadEnv}

/-- A converted binary list, or nothing. -/
theorem convertLegacy_cases (d : Disk) (own legacy : Path) (env : LoadEnv) :
    (convertLegacy d own legacy env).list = empty ∧ (convertLegacy d own legacy env).out = [] ∧
      ((convertLegacy d own legacy env).val = .none ∨ (convertLegacy d own legacy env).val = .legacyDiscard) ∨
    ∃ b, (convertLegacy d own legacy env).list = legacyList b ∧
      (convertLegacy d own legacy env).out = .write ⟨own, listText (legacyList b), 0o644, env.convert⟩ ::
        (if env.convert.rc = 0 then retireLegacy legacy env.retire else []) ∧
      ((convertLegacy d own legacy env).val = .migrated ∨ (convertLegacy d own legacy env).val = .legacyUnsaved) := by
  unfold convertLegacy
  split
  · exact .inl ⟨rfl, rfl, .inl rfl⟩
  next b hb =>
    split
    · exact .inl ⟨rfl, rfl, .inr rfl⟩
    · have hw : writeText d own (legacyList b) false env.convert =
          ([.write ⟨own, listText (legacyList b), 0o644, env.convert⟩], decide (env.convert.rc = 0)) := by
        rw [writeText, textFormat_eq]
        simp
      refine .inr ⟨b, ?_⟩
      dsimp only
      rw [hw]
      by_cases hrc : env.convert.rc = 0
      · simp [hrc]
      · simp [hrc]

/-- A binary list beside a text is set aside, or converted. -/
theorem legacyBesideText_cases (d : Disk) (own : Path) (env : LoadEnv) (legacy : Option Path) :
    (legacyBesideText d own env legacy).val = none ∧
      ((legacyBesideText d own env legacy).out = [] ∨ ∃ path, legacy = some path ∧
        (legacyBesideText d own env legacy).out = retireLegacy path env.retire) ∨
    (legacyBesideText d own env legacy).val ≠ none ∧ ∃ path b, legacy = some path ∧
      (legacyBesideText d own env legacy).list = legacyList b ∧
      (legacyBesideText d own env legacy).out = .write ⟨own, listText (legacyList b), 0o644, env.convert⟩ ::
        (if env.convert.rc = 0 then retireLegacy path env.retire else []) := by
  unfold legacyBesideText
  cases legacy with
  | none => exact .inl ⟨rfl, .inl rfl⟩
  | some path =>
    dsimp only
    by_cases hexists : ¬ (d path).exists = true
    · rw [if_pos hexists]
      exact .inl ⟨rfl, .inl rfl⟩
    rw [if_neg hexists]
    by_cases hnewer : (d path).size = rawListLen ∧ env.legacyNewer = true
    · rw [if_pos hnewer]
      rcases convertLegacy_cases d own path env with ⟨-, hout, hval | hval⟩ | ⟨b, hlist, hout, hval | hval⟩
      · rw [hval]
        exact .inl ⟨rfl, .inl hout⟩
      · rw [hval]
        exact .inl ⟨rfl, .inl hout⟩
      · rw [hval]
        exact .inr ⟨by simp, path, b, rfl, hlist, hout⟩
      · rw [hval]
        exact .inr ⟨by simp, path, b, rfl, hlist, hout⟩
    · rw [if_neg hnewer]
      exact .inl ⟨rfl, .inr ⟨path, rfl, rfl⟩⟩

/-- **What `iplist_load_own` does**, whatever the files and the calls: it reads what is there, or converts the
binary list. -/
theorem loadOwn_any (d : Disk) (p : Paths) (env : LoadEnv) :
    (loadOwn d p env).list = (ownText (d p.ipList)).1 ∧
      ((loadOwn d p env).out = [] ∨ ∃ legacy, p.ipListLegacy = some legacy ∧
        (loadOwn d p env).out = retireLegacy legacy env.retire) ∨
    ∃ legacy b, p.ipListLegacy = some legacy ∧ (loadOwn d p env).list = legacyList b ∧
      (loadOwn d p env).out = .write ⟨p.ipList, listText (legacyList b), 0o644, env.convert⟩ ::
        (if env.convert.rc = 0 then retireLegacy legacy env.retire else []) := by
  -- a file that `stat` finds
  have hfound : ∀ f, d p.ipList = f → f ≠ .absent → f ≠ .statFails →
      (loadOwn d p env).list = (ownText f).1 ∧
        ((loadOwn d p env).out = [] ∨ ∃ legacy, p.ipListLegacy = some legacy ∧
          (loadOwn d p env).out = retireLegacy legacy env.retire) ∨
      ∃ legacy b, p.ipListLegacy = some legacy ∧ (loadOwn d p env).list = legacyList b ∧
        (loadOwn d p env).out = .write ⟨p.ipList, listText (legacyList b), 0o644, env.convert⟩ ::
          (if env.convert.rc = 0 then retireLegacy legacy env.retire else []) := by
    intro f hf habsent hstat
    have hload : loadOwn d p env =
        (legacyBesideText d p.ipList env p.ipListLegacy).val.elim
          ⟨(ownText f).1, (legacyBesideText d p.ipList env p.ipListLegacy).out, (ownText f).2⟩
          fun r => ⟨(legacyBesideText d p.ipList env p.ipListLegacy).list,
            (legacyBesideText d p.ipList env p.ipListLegacy).out, r⟩ := by
      unfold loadOwn
      rw [hf]
      cases f with
      | absent => exact absurd rfl habsent
      | statFails => exact absurd rfl hstat
      | _ =>
        dsimp only
        cases (legacyBesideText d p.ipList env p.ipListLegacy).val <;> rfl
    rw [hload]
    rcases legacyBesideText_cases d p.ipList env p.ipListLegacy with ⟨hval, hout⟩ | ⟨hval, path, b, hl, hlist, hout⟩
    · rw [hval]
      exact .inl ⟨rfl, hout⟩
    · obtain ⟨v, hv⟩ := Option.ne_none_iff_exists'.mp hval
      rw [hv]
      exact .inr ⟨path, b, hl, hlist, hout⟩
  cases hf : d p.ipList with
  | absent =>
    unfold loadOwn
    rw [hf]
    cases hl : p.ipListLegacy with
    | none => exact .inl ⟨rfl, .inl rfl⟩
    | some legacy =>
      rcases convertLegacy_cases d p.ipList legacy env with ⟨hlist, hout, -⟩ | ⟨b, hlist, hout, -⟩
      · exact .inl ⟨hlist, .inl hout⟩
      · exact .inr ⟨legacy, b, rfl, hlist, hout⟩
  | statFails =>
    unfold loadOwn
    rw [hf]
    exact .inl ⟨rfl, .inl rfl⟩
  | unreadable n => exact hfound _ hf (by simp) (by simp)
  | bytes b => exact hfound _ hf (by simp) (by simp)

/-- The paths that the loading of opcd's own copy may change. -/
def OwnPath (p : Paths) (path : Path) : Prop :=
  path = p.ipList ∨ ∃ legacy, p.ipListLegacy = some legacy ∧ (path = legacy ∨ path = legacy ++ ofString ".migrated")

/-- The paths that the customer's side of a load may change. -/
def UserPath (p : Paths) (path : Path) : Prop :=
  (∃ user, p.ipListUser = some user ∧ (path = user ∨ path = user ++ ofString ".rejected")) ∨
    p.ipListUserLast = some path

theorem touched_renameSuffix {path q : Path} {suffix : String} {ok : Bool} {e : Effect}
    (he : e ∈ renameSuffix path suffix ok) (hq : q ∈ e.touched) : q = path ∨ q = path ++ ofString suffix := by
  unfold renameSuffix at he
  split at he
  · obtain rfl := List.mem_singleton.mp he
    simpa [Effect.touched] using hq
  · cases he

theorem touched_loadOwn {e : Effect} {q : Path} (he : e ∈ (loadOwn d p env).out) (hq : q ∈ e.touched) :
    OwnPath p q := by
  rcases loadOwn_any d p env with ⟨-, hout | ⟨legacy, hl, hout⟩⟩ | ⟨legacy, b, hl, -, hout⟩
  · rw [hout] at he
    cases he
  · rw [hout] at he
    exact .inr ⟨legacy, hl, touched_renameSuffix he hq⟩
  · rw [hout] at he
    rcases List.mem_cons.mp he with rfl | he
    · exact .inl (List.mem_singleton.mp hq)
    · split at he
      · exact .inr ⟨legacy, hl, touched_renameSuffix he hq⟩
      · cases he

theorem touched_writeUser {user : Path} (hu : p.ipListUser = some user) {l : IpList} {e : Effect} {q : Path}
    (he : e ∈ writeUser p user l env) (hq : q ∈ e.touched) : UserPath p q := by
  unfold writeUser at he
  rw [textFormat_eq] at he
  rcases List.mem_cons.mp he with rfl | he
  · exact .inl ⟨user, hu, .inl (List.mem_singleton.mp hq)⟩
  · cases hlast : p.ipListUserLast with
    | none =>
      rw [hlast] at he
      cases he
    | some last =>
      rw [hlast] at he
      dsimp only at he
      split at he
      · obtain rfl := List.mem_singleton.mp he
        exact .inr (hlast.trans (congrArg some (List.mem_singleton.mp hq).symm))
      · cases he

/-- **What `opcd_iplist_load` does** after that, whatever the files and the calls: the customer's file is looked
after, or the customer's list is applied. -/
theorem load_any (d : Disk) (p : Paths) (env : LoadEnv) :
    ∃ es, (load d p env).out = (loadOwn d p env).out ++ es ∧
      ((load d p env).list = (loadOwn d p env).list ∧ (∀ e ∈ es, ∀ q ∈ e.touched, UserPath p q) ∨
        ∃ input lu, fromText input true = some lu ∧ (load d p env).list = lu ∧
          es = applyUser (d.after (loadOwn d p env).out) p input lu env) := by
  unfold load
  dsimp only
  cases hu : p.ipListUser with
  | none => exact ⟨[], by simp, .inl ⟨rfl, by simp⟩⟩
  | some user =>
    have hwrite : ∀ e ∈ writeUser p user (loadOwn d p env).list env, ∀ q ∈ e.touched, UserPath p q :=
      fun e he q hq => touched_writeUser hu he hq
    have hreject : ∀ e ∈ renameSuffix user ".rejected" env.reject ++ writeUser p user (loadOwn d p env).list env,
        ∀ q ∈ e.touched, UserPath p q := by
      intro e he q hq
      rcases List.mem_append.mp he with he | he
      · exact .inl ⟨user, hu, touched_renameSuffix he hq⟩
      · exact hwrite e he q hq
    dsimp only
    split
    · exact ⟨_, rfl, .inl ⟨rfl, hwrite⟩⟩
    · exact ⟨[], by simp, .inl ⟨rfl, by simp⟩⟩
    · exact ⟨[], by simp, .inl ⟨rfl, by simp⟩⟩
    next input hd =>
      split
      · exact ⟨_, List.append_assoc .., .inl ⟨rfl, hreject⟩⟩
      · split
        · exact ⟨_, List.append_assoc .., .inl ⟨rfl, hreject⟩⟩
        next lu hparse =>
          split
          · refine ⟨_, rfl, .inl ⟨rfl, ?_⟩⟩
            split
            · simp
            · exact hwrite
          · exact ⟨_, rfl, .inr ⟨input, lu, hparse, rfl, rfl⟩⟩

theorem path_mem_files {r : Resource} (hr : r ≠ .none) (p : Paths) : r.path p ∈ p.files := by
  cases r with
  | none => exact absurd rfl hr
  | password => exact List.mem_cons_self
  | ipList => exact List.mem_cons_of_mem _ List.mem_cons_self
  | radio => exact List.mem_cons_of_mem _ (List.mem_cons_of_mem _ List.mem_cons_self)

theorem not_userPath (haside : p.SetAside) {r : Resource} (hr : r ≠ .none) : ¬ UserPath p (r.path p) := by
  rintro (⟨user, hu, h | h⟩ | hlast)
  · exact p.path_ne_optional hr (by simp) hu h
  · exact haside.rejected user hu (h ▸ path_mem_files hr p)
  · exact p.path_ne_optional hr (by simp) hlast rfl

theorem not_legacyPath (haside : p.SetAside) {r : Resource} (hr : r ≠ .none) {legacy : Path}
    (hl : p.ipListLegacy = some legacy) : r.path p ≠ legacy ∧ r.path p ≠ legacy ++ ofString ".migrated" :=
  ⟨p.path_ne_optional hr (by simp) hl, fun h => haside.migrated legacy hl (h ▸ path_mem_files hr p)⟩

/-- The own copy shows the list that was loaded from it, or converted into it. -/
theorem loadOwn_yields (haside : p.SetAside)
    (hok : ∀ w, .write w ∈ (loadOwn d p env).out → w.path = p.ipList → w.result.outcome = .durable) :
    ListYields (d.after (loadOwn d p env).out p.ipList) (loadOwn d p env).list := by
  have hretire : ∀ (d' : Disk) legacy, p.ipListLegacy = some legacy →
      d'.after (retireLegacy legacy env.retire) p.ipList = d' p.ipList := by
    intro d' legacy hl
    obtain ⟨hsrc, hdst⟩ := @not_legacyPath p haside .ipList (by decide) legacy hl
    exact after_renameSuffix hsrc hdst
  rcases loadOwn_any d p env with ⟨hlist, hout | ⟨legacy, hl, hout⟩⟩ | ⟨legacy, b, hl, hlist, hout⟩
  · rw [hlist, hout]
    exact Same.refl _
  · rw [hlist, hout, hretire d legacy hl]
    exact Same.refl _
  · have hdurable : env.convert.outcome = .durable := hok _ (hout ▸ List.mem_cons_self) rfl
    rw [hlist, hout, Disk.after_cons, if_pos (rc_of_durable hdurable), hretire _ legacy hl]
    have hshown : d.apply (.write ⟨p.ipList, listText (legacyList b), 0o644, env.convert⟩) p.ipList = _ :=
      Disk.apply_write (visible_of_durable hdurable)
    rw [hshown]
    exact listYields_listText (stored_legacyList b)

/-- **The own copy shows the list in effect after a load**, if no write of it failed. -/
theorem load_yields (haside : p.SetAside)
    (hok : ∀ w, .write w ∈ (load d p env).out → w.path = p.ipList → w.result.outcome = .durable) :
    ListYields (d.after (load d p env).out p.ipList) (load d p env).list := by
  obtain ⟨es, hout, hcase⟩ := load_any d p env
  have hown := @loadOwn_yields d p env haside fun w hw => hok w (hout ▸ List.mem_append_left _ hw)
  rw [hout, Disk.after_append]
  rcases hcase with ⟨hlist, htouched⟩ | ⟨input, lu, hparse, hlist, rfl⟩
  · have hframe : (d.after (loadOwn d p env).out).after es p.ipList = d.after (loadOwn d p env).out p.ipList :=
      Disk.after_other fun e he hq => @not_userPath p haside .ipList (by decide) (htouched e he _ hq)
    rw [hlist, hframe]
    exact hown
  · have hcopy := (@after_applyUser (d.after (loadOwn d p env).out) p env input lu fun hw =>
      hok _ (hout ▸ List.mem_append_right _ hw) rfl).1
    rw [hlist, hcopy]
    exact listYields_listText (stored_fromText hparse)

theorem touched_writeText {path q : Path} {l : IpList} {skipIfSame : Bool} {r : WriteResult} {e : Effect}
    (he : e ∈ (writeText d path l skipIfSame r).1) (hq : q ∈ e.touched) : q = path := by
  unfold writeText at he
  split at he
  · cases he
  · split at he
    · cases he
    · obtain rfl := List.mem_singleton.mp he
      exact List.mem_singleton.mp hq

theorem touched_applyUser {input : Bytes} {l : IpList} {e : Effect} {q : Path} (he : e ∈ applyUser d p input l env)
    (hq : q ∈ e.touched) : q = p.ipList ∨ p.ipListUserLast = some q := by
  unfold applyUser at he
  rcases List.mem_append.mp he with he | he
  · exact .inl (touched_writeText he hq)
  · refine .inr ?_
    split at he
    · cases he
    · rename_i last hlast
      split at he
      · obtain rfl := List.mem_singleton.mp he
        rw [hlast]
        exact congrArg some (List.mem_singleton.mp hq).symm
      · cases he

/-- A load leaves the password file alone. -/
theorem load_password (haside : p.SetAside) : d.after (load d p env).out p.password = d p.password := by
  obtain ⟨es, hout, hcase⟩ := load_any d p env
  rw [hout, Disk.after_append]
  have hne : p.password ≠ p.ipList := fun h => by
    cases @Paths.path_inj p .password .ipList (by decide) (by decide) h
  have hown : d.after (loadOwn d p env).out p.password = d p.password := by
    refine Disk.after_other fun e he hq => ?_
    rcases touched_loadOwn he hq with h | ⟨legacy, hl, h | h⟩
    · exact hne h
    · exact (@not_legacyPath p haside .password (by decide) legacy hl).1 h
    · exact (@not_legacyPath p haside .password (by decide) legacy hl).2 h
  rw [← hown]
  refine Disk.after_other fun e he hq => ?_
  rcases hcase with ⟨-, htouched⟩ | ⟨input, lu, -, -, rfl⟩
  · exact @not_userPath p haside .password (by decide) (htouched e he _ hq)
  · rcases touched_applyUser he hq with h | h
    · exact hne h
    · exact p.path_ne_optional (r := .password) (by decide) (by simp) h rfl

end IpList

/-- The files that a start leaves, and what it made of them. -/
theorem published_startup (conf : Conf) (paths : Paths) (d : Disk) (env : StartEnv) (haside : paths.SetAside)
    (hok : ∀ w, .write w ∈ (startup conf paths d env).out → w.path = paths.ipList → w.result.rc = 0) :
    Published paths (d.after (startup conf paths d env).out)
      ((startup conf paths d env).st.sys false (fun _ => none) none) := by
  have hout : (startup conf paths d env).out = (radioConfLoad conf paths d env.radioWriteBack).2.2 ++
      (IpList.load (d.after (radioConfLoad conf paths d env.radioWriteBack).2.2) paths env.load).out := rfl
  have hradio : ∀ e ∈ (radioConfLoad conf paths d env.radioWriteBack).2.2, ∀ q ∈ e.touched, q = paths.radio := by
    intro e he q hq
    unfold radioConfLoad at he
    dsimp only at he
    split at he
    case h_5 =>
      obtain rfl := List.mem_singleton.mp he
      exact List.mem_singleton.mp hq
    all_goals cases he
  refine ⟨rfl, rfl, fun _ _ => rfl, ?_, ⟨?_, fun t ht => by cases ht⟩, ⟨?_, fun t ht => by cases ht⟩⟩
  · exact slots_startup conf paths d env
  · rw [hout, Disk.after_append, IpList.load_password haside, Disk.after_other fun e he hq => ?_]
    · rfl
    · cases @Paths.path_inj paths .password .radio (by decide) (by decide) (hradio e he _ hq)
  · rw [hout, Disk.after_append]
    refine IpList.load_yields haside fun w hw hp => ?_
    have hrc := hok w (hout ▸ List.mem_append_right _ hw) hp
    rw [WriteResult.rc] at hrc
    by_contra hne
    rw [if_neg hne] at hrc
    exact absurd hrc (by decide)

/-- The files along a run. -/
theorem published_run {conf : Conf} {paths : Paths} {d : Disk} {env : StartEnv} (as : List Action)
    (haside : paths.SetAside)
    (hok : ∀ w, .write w ∈ (startup conf paths d env).out → w.path = paths.ipList → w.result.rc = 0) :
    ∃ x, Shows false x ⟨daemon.run (startup conf paths d env).st as, []⟩ ∧
      Published paths (d.after ((startup conf paths d env).out ++ daemon.trace (startup conf paths d env).st as)) x := by
  rw [Disk.after_append]
  exact daemon_simulated.trace_inv
    (P := fun tr x => Published paths ((d.after (startup conf paths d env).out).after tr) x)
    (fun a tr x es x' h hm => by
      rw [Disk.after_append]
      exact h.move hm)
    (shows_startup conf paths d env) (published_startup conf paths d env haside hok) as

/-- **Published settings are what a restart would load.** After a start whose own-copy write, if it made one, succeeded,
and whatever requests, sessions and write outcomes follow, the password file reads back as the password in force
while no password write is in flight, and the own copy reads back as the list in force while no list write is. -/
theorem published_settings_reload (conf : Conf) (paths : Paths) (d : Disk) (env : StartEnv) (haside : paths.SetAside)
    (hok : ∀ w, .write w ∈ (startup conf paths d env).out → w.path = paths.ipList → w.result.rc = 0)
    (as : List Action) :
    let start := startup conf paths d env
    let st := daemon.run start.st as
    let disk := d.after (start.out ++ daemon.trace start.st as)
    (st.persistResourceBusy .password = false →
      loadPassword (disk paths.password) passwordDefault = st.pw.password) ∧
    (st.persistResourceBusy .ipList = false →
      IpList.Same (IpList.ownText (disk paths.ipList)).1 st.ipl.list) := by
  intro start st disk
  obtain ⟨_, ⟨txn, copy, rfl, htracks⟩, hpub⟩ := published_run as haside hok
  have hidle : ∀ r, st.persistResourceBusy r = false → txn r = none := by
    intro r hbusy
    rw [htracks.acked.busy r] at hbusy
    exact Option.not_isSome_iff_eq_none.mp (by simp [hbusy])
  refine ⟨fun hbusy => ?_, fun hbusy => ?_⟩
  · have hfile := hpub.password.file
    rwa [passwordSetting_eq (hidle .password hbusy)] at hfile
  · have hfile := hpub.list.file
    rwa [listSetting_eq (hidle .ipList hbusy)] at hfile

/-- The password is changed, and the directory sync of its write fails. -/
def unsyncedPassword : List Action :=
  [.holderLogin, .holderSetPassword] ++ List.replicate 4 (.worker ⟨.replacedUnsynced, 5⟩) ++
    [.storeReady (Env.allOk 0).ready]

/-- The start of a daemon that finds no file. -/
def emptyStart : Turn Unit := startup defaultConf defaultPaths (fun _ => .absent) .allOk

theorem published_settings_reload_unsynced :
    (daemon.run emptyStart.st unsyncedPassword).pw.password.str = ofString "ab" ∧
      (daemon.run emptyStart.st unsyncedPassword).pw.unsynced = true ∧
      loadPassword (Disk.after (fun _ => .absent) (emptyStart.out ++ daemon.trace emptyStart.st unsyncedPassword)
        defaultPaths.password) passwordDefault = (daemon.run emptyStart.st unsyncedPassword).pw.password := by
  have haside : defaultPaths.SetAside := by
    constructor <;> intro path h <;> cases h <;> decide +kernel
  have hout : ∀ e ∈ emptyStart.out, defaultPaths.ipList ∉ e.touched := by decide +kernel
  have hok : ∀ w, .write w ∈ emptyStart.out → w.path = defaultPaths.ipList → w.result.rc = 0 :=
    fun w hw hp => absurd (List.mem_singleton.mpr hp.symm) (hout _ hw)
  refine ⟨by decide +kernel, by decide +kernel, ?_⟩
  unfold emptyStart at hok ⊢
  exact (published_settings_reload defaultConf defaultPaths (fun _ => .absent) .allOk haside hok unsyncedPassword).1
    (by decide +kernel)

end Opcd
