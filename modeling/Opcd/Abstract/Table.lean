import Opcd.Abstract.Simulation

/-!
# The table of open transactions

A transaction is opened when its write is queued, made when the file was written, and settled when its
client was answered. `TableMove` says what a move does to the table, with the effects that show it
(`tableEvents`): the deferred answers, the writes of the three resources and the settlements. Every
other effect is beside the table.

* `Move.table`: the classification.
* `shows_run`: every state of a run shows a state of the service.
-/

namespace Opcd

open Bytes Protocol Store

/-! ## Paths -/

namespace Paths

variable (p : Paths)

/-- The files of different resources are different. -/
theorem path_inj {r r' : Resource} (hr : r ≠ .none) (hr' : r' ≠ .none) (h : r.path p = r'.path p) : r = r' := by
  have hnd := p.nodup
  simp only [List.nodup_cons, List.mem_cons, not_or] at hnd
  obtain ⟨⟨hpi, hpr, -⟩, ⟨hir, -⟩, -⟩ := hnd
  cases r <;> cases r' <;> simp_all [Resource.path]

/-- The file of a resource is none of the others. -/
theorem path_ne_optional {r : Resource} (hr : r ≠ .none) {o : Option Path} {q : Path}
    (ho : o ∈ [p.ipListUser, p.ipListUserLast, p.ipListLegacy, p.radioMarker]) (hq : o = some q) : r.path p ≠ q := by
  rintro rfl
  have hmem : r.path p ∈ [p.ipListUser, p.ipListUserLast, p.ipListLegacy, p.radioMarker].reduceOption :=
    List.reduceOption_mem_iff.mpr (hq ▸ ho)
  have hnd := p.nodup
  simp only [List.nodup_cons, List.mem_cons, not_or] at hnd
  obtain ⟨⟨-, -, hp⟩, ⟨-, hi⟩, hr', -⟩ := hnd
  cases r with
  | none => exact hr rfl
  | password => exact hp hmem
  | ipList => exact hi hmem
  | radio => exact hr' hmem

end Paths

/-! ## Events -/

/-- The effect shows in the table: a deferred answer, a settlement, or the write of a resource. -/
def Effect.onTable (p : Paths) : Effect → Bool
  | .defer .. => true
  | .settle .. => true
  | .write w => w.path = p.password ∨ w.path = p.ipList ∨ w.path = p.radio
  | _ => false

/-- The effects that show in the table. -/
def tableEvents (p : Paths) (out : List Effect) : List Effect := out.filter (Effect.onTable p)

theorem tableEvents_append (p : Paths) (out out' : List Effect) :
    tableEvents p (out ++ out') = tableEvents p out ++ tableEvents p out' := List.filter_append _ _

/-- The outcomes of the writes of a file. -/
def outcomes (path : Path) (out : List Effect) : List Outcome :=
  out.filterMap fun
    | .write w => if w.path = path then some w.result.outcome else none
    | _ => none

theorem outcomes_append (path : Path) (out out' : List Effect) :
    outcomes path (out ++ out') = outcomes path out ++ outcomes path out' := List.filterMap_append

section Events

variable {p : Paths}

theorem onTable_write {r : Resource} (hr : r ≠ .none) {w : FileWrite} (hw : w.path = r.path p) :
    Effect.onTable p (.write w) = true := by
  cases r <;> simp_all [Effect.onTable, Resource.path]

/-- The writes of a resource are events. -/
theorem outcomes_tableEvents {r : Resource} (hr : r ≠ .none) (out : List Effect) :
    outcomes (r.path p) (tableEvents p out) = outcomes (r.path p) out := by
  unfold outcomes tableEvents
  rw [List.filterMap_filter]
  refine List.filterMap_congr fun e _ => ?_
  cases e with
  | write w =>
    by_cases hw : w.path = r.path p
    · simp [onTable_write hr hw]
    · simp [hw]
  | _ => simp

theorem mem_tableEvents {e : Effect} {out : List Effect} (he : e.onTable p = true) (h : e ∈ out) :
    e ∈ tableEvents p out := List.mem_filter.mpr ⟨h, he⟩

theorem tableEvents_eq_nil {out : List Effect} (h : ∀ e ∈ out, e.onTable p = false) :
    tableEvents p out = [] :=
  List.filter_eq_nil_iff.mpr fun e he => by simp [h e he]

theorem offTable_of_quiet {e : Effect} (h : e.quiet) : e.onTable p = false := by
  cases e <;> first | rfl | cases h

theorem offTable_write {q : Path} (hq : ∀ r : Resource, r ≠ .none → r.path p ≠ q) {w : FileWrite}
    (hw : w.path = q) : Effect.onTable p (.write w) = false := by
  have h1 := hq .password (by decide)
  have h2 := hq .ipList (by decide)
  have h3 := hq .radio (by decide)
  simp only [Resource.path] at h1 h2 h3
  simp [Effect.onTable, hw, Ne.symm h1, Ne.symm h2, Ne.symm h3]

theorem offTable_armMarker (marker : WriteResult) (req : RadioConfig) :
    ∀ e ∈ p.armMarker marker req, e.onTable p = false := by
  unfold Paths.armMarker
  split
  · simp
  next m hm =>
    intro e he
    rw [List.mem_singleton.mp he]
    exact offTable_write (fun r hr => p.path_ne_optional hr (by simp) hm) rfl

theorem offTable_clearMarker (ok : Bool) : ∀ e ∈ p.clearMarker ok, e.onTable p = false := by
  unfold Paths.clearMarker
  split <;> simp [Effect.onTable]

theorem offTable_user {user : Path} (h : p.ipListUser = some user) {text : Bytes} {res : WriteResult} :
    ∀ e ∈ [Effect.write ⟨user, text, 0o644, res⟩], e.onTable p = false := by
  intro e he
  rw [List.mem_singleton.mp he]
  exact offTable_write (fun r hr => p.path_ne_optional hr (by simp) h) rfl

theorem offTable_last {last : Path} (h : p.ipListUserLast = some last) {text : Bytes}
    {res : WriteResult} : ∀ e ∈ [Effect.write ⟨last, text, 0o644, res⟩], e.onTable p = false := by
  intro e he
  rw [List.mem_singleton.mp he]
  exact offTable_write (fun r hr => p.path_ne_optional hr (by simp) h) rfl

theorem offTable_writeUser (l : IpList) (env : MirrorEnv) : ∀ e ∈ p.writeUser l env, e.onTable p = false := by
  unfold Paths.writeUser
  split
  · simp
  next user hu =>
    intro e he
    rcases List.mem_cons.mp he with rfl | he
    · exact offTable_user hu _ (List.mem_singleton_self _)
    · split at he
      next last hl =>
        split at he
        · exact offTable_last hl e he
        · cases he
      · cases he

theorem offTable_settleOut (r : RadioState) (revert : ApplyResult) (unlink : Bool) (o : Outcome) :
    ∀ e ∈ r.settleOut p revert unlink o, e.onTable p = false := by
  unfold RadioState.settleOut
  split
  · exact offTable_clearMarker unlink
  · simp
  · split <;> simp [Effect.onTable]

/-- The marker and the apply of a request. -/
theorem offTable_applied (marker : WriteResult) (req : RadioConfig) (res : ApplyResult) :
    ∀ e ∈ p.armMarker marker req ++ [.applyRadio req res], e.onTable p = false := by
  intro e he
  rcases List.mem_append.mp he with he | he
  · exact offTable_armMarker _ _ e he
  · rw [List.mem_singleton.mp he]
    rfl

theorem CopyStart.offTable {x : Sys} {l : IpList} {out : List Effect} {c : Option Copy}
    (h : CopyStart x l out c) : ∀ e ∈ out, e.onTable x.paths = false := by
  cases h with
  | nowhere => simp
  | queued => simp [Effect.onTable]
  | refused =>
    intro e he
    rcases List.mem_cons.mp he with rfl | he
    · rfl
    · exact offTable_writeUser _ _ e he

theorem tableEvents_queuedOut {r : Resource} {path : Path} {data : Bytes} {noAck : Bool}
    {reqId : BitVec 16} {cl : Client} {s : Slot} {k : AckIdx} {before : List Effect}
    (h : ∀ e ∈ before, e.onTable p = false) :
    tableEvents p (queuedOut r path data noAck reqId cl s k before) = [.defer k r noAck reqId cl data] := by
  have hbefore := tableEvents_eq_nil h
  unfold tableEvents at hbefore
  simp [tableEvents, queuedOut, List.filter_cons, List.filter_append, hbefore, Effect.onTable]

theorem tableEvents_settle {l : List Effect} (h : ∀ e ∈ l, e.onTable p = false) (k : AckIdx)
    (sent : Option (BitVec 32 × BitVec 16 × Bytes)) : tableEvents p (l ++ [.settle k sent]) = [.settle k sent] := by
  rw [tableEvents_append, tableEvents_eq_nil h]
  rfl

theorem tableEvents_write {r : Resource} (hr : r ≠ .none) {w : FileWrite} (hw : w.path = r.path p)
    {l m : List Effect} (h : ∀ e ∈ l, e.onTable p = false) (h' : ∀ e ∈ m, e.onTable p = false) :
    tableEvents p (l ++ .write w :: m) = [.write w] := by
  have hnil := tableEvents_eq_nil h'
  unfold tableEvents at hnil
  rw [tableEvents_append, tableEvents_eq_nil h, List.nil_append, tableEvents, List.filter_cons,
    if_pos (onTable_write hr hw), hnil]

/-- A radio configuration applied and written in line. -/
theorem tableEvents_radioWritten (req : RadioConfig) (marker r : WriteResult) (unlink : Bool) :
    tableEvents p (p.armMarker marker req ++ [.applyRadio req .ok, .write ⟨p.radio, rawRadio req, 0o644, r⟩] ++
        if r.outcome = .durable then p.clearMarker unlink else []) =
      [.write ⟨p.radio, rawRadio req, 0o644, r⟩] := by
  have hafter : ∀ e ∈ (if r.outcome = .durable then p.clearMarker unlink else []),
      e.onTable p = false := by
    intro e he
    split at he
    · exact offTable_clearMarker _ e he
    · cases he
  have hev := @tableEvents_write p .radio (by decide) ⟨p.radio, rawRadio req, 0o644, r⟩ rfl _ _
    (offTable_applied marker req .ok) hafter
  simpa using hev

end Events

/-! ## Moves -/

/-- The request that is served is `cl`'s and has this id. -/
def Source.Brings (src : Source) (cl : Client) (id : BitVec 16) : Prop :=
  ∃ frame h body, src = some (cl, frame) ∧ frameParse frame = some (h, body) ∧
    h.commandType = cmdRequest ∧ h.reqIndicationId = id

theorem Source.brings {cl : Client} {frame body : Bytes} {c : Command} {n : Nat}
    (h : requestBody c n frame = some body) : Source.Brings (some (cl, frame)) cl c.id := by
  unfold requestBody at h
  cases hparse : frameParse frame with
  | none => simp [hparse] at h
  | some p =>
    obtain ⟨hd, b⟩ := p
    simp only [hparse] at h
    split_ifs at h with htype hid
    exact ⟨frame, hd, b, rfl, hparse, not_not.mp htype, not_not.mp hid⟩

section Brings

variable {src : Source} {cl : Client}

theorem PasswordDue.brings {p : PasswordState} {req : SetPasswordReq} {data : Bytes}
    (h : PasswordDue src p cl req data) : src.Brings cl Resource.password.reqId := by
  obtain ⟨frame, rfl, hreq⟩ := h.source
  obtain ⟨body, hbody, -⟩ := Option.map_eq_some_iff.mp hreq
  exact Source.brings hbody

theorem EntriesDue.brings {loggedIn : Bool} {es : List (Entry × Bool)}
    (h : EntriesDue src loggedIn cl es) : src.Brings cl Resource.ipList.reqId := by
  obtain ⟨frame, rfl, hreq⟩ := h.source
  unfold setIpConfigListReqUnpack at hreq
  cases hbody : requestBody .setIpConfigList 0 frame with
  | none => simp [hbody] at hreq
  | some body => exact Source.brings hbody

theorem RadioDue.brings {r : RadioState} {req : RadioConfig} (h : RadioDue src r cl req) :
    src.Brings cl Resource.radio.reqId := by
  obtain ⟨frame, rfl, hreq⟩ := h.source
  obtain ⟨body, hbody, -⟩ := Option.map_eq_some_iff.mp hreq
  exact Source.brings hbody

end Brings

/-- What a move does to the table. -/
inductive TableMove (src : Source) (x : Sys) (out : List Effect) (x' : Sys) : Prop
  | aside (htxn : x'.txn = x.txn) (hev : tableEvents x.paths out = [])
  | queued {r : Resource} {t : Txn} (hr : r ≠ .none) (ready : x.Ready r t.slot)
      (brought : src.Brings t.cl r.reqId) (unmade : t.result = none)
      (htxn : x'.txn = Function.update x.txn r (some t))
      (hev : tableEvents x.paths out = [.defer t.slot r t.noAck r.reqId t.cl t.data])
  | made {r : Resource} {t : Txn} {res : WriteResult} (hr : r ≠ .none) (opened : x.txn r = some t)
      (unmade : t.result = none)
      (htxn : x'.txn = Function.update x.txn r (some { t with result := some res }))
      (hev : tableEvents x.paths out = [.write ⟨r.path x.paths, t.data, r.mode, res⟩])
  | settled {r : Resource} {t : Txn} {res : WriteResult} (hr : r ≠ .none) (opened : x.txn r = some t)
      (made : t.result = some res) (ready : src = none)
      (htxn : x'.txn = Function.update x.txn r none)
      (hev : tableEvents x.paths out = [.settle t.slot (t.answer r res)])
  /-- a write in line -/
  | written {r : Resource} {w : FileWrite} (hr : r ≠ .none) (sync : x.async = false)
      (hw : w.path = r.path x.paths) (htxn : x'.txn = x.txn)
      (hev : tableEvents x.paths out = [.write w])

theorem TableMove.of_off {src : Source} {x x' : Sys} {out : List Effect} (htxn : x'.txn = x.txn)
    (hout : ∀ e ∈ out, e.onTable x.paths = false) : TableMove src x out x' :=
  .aside htxn (tableEvents_eq_nil hout)

/-- **What a move does to the table.** -/
theorem Move.table {src : Source} {x x' : Sys} {out : List Effect} (h : Move src x out x')
    (hnone : x.txn .none = none) : TableMove src x out x' := by
  cases h with
  | quiet hout => exact .of_off rfl fun e he => offTable_of_quiet (hout e he)
  | probe => exact .of_off rfl (by simp [Effect.onTable])
  | login => exact .of_off rfl (by simp)
  | close => exact .of_off rfl (by simp)
  | decide => exact .of_off rfl (by simp)
  | stage => exact .of_off rfl (by simp)
  | apply => exact .of_off rfl (by simp [Effect.onTable])
  | staging => exact .of_off rfl (by simp)
  | @passwordQueued cl req data s k due ready =>
    exact @TableMove.queued _ _ _ _ .password ⟨k, false, cl, data, none⟩ (by decide) ready due.brings rfl rfl
      (tableEvents_queuedOut (by simp))
  | @ipListQueued cl es f err s k due hf closed ready =>
    exact @TableMove.queued _ _ _ _ .ipList ⟨k, err.isSome, cl, _, none⟩ (by decide) ready due.brings rfl rfl
      (tableEvents_queuedOut (by simp))
  | @radioQueued cl req marker s k due armed ready =>
    exact @TableMove.queued _ _ _ _ .radio ⟨k, false, cl, _, none⟩ (by decide) ready due.brings rfl rfl
      (tableEvents_queuedOut (offTable_applied _ _ _))
  | passwordWritten sync =>
    exact .written (r := .password) (by decide) sync rfl rfl
      (tableEvents_write (l := []) (m := []) (r := .password) (by decide) rfl (by simp) (by simp))
  | ipListUnwritten sync =>
    exact .written (r := .ipList) (by decide) sync rfl rfl
      (tableEvents_write (l := []) (m := []) (r := .ipList) (by decide) rfl (by simp) (by simp))
  | ipListWritten sync =>
    exact .written (r := .ipList) (by decide) sync rfl rfl
      (tableEvents_write (l := []) (r := .ipList) (by decide) rfl (by simp) (offTable_writeUser _ _))
  | radioWritten sync =>
    exact .written (r := .radio) (by decide) sync rfl rfl (tableEvents_radioWritten _ _ _ _)
  | markerFailed => exact .of_off rfl (offTable_armMarker _ _)
  | radioFailed => exact .of_off rfl (offTable_applied _ _ _)
  | revert => exact .of_off rfl (by simp [Effect.onTable])
  | @write r t res opened unmade turn =>
    have hr : r ≠ .none := by
      rintro rfl
      rw [hnone] at opened
      cases opened
    exact .made hr opened unmade rfl
      (tableEvents_write (l := []) (m := []) hr rfl (by simp) (by simp))
  | settlePassword opened made ready =>
    exact .settled (by decide) opened made ready rfl (tableEvents_settle (l := []) (by simp) _ _)
  | settleUnwritten opened made _ ready =>
    exact .settled (by decide) opened made ready rfl (tableEvents_settle (l := []) (by simp) _ _)
  | settleIpList opened made _ copy ready =>
    exact .settled (by decide) opened made ready rfl (tableEvents_settle copy.offTable _ _)
  | settleRadio opened made ready =>
    exact .settled (by decide) opened made ready rfl (tableEvents_settle (offTable_settleOut _ _ _ _) _ _)
  | copyShown huser => exact .of_off rfl (offTable_user huser)
  | copyRecorded hlast => exact .of_off rfl (offTable_last hlast)
  | copyUnrecorded => exact .of_off rfl (by simp)
  | copyOver => exact .of_off rfl (by simp)

/-- No transaction is open for nothing. -/
theorem Move.noFile {src : Source} {x x' : Sys} {out : List Effect} (h : Move src x out x')
    (hnone : x.txn .none = none) : x'.txn .none = none := by
  cases h.table hnone with
  | aside htxn => rw [htxn, hnone]
  | written _ _ _ htxn => rw [htxn, hnone]
  | queued hr _ _ _ htxn => rw [htxn, Function.update_of_ne hr.symm, hnone]
  | made hr _ _ htxn => rw [htxn, Function.update_of_ne hr.symm, hnone]
  | settled hr _ _ _ htxn => rw [htxn, Function.update_of_ne hr.symm, hnone]

/-- In line, no transaction is open; and a move keeps it so. -/
theorem Move.sync {src : Source} {x x' : Sys} {out : List Effect} (h : Move src x out x')
    (hnone : x.txn .none = none) (hsync : x.async = false → ∀ r, x.txn r = none) :
    x'.async = false → ∀ r, x'.txn r = none := by
  intro hasync
  have hx : x.async = false := h.sameSetup.async ▸ hasync
  cases h.table hnone with
  | aside htxn => rw [htxn]; exact hsync hx
  | written _ _ _ htxn => rw [htxn]; exact hsync hx
  | queued _ ready => rw [ready.async] at hx; cases hx
  | made _ opened => rw [hsync hx] at opened; cases opened
  | settled _ opened => rw [hsync hx] at opened; cases opened

theorem Tracks.noFile {l : Loop} {closing : Bool} {txn : Resource → Option Txn} {copy : Option Copy}
    (h : Tracks l closing txn copy) : txn .none = none := by
  have hk := h.kept
  unfold Kept at hk
  split at hk
  · rw [hk.1]
  · obtain ⟨p, hb⟩ := hk
    exact hb.noFile

/-! ## Runs -/

/-- Every state of a run shows a state of the service. -/
theorem shows_run (conf : Conf) (paths : Paths) (d : Disk) (env : StartEnv) (as : List Action) :
    ∃ x, Shows false x ⟨daemon.run (startup conf paths d env).st as, []⟩ := by
  obtain ⟨x, hx, -⟩ := daemon_simulated.run_inv (P := fun _ => True) (fun _ _ _ _ _ _ => trivial)
    (shows_startup conf paths d env) trivial as
  exact ⟨x, hx⟩

end Opcd
