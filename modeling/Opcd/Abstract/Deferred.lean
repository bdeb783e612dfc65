import Opcd.Abstract.Table

/-!
# Deferred acknowledgements

A request whose write is queued is acknowledged once the write came to an end. `Deferred` is the history
of a run in these terms: what was queued is settled later, once, with the answer that its own write gives,
or is still open; and nothing is settled that was not queued.

* `Deferred.step`: what happens in one move.
* `deferred_run`, `deferred_shutdown`: the history of a run, and of a run that ends with the shutdown.
-/

namespace Opcd

open Bytes Protocol Store

/-! ## Events -/

/-- The acknowledgement slot an effect is about. -/
def Effect.slot? : Effect → Option AckIdx
  | .defer k .. => some k
  | .settle k _ => some k
  | _ => none

/-- The writes of a file. -/
def writesOf (path : Path) (out : List Effect) : List FileWrite :=
  out.filterMap fun
    | .write w => if w.path = path then some w else none
    | _ => none

theorem writesOf_append (path : Path) (out out' : List Effect) :
    writesOf path (out ++ out') = writesOf path out ++ writesOf path out' := List.filterMap_append

theorem writesOf_tableEvents {p : Paths} {r : Resource} (hr : r ≠ .none) (out : List Effect) :
    writesOf (r.path p) (tableEvents p out) = writesOf (r.path p) out := by
  unfold writesOf tableEvents
  rw [List.filterMap_filter]
  refine List.filterMap_congr fun e _ => ?_
  cases e with
  | write w =>
    by_cases hw : w.path = r.path p
    · simp [onTable_write hr hw]
    · simp [hw]
  | _ => simp

theorem writesOf_eq_nil {p : Paths} {out : List Effect} {r : Resource} (hr : r ≠ .none)
    (h : ∀ w, .write w ∈ tableEvents p out → w.path ≠ r.path p) : writesOf (r.path p) out = [] := by
  rw [← writesOf_tableEvents hr]
  refine List.filterMap_eq_nil_iff.mpr fun e he => ?_
  cases e with
  | write w => exact if_neg (h w he)
  | _ => rfl

theorem writesOf_one {p : Paths} {out : List Effect} {r : Resource} (hr : r ≠ .none) {w : FileWrite}
    (hw : w.path = r.path p) (hev : tableEvents p out = [.write w]) : writesOf (r.path p) out = [w] := by
  rw [← writesOf_tableEvents hr, hev]
  simp [writesOf, hw]

/-- The write of one resource is none of another. -/
theorem writesOf_none {p : Paths} {out : List Effect} {r r' : Resource} (hr : r ≠ .none) (hr' : r' ≠ .none)
    (hne : r' ≠ r) {w : FileWrite} (hw : w.path = r.path p) (hev : tableEvents p out = [.write w]) :
    writesOf (r'.path p) out = [] := by
  refine writesOf_eq_nil hr' fun w' hw' hp => hne (p.path_inj hr' hr ?_)
  rw [hev, List.mem_singleton] at hw'
  cases hw'
  exact hp.symm.trans hw

theorem onTable_of_slot {p : Paths} {e : Effect} {k : AckIdx} (h : e.slot? = some k) : e.onTable p = true := by
  cases e <;> first | rfl | cases h

/-- The write of a transaction is queued. -/
def Txn.queued (r : Resource) (t : Txn) : Effect := .defer t.slot r t.noAck r.reqId t.cl t.data

/-- The write a transaction made, if it was made. -/
def Txn.writes (p : Paths) (r : Resource) (t : Txn) : List FileWrite :=
  (t.result.map fun res => ⟨r.path p, t.data, r.mode, res⟩).toList

/-- The effects since a transaction was queued: its slot is its own, and its file was written by it
only. -/
structure Since (p : Paths) (r : Resource) (t : Txn) (mid : List Effect) : Prop where
  alone : ∀ e ∈ mid, e.slot? ≠ some t.slot
  writes : writesOf (r.path p) mid = t.writes p r

/-- The transaction of `r` in the effects: queued, and settled with its answer. -/
structure Closed (p : Paths) (r : Resource) (t : Txn) (res : WriteResult) (mid : List Effect)
    (sent : Option (BitVec 32 × BitVec 16 × Bytes)) : Prop where
  since : Since p r t mid
  made : t.result = some res
  sent : sent = t.answer r res

namespace Since

variable {p : Paths} {r : Resource} {t : Txn} {mid : List Effect}

theorem nil (p : Paths) (r : Resource) {t : Txn} (h : t.result = none) : Since p r t [] :=
  ⟨by simp, by simp [Txn.writes, h, writesOf]⟩

theorem snoc (h : Since p r t mid) {e : Effect} (hslot : e.slot? ≠ some t.slot)
    (hwrite : writesOf (r.path p) [e] = []) : Since p r t (mid ++ [e]) := by
  refine ⟨fun e' he' => ?_, ?_⟩
  · rcases List.mem_append.mp he' with he' | he'
    · exact h.alone e' he'
    · rwa [List.mem_singleton.mp he']
  · rw [writesOf_append, hwrite, List.append_nil, h.writes]

theorem made (h : Since p r t mid) (hnone : t.result = none) (res : WriteResult) :
    Since p r { t with result := some res } (mid ++ [.write ⟨r.path p, t.data, r.mode, res⟩]) := by
  refine ⟨fun e he => ?_, ?_⟩
  · rcases List.mem_append.mp he with he | he
    · exact h.alone e he
    · rw [List.mem_singleton.mp he]
      simp [Effect.slot?]
  · rw [writesOf_append, h.writes]
    simp [Txn.writes, hnone, writesOf]

/-- Effects beside the table do not matter. -/
theorem of_tableEvents (hr : r ≠ .none) (h : Since p r t (tableEvents p mid)) : Since p r t mid := by
  refine ⟨fun e he hslot => ?_, ?_⟩
  · exact h.alone e (mem_tableEvents (onTable_of_slot hslot) he) hslot
  · rw [← writesOf_tableEvents hr, h.writes]

end Since

/-! ## The history -/

/-- What was queued is settled with its answer or still open, and nothing else is settled. -/
structure Deferred (p : Paths) (evs : List Effect) (x : Sys) : Prop where
  paths : x.paths = p
  noFile : x.txn .none = none
  sync : x.async = false → ∀ r, x.txn r = none
  slots : ∀ r r' t t', x.txn r = some t → x.txn r' = some t' → t.slot = t'.slot → r = r'
  opened : ∀ r t, x.txn r = some t →
    ∃ before mid, evs = before ++ t.queued r :: mid ∧ Since p r t mid
  answered : ∀ before k r noAck id cl data after,
    evs = before ++ .defer k r noAck id cl data :: after →
    r ≠ .none ∧ id = r.reqId ∧ ∃ result,
      (x.txn r = some ⟨k, noAck, cl, data, result⟩ ∧ Since p r ⟨k, noAck, cl, data, result⟩ after) ∨
      ∃ mid sent later res, after = mid ++ .settle k sent :: later ∧
        Closed p r ⟨k, noAck, cl, data, result⟩ res mid sent
  caused : ∀ before k sent after, evs = before ++ .settle k sent :: after →
    ∃ earlier r t res mid, before = earlier ++ t.queued r :: mid ∧ t.slot = k ∧ r ≠ .none ∧
      Closed p r t res mid sent

namespace Deferred

variable {p : Paths} {evs : List Effect} {x x' : Sys}

theorem initial (hnone : ∀ r, x.txn r = none) : Deferred x.paths [] x where
  paths := rfl
  noFile := hnone _
  sync _ := hnone
  slots r r' t t' ht := by rw [hnone r] at ht; cases ht
  opened r t ht := by rw [hnone r] at ht; cases ht
  answered before k r noAck id cl data after h := by simp at h
  caused before k sent after h := by simp at h

/-- The table is as it was, and so is the history. -/
theorem congr (h : Deferred p evs x) (hpaths : x'.paths = x.paths) (hasync : x'.async = x.async)
    (htxn : x'.txn = x.txn) : Deferred p evs x' where
  paths := hpaths.trans h.paths
  noFile := by rw [htxn, h.noFile]
  sync ha r := by rw [htxn, h.sync (hasync ▸ ha)]
  slots := by rw [htxn]; exact h.slots
  opened := by rw [htxn]; exact h.opened
  answered := by rw [htxn]; exact h.answered
  caused := h.caused

/-- What an event is for the transaction of a resource. -/
inductive Event (p : Paths) (e : Effect) (r : Resource) : Option Txn → Option Txn → Prop
  | idle : Event p e r none none
  | kept {t : Txn} (hslot : e.slot? ≠ some t.slot) (hwrite : writesOf (r.path p) [e] = []) :
      Event p e r (some t) (some t)
  | queued {t : Txn} (unmade : t.result = none) (he : e = t.queued r) : Event p e r none (some t)
  | made {t : Txn} {res : WriteResult} (unmade : t.result = none)
      (he : e = .write ⟨r.path p, t.data, r.mode, res⟩) :
      Event p e r (some t) (some { t with result := some res })
  | settled {t : Txn} {res : WriteResult} (made : t.result = some res)
      (he : e = .settle t.slot (t.answer r res)) : Event p e r (some t) none

/-- What is open after an event. -/
theorem opened_snoc {e : Effect} (h : Deferred p evs x) {r : Resource}
    (hev : Event p e r (x.txn r) (x'.txn r)) {t : Txn} (ht : x'.txn r = some t) :
    ∃ before mid, evs ++ [e] = before ++ t.queued r :: mid ∧ Since p r t mid := by
  generalize hold : x.txn r = old at hev
  rw [ht] at hev
  cases hev with
  | kept hslot hwrite =>
    obtain ⟨before, mid, rfl, hsince⟩ := h.opened r t hold
    exact ⟨before, mid ++ [e], by simp, hsince.snoc hslot hwrite⟩
  | queued unmade he => exact ⟨evs, [], by rw [he], .nil p r unmade⟩
  | @made t₀ res unmade he =>
    obtain ⟨before, mid, rfl, hsince⟩ := h.opened r t₀ hold
    exact ⟨before, mid ++ [e], by simp [Txn.queued], he ▸ hsince.made unmade res⟩

/-- What was queued before an event. -/
theorem answered_snoc {e : Effect} (h : Deferred p evs x)
    (hev : ∀ r, Event p e r (x.txn r) (x'.txn r)) {before after : List Effect} {k : AckIdx}
    {r : Resource} {noAck : Bool} {id : BitVec 16} {cl : Client} {data : Bytes}
    (hsplit : evs = before ++ .defer k r noAck id cl data :: after) :
    ∃ result, (x'.txn r = some ⟨k, noAck, cl, data, result⟩ ∧ Since p r ⟨k, noAck, cl, data, result⟩ (after ++ [e])) ∨
      ∃ mid sent later res, after ++ [e] = mid ++ .settle k sent :: later ∧
        Closed p r ⟨k, noAck, cl, data, result⟩ res mid sent := by
  obtain ⟨-, -, result, ⟨ht, hsince⟩ | ⟨mid, sent, later, res, rfl, hclosed⟩⟩ :=
    h.answered _ _ _ _ _ _ _ _ hsplit
  · have hr := hev r
    rw [ht] at hr
    generalize hnew : x'.txn r = new at hr
    cases hr with
    | kept hslot hwrite => exact ⟨result, .inl ⟨rfl, hsince.snoc hslot hwrite⟩⟩
    | @made _ res unmade he => exact ⟨some res, .inl ⟨rfl, he ▸ hsince.made unmade res⟩⟩
    | @settled _ res made he => exact ⟨result, .inr ⟨after, _, [], res, by rw [he], hsince, made, rfl⟩⟩
  · exact ⟨result, .inr ⟨mid, sent, later ++ [e], res, by simp, hclosed⟩⟩

/-- One event: what it queues was not open, and what it settles was. -/
theorem snoc {e : Effect} (h : Deferred p evs x) (hs : x.SameSetup x')
    (hev : ∀ r, Event p e r (x.txn r) (x'.txn r)) (hnone : x'.txn .none = none)
    (hsync : x.async = false → ∀ r, x'.txn r = none)
    (hslots : ∀ r r' t t', x'.txn r = some t → x'.txn r' = some t' → t.slot = t'.slot → r = r')
    (hqueued : ∀ k r noAck id cl data, e = .defer k r noAck id cl data →
      r ≠ .none ∧ id = r.reqId ∧ x'.txn r = some ⟨k, noAck, cl, data, none⟩)
    (hsettled : ∀ k sent, e = .settle k sent →
      ∃ r t res, x.txn r = some t ∧ t.slot = k ∧ t.result = some res ∧ sent = t.answer r res) :
    Deferred p (evs ++ [e]) x' where
  paths := hs.paths.trans h.paths
  noFile := hnone
  sync ha := hsync (hs.async ▸ ha)
  slots := hslots
  opened r t ht := h.opened_snoc (hev r) ht
  answered before k r noAck id cl data after hsplit := by
    rcases List.snoc_eq_split hsplit with ⟨rfl, rfl, he⟩ | ⟨after', rfl, hold⟩
    · obtain ⟨hr, hid, ht⟩ := hqueued _ _ _ _ _ _ he
      exact ⟨hr, hid, none, .inl ⟨ht, .nil p r rfl⟩⟩
    · obtain ⟨hr, hid, -⟩ := h.answered _ _ _ _ _ _ _ _ hold
      exact ⟨hr, hid, h.answered_snoc hev hold⟩
  caused before k sent after hsplit := by
    rcases List.snoc_eq_split hsplit with ⟨rfl, rfl, he⟩ | ⟨after', rfl, hold⟩
    · obtain ⟨r, t, res, ht, rfl, hres, hsent⟩ := hsettled _ _ he
      obtain ⟨earlier, mid, hsplit', hsince⟩ := h.opened r t ht
      refine ⟨earlier, r, t, res, mid, hsplit', rfl, ?_, hsince, hres, hsent⟩
      rintro rfl
      rw [h.noFile] at ht
      cases ht
    · exact h.caused _ _ _ _ hold

/-- An event about another slot and no write of the file leaves a transaction alone. -/
theorem Event.of_same {e : Effect} {r : Resource} {o : Option Txn}
    (h : ∀ t, o = some t → e.slot? ≠ some t.slot ∧ writesOf (r.path p) [e] = []) : Event p e r o o := by
  cases o with
  | none => exact .idle
  | some t => exact .kept (h t rfl).1 (h t rfl).2

theorem writesOf_other {r r' : Resource} (hr : r ≠ .none) (hr' : r' ≠ .none) (hne : r' ≠ r)
    {w : FileWrite} (hw : w.path = r.path p) : writesOf (r'.path p) [.write w] = [] := by
  have hpath : w.path ≠ r'.path p := fun h => hne (p.path_inj hr' hr (h ▸ hw))
  simp [writesOf, hpath]

/-- Open transactions have slots of their own after one of them changes, if it does. -/
theorem slots_update (h : Deferred p evs x) {r : Resource} {o : Option Txn}
    (hnew : ∀ t, o = some t → ∀ r' t', r' ≠ r → x.txn r' = some t' → t'.slot ≠ t.slot) :
    ∀ r₁ r₂ t₁ t₂, Function.update x.txn r o r₁ = some t₁ → Function.update x.txn r o r₂ = some t₂ →
      t₁.slot = t₂.slot → r₁ = r₂ := by
  intro r₁ r₂ t₁ t₂ h₁ h₂ heq
  by_cases hr₁ : r₁ = r
  · by_cases hr₂ : r₂ = r
    · rw [hr₁, hr₂]
    · rw [hr₁, Function.update_self] at h₁
      rw [Function.update_of_ne hr₂] at h₂
      exact absurd heq.symm (hnew t₁ h₁ r₂ t₂ hr₂ h₂)
  · rw [Function.update_of_ne hr₁] at h₁
    by_cases hr₂ : r₂ = r
    · rw [hr₂, Function.update_self] at h₂
      exact absurd heq (hnew t₂ h₂ r₁ t₁ hr₁ h₁)
    · rw [Function.update_of_ne hr₂] at h₂
      exact h.slots r₁ r₂ t₁ t₂ h₁ h₂ heq

/-- Without a writer nothing is open. -/
theorem async_of_open (h : Deferred p evs x) {r : Resource} {t : Txn} (ht : x.txn r = some t) : x.async = true := by
  cases ha : x.async with
  | true => rfl
  | false =>
    rw [h.sync ha r] at ht
    cases ht

/-- An event that changes one transaction. -/
theorem snoc_update {e : Effect} (h : Deferred p evs x) (hs : x.SameSetup x') {r : Resource}
    {o : Option Txn} (hr : r ≠ .none) (ha : x.async = true)
    (htxn : x'.txn = Function.update x.txn r o) (hself : Event p e r (x.txn r) o)
    (hother : ∀ r' t, r' ≠ r → x.txn r' = some t → e.slot? ≠ some t.slot ∧ writesOf (r'.path p) [e] = [])
    (hnew : ∀ t, o = some t → ∀ r' t', r' ≠ r → x.txn r' = some t' → t'.slot ≠ t.slot)
    (hqueued : ∀ k r' noAck id cl data, e = .defer k r' noAck id cl data →
      r' = r ∧ id = r.reqId ∧ o = some ⟨k, noAck, cl, data, none⟩)
    (hsettled : ∀ k sent, e = .settle k sent →
      ∃ t res, x.txn r = some t ∧ t.slot = k ∧ t.result = some res ∧ sent = t.answer r res) :
    Deferred p (evs ++ [e]) x' := by
  refine h.snoc hs (fun r' => ?_) ?_ (fun hf => ?_) ?_ ?_ ?_
  · rw [htxn]
    by_cases hr' : r' = r
    · rw [hr', Function.update_self]
      exact hself
    · rw [Function.update_of_ne hr']
      exact .of_same fun t ht => hother r' t hr' ht
  · rw [htxn, Function.update_of_ne hr.symm, h.noFile]
  · rw [ha] at hf
    cases hf
  · rw [htxn]
    exact h.slots_update hnew
  · intro k r' noAck id cl data he
    obtain ⟨rfl, hid, ho⟩ := hqueued _ _ _ _ _ _ he
    exact ⟨hr, hid, by rw [htxn, Function.update_self, ho]⟩
  · intro k sent he
    exact ⟨r, hsettled k sent he⟩

/-- **One move of the history.** -/
theorem step {src : Source} {out : List Effect} (h : Deferred p evs x) (hm : Move src x out x') :
    Deferred p (evs ++ tableEvents p out) x' := by
  have hs := hm.sameSetup
  have htable := hm.table h.noFile
  obtain rfl := h.paths
  cases htable with
  | aside htxn hev =>
    rw [hev, List.append_nil]
    exact h.congr hs.paths hs.async htxn
  | @queued r t hr ready _ unmade htxn hev =>
    rw [hev]
    refine h.snoc_update hs hr ready.async htxn ?_ (fun r' t' hr' ht' => ?_) ?_ ?_ ?_
    · rw [ready.idle]
      exact .queued unmade rfl
    · have hfresh := ready.fresh r' t' ht'
      simpa [Effect.slot?, writesOf] using fun h => hfresh h.symm
    · rintro _ ⟨⟩ r' t' - ht'
      exact ready.fresh r' t' ht'
    · rintro k r' noAck id cl data he
      obtain ⟨rfl, rfl, rfl, rfl, rfl, rfl⟩ := Effect.defer.inj he
      refine ⟨rfl, rfl, ?_⟩
      rw [← unmade]
    · rintro k sent he
      cases he
  | @made r t res hr opened unmade htxn hev =>
    rw [hev]
    refine h.snoc_update hs hr (h.async_of_open opened) htxn ?_ (fun r' t' hr' ht' => ?_) ?_ ?_ ?_
    · rw [opened]
      exact .made unmade rfl
    · refine ⟨by simp [Effect.slot?], writesOf_other hr ?_ hr' rfl⟩
      rintro rfl
      rw [h.noFile] at ht'
      cases ht'
    · rintro _ ⟨⟩ r' t' hr' ht' heq
      exact hr' (h.slots r' r t' t ht' opened heq)
    · rintro k r' noAck id cl data he
      cases he
    · rintro k sent he
      cases he
  | @settled r t res hr opened made ready htxn hev =>
    rw [hev]
    refine h.snoc_update hs hr (h.async_of_open opened) htxn ?_ (fun r' t' hr' ht' => ?_) ?_ ?_ ?_
    · rw [opened]
      exact .settled made rfl
    · refine ⟨fun heq => hr' (h.slots r' r t' t ht' opened ?_), by simp [writesOf]⟩
      exact (Option.some.inj heq).symm
    · rintro _ he
      cases he
    · rintro k r' noAck id cl data he
      cases he
    · rintro k sent he
      obtain ⟨rfl, rfl⟩ := Effect.settle.inj he
      exact ⟨t, res, opened, rfl, made, rfl⟩
  | @written r w hr sync hw htxn hev =>
    rw [hev]
    have hclosed := h.sync sync
    refine h.snoc hs (fun r' => ?_) ?_ (fun _ r' => ?_) (fun r₁ r₂ t₁ t₂ h₁ => ?_) ?_ ?_
    · rw [htxn, hclosed]
      exact .idle
    · rw [htxn, h.noFile]
    · rw [htxn, hclosed]
    · rw [htxn, hclosed] at h₁
      cases h₁
    · rintro k r' noAck id cl data he
      cases he
    · rintro k sent he
      cases he

end Deferred

/-! ## Runs -/

section Runs

variable (conf : Conf) (paths : Paths) (d : Disk) (env : StartEnv) (as : List Action)

theorem deferred_steps {src : Source} {p : Paths} {tr out : List Effect} {x x' : Sys}
    (h : Deferred p (tableEvents p tr) x) (hm : Steps (Move src) x out x') :
    Deferred p (tableEvents p (tr ++ out)) x' := by
  refine hm.trace_inv (P := fun tr x => Deferred p (tableEvents p tr) x) (fun tr x es x' h hm => ?_) tr h
  rw [tableEvents_append]
  exact h.step hm

/-- **The history of a run.** -/
theorem deferred_run :
    ∃ x, Shows false x ⟨daemon.run (startup conf paths d env).st as, []⟩ ∧
      Deferred paths (tableEvents paths (daemon.trace (startup conf paths d env).st as)) x := by
  refine daemon_simulated.trace_inv (P := fun tr x => Deferred paths (tableEvents paths tr) x)
    (fun a tr x es x' h hm => deferred_steps h (.single hm)) (shows_startup conf paths d env) ?_ as
  exact Deferred.initial (x := (startup conf paths d env).st.sys false (fun _ => none) none)
    fun _ => rfl

/-- The effects of a run that ends with the shutdown. -/
def fullTrace (st : St) (as : List Action) (rs : List WriteResult) (ready : ReadyEnv) : List Effect :=
  daemon.trace st as ++ ((daemon.run st as).shutdown rs ready).out

/-- **The history rule for a run that ends with the shutdown.** -/
theorem fullTrace_inv {P : List Effect → Sys → Prop}
    (hstep : ∀ (src : Source) tr x es x', P tr x → Move src x es x' → P (tr ++ es) x')
    (hclosing : ∀ tr x closing, P tr x → P tr { x with closing })
    (hstart : P [] ((startup conf paths d env).st.sys false (fun _ => none) none)) (rs : List WriteResult)
    (ready : ReadyEnv) :
    ∃ closing x, Shows closing x
        ⟨((daemon.run (startup conf paths d env).st as).shutdown rs ready).st, []⟩ ∧
      P (fullTrace (startup conf paths d env).st as rs ready) x := by
  obtain ⟨x, hx, h⟩ := daemon_simulated.trace_inv (P := P) (fun a => hstep a.source)
    (shows_startup conf paths d env) hstart as
  obtain ⟨closing, x', hsteps, hx'⟩ := hx.shutdown rs ready
  exact ⟨closing, x', hx', hsteps.trace_inv (P := P) (hstep none) _ (hclosing _ x closing h)⟩

/-- **The history of a run that ends with the shutdown.** -/
theorem deferred_shutdown (rs : List WriteResult) (ready : ReadyEnv) :
    ∃ closing x, Shows closing x
        ⟨((daemon.run (startup conf paths d env).st as).shutdown rs ready).st, []⟩ ∧
      Deferred paths (tableEvents paths (fullTrace (startup conf paths d env).st as rs ready)) x :=
  fullTrace_inv conf paths d env as (P := fun tr x => Deferred paths (tableEvents paths tr) x)
    (fun _ _ _ _ _ h hm => deferred_steps h (.single hm)) (fun _ _ _ h => h.congr rfl rfl rfl)
    (Deferred.initial (x := (startup conf paths d env).st.sys false (fun _ => none) none) fun _ => rfl) rs ready

end Runs

end Opcd
