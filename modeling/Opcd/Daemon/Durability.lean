import Opcd.Daemon.ListRuns
import Opcd.Daemon.Published
import Opcd.Daemon.Settlement

/-!
# What becomes of a write

Over every run of the daemon from its start:

* **`writer_settles`**: so many turns of the writer's thread and one reconciliation settle every deferred request.
* **`restart_old_or_new`**: a restart at any moment loads a setting as it is published or as it is being written.
* **`runs_of_service`**: the run is one of the service of `Abstract.System`, effect by effect.
-/

namespace Opcd

open Bytes Protocol Store

/-! ## The writer comes to an end -/

namespace Store.Writer

variable {w : Writer}

/-- Each section of the thread is work done. -/
theorem work_alone (hx : w.worker = .exited → w.shutdown = true ∧ w.ring.count = 0) (rs : List WriteResult) :
    (w.alone rs).work 0 ≤ w.work 0 - rs.length := by
  induction rs generalizing w with
  | nil => exact le_rfl
  | cons r rs ih =>
    have hstep := work_workerStep (fun h => (hx h).2) r 0
    have hrest := ih (workerStep_exited w r hx)
    rw [List.length_cons]
    exact hrest.trans (by omega)

end Store.Writer

section Settles

variable {st : St}

theorem reconcile_acks (st : St) (env : ReadyEnv) (i : Nat) (pa : PendingAck) (d : Done) :
    (st.reconcile env i pa d).st.acks = st.acks := by
  have hlist : ∀ env : MirrorEnv, (st.completeIpList env d.outcome).st.acks = st.acks := by
    intro env
    by_cases ho : d.outcome = .unchanged
    · rw [ho, St.completeIpList_unchanged]
    · rw [St.completeIpList_visible st env ho rfl]
  have hradio : ∀ (t : St) (revert : ApplyResult) (unlink : Bool) (gen : BitVec 32),
      (t.completeRadio revert unlink gen d.outcome).st.acks = t.acks := by
    intro t revert unlink gen
    unfold St.completeRadio
    simp only [Turn.bind_st, St.done_st]
    split
    · rfl
    · cases d.outcome with
      | unchanged => exact (around_radioRevertDrain _ _).1.acks
      | _ => rfl
  have hrest : ∀ t : St, (if pa.reqId = Command.setRadioConfig.id then
      t.completeRadio (env.revert i) (env.unlink i) pa.radioGen d.outcome else t.done ()).st.acks = t.acks := by
    intro t
    split
    · exact hradio t _ _ _
    · rfl
  unfold St.reconcile
  rw [Turn.bind_st, hrest]
  cases pa.resource with
  | ipList => exact hlist _
  | _ => rfl

/-- A completion releases the acknowledgement it is for, and takes none. -/
theorem complete_released (env : ReadyEnv) (i : Nat) {d : Done} {k : AckIdx}
    (h : (st.acks k).inUse = false ∨ d.token = k) : ((st.complete env i d).st.acks k).inUse = false := by
  unfold St.complete
  split_ifs with hmirror hlt
  · exact h.resolve_right fun htok => slot_ne_tokenMirror k (htok.symm.trans hmirror)
  · dsimp only
    split
    next hfree =>
      rcases h with h | htok
      · exact h
      · obtain rfl : (⟨d.token, hlt⟩ : AckIdx) = k := Fin.ext htok
        simpa using hfree
    · simp only [Turn.bind_st, reconcile_acks]
      by_cases hk : k = ⟨d.token, hlt⟩
      · rw [hk, Function.update_self]
      · rw [Function.update_of_ne hk]
        exact h.resolve_right fun htok => hk (Fin.ext htok.symm)
  · exact h.resolve_right fun htok => hlt (htok ▸ k.isLt)

theorem completeAll_released (env : ReadyEnv) {ds : List Done} {k : AckIdx} (i : Nat)
    (h : (st.acks k).inUse = false ∨ ∃ d ∈ ds, d.token = k) : ((st.completeAll env i ds).st.acks k).inUse = false := by
  induction ds generalizing st i with
  | nil => exact h.resolve_right fun ⟨d, hd, _⟩ => by cases hd
  | cons d ds ih =>
    refine ih (i + 1) ?_
    rcases h with h | ⟨d', hd', htok⟩
    · exact .inl (complete_released env i (.inl h))
    · rcases List.mem_cons.mp hd' with rfl | hd'
      · exact .inl (complete_released env i (.inr htok))
      · exact .inr ⟨d', hd', htok⟩

variable {txn : Resource → Option Txn} {copy : Option Copy} {w : Writer}

/-- With nothing left to write, every acknowledgement is released. -/
theorem storeReady_released (htr : Tracks ⟨st, []⟩ false txn copy) (hw : st.storeAsync = some w)
    (hqueue : w.queue = []) (ready : ReadyEnv) (k : AckIdx) :
    ((st.storeAsyncOnReady ready).st.acks k).inUse = false := by
  obtain ⟨p, hb⟩ := htr.booked hw
  unfold St.storeAsyncOnReady
  rw [hw]
  refine completeAll_released ready 0 ?_
  cases huse : (st.acks k).inUse with
  | false => exact .inl huse
  | true =>
    obtain ⟨r, t, ht, rfl⟩ := htr.acked.owned k huse
    have hgone : (p.drained w).job r = none := by
      refine Option.eq_none_iff_forall_ne_some.mpr fun i hi => ?_
      obtain ⟨hjob, hdone⟩ := Booked.drained_eq_some.mp hi
      have hqueued : (w.jobs i).state ≠ .queued := by
        rw [ne_eq, ← hb.wf.mem_queue i, hqueue]
        exact List.not_mem_nil
      have hfree := hb.job_nonfree hjob
      have hreserved := hb.unreserved i
      cases hs : (w.jobs i).state <;> simp_all
    obtain ⟨res, -, hrec⟩ := (hb.drain rfl).inHand r t ht hgone
    exact .inr ⟨_, hrec, rfl⟩

theorem run_workers (st : St) (rs : List WriteResult) : daemon.run st (rs.map .worker) = (st.workers rs).st := by
  induction rs generalizing st with
  | nil => rfl
  | cons r rs ih => exact ih (st.workerTurn r).st

end Settles

/-- A file shows what is published, or what is being written. -/
theorem Filed.old_or_new {V : Type} {Yields : File → V → Prop} {f : File} {s : Setting V} (h : Filed Yields f s) :
    Yields f s.current ∨ s.txn.isSome = true ∧ Yields f s.pending := by
  have hfile := h.file
  unfold Setting.filed at hfile
  cases ht : s.txn with
  | none => exact .inl (by simpa [ht] using hfile)
  | some t =>
    rw [ht, Option.bind_some] at hfile
    split at hfile
    · split at hfile
      · exact .inl hfile
      · exact .inr ⟨rfl, hfile⟩
    · exact .inl hfile

section Runs

variable (conf : Conf) (paths : Paths) (d : Disk) (env : StartEnv) (as : List Action)

/-- **The writer settles what it took.** Wherever a run has come to, so many turns of the writer's thread and one
reconciliation leave no request unanswered, however the writes come out. -/
theorem writer_settles :
    ∃ n, ∀ rs : List WriteResult, n ≤ rs.length → ∀ ready k,
      ((daemon.run (startup conf paths d env).st (as ++ rs.map .worker ++ [.storeReady ready])).acks k).inUse = false := by
  have hshows := fun bs => shows_run conf paths d env (as ++ bs)
  simp only [daemon.run_append, List.append_assoc] at hshows ⊢
  generalize daemon.run (startup conf paths d env).st as = st at hshows ⊢
  obtain ⟨-, txn, copy, -, htr⟩ := hshows []
  change Tracks ⟨st, []⟩ false txn copy at htr
  cases hw : st.storeAsync with
  | none =>
    -- without a writer nothing is deferred, and neither action does anything
    have hworkers : ∀ rs : List WriteResult, daemon.run st (rs.map .worker) = st := by
      intro rs
      induction rs with
      | nil => rfl
      | cons r rs ih =>
        have hstep : daemon.step st (.worker r) = st := by simp [daemon, St.turn, St.workerTurn, hw]
        rw [List.map_cons, daemon.run_cons, hstep, ih]
    refine ⟨0, fun rs _ ready k => ?_⟩
    have hready : daemon.run st [.storeReady ready] = st := by simp [Machine.run, daemon, St.turn, St.storeAsyncOnReady, hw]
    rw [hworkers, hready]
    by_contra huse
    obtain ⟨r, t, ht, -⟩ := htr.acked.owned k (by simpa using huse)
    have hkept := htr.kept
    rw [hw] at hkept
    rw [hkept.1] at ht
    cases ht
  | some w =>
    refine ⟨w.work 0, fun rs hlen ready k => ?_⟩
    obtain ⟨p, hb⟩ := htr.booked hw
    have hwork := Writer.work_alone (fun hx => absurd hx (hb.running hb.shutdown)) rs
    obtain ⟨-, txn', copy', -, htr'⟩ := hshows (rs.map .worker)
    rw [run_workers] at htr' ⊢
    exact storeReady_released htr' (workers_storeAsync hw rs) (Writer.queue_of_work (by omega)) ready k

/-- **A restart loads the old setting or the new one.** Wherever a run is left, the password file as it is seen then
reads back as the password in force, or as the one being written; and the own copy of the IP list likewise. What a
power cut leaves of a file that was replaced without a sync is not said. -/
theorem restart_old_or_new (haside : paths.SetAside)
    (hok : ∀ w, .write w ∈ (startup conf paths d env).out → w.path = paths.ipList → w.result.rc = 0) :
    let start := startup conf paths d env
    let st := daemon.run start.st as
    let disk := d.after (start.out ++ daemon.trace start.st as)
    (loadPassword (disk paths.password) passwordDefault = st.pw.password ∨
      st.persistResourceBusy .password = true ∧ loadPassword (disk paths.password) passwordDefault = st.pw.pending) ∧
    (IpList.Same (IpList.ownText (disk paths.ipList)).1 st.ipl.list ∨
      st.persistResourceBusy .ipList = true ∧ IpList.Same (IpList.ownText (disk paths.ipList)).1 st.ipl.pending) := by
  intro start st disk
  obtain ⟨_, ⟨txn, copy, rfl, htracks⟩, hpub⟩ := published_run as haside hok
  rw [htracks.acked.busy, htracks.acked.busy]
  exact ⟨hpub.password.old_or_new, hpub.list.old_or_new⟩

/-- **The daemon is the service.** The effects of a run are, action by action, those of moves of the service for the
action's request, from the settings that were loaded to those in force, with the transactions that the acknowledgement
slots and the writer's jobs stand for. -/
theorem runs_of_service :
    let start := (startup conf paths d env).st
    ∃ x, Runs (fun a => Move a.source) as (start.sys false (fun _ => none) none) (daemon.trace start as) x ∧
      Shows false x ⟨daemon.run start as, []⟩ :=
  daemon_simulated.runs (shows_startup conf paths d env) as

end Runs

/-- The write is made, and not reconciled. -/
theorem restart_old_or_new_writing :
    let st := daemon.run emptyStart.st unsyncedPassword.dropLast
    let file := Disk.after (fun _ => .absent)
      (emptyStart.out ++ daemon.trace emptyStart.st unsyncedPassword.dropLast) defaultPaths.password
    loadPassword file passwordDefault = st.pw.password ∨
      st.persistResourceBusy .password = true ∧ loadPassword file passwordDefault = st.pw.pending := by
  have haside : defaultPaths.SetAside := by constructor <;> intro path h <;> cases h <;> decide +kernel
  have hout : ∀ e ∈ emptyStart.out, defaultPaths.ipList ∉ e.touched := by decide +kernel
  have hok : ∀ w, .write w ∈ emptyStart.out → w.path = defaultPaths.ipList → w.result.rc = 0 :=
    fun w hw hp => absurd (List.mem_singleton.mpr hp.symm) (hout _ hw)
  unfold emptyStart at hok ⊢
  exact (restart_old_or_new defaultConf defaultPaths (fun _ => .absent) .allOk _ haside hok).1

end Opcd
