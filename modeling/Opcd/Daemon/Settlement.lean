import Opcd.Daemon.Answers
import Opcd.IpList.Request
import Opcd.Password.Request
import Opcd.Radio.Baseline
import Opcd.Store.Interleave

/-!
# Deferred requests are answered once

What becomes of a request whose write is queued, in a run that ends with the shutdown: nothing is sent while
it is served, unless one of its entries failed, and one acknowledgement goes to its client once its own write
came to an end. The writer's thread leaves the loop only with an empty queue (`joined_empty`), so what is
reconciled after it was joined closes every transaction that was open.

* `joins`: the thread can be joined; it has only so many sections to go.
* `closed_shutdown`: no transaction is open after the shutdown.
* `deferred_at_once`: what a handler that queues a write answers at once.
* `left_unaccepted`: a request of a busy resource.
* `deferred_answered_once`.
-/

namespace Opcd

open Bytes Protocol Store

/-! ## The writer's thread alone -/

namespace Store.Writer

variable {w : Writer}

@[simp] theorem loopHead_shutdown (w : Writer) : w.loopHead.shutdown = w.shutdown := by
  unfold loopHead
  split <;> rfl

@[simp] theorem workerStep_shutdown (w : Writer) (r : WriteResult) : (w.workerStep r).1.shutdown = w.shutdown := by
  cases hw : w.worker <;> simp [workerStep, hw, publish, setJob, notifyCompletion]

/-- The worker's next sections, with these answers. -/
def alone (w : Writer) (rs : List WriteResult) : Writer := rs.foldl (fun w r => (w.workerStep r).1) w

/-- A writer that is closing: nothing is reserved, and its thread leaves with an empty queue. -/
structure Closing (w : Writer) : Prop where
  wf : w.WF
  shutdown : w.shutdown = true
  unreserved : ∀ i, (w.jobs i).state ≠ .reserved
  exited : w.worker = .exited → w.shutdown = true ∧ w.ring.count = 0

theorem Closing.workerStep (h : w.Closing) (r : WriteResult) : (w.workerStep r).1.Closing where
  wf := h.wf.workerStep r
  shutdown := by rw [workerStep_shutdown, h.shutdown]
  unreserved i hi := h.unreserved i (workerStep_reserved w r i hi ▸ hi)
  exited := workerStep_exited w r h.exited

theorem Closing.alone (h : w.Closing) (rs : List WriteResult) : (w.alone rs).Closing := by
  induction rs generalizing w with
  | nil => exact h
  | cons r rs ih => exact ih (h.workerStep r)

/-- A thread that left stays away. -/
theorem alone_exited (h : w.worker = .exited) (rs : List WriteResult) : (w.alone rs).worker = .exited := by
  induction rs with
  | nil => exact h
  | cons r rs ih =>
    have hstep : (w.workerStep r).1 = w := by simp [workerStep, h]
    change ((w.workerStep r).1.alone rs).worker = .exited
    rw [hstep]
    exact ih

theorem queue_of_work (h : w.work 0 = 0) : w.queue = [] := by
  by_contra hne
  have hpos : 0 < w.queue.length := List.length_pos_iff.mpr hne
  have hstage : w.worker.stage ≤ 2 := by cases w.worker <;> simp [Worker.stage]
  unfold work at h
  rw [if_neg (by omega)] at h
  omega

/-- With nothing left to write the thread leaves. -/
theorem Closing.leaves (h : w.Closing) (hwork : w.work 0 = 0) (r : WriteResult) :
    (w.workerStep r).1.worker = .exited := by
  have hqueue := queue_of_work hwork
  have hring : w.ring.count = 0 := by
    rw [← RingBuffer.length_toList, (List.append_eq_nil_iff.mp hqueue).2, List.length_nil]
  cases hworker : w.worker with
  | waiting => simp [Writer.workerStep, hworker, loopHead, hring, h.shutdown]
  | exited => simp [Writer.workerStep, hworker]
  | _ => simp [queue, hworker, Worker.current] at hqueue

/-- **The thread of a closing writer leaves** after so many sections. -/
theorem Closing.joins (h : w.Closing) {rs : List WriteResult} (hlen : w.work 0 < rs.length) :
    (w.alone rs).worker = .exited := by
  induction rs generalizing w with
  | nil => simp at hlen
  | cons r rs ih =>
    by_cases hwork : w.work 0 = 0
    · exact alone_exited (h.leaves hwork r) rs
    · have hless := work_workerStep (fun hx => (h.exited hx).2) r 0
      rw [List.length_cons] at hlen
      have hlt : (w.workerStep r).1.work 0 < rs.length := by omega
      exact ih (h.workerStep r) hlt

/-- **A joined thread left nothing queued**: every slot is free or completed. -/
theorem Closing.joined_empty (h : w.Closing) (hx : w.worker = .exited) (i : Slot) :
    (w.jobs i).state = .free ∨ (w.jobs i).state = .done := by
  have hqueue : w.queue = [] := by
    rw [queue_of_idle (by rw [hx]; rfl)]
    exact List.length_eq_zero_iff.mp (by simpa using (h.exited hx).2)
  have hunqueued : (w.jobs i).state ≠ .queued := by
    rw [ne_eq, ← h.wf.mem_queue i, hqueue]
    exact List.not_mem_nil
  have hunreserved := h.unreserved i
  cases hs : (w.jobs i).state <;> simp_all

end Store.Writer

/-! ## The shutdown -/

section Shutdown

variable {st : St} {w : Writer}

theorem workers_storeAsync (hw : st.storeAsync = some w) (rs : List WriteResult) :
    (st.workers rs).st.storeAsync = some (w.alone rs) := by
  induction rs generalizing st w with
  | nil => exact hw
  | cons r rs ih =>
    have hstep : (st.workerTurn r).st.storeAsync = some (w.workerStep r).1 := by
      simp [St.workerTurn, hw, St.setWriter]
    exact ih hstep

theorem finish_storeAsync (hw : st.storeAsync = some w) (rs : List WriteResult) :
    (st.finish rs).st.storeAsync = some (w.requestShutdown.alone rs) := by
  unfold St.finish
  rw [hw]
  exact workers_storeAsync rfl rs

/-- `pthread_join` returned: the writer's thread, if there is one, left its loop. -/
def St.Joined (st : St) (rs : List WriteResult) : Prop :=
  ∀ w, (st.finish rs).st.storeAsync = some w → w.worker = .exited

variable {closing : Bool} {txn : Resource → Option Txn} {copy : Option Copy}

theorem Tracks.closing_writer (h : Tracks ⟨st, []⟩ false txn copy) (hw : st.storeAsync = some w) :
    w.requestShutdown.Closing := by
  obtain ⟨p, hb⟩ := h.booked hw
  refine ⟨⟨hb.wf.nodup, hb.wf.mem_queue⟩, rfl, hb.unreserved, fun hx => ?_⟩
  exact absurd hx (hb.running hb.shutdown)

/-- **The thread can be joined.** -/
theorem joins (h : Tracks ⟨st, []⟩ false txn copy) : ∃ n, ∀ rs : List WriteResult, n ≤ rs.length → st.Joined rs := by
  cases hw : st.storeAsync with
  | none =>
    refine ⟨0, fun rs _ w hfin => ?_⟩
    simp [St.finish, hw] at hfin
  | some w =>
    refine ⟨w.requestShutdown.work 0 + 1, fun rs hlen w' hfin => ?_⟩
    obtain rfl := Option.some.inj ((finish_storeAsync hw rs).symm.trans hfin)
    exact (h.closing_writer hw).joins hlen

/-- A closing writer takes no copy to the customer's file. -/
theorem submitMirror_closing (hs : w.shutdown = true) (user : Path) (last : Option Path) (text : Bytes) :
    (St.submitMirror w user last text).1 = w := by
  have hreserve : ∀ path len, ∃ e, w.reserve path len = (w, .error e) := by
    intro path len
    unfold Writer.reserve
    split_ifs <;> exact ⟨_, rfl⟩
  obtain ⟨e, he⟩ := hreserve user text.length
  cases last with
  | none => simp [St.submitMirror, Writer.submit, he]
  | some last =>
    unfold St.submitMirror Writer.submitEcho
    dsimp only
    split
    · rfl
    · rw [he]

theorem iplistMirrorUser_closing (hw : st.storeAsync = some w) (hs : w.shutdown = true) (env : MirrorEnv) :
    (st.iplistMirrorUser env).st.storeAsync = some w := by
  unfold St.iplistMirrorUser
  split
  · rw [hw]
    dsimp only
    rw [submitMirror_closing hs]
    rfl
  · exact hw

theorem completeIpList_closing (hw : st.storeAsync = some w) (hs : w.shutdown = true) (env : MirrorEnv)
    (o : Outcome) : (st.completeIpList env o).st.storeAsync = some w := by
  by_cases ho : o = .unchanged
  · rw [ho, St.completeIpList_unchanged]
    exact hw
  · rw [St.completeIpList_visible st env ho rfl]
    exact @iplistMirrorUser_closing { st with ipl.list := st.ipl.pending } w hw hs env

theorem completeRadio_storeAsync (st : St) (revert : ApplyResult) (unlink : Bool) (gen : BitVec 32)
    (o : Outcome) : (st.completeRadio revert unlink gen o).st.storeAsync = st.storeAsync := by
  unfold St.completeRadio
  simp only [Turn.bind_st, St.done_st]
  split
  · rfl
  · cases o with
    | unchanged => exact (around_radioRevertDrain _ _).1.storeAsync
    | _ => rfl

theorem complete_closing (hw : st.storeAsync = some w) (hs : w.shutdown = true) (env : ReadyEnv) (i : Nat)
    (d : Done) : (st.complete env i d).st.storeAsync = some w := by
  have hreconcile : ∀ pa : PendingAck, (st.reconcile env i pa d).st.storeAsync = some w := by
    intro pa
    have hrest : ∀ t : St, t.storeAsync = some w →
        (if pa.reqId = Command.setRadioConfig.id then
          t.completeRadio (env.revert i) (env.unlink i) pa.radioGen d.outcome
        else t.done ()).st.storeAsync = some w := by
      intro t ht
      split
      · rw [completeRadio_storeAsync]
        exact ht
      · exact ht
    unfold St.reconcile
    rw [Turn.bind_st]
    refine hrest _ ?_
    cases pa.resource with
    | ipList => exact completeIpList_closing hw hs _ _
    | _ => exact hw
  unfold St.complete
  split_ifs
  · exact hw
  · dsimp only
    split
    · exact hw
    · exact hreconcile _
  · exact hw

/-- Completions leave a closing writer as it is. -/
theorem completeAll_closing (hw : st.storeAsync = some w) (hs : w.shutdown = true) (env : ReadyEnv)
    (ds : List Done) (i : Nat) : (st.completeAll env i ds).st.storeAsync = some w := by
  induction ds generalizing st i with
  | nil => exact hw
  | cons d ds ih => exact ih (complete_closing hw hs env i d) (i + 1)

/-- The writer holds nothing after the shutdown. -/
theorem shutdown_free (h : Tracks ⟨st, []⟩ false txn copy) {rs : List WriteResult} (hj : st.Joined rs)
    (env : ReadyEnv) (hw : (st.shutdown rs env).st.storeAsync = some w) (i : Slot) : (w.jobs i).state = .free := by
  cases hold : st.storeAsync with
  | none => simp [St.shutdown, St.finish, hold, St.storeAsyncOnReady] at hw
  | some w₀ =>
    have hfin := finish_storeAsync hold rs
    have hclosing := (h.closing_writer hold).alone rs
    have hempty := hclosing.joined_empty (hj _ hfin) i
    generalize w₀.requestShutdown.alone rs = w₁ at hfin hclosing hempty
    have hshut : (w₁.drain queueDepth).1.shutdown = true := by
      rw [show (w₁.drain queueDepth).1.shutdown = w₁.shutdown from Writer.harvest_shutdown _ _, hclosing.shutdown]
    have hready : (st.shutdown rs env).st.storeAsync = some (w₁.drain queueDepth).1 := by
      simp only [St.shutdown, Turn.bind_st, St.storeAsyncOnReady, hfin]
      exact completeAll_closing rfl hshut env _ 0
    obtain rfl := Option.some.inj (hw.symm.trans hready)
    rw [(Booked.drain_eq w₁).2 i]
    rcases hempty with hfree | hdone
    · rw [if_neg (by rw [hfree]; decide), hfree]
    · rw [if_pos hdone]

/-- What the writer does not hold is not open. -/
theorem Tracks.closed_of_free (h : Tracks ⟨st, []⟩ closing txn copy)
    (hfree : ∀ w, st.storeAsync = some w → ∀ i, (w.jobs i).state = .free) (r : Resource) : txn r = none := by
  cases hw : st.storeAsync with
  | none => rw [(h.closed hw).1]
  | some w =>
    obtain ⟨p, hb⟩ := h.booked hw
    cases ht : txn r with
    | none => rfl
    | some t =>
      cases hi : p.job r with
      | none =>
        obtain ⟨res, -, hd⟩ := hb.inHand r t ht hi
        cases hd
      | some i => exact absurd (hfree w hw i) (hb.job_nonfree hi)

end Shutdown

/-! ## What is said at once -/

theorem sends_queuedOut {before : List Effect} (h : sends before = []) (r : Resource) (path : Path) (data : Bytes)
    (noAck : Bool) (id : BitVec 16) (cl : Client) (s : Slot) (k : AckIdx) :
    sends (queuedOut r path data noAck id cl s k before) = [] := by
  unfold queuedOut
  rw [List.cons_append, ← List.singleton_append, sends_append, sends_append, h]
  rfl

theorem sends_armMarker (p : Paths) (marker : WriteResult) (req : RadioConfig) :
    sends (p.armMarker marker req) = [] := by
  unfold Paths.armMarker
  cases p.radioMarker <;> rfl

/-- The queued request in the effects of a handler. -/
theorem mem_queuedOut {before : List Effect} {r r' : Resource} {path : Path} {data data' : Bytes}
    {noAck noAck' : Bool} {id id' : BitVec 16} {cl cl' : Client} {s : Slot} {k k' : AckIdx}
    (h : .defer k' r' noAck' id' cl' data' ∈ queuedOut r path data noAck id cl s k before)
    (hbefore : ∀ e ∈ before, e.slot? = none) : noAck' = noAck := by
  unfold queuedOut at h
  simp only [List.cons_append, List.mem_cons, List.mem_append, reduceCtorEq, false_or, List.not_mem_nil,
    or_false] at h
  rcases h with h | h
  · cases hbefore _ h
  · obtain ⟨-, -, rfl, -⟩ := Effect.defer.inj h
    rfl

/-- What a handler that queued a write responds: nothing, or that an entry failed. -/
inductive AtOnce (cl : Client) : Resource → Bool → Bytes → Prop
  | later (r : Resource) : AtOnce cl r false []
  | failed (cause : BitVec 16) : AtOnce cl .ipList true (listAck cl resultNg cause)

section Handlers

variable {st : St} {env : Env} {frame : Bytes} {cl cl' : Client} {k : AckIdx} {r : Resource} {noAck : Bool}
  {id : BitVec 16} {data : Bytes}

theorem setPassword_defers
    (hroom : ∀ w path len, st.storeAsync = some w →
      ¬ (st.pendingAckAlloc = none ∨ (w.reserve path len).2 = .error .again))
    (he : .defer k r noAck id cl' data ∈ (st.handleSetPassword env frame cl).out) :
    sends (st.handleSetPassword env frame cl).out = [] ∧
      AtOnce cl .password noAck (st.handleSetPassword env frame cl).val := by
  cases hreq : setPasswordReqUnpack frame with
  | none => simp [St.handleSetPassword, hreq] at he
  | some req =>
    cases passwordTurn hreq hroom env cl with
    | refused around hout => simp [hout] at he
    | dropped around hout => simp [hout] at he
    | unreserved around hout => simp [hout] at he
    | written sync around due hout => simp [hout] at he
    | queued idle due hout hpw paths busy hval =>
      rw [hout] at he ⊢
      obtain rfl := mem_queuedOut he (by simp)
      exact ⟨sends_queuedOut rfl _ _ _ _ _ _ _ _, hval ▸ .later _⟩

theorem setIpConfigList_defers
    (hroom : ∀ w path len, st.storeAsync = some w →
      ¬ (st.pendingAckAlloc = none ∨ (w.reserve path len).2 = .error .again))
    (he : .defer k r noAck id cl' data ∈ (st.handleSetIpConfigList env frame cl).out) :
    sends (st.handleSetIpConfigList env frame cl).out = [] ∧
      AtOnce cl .ipList noAck (st.handleSetIpConfigList env frame cl).val := by
  cases hreq : setIpConfigListReqUnpack frame with
  | error e => cases e <;> simp [St.handleSetIpConfigList, hreq] at he
  | ok es =>
    cases @listTurn st frame es hreq hroom env cl (st.folded es).1 (st.folded es).2 rfl with
    | refused outsider same hout => simp [hout] at he
    | dropped busy same hout => simp [hout] at he
    | unreserved same hout => simp [hout] at he
    | @staged s owns idle unclosed only acks hipl hout => cases s <;> simp [hout, St.listAdmission] at he
    | unwritten sync owns closed hr only acks hipl hout => simp [hout] at he
    | written sync owns closed hr only acks hipl hout =>
      rw [hout, List.mem_cons] at he
      have hmem := he.resolve_left (by simp)
      have hoff := offTable_writeUser (p := st.paths) (st.folded es).1.candidate env.mirror _ hmem
      cases hoff
    | queued owns idle closed alloc only acks hipl hout hval =>
      rw [hout] at he ⊢
      refine ⟨sends_queuedOut rfl _ _ _ _ _ _ _ _, ?_⟩
      obtain rfl := mem_queuedOut he (by simp)
      rw [hval]
      cases (st.folded es).2 with
      | none => exact .later _
      | some cause => exact .failed cause

theorem setRadioConfig_defers
    (hroom : ∀ w path len, st.storeAsync = some w →
      ¬ (st.pendingAckAlloc = none ∨ (w.reserve path len).2 = .error .again))
    (he : .defer k r noAck id cl' data ∈ (st.handleSetRadioConfig env frame cl).out) :
    sends (st.handleSetRadioConfig env frame cl).out = [] ∧
      AtOnce cl .radio noAck (st.handleSetRadioConfig env frame cl).val := by
  have hadmission : ∀ s, .defer k r noAck id cl' data ∉ st.radioAdmission s := by
    intro s
    cases s <;> simp [St.radioAdmission]
  have hmarker : ∀ req, .defer k r noAck id cl' data ∉ st.paths.armMarker env.marker req := by
    intro req hmem
    cases offTable_armMarker (p := st.paths) env.marker req _ hmem
  cases hreq : setRadioConfigReqUnpack frame with
  | none => simp [St.handleSetRadioConfig, hreq] at he
  | some req =>
    cases radioTurn hreq hroom env cl with
    | refused same hout => simp [hout] at he
    | dropped busy same hout => simp [hout] at he
    | answered committed equal same hout => simp [hout] at he
    | unreserved due same hout => simp [hout] at he
    | unarmed due failed only acks hrad hout => simp [hout, hadmission, hmarker] at he
    | failed due armed happly only acks hrad hout => simp [hout, hadmission, hmarker] at he
    | written sync due armed happly only acks hrad hout =>
      simp only [hout, List.mem_append, hmarker, false_or, List.mem_cons, reduceCtorEq, List.not_mem_nil,
        or_false] at he
      split at he
      · cases offTable_clearMarker (p := st.paths) env.unlink _ he
      · cases he
    | queued idle due armed happly only hrad hout hval =>
      rw [hout] at he ⊢
      have hquiet : sends (st.paths.armMarker env.marker req ++ [.applyRadio req .ok]) = [] := by
        rw [sends_append, sends_armMarker]
        rfl
      obtain rfl := mem_queuedOut he fun e hmem => by
        rcases List.mem_append.mp hmem with hmem | hmem
        · unfold Paths.armMarker at hmem
          cases hm : st.paths.radioMarker <;> simp [hm] at hmem
          rw [hmem]
          rfl
        · rw [List.mem_singleton.mp hmem]
          rfl
      exact ⟨sends_queuedOut hquiet _ _ _ _ _ _ _ _, hval ▸ .later _⟩

end Handlers

/-- The command of a request that a source brings. -/
theorem requested_of_brings {src : Source} {cl : Client} {c : Command} (h : src.Brings cl c.id) :
    ∃ frame, src = some (cl, frame) ∧ requested frame = some c := by
  obtain ⟨frame, hd, body, hsrc, hparse, htype, hid⟩ := h
  refine ⟨frame, hsrc, ?_⟩
  unfold requested
  rw [hparse]
  dsimp only
  rw [if_neg (not_not.mpr htype), hid]
  cases c <;> rfl

/-- **What is sent while a request is served whose write is queued.** -/
theorem deferred_at_once {st : St} {x : Sys} {a : Action} {k : AckIdx} {r : Resource} {noAck : Bool}
    {cl : Client} {data : Bytes} (hx : Shows false x ⟨st, []⟩) (hr : r ≠ .none) (hbrings : a.source.Brings cl r.reqId)
    (he : .defer k r noAck r.reqId cl data ∈ daemon.out st a) :
    ∃ resp, AtOnce cl r noAck resp ∧ sends (daemon.out st a) = response cl resp := by
  have hserved : ∀ c : Command, a.source.Brings cl c.id → ∃ (u : St) (env : Env) (frame : Bytes),
      (∀ w path len, u.storeAsync = some w →
        ¬ (u.pendingAckAlloc = none ∨ (w.reserve path len).2 = .error .again)) ∧
      .defer k r noAck r.reqId cl data ∈ (u.handle env frame cl c).out ∧
      sends (daemon.out st a) = sends (u.handle env frame cl c).out ++
        response cl (u.handle env frame cl c).val := by
    intro c hc
    obtain ⟨frame, hsrc, hreq⟩ := requested_of_brings hc
    obtain ⟨env, ⟨revert, ip, port, d, rfl⟩, hs⟩ := served hsrc hreq st
    refine ⟨_, env, frame, fun w path len => hs.room hx w path len, ?_,
      sends_served hsrc hreq st env revert⟩
    rcases hs.out _ he with h | h | ⟨h, -⟩
    · exact absurd h (by simp [Effect.aside])
    · exact h
    · cases h
  cases r with
  | none => exact absurd rfl hr
  | password =>
    obtain ⟨u, env, frame, hroom, hmem, hsends⟩ := hserved .setPassword hbrings
    obtain ⟨hnone, hresp⟩ := setPassword_defers hroom hmem
    rw [hsends]
    exact ⟨_, hresp, congrArg (· ++ _) hnone⟩
  | ipList =>
    obtain ⟨u, env, frame, hroom, hmem, hsends⟩ := hserved .setIpConfigList hbrings
    obtain ⟨hnone, hresp⟩ := setIpConfigList_defers hroom hmem
    rw [hsends]
    exact ⟨_, hresp, congrArg (· ++ _) hnone⟩
  | radio =>
    obtain ⟨u, env, frame, hroom, hmem, hsends⟩ := hserved .setRadioConfig hbrings
    obtain ⟨hnone, hresp⟩ := setRadioConfig_defers hroom hmem
    rw [hsends]
    exact ⟨_, hresp, congrArg (· ++ _) hnone⟩

/-! ## Requests of a busy resource -/

/-- The frame is a well-formed request of the resource. -/
def Resource.WellFormed (frame : Bytes) : Resource → Prop
  | .none => False
  | .password => ∃ req, setPasswordReqUnpack frame = some req
  | .ipList => ∃ es, setIpConfigListReqUnpack frame = .ok es
  | .radio => ∃ req, setRadioConfigReqUnpack frame = some req

/-- The command of a resource. -/
def Resource.command : Resource → Option Command
  | .none => Option.none
  | .password => some .setPassword
  | .ipList => some .setIpConfigList
  | .radio => some .setRadioConfig

section Busy

variable {st : St} {frame : Bytes} {cl : Client} {r : Resource} {w : Writer}

theorem persistAdmit_busy (hw : st.storeAsync = some w) (hbusy : st.persistResourceBusy r = true)
    (env : ReadyEnv) (path : Path) (len : Nat) : st.persistAdmit env r path len = st.done .unaccepted := by
  simp [St.persistAdmit, hw, St.admitOnce, hbusy, Turn.bind, St.done]

/-- **The handler leaves the holder's request of a busy resource unaccepted.** -/
theorem handle_busy (howns : st.sessionOwns cl.ip = true) (hw : st.storeAsync = some w)
    (hbusy : st.persistResourceBusy r = true) (hform : r.WellFormed frame) {c : Command}
    (hc : r.command = some c) (env : Env) :
    st.handle env frame cl c = ((st.sessionTouch env.now).sessionTouch env.now).done [] := by
  have hlogin := checkLoginRequired_owner howns env.now
  have hbusy' : (st.sessionTouch env.now).persistResourceBusy r = true := hbusy
  have hw' : (st.sessionTouch env.now).storeAsync = some w := hw
  cases r with
  | none => cases hform
  | password =>
    obtain ⟨req, hreq⟩ := hform
    obtain rfl := Option.some.inj hc
    simp only [St.handle, St.handleSetPassword, hreq, hlogin, hbusy', if_true]
  | ipList =>
    obtain ⟨es, hreq⟩ := hform
    obtain rfl := Option.some.inj hc
    simp only [St.handle, St.handleSetIpConfigList, hreq, hlogin, persistAdmit_busy hw' hbusy']
    split
    · rfl
    · rfl
  | radio =>
    obtain ⟨req, hreq⟩ := hform
    obtain rfl := Option.some.inj hc
    simp only [St.handle, St.handleSetRadioConfig, hreq, hlogin, hbusy', if_true]

/-- A well-formed request is served by the command of its resource. -/
theorem Resource.WellFormed.requested (h : r.WellFormed frame) :
    ∃ c, r.command = some c ∧ Opcd.requested frame = some c := by
  cases r with
  | none => cases h
  | password =>
    obtain ⟨req, hreq⟩ := h
    obtain ⟨body, hbody, -⟩ := Option.map_eq_some_iff.mp hreq
    exact ⟨_, rfl, requested_of_requestBody hbody⟩
  | ipList =>
    obtain ⟨es, hreq⟩ := h
    unfold setIpConfigListReqUnpack at hreq
    cases hbody : requestBody .setIpConfigList 0 frame with
    | none => simp [hbody] at hreq
    | some body => exact ⟨_, rfl, requested_of_requestBody hbody⟩
  | radio =>
    obtain ⟨req, hreq⟩ := h
    obtain ⟨body, hbody, -⟩ := Option.map_eq_some_iff.mp hreq
    exact ⟨_, rfl, requested_of_requestBody hbody⟩

theorem requestOf_of_requested {c : Command} (h : requested frame = some c) (ip : BitVec 32) (port : BitVec 16) :
    ∃ cl : Client, cl.ip = ip ∧ cl.port = port ∧ requestOf ip port frame = some (cl, frame) := by
  unfold requested at h
  cases hparse : frameParse frame with
  | none => simp [hparse] at h
  | some p => exact ⟨⟨ip, port, p.1.sequenceNumber⟩, rfl, rfl, by simp [requestOf, hparse]⟩

/-- **A request of a busy resource** changes no setting; nothing is sent for it, and it takes no slot. -/
theorem left_unaccepted {d : Bytes} {ip : BitVec 32} {port : BitVec 16} {env : Env}
    (hw : st.storeAsync = some w) (hrested : st.rad.revertPending = false)
    (hbusy : st.persistResourceBusy r = true) (hform : r.WellFormed (frameOf d))
    (howns : st.sessionOwns ip = true) (hlive : env.now < st.session.idleDeadline) (revert : ApplyResult) :
    sends (daemon.out st (.datagram env revert ip port d)) = [] ∧
      (∀ e ∈ daemon.out st (.datagram env revert ip port d), e.slot? = none) ∧
      (daemon.step st (.datagram env revert ip port d)).pw = st.pw ∧
      (daemon.step st (.datagram env revert ip port d)).ipl = st.ipl ∧
      (daemon.step st (.datagram env revert ip port d)).rad = st.rad := by
  obtain ⟨c, hc, hreq⟩ := hform.requested
  obtain ⟨cl, rfl, rfl, hsrc⟩ := requestOf_of_requested hreq ip port
  have hidle : st.idleCheck env.now = st.done () := by
    unfold St.idleCheck
    exact if_neg fun h => absurd h.2 (by omega)
  have hhandle := handle_busy howns hw hbusy hform hc env
  refine ⟨?_, fun e he => ?_, ?_⟩
  · rw [sends_served hsrc hreq, hidle, St.done_st, hhandle]
    rfl
  · change e ∈ (st.receive env revert cl.ip cl.port d).out at he
    rw [receive_request hsrc hreq, hidle] at he
    simp only [Turn.bind_out, St.done_st, St.done_out, St.done_val, hhandle, List.nil_append] at he
    rcases (around_conclude _ revert cl.ip cl.port []).2 e he with haside | ⟨-, hne⟩
    · cases e <;> first | rfl | cases haside
    · exact absurd rfl hne
  · obtain ⟨same, -⟩ := sameCore_postAck ((st.sessionTouch env.now).sessionTouch env.now)
    have hdrain : ∀ u : St, u.rad = st.rad → u.radioRevertDrain revert = u.done () := by
      intro u hu
      unfold St.radioRevertDrain
      rw [hu, hrested]
      rfl
    have hstep : daemon.step st (.datagram env revert cl.ip cl.port d) =
        ((st.sessionTouch env.now).sessionTouch env.now).postAck.st := by
      change (st.receive env revert cl.ip cl.port d).st = _
      rw [receive_request hsrc hreq, hidle]
      simp only [Turn.bind_st, St.done_st, hhandle, St.done_val, St.conclude]
      rw [hdrain _ same.rad]
      rfl
    rw [hstep]
    exact ⟨same.pw, same.ipl, same.rad⟩

end Busy

/-! ## Runs -/

/-- What a client is told when the write of its request came to `res`: nothing if it was answered at once,
else one acknowledgement with its id and sequence number, OK just when the write is durable. -/
def Acknowledged (id : BitVec 16) (cl : Client) (noAck : Bool) (res : WriteResult)
    (sent : Option (BitVec 32 × BitVec 16 × Bytes)) : Prop :=
  if noAck then sent = none
  else ∃ f, sent = some (cl.ip, cl.port, f) ∧ Acknowledges f id cl.seq 68 ∧
    simpleAckUnpack f id =
      some (if res.outcome = .durable then (resultOk, Err.none) else (resultNg, Err.nvram))

theorem acknowledged_answer (r : Resource) (t : Txn) (res : WriteResult) :
    Acknowledged r.reqId t.cl t.noAck res (t.answer r res) := by
  unfold Acknowledged Txn.answer
  split
  · rfl
  · obtain ⟨f, hf, -⟩ := simpleAckPack_frameMax r.reqId t.cl.seq simpleAckLength
      (if res.outcome = .durable then resultOk else resultNg)
      (if res.outcome = .durable then Err.none else Err.nvram)
    have hf' : simpleAckPack txCap r.reqId t.cl.seq simpleAckLength
      (if res.outcome = .durable then resultOk else resultNg)
      (if res.outcome = .durable then Err.none else Err.nvram) = some f := hf
    refine ⟨f, by rw [hf', Option.getD_some], acknowledges_simpleAck hf', ?_⟩
    rw [simpleAckUnpack_simpleAckPack hf]
    split <;> rfl

/-- A request whose write was queued as `.defer k r noAck id cl data`, between the effects `before` and
`after` of a run from `s`, is answered once. -/
structure AnsweredOnce (paths : Paths) (s : St) (as : List Action) (before after : List Effect) (k : AckIdx)
    (r : Resource) (noAck : Bool) (id : BitVec 16) (cl : Client) (data : Bytes) : Prop where
  resource : r ≠ .none ∧ id = r.reqId
  /-- the datagram that brought it, and all that is sent while it is served -/
  atOnce : ∃ as₁ a as₂ b c resp, as = as₁ ++ a :: as₂ ∧ a.Carries cl id ∧
    before = daemon.trace s as₁ ++ b ∧
    daemon.out (daemon.run s as₁) a = b ++ .defer k r noAck id cl data :: c ∧
    AtOnce cl r noAck resp ∧ sends (daemon.out (daemon.run s as₁) a) = response cl resp
  /-- the next event of its slot settles it, by the one write of its file in between, which is its own -/
  later : ∃ mid sent rest res, after = mid ++ .settle k sent :: rest ∧ (∀ e ∈ mid, e.slot? ≠ some k) ∧
    writesOf (r.path paths) mid = [⟨r.path paths, data, r.mode, res⟩] ∧ Acknowledged id cl noAck res sent

section Runs

variable {conf : Conf} {paths : Paths} {d : Disk} {start : StartEnv} {as : List Action}

/-- After a shutdown that joined the writer's thread no transaction is open. -/
theorem closed_shutdown {rs : List WriteResult} (ready : ReadyEnv)
    (hj : (daemon.run (startup conf paths d start).st as).Joined rs) :
    ∃ x : Sys, (∀ r, x.txn r = none) ∧
      Deferred paths (tableEvents paths (fullTrace (startup conf paths d start).st as rs ready)) x := by
  obtain ⟨x₀, ⟨txn₀, copy₀, -, htracks₀⟩⟩ := shows_run conf paths d start as
  obtain ⟨closing, x, ⟨txn, copy, rfl, htracks⟩, hdef⟩ := deferred_shutdown conf paths d start as rs ready
  exact ⟨_, htracks.closed_of_free fun w hw i => shutdown_free htracks₀ hj ready hw i, hdef⟩

theorem answeredOnce {rs : List WriteResult} {ready : ReadyEnv}
    (hj : (daemon.run (startup conf paths d start).st as).Joined rs) {before after : List Effect} {k : AckIdx}
    {r : Resource} {noAck : Bool} {id : BitVec 16} {cl : Client} {data : Bytes}
    (h : fullTrace (startup conf paths d start).st as rs ready = before ++ .defer k r noAck id cl data :: after) :
    AnsweredOnce paths (startup conf paths d start).st as before after k r noAck id cl data := by
  obtain ⟨x, hclosed, hdef⟩ := closed_shutdown ready hj
  have hev : tableEvents paths (fullTrace (startup conf paths d start).st as rs ready) =
      tableEvents paths before ++ .defer k r noAck id cl data :: tableEvents paths after := by
    rw [h, tableEvents_append]
    rfl
  obtain ⟨hr, rfl, result, ⟨hopen, -⟩ | ⟨mid, sent, later, res, hafter, hc⟩⟩ :=
    hdef.answered _ _ _ _ _ _ _ _ hev
  · rw [hclosed r] at hopen
    cases hopen
  refine ⟨⟨hr, rfl⟩, ?_, ?_⟩
  · obtain ⟨as₁, a, as₂, b, c, rfl, hcarries, hout, rfl⟩ := defer_carried h
    obtain ⟨x₁, hx₁⟩ := shows_run conf paths d start as₁
    have hbrings : a.source.Brings cl r.reqId := by
      obtain ⟨env, revert, dg, hd, body, rfl, hparse, htype, hid, hseq⟩ := hcarries
      refine ⟨frameOf dg, hd, body, ?_, hparse, htype, hid⟩
      simp [Action.source, requestOf, hparse, hseq]
    have hmem : .defer k r noAck r.reqId cl data ∈
        daemon.out (daemon.run (startup conf paths d start).st as₁) a := by
      rw [hout]
      simp
    obtain ⟨resp, hresp, hsends⟩ := deferred_at_once hx₁ hr hbrings hmem
    exact ⟨as₁, a, as₂, b, c, resp, rfl, hcarries, rfl, hout, hresp, hsends⟩
  · obtain ⟨mid', later', rfl, rfl, -⟩ := tableEvents_split hafter
    have hsince := hc.since.of_tableEvents hr
    obtain rfl : result = some res := hc.made
    refine ⟨mid', sent, later', res, rfl, hsince.alone, hsince.writes, ?_⟩
    rw [hc.sent]
    exact acknowledged_answer r ⟨k, noAck, cl, data, some res⟩ res

/-- A transaction that was opened and not settled keeps its resource busy. -/
theorem busy_of_open {before after : List Effect} {k : AckIdx} {r : Resource} {noAck : Bool} {id : BitVec 16}
    {cl : Client} {data : Bytes}
    (h : daemon.trace (startup conf paths d start).st as = before ++ .defer k r noAck id cl data :: after)
    (hopen : ∀ e ∈ after, e.slot? ≠ some k) :
    (daemon.run (startup conf paths d start).st as).persistResourceBusy r = true ∧
      ∃ w, (daemon.run (startup conf paths d start).st as).storeAsync = some w := by
  obtain ⟨x, ⟨txn, copy, rfl, htracks⟩, hdef⟩ := deferred_run conf paths d start as
  have hev : tableEvents paths (daemon.trace (startup conf paths d start).st as) =
      tableEvents paths before ++ .defer k r noAck id cl data :: tableEvents paths after := by
    rw [h, tableEvents_append]
    rfl
  obtain ⟨-, -, result, ⟨ht, -⟩ | ⟨mid, sent, later, res, hafter, -⟩⟩ := hdef.answered _ _ _ _ _ _ _ _ hev
  · have hbusy := htracks.acked.busy r
    change txn r = _ at ht
    rw [ht] at hbusy
    refine ⟨hbusy, ?_⟩
    cases hw : (daemon.run (startup conf paths d start).st as).storeAsync with
    | some w => exact ⟨w, rfl⟩
    | none =>
      rw [(htracks.closed hw).1] at ht
      cases ht
  · have hmem : .settle k sent ∈ after := by
      have : .settle k sent ∈ tableEvents paths after := by
        rw [hafter]
        simp
      exact (List.mem_filter.mp this).1
    exact absurd rfl (hopen _ hmem)

end Runs

/-- **Deferred acknowledgements are given once, and are true.** Whatever the run, the writer's thread can be
joined; then every request whose write was queued is answered once and nothing is settled that was not
queued; and while a transaction is open, further requests of the session holder for its resource change
nothing and are not answered, neither at once nor later: their steps take no slot. -/
theorem deferred_answered_once (conf : Conf) (paths : Paths) (d : Disk) (start : StartEnv) (as : List Action) :
    (∃ n, ∀ rs : List WriteResult, n ≤ rs.length → (daemon.run (startup conf paths d start).st as).Joined rs) ∧
    (∀ (rs : List WriteResult) (ready : ReadyEnv), (daemon.run (startup conf paths d start).st as).Joined rs →
      (∀ before k r noAck id cl data after,
        fullTrace (startup conf paths d start).st as rs ready =
          before ++ .defer k r noAck id cl data :: after →
        AnsweredOnce paths (startup conf paths d start).st as before after k r noAck id cl data) ∧
      ∀ before k sent after,
        fullTrace (startup conf paths d start).st as rs ready = before ++ .settle k sent :: after →
        ∃ earlier r noAck id cl data mid, before = earlier ++ .defer k r noAck id cl data :: mid ∧
          ∀ e ∈ mid, e.slot? ≠ some k) ∧ ∀ before k r noAck id cl data after,
      daemon.trace (startup conf paths d start).st as = before ++ .defer k r noAck id cl data :: after →
      (∀ e ∈ after, e.slot? ≠ some k) →
      ∀ (env : Env) (revert : ApplyResult) (ip : BitVec 32) (port : BitVec 16) (dg : Bytes) (st : St),
        st = daemon.run (startup conf paths d start).st as → r.WellFormed (frameOf dg) →
        st.sessionOwns ip = true → env.now < st.session.idleDeadline →
        sends (daemon.out st (.datagram env revert ip port dg)) = [] ∧
          (∀ e ∈ daemon.out st (.datagram env revert ip port dg), e.slot? = none) ∧
          (daemon.step st (.datagram env revert ip port dg)).pw = st.pw ∧
          (daemon.step st (.datagram env revert ip port dg)).ipl = st.ipl ∧
          (daemon.step st (.datagram env revert ip port dg)).rad = st.rad := by
  refine ⟨?_, fun rs ready hj => ⟨fun before k r noAck id cl data after h => answeredOnce hj h, ?_⟩, ?_⟩
  · obtain ⟨x, txn, copy, -, htracks⟩ := shows_run conf paths d start as
    exact joins htracks
  · intro before k sent after h
    obtain ⟨earlier, r, t, res, mid, rfl, rfl, -, hclosed⟩ := settle_caused h
    exact ⟨earlier, r, t.noAck, r.reqId, t.cl, t.data, mid, rfl, hclosed.since.alone⟩
  · rintro before k r noAck id cl data after h hopen env revert ip port dg st rfl hform howns hlive
    obtain ⟨hbusy, w, hw⟩ := busy_of_open h hopen
    exact left_unaccepted hw (rested_run conf paths d start as) hbusy hform howns hlive revert

end Opcd
