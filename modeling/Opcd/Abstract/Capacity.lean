import Opcd.Abstract.Simulation

/-!
# One transaction for each resource

In every state between two actions an acknowledgement slot in use has its own resource and its own job, no
job slot is left reserved, and at most one copy to the customer's file is under way: `OneEach`. So the
slots never run out, which shows in the effects of the daemon: no call is ever `Effect.Saturated`.

* `oneEach_of_tracks`: the state of the daemon, from the transactions it tracks.
* `Move.unsaturated`: the effects of a move.
* `one_transaction_each`: both, for every run.
-/

namespace Opcd

open Bytes Protocol Store

namespace Store.Writer

/-- A job slot holds a job that is queued, or completed and not yet drained. -/
def Outstanding (w : Writer) (i : Slot) : Prop := (w.jobs i).state = .queued ∨ (w.jobs i).state = .done

instance (w : Writer) (i : Slot) : Decidable (w.Outstanding i) := inferInstanceAs (Decidable (_ ∨ _))

end Store.Writer

/-- What the acknowledgement slots and the writer hold is one transaction for each resource, and one
copy. -/
structure OneEach (st : St) : Prop where
  /-- at most one slot for each resource -/
  slot : ∀ k k', (st.acks k).inUse = true → (st.acks k').inUse = true →
    (st.acks k).resource = (st.acks k').resource → k = k'
  /-- a slot in use is the token of one job -/
  job : ∀ k, (st.acks k).inUse = true →
    ∃ w, st.storeAsync = some w ∧ ∃! i, w.Outstanding i ∧ (w.jobs i).token = k
  /-- a job that is no copy has its slot -/
  token : ∀ w, st.storeAsync = some w → ∀ i, w.Outstanding i → (w.jobs i).token ≠ tokenMirror →
    ∃ k, (st.acks k).inUse = true ∧ (w.jobs i).token = k
  unreserved : ∀ w, st.storeAsync = some w → ∀ i, (w.jobs i).state ≠ .reserved
  /-- at most one copy -/
  copy : ∀ w, st.storeAsync = some w → ∀ i j, w.Outstanding i → w.Outstanding j →
    (w.jobs i).token = tokenMirror → (w.jobs j).token = tokenMirror → i = j
  four : ∀ w, st.storeAsync = some w →
    ((List.finRange queueDepth).filter fun i => (w.jobs i).state ≠ .free).length ≤ 4

/-! ## The state -/

theorem outstanding_nonfree {w : Writer} {i : Slot} (h : w.Outstanding i) : (w.jobs i).state ≠ .free := by
  rcases h with h | h <;> rw [h] <;> simp

section

variable {st : St} {closing : Bool} {txn : Resource → Option Txn} {copy : Option Copy}

/-- The job of a transaction, when none of its records is in hand. -/
theorem Booked.job_of_txn {paths : Paths} {p : Places} {w : Writer}
    (h : Booked paths closing txn copy p w []) {r : Resource} {t : Txn} (ht : txn r = some t) :
    ∃ i, w.Outstanding i ∧ (w.jobs i).token = t.slot := by
  cases hi : p.job r with
  | none =>
    obtain ⟨res, -, hmem⟩ := h.inHand r t ht hi
    cases hmem
  | some i =>
    obtain ⟨t', ht', hold⟩ := h.job r i hi
    obtain rfl : t' = t := Option.some.inj (ht'.symm.trans ht)
    refine ⟨i, ?_, congrArg Submission.token hold.submission⟩
    cases hs : (w.jobs i).state with
    | free => exact absurd hs hold.nonfree
    | reserved => exact absurd hs (h.unreserved i)
    | queued => exact .inl hs
    | done => exact .inr hs

/-- The state of the daemon, from the transactions it tracks. -/
theorem oneEach_of_tracks (h : Tracks ⟨st, []⟩ closing txn copy) : OneEach st where
  slot k k' hk hk' he := by
    obtain ⟨r, t, ht, rfl⟩ := h.acked.owned k hk
    obtain ⟨r', t', ht', rfl⟩ := h.acked.owned k' hk'
    have hr : r = r' := by
      have := he
      rw [h.acked.ack r t ht, h.acked.ack r' t' ht'] at this
      exact this
    subst hr
    rw [Option.some.inj (ht.symm.trans ht')]
  job k hk := by
    obtain ⟨r, t, ht, rfl⟩ := h.acked.owned k hk
    cases hw : st.storeAsync with
    | none =>
      rw [(h.closed hw).1] at ht
      cases ht
    | some w =>
      obtain ⟨p, hb⟩ := h.booked hw
      obtain ⟨i, hi, htok⟩ := hb.job_of_txn ht
      refine ⟨w, rfl, i, ⟨hi, htok⟩, fun j hj => ?_⟩
      exact hb.token_inj (outstanding_nonfree hj.1) (outstanding_nonfree hi) (hj.2.trans htok.symm)
  token w hw i hi hne := by
    obtain ⟨p, hb⟩ := h.booked hw
    rcases hb.owned i (outstanding_nonfree hi) with ⟨r, hr⟩ | hc
    · obtain ⟨t, ht, htok⟩ := hb.job_token hr
      exact ⟨t.slot, by rw [h.acked.ack r t ht]; rfl, htok⟩
    · exact absurd (hb.copy_token hc) hne
  unreserved w hw := by
    obtain ⟨p, hb⟩ := h.booked hw
    exact hb.unreserved
  copy w hw i j hi hj hti htj := by
    obtain ⟨p, hb⟩ := h.booked hw
    exact hb.token_inj (outstanding_nonfree hi) (outstanding_nonfree hj) (hti.trans htj.symm)
  four w hw := by
    obtain ⟨p, hb⟩ := h.booked hw
    exact hb.length_used

end

/-! ## The effects -/

/-- A call that found no slot, or had to do without the writer: a reservation that failed for want of a
slot, an acknowledgement slot that was not to be had, the drain before a second attempt, or a copy the
writer did not take. -/
def Effect.Saturated : Effect → Prop
  | .reserve _ (.error e) => e = .again
  | .ackAlloc none => True
  | .retry => True
  | .submit _ (.error _) => True
  | _ => False

instance (e : Effect) : Decidable e.Saturated := by
  unfold Effect.Saturated
  split <;> infer_instance

/-- Every path fits a job. -/
structure Paths.Short (p : Paths) : Prop where
  password : p.password.length < pathMax
  ipList : p.ipList.length < pathMax
  radio : p.radio.length < pathMax
  user : ∀ q, p.ipListUser = some q → q.length < pathMax
  last : ∀ q, p.ipListUserLast = some q → q.length < pathMax

theorem Paths.writeUser_unsaturated (p : Paths) (l : IpList) (env : MirrorEnv) :
    ∀ e ∈ p.writeUser l env, ¬ e.Saturated := by
  unfold Paths.writeUser
  intro e he
  cases hu : p.ipListUser with
  | none => simp [hu] at he
  | some user =>
    cases hl : p.ipListUserLast with
    | none => simp_all [Effect.Saturated]
    | some last =>
      simp only [hu, hl, List.mem_cons] at he
      rcases he with rfl | he
      · simp [Effect.Saturated]
      · split at he <;> simp_all [Effect.Saturated]

theorem queuedOut_unsaturated (r : Resource) (path : Path) (data : Bytes) (noAck : Bool)
    (reqId : BitVec 16) (cl : Client) (s : Slot) (k : AckIdx) {before : List Effect}
    (hb : ∀ e ∈ before, ¬ e.Saturated) : ∀ e ∈ queuedOut r path data noAck reqId cl s k before, ¬ e.Saturated := by
  intro e he
  simp only [queuedOut, List.cons_append, List.mem_cons, List.mem_append, List.not_mem_nil, or_false]
    at he
  rcases he with rfl | he | rfl | rfl
  · simp [Effect.Saturated]
  · exact hb e he
  · simp [Effect.Saturated]
  · simp [Effect.Saturated]

theorem Paths.armMarker_unsaturated (p : Paths) (marker : WriteResult) (req : RadioConfig) :
    ∀ e ∈ p.armMarker marker req, ¬ e.Saturated := by
  unfold Paths.armMarker
  cases p.radioMarker <;> simp [Effect.Saturated]

theorem Paths.clearMarker_unsaturated (p : Paths) (ok : Bool) : ∀ e ∈ p.clearMarker ok, ¬ e.Saturated := by
  unfold Paths.clearMarker
  cases p.radioMarker <;> simp [Effect.Saturated]

/-- A copy is taken by the writer. -/
theorem CopyStart.unsaturated {x : Sys} {l : IpList} {out : List Effect} {c : Option Copy}
    (h : CopyStart x l out c) (hshort : x.paths.Short) (hopen : x.closing = false) : ∀ e ∈ out, ¬ e.Saturated := by
  cases h with
  | nowhere => simp
  | queued => simp [Effect.Saturated]
  | refused huser idle why =>
    rcases why with ⟨-, hlong | ⟨last, hlast, hlong⟩⟩ | ⟨-, hc⟩
    · exact absurd (hshort.user _ huser) (by omega)
    · exact absurd (hshort.last _ hlast) (by omega)
    · rw [hopen] at hc
      cases hc

/-- **No move finds the writer saturated.** -/
theorem Move.unsaturated {src : Source} {x x' : Sys} {out : List Effect} (h : Move src x out x')
    (hshort : x.paths.Short) (hopen : x.closing = false) : ∀ e ∈ out, ¬ e.Saturated := by
  cases h with
  | quiet hout =>
    intro e he hs
    have := hout e he
    cases e with
    | reserve path res => cases res <;> simp_all [Effect.quiet, Effect.Saturated]
    | _ => simp_all [Effect.quiet, Effect.Saturated]
  | passwordQueued => exact queuedOut_unsaturated _ _ _ _ _ _ _ _ (by simp)
  | ipListQueued => exact queuedOut_unsaturated _ _ _ _ _ _ _ _ (by simp)
  | radioQueued =>
    refine queuedOut_unsaturated _ _ _ _ _ _ _ _ fun e he => ?_
    rcases List.mem_append.mp he with he | he
    · exact Paths.armMarker_unsaturated _ _ _ e he
    · simp_all [Effect.Saturated]
  | ipListWritten =>
    intro e he
    rcases List.mem_cons.mp he with rfl | he
    · simp [Effect.Saturated]
    · exact Paths.writeUser_unsaturated _ _ _ e he
  | radioWritten =>
    intro e he
    simp only [List.mem_append] at he
    rcases he with (he | he) | he
    · exact Paths.armMarker_unsaturated _ _ _ e he
    · simp only [List.mem_cons, List.not_mem_nil, or_false] at he
      rcases he with rfl | rfl <;> simp [Effect.Saturated]
    · split at he
      · exact Paths.clearMarker_unsaturated _ _ e he
      · cases he
  | markerFailed => exact Paths.armMarker_unsaturated _ _ _
  | radioFailed =>
    intro e he
    rcases List.mem_append.mp he with he | he
    · exact Paths.armMarker_unsaturated _ _ _ e he
    · simp_all [Effect.Saturated]
  | settleIpList _ _ _ copy =>
    intro e he
    rcases List.mem_append.mp he with he | he
    · exact copy.unsaturated hshort hopen e he
    · simp_all [Effect.Saturated]
  | settleRadio =>
    intro e he
    rcases List.mem_append.mp he with he | he
    · unfold RadioState.settleOut at he
      split at he
      · exact Paths.clearMarker_unsaturated _ _ e he
      · cases he
      · split at he
        · simp_all [Effect.Saturated]
        · cases he
    · simp_all [Effect.Saturated]
  | _ => simp [Effect.Saturated]

/-! ## Runs -/

/-- **One transaction for each resource, and no saturation.** In every state the daemon reaches, the
slots and the jobs are one transaction for each resource and one copy; no reservation ever fails for want
of a slot, an acknowledgement slot is always to be had, no admission drains and tries again, and every
copy is taken by the writer. -/
theorem one_transaction_each (conf : Conf) (paths : Paths) (d : Disk) (env : StartEnv)
    (hshort : paths.Short) (as : List Action) :
    OneEach (daemon.run (startup conf paths d env).st as) ∧
      ∀ e ∈ daemon.trace (startup conf paths d env).st as, ¬ e.Saturated := by
  have hstep : ∀ (a : Action) (tr : List Effect) (x : Sys) (es : List Effect) (x' : Sys),
      (x.paths.Short ∧ x.closing = false ∧ ∀ e ∈ tr, ¬ e.Saturated) → Move a.source x es x' →
        x'.paths.Short ∧ x'.closing = false ∧ ∀ e ∈ tr ++ es, ¬ e.Saturated := by
    rintro a tr x es x' ⟨hs, hc, ho⟩ hmove
    refine ⟨by rwa [hmove.sameSetup.paths], by rwa [hmove.sameSetup.closing], fun e he => ?_⟩
    rcases List.mem_append.mp he with he | he
    · exact ho e he
    · exact hmove.unsaturated hs hc e he
  obtain ⟨x, ⟨txn, copy, -, h⟩, -, -, hout⟩ := daemon_simulated.trace_inv hstep
    (shows_startup conf paths d env) ⟨hshort, rfl, by simp⟩ as
  exact ⟨oneEach_of_tracks h, hout⟩

theorem defaultPaths_short : defaultPaths.Short where
  password := by decide
  ipList := by decide
  radio := by decide
  user q hq := by obtain rfl := Option.some.inj hq; decide
  last q hq := by obtain rfl := Option.some.inj hq; decide

/-- A password write in flight after a first start. -/
theorem one_transaction_each_password :
    (daemon.run firstBoot [.holderLogin, .holderSetPassword]).persistResourceBusy .password = true ∧
      OneEach (daemon.run firstBoot [.holderLogin, .holderSetPassword]) ∧
      ∀ e ∈ daemon.trace firstBoot [.holderLogin, .holderSetPassword], ¬ e.Saturated :=
  ⟨by decide +kernel, one_transaction_each _ _ _ _ defaultPaths_short _⟩

end Opcd
