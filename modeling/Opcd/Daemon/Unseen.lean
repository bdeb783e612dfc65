import Opcd.Abstract.Table

/-!
# What no client sees

Completed writes, the admission of a request and the hand-over of its file are walked by several laws: of the idle
timer, of the addresses and of the notices. What they keep is said once, with the effects they may have.

* `Unseen`: the session, the configuration, the notices and the paths are kept, and nothing is sent or applied. Only a
  submission writes the IP list.
-/

namespace Opcd

open Bytes Protocol Store

/-- Neither a datagram nor a change of the address; a write of the IP list only if `submits`. -/
@[simp] def Effect.unseen (submits : Bool) (p : Paths) : Effect → Prop
  | .send .. => False
  | .indicate .. => False
  | .applyIpChange .. => False
  | .write w => submits = true ∨ w.path ≠ p.ipList
  | _ => True

/-- The part of the state that completions and submissions leave alone. -/
def St.outer (st : St) : Session × Conf × Indication × Paths := (st.session, st.conf, st.ind, st.paths)

structure Unseen (submits : Bool) {α : Type} (st : St) (t : Turn α) : Prop where
  outer : t.st.outer = st.outer
  out : ∀ e ∈ t.out, e.unseen submits st.paths

namespace Unseen

section Turns

variable {submits : Bool} {α β : Type} {st st' : St} {t : Turn α} {f : St → α → Turn β}

theorem session (h : Unseen submits st t) : t.st.session = st.session := congrArg (·.1) h.outer

theorem conf (h : Unseen submits st t) : t.st.conf = st.conf := congrArg (·.2.1) h.outer

theorem ind (h : Unseen submits st t) : t.st.ind = st.ind := congrArg (·.2.2.1) h.outer

theorem paths (h : Unseen submits st t) : t.st.paths = st.paths := congrArg (·.2.2.2) h.outer

theorem done (st : St) (a : α) : Unseen submits st (st.done a) := ⟨rfl, by simp⟩

/-- A turn and whatever follows it. -/
theorem bind (h : Unseen submits st t) (hf : ∀ u a, Unseen submits u (f u a)) : Unseen submits st (t.bind f) := by
  have h' := hf t.st t.val
  refine ⟨h'.outer.trans h.outer, fun e he => ?_⟩
  rcases List.mem_append.mp he with he | he
  · exact h.out e he
  · exact h.paths ▸ h'.out e he

/-- A turn from a state in which other fields were changed first. -/
theorem after (h : Unseen submits st' t) (hst : st'.outer = st.outer) : Unseen submits st t := by
  have hpaths : st'.paths = st.paths := congrArg (·.2.2.2) hst
  exact ⟨h.outer.trans hst, hpaths ▸ h.out⟩

end Turns

/-! ### Completions -/

section Completions

variable (submits : Bool)

theorem writeUser (p : Paths) (l : IpList) (env : MirrorEnv) : ∀ e ∈ p.writeUser l env, e.unseen submits p := by
  intro e he
  have hoff := offTable_writeUser l env e he
  obtain ⟨w, rfl⟩ : ∃ w, e = .write w := by
    unfold Paths.writeUser at he
    split at he
    · cases he
    rcases List.mem_cons.mp he with rfl | he
    · exact ⟨_, rfl⟩
    split at he
    · split at he
      · exact ⟨_, List.mem_singleton.mp he⟩
      · cases he
    · cases he
  have hne : ¬ (w.path = p.password ∨ w.path = p.ipList ∨ w.path = p.radio) := of_decide_eq_false hoff
  exact .inr fun h => hne (.inr (.inl h))

theorem iplistMirrorUser (st : St) (env : MirrorEnv) : Unseen submits st (st.iplistMirrorUser env) := by
  have huser := writeUser submits st.paths st.ipl.list env
  rw [← St.iplistWriteUser_eq] at huser
  unfold St.iplistMirrorUser
  split
  · split
    · exact ⟨rfl, huser⟩
    · refine ⟨rfl, fun e he => ?_⟩
      rcases List.mem_cons.mp he with rfl | he
      · trivial
      · split at he
        · cases he
        · exact huser e he
  · exact done st ()

theorem armIpChangeFromCommitted (st : St) : st.armIpChangeFromCommitted.outer = st.outer := by
  unfold St.armIpChangeFromCommitted
  dsimp only
  split_ifs <;> rfl

theorem decideDeferred (st : St) : st.decideDeferred.outer = st.outer := by
  unfold St.decideDeferred
  dsimp only
  split_ifs
  · exact armIpChangeFromCommitted _
  · rfl
  · rfl

theorem publishIpList (st : St) (env : MirrorEnv) (o : Outcome) : Unseen submits st (st.publishIpList env o) := by
  unfold St.publishIpList
  split
  · exact done st ()
  · refine bind ((iplistMirrorUser submits _ env).after rfl) fun u _ => ?_
    split <;> exact ⟨rfl, by simp⟩

theorem completeIpList (st : St) (env : MirrorEnv) (o : Outcome) : Unseen submits st (st.completeIpList env o) :=
  bind (publishIpList submits st env o) fun _ _ => ⟨decideDeferred _, by simp⟩

theorem radioRevertDrain (st : St) (r : ApplyResult) : Unseen submits st (st.radioRevertDrain r) := by
  unfold St.radioRevertDrain
  split
  · exact done st ()
  · exact ⟨rfl, by simp⟩

theorem radioTxnClear (st : St) (ok : Bool) : ∀ e ∈ st.radioTxnClear ok, e.unseen submits st.paths := by
  unfold St.radioTxnClear
  split <;> simp

theorem completeRadio (st : St) (r : ApplyResult) (u : Bool) (gen : BitVec 32) (o : Outcome) :
    Unseen submits st (st.completeRadio r u gen o) := by
  unfold St.completeRadio
  refine bind ?_ fun u _ => ⟨rfl, by simp⟩
  split
  · exact done st ()
  · split
    · exact ⟨rfl, radioTxnClear submits st u⟩
    · exact ⟨rfl, by simp⟩
    · exact (radioRevertDrain submits _ r).after rfl

theorem reconcile (st : St) (env : ReadyEnv) (i : Nat) (pa : PendingAck) (d : Done) :
    Unseen submits st (st.reconcile env i pa d) := by
  unfold St.reconcile
  refine bind ?_ fun u _ => ?_
  · split
    · exact ⟨rfl, by simp⟩
    · exact completeIpList submits st _ _
    · exact done st ()
  · split
    · exact completeRadio submits u _ _ _ _
    · exact done u ()

theorem complete (st : St) (env : ReadyEnv) (i : Nat) (d : Done) : Unseen submits st (st.complete env i d) := by
  unfold St.complete
  split
  · exact done st ()
  split
  · dsimp only
    split
    · exact done st ()
    · exact bind (reconcile submits st env i _ d) fun _ _ => ⟨rfl, by simp⟩
  · exact done st ()

theorem completeAll (env : ReadyEnv) (ds : List Done) (i : Nat) (st : St) :
    Unseen submits st (st.completeAll env i ds) := by
  induction ds generalizing i st with
  | nil => exact done st ()
  | cons d ds ih => exact bind (complete submits st env i d) fun u _ => ih _ u

theorem storeAsyncOnReady (st : St) (env : ReadyEnv) : Unseen submits st (st.storeAsyncOnReady env) := by
  unfold St.storeAsyncOnReady
  split
  · exact done st ()
  · exact (completeAll submits env _ 0 _).after rfl

end Completions

/-! ### Admission and submission -/

theorem workerTurn (st : St) (r : WriteResult) : Unseen true st (st.workerTurn r) := by
  unfold St.workerTurn
  split
  · exact done st ()
  · refine ⟨rfl, fun e he => ?_⟩
    obtain ⟨w, -, rfl⟩ := List.mem_map.mp he
    exact .inl rfl

theorem admitOnce (st : St) (w : Writer) (r : Resource) (path : Path) (len : Nat) :
    Unseen true st (st.admitOnce w r path len) := by
  unfold St.admitOnce
  dsimp only
  split_ifs
  · exact done st _
  · exact ⟨rfl, by simp⟩
  · exact done st _

theorem drainForRetry (st : St) (env : ReadyEnv) : Unseen true st (st.drainForRetry env) := by
  have h := storeAsyncOnReady true st env
  refine ⟨h.outer, fun e he => ?_⟩
  rcases List.mem_cons.mp he with rfl | he
  · trivial
  · exact h.out e he

theorem persistAdmit (st : St) (env : ReadyEnv) (r : Resource) (path : Path) (len : Nat) :
    Unseen true st (st.persistAdmit env r path len) := by
  unfold St.persistAdmit
  split
  · exact done st _
  · refine bind (admitOnce st _ r path len) fun u v => ?_
    split
    · exact done u _
    · refine bind (drainForRetry u env) fun u _ => ?_
      split
      · exact done u _
      · exact bind (admitOnce u _ r path len) fun u _ => done u _

theorem cancelReservation (st : St) (res : Option Slot) : (st.cancelReservation res).outer = st.outer := by
  unfold St.cancelReservation
  split <;> rfl

theorem persistBlob (st : St) (write : WriteResult) (path : Path) (data : Bytes) (mode : Nat) (r : Resource)
    (noAck : Bool) (reqId : BitVec 16) (cl : Client) (res : Option Slot) :
    Unseen true st (st.persistBlob write path data mode r noAck reqId cl res) := by
  unfold St.persistBlob
  split
  · exact ⟨rfl, by simp⟩
  · split
    · exact ⟨cancelReservation st res, by simp⟩
    · split
      · exact ⟨cancelReservation _ res, by simp⟩
      · exact ⟨rfl, by simp⟩

theorem persistIpList (st : St) (write : WriteResult) (l : IpList) (noAck : Bool) (cl : Client)
    (res : Option Slot) : Unseen true st (st.persistIpList write l noAck cl res) := by
  unfold St.persistIpList
  split
  · exact ⟨cancelReservation st res, by simp⟩
  · exact persistBlob st write _ _ _ _ _ _ cl res

end Unseen

end Opcd
