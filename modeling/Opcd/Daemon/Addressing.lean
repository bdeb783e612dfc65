import Opcd.Daemon.Settlement
import Opcd.Session.Outsider

/-!
# The addresses, the session and the change of address

The part of the state that SetIpConfigList, ChangeIpAddress, Login and Logout share: the lists, the change
record and the session. `Addr` is that part, with one function for each way it changes, and `Addressed` lists
what one action of the daemon can do to it: nothing, a session that ends or begins, a Logout, a slot chosen,
entries taken, a list write that comes to an end, or a change that is applied.

* `steps_aside`, `steps_readied`: requests about other settings, and the reconciliation of completed writes,
  at the level of the service.
* `applyIpChange_out`: the address is changed at the end of a cycle only.
* `addressed`: the classification.
-/

namespace Opcd

open Bytes Protocol Store

/-- The lists, the change record and the session. -/
@[ext]
structure Addr where
  loggedIn : Bool
  generation : BitVec 32
  ipl : IpListState
  chg : IpChange
  /-- a list is being written -/
  writing : Bool

namespace Addr

/-- A Login that found nobody logged in. -/
def login (x : Addr) : Addr :=
  { x with loggedIn := true, generation := x.generation + 1, chg := x.chg.atLogin }

/-- The session ends. -/
def close (x : Addr) : Addr :=
  { x with loggedIn := false, generation := x.generation + 1, ipl := x.ipl.closed }

/-- A Logout: the decision on a chosen slot, then the session ends. -/
def logout (x : Addr) : Addr := close { x with chg := x.chg.logout x.ipl.list x.writing }

/-- A ChangeIpAddress answered OK. -/
def choose (x : Addr) (n : BitVec 16) : Addr := { x with chg.pending := true, chg.listNo := n }

/-- Entries that close no cycle. -/
def stage (x : Addr) (f : St.Fold) : Addr :=
  { x with ipl.staging := f.staging, ipl.stagingActive := f.active }

/-- Entries whose list was written in line. -/
def publish (x : Addr) (f : St.Fold) : Addr := { x with ipl := x.ipl.publish f }

/-- Entries whose list is handed to the writer. -/
def pend (x : Addr) (f : St.Fold) : Addr :=
  { x with ipl := x.ipl.pend f x.generation, writing := true }

/-- The session is the one that sent the list under way. -/
def current (x : Addr) : Bool := x.loggedIn && decide (x.generation = x.ipl.pendingGeneration)

/-- A list write that came to an end, and shows or does not. -/
def settle (x : Addr) (shown : Bool) : Addr :=
  { x with
    ipl := if shown then x.ipl.settle x.current else x.ipl.unpend
    chg := x.chg.settle (if shown then x.ipl.pending else x.ipl.list)
    writing := false }

/-- The change is applied, or could not be. -/
def clear (x : Addr) : Addr := { x with chg := x.chg.cleared }

end Addr

def St.addr (st : St) : Addr :=
  ⟨st.session.loggedIn, st.session.generation, st.ipl, st.chg, st.persistResourceBusy .ipList⟩

def Sys.addr (x : Sys) : Addr := ⟨x.loggedIn, x.generation, x.ipl, x.chg, (x.txn .ipList).isSome⟩

theorem Shows.addr {closing : Bool} {x : Sys} {st : St} {due : List Done} (h : Shows closing x ⟨st, due⟩) :
    x.addr = st.addr := by
  obtain ⟨txn, copy, rfl, ht⟩ := h
  simp only [Sys.addr, St.addr, St.sys, ht.acked.busy]

theorem SameCore.addr {st st' : St} (h : SameCore st st') : st'.addr = st.addr := by
  simp only [St.addr, h.loggedIn, h.generation, h.ipl, h.chg, persistResourceBusy_congr h.acks]

/-! ## Moves beside the addresses -/

/-- A change of the address. -/
def Effect.appliesIp : Effect → Bool
  | .applyIpChange .. => true
  | _ => false

/-- The request is none that the addresses depend on. -/
structure Source.Aside (cl : Client) (frame : Bytes) : Prop where
  login : loginReqUnpack frame = none
  logout : logoutReqUnpack frame = false
  change : changeIpAddressReqUnpack frame = none
  entries : ∀ es, setIpConfigListReqUnpack frame ≠ .ok es

section Moves

variable {x x' : Sys} {out : List Effect}

/-- A request about another setting touches the addresses only by ending the session. -/
theorem Move.aside {cl : Client} {frame : Bytes} (h : Move (some (cl, frame)) x out x')
    (ha : Source.Aside cl frame) (hout : ∀ e ∈ out, e.appliesIp = false) :
    x'.addr = x.addr ∨ x.loggedIn = true ∧ x'.addr = x.addr.close := by
  have hsource : ∀ {cl' : Client} {frame' : Bytes}, some (cl, frame) = some (cl', frame') →
      frame = frame' := fun h => (Prod.mk.inj (Option.some.inj h)).2
  cases h with
  | login source login =>
    obtain rfl := hsource source
    rw [ha.login] at login
    cases login
  | close was => exact .inr ⟨was, rfl⟩
  | decide source logout =>
    obtain rfl := hsource source
    rw [ha.logout] at logout
    cases logout
  | stage source change =>
    obtain rfl := hsource source
    rw [ha.change] at change
    cases change
  | apply armed => cases hout _ (List.mem_singleton_self _)
  | staging idle due =>
    obtain ⟨frame', source, hes⟩ := due.source
    obtain rfl := hsource source
    exact absurd hes (ha.entries _)
  | ipListQueued due =>
    obtain ⟨frame', source, hes⟩ := due.source
    obtain rfl := hsource source
    exact absurd hes (ha.entries _)
  | ipListUnwritten sync due => exact .inl rfl
  | ipListWritten sync due =>
    obtain ⟨frame', source, hes⟩ := due.source
    obtain rfl := hsource source
    exact absurd hes (ha.entries _)
  | @write r t res opened unmade turn =>
    refine .inl ?_
    cases r <;> simp_all [Sys.addr, Sys.setTxn]
  | settlePassword _ _ ready => cases ready
  | settleUnwritten _ _ _ ready => cases ready
  | settleIpList _ _ _ _ ready => cases ready
  | settleRadio _ _ ready => cases ready
  | passwordQueued | radioQueued => exact .inl (by simp [Sys.addr, Sys.setTxn])
  | _ => exact .inl rfl

/-- Effects of the reconciliation of completed writes: no change of the address, and no write of the list. -/
def Effect.reconciles (p : Paths) (e : Effect) : Prop :=
  e.appliesIp = false ∧ ∀ w, e = .write w → w.path ≠ p.ipList

/-- What the reconciliation of completed writes can do to the addresses, if it ends no session. -/
inductive Readied (x x' : Sys) : Prop
  | closed (was : x.loggedIn = true) (now : x'.loggedIn = false)
  | same (h : x'.addr = x.addr) (htxn : x'.txn .ipList = x.txn .ipList)
  | settled {t : Txn} {res : WriteResult} (opened : x.txn .ipList = some t) (made : t.result = some res)
      (h : x'.addr = x.addr.settle (decide (res.outcome ≠ .unchanged))) (htxn : x'.txn .ipList = none)

theorem Move.readied (h : Move none x out x') (hout : ∀ e ∈ out, e.reconciles x.paths) : Readied x x' := by
  cases h with
  | login source => cases source
  | close was => exact .closed was rfl
  | decide source => cases source
  | stage source => cases source
  | apply armed => cases (hout _ (List.mem_singleton_self _)).1
  | staging idle due =>
    obtain ⟨frame, source, -⟩ := due.source
    cases source
  | ipListQueued due =>
    obtain ⟨frame, source, -⟩ := due.source
    cases source
  | ipListWritten sync due =>
    obtain ⟨frame, source, -⟩ := due.source
    cases source
  | @write r t res opened unmade turn =>
    have hne : Resource.ipList ≠ r := by
      rintro rfl
      exact (hout _ (List.mem_singleton_self _)).2 _ rfl rfl
    have htxn : (x.setTxn r (some { t with result := some res })).txn .ipList = x.txn .ipList :=
      x.setTxn_txn_of_ne hne _
    refine .same ?_ htxn
    unfold Sys.addr
    rw [htxn]
    rfl
  | passwordQueued | radioQueued | settlePassword | settleRadio =>
    exact .same (by simp [Sys.addr, Sys.setTxn]) (by simp [Sys.setTxn])
  | @settleUnwritten t res opened made hr =>
    refine .settled opened made ?_ (by simp [Sys.setTxn])
    simp [Sys.addr, Sys.setTxn, Addr.settle, hr]
  | @settleIpList t res out c opened made hr =>
    refine .settled opened made ?_ (by simp [Sys.setTxn])
    simp [Sys.addr, Sys.setTxn, Addr.settle, hr]
    rfl
  | _ => exact .same rfl rfl

theorem Readied.trans {x'' : Sys} (h : Readied x x') (h' : Readied x' x'')
    (hstay : x'.loggedIn = false → x''.loggedIn = false) : Readied x x'' := by
  have hin : x'.addr = x.addr → x'.loggedIn = x.loggedIn := congrArg Addr.loggedIn
  cases h with
  | closed was now => exact .closed was (hstay now)
  | same h htxn =>
    cases h' with
    | closed was now => exact .closed (hin h ▸ was) now
    | same h₁ htxn₁ => exact .same (h₁.trans h) (htxn₁.trans htxn)
    | settled opened made h₁ htxn₁ => exact .settled (htxn ▸ opened) made (h ▸ h₁) htxn₁
  | settled opened made h htxn =>
    cases h' with
    | closed was now =>
      have : x'.loggedIn = x.loggedIn := congrArg Addr.loggedIn h
      exact .closed (this ▸ was) now
    | same h₁ htxn₁ => exact .settled opened made (h₁.trans h) (htxn₁.trans htxn)
    | settled opened₁ =>
      rw [htxn] at opened₁
      cases opened₁

/-- Requests about other settings, and the reconciliation of writes, open no session. -/
theorem Move.stays_out {src : Source} (h : Move src x out x') (hout : x.loggedIn = false)
    (hsrc : ∀ cl frame, src = some (cl, frame) → loginReqUnpack frame = none) : x'.loggedIn = false := by
  cases h with
  | login source login =>
    rw [hsrc _ _ source] at login
    cases login
  | close => rfl
  | _ => simpa only [Sys.setTxn] using hout

/-- A chain of moves of a request about another setting. -/
theorem steps_aside {cl : Client} {frame : Bytes} (h : Steps (Move (some (cl, frame))) x out x')
    (ha : Source.Aside cl frame) (hout : ∀ e ∈ out, e.appliesIp = false) :
    x'.addr = x.addr ∨ x.loggedIn = true ∧ x'.addr = x.addr.close := by
  induction h with
  | refl => exact .inl rfl
  | @cons x x₁ x₂ es fs hm _ ih =>
    have hin : x₁.addr = x.addr → x₁.loggedIn = x.loggedIn := congrArg Addr.loggedIn
    have hrest := ih fun e he => hout e (List.mem_append_right _ he)
    rcases hm.aside ha fun e he => hout e (List.mem_append_left _ he) with h | ⟨was, h⟩
    · rw [← h, ← hin h]
      exact hrest
    · -- nobody is logged in any more, so the session cannot end again
      have hclosed : x₁.loggedIn = false := congrArg Addr.loggedIn h
      rcases hrest with h₂ | ⟨was₂, -⟩
      · exact .inr ⟨was, h₂.trans h⟩
      · rw [hclosed] at was₂
        cases was₂

/-- **The reconciliation of completed writes.** -/
theorem steps_readied (h : Steps (Move none) x out x') (hout : ∀ e ∈ out, e.reconciles x.paths) : Readied x x' := by
  have hstay : ∀ {y y' : Sys} {es : List Effect}, Steps (Move none) y es y' → y.loggedIn = false →
      y'.loggedIn = false := by
    intro y y' es hs
    exact hs.inv (P := fun y => y.loggedIn = false) fun y es y' hy hm =>
      hm.stays_out hy fun cl frame h => by cases h
  induction h with
  | refl => exact .same rfl rfl
  | @cons x x₁ x₂ es fs hm hrest ih =>
    have hpaths : x₁.paths = x.paths := hm.sameSetup.paths
    have h₁ := hm.readied fun e he => hout e (List.mem_append_left _ he)
    have h₂ := ih fun e he => hpaths ▸ hout e (List.mem_append_right _ he)
    exact h₁.trans h₂ (hstay hrest)

end Moves

/-! ## The effects of completed writes -/

theorem Effect.reconciles_of_unseen {p : Paths} {e : Effect} (h : e.unseen false p) : e.reconciles p := by
  cases e with
  | send | indicate | applyIpChange => cases h
  | write w =>
    refine ⟨rfl, fun w' hw => ?_⟩
    obtain rfl := Effect.write.inj hw
    exact h.resolve_left Bool.false_ne_true
  | _ => exact ⟨rfl, fun w hw => by cases hw⟩

theorem reconciles_writeUser (p : Paths) (l : IpList) (env : MirrorEnv) : ∀ e ∈ p.writeUser l env, e.reconciles p :=
  fun e he => Effect.reconciles_of_unseen (Unseen.writeUser false p l env e he)

theorem reconciles_storeReady (st : St) (env : ReadyEnv) :
    ∀ e ∈ (st.storeAsyncOnReady env).out, e.reconciles st.paths :=
  fun e he => Effect.reconciles_of_unseen ((Unseen.storeAsyncOnReady false st env).out e he)

/-! ## The effects of requests -/

theorem not_appliesIp_of_aside {e : Effect} (h : e.aside) : e.appliesIp = false := by
  cases e with
  | applyIpChange => cases h
  | _ => rfl

theorem not_appliesIp_queuedOut {before : List Effect} (h : ∀ e ∈ before, e.appliesIp = false) (r : Resource)
    (path : Path) (data : Bytes) (noAck : Bool) (id : BitVec 16) (cl : Client) (s : Slot) (k : AckIdx) :
    ∀ e ∈ queuedOut r path data noAck id cl s k before, e.appliesIp = false := by
  intro e he
  unfold queuedOut at he
  rw [List.cons_append, List.mem_cons, List.mem_append] at he
  rcases he with rfl | he | he
  · rfl
  · exact h e he
  · simp only [List.mem_cons, List.not_mem_nil, or_false] at he
    rcases he with rfl | rfl <;> rfl

theorem not_appliesIp_armMarker (p : Paths) (marker : WriteResult) (req : RadioConfig) :
    ∀ e ∈ p.armMarker marker req, e.appliesIp = false := by
  unfold Paths.armMarker
  split <;> simp [Effect.appliesIp]

theorem not_appliesIp_clearMarker (p : Paths) (ok : Bool) : ∀ e ∈ p.clearMarker ok, e.appliesIp = false := by
  unfold Paths.clearMarker
  split <;> simp [Effect.appliesIp]

theorem sameCore_announceState (st : St) (env : Env) :
    SameCore st (st.announceState env).st ∧ ∀ e ∈ (st.announceState env).out, e.aside := by
  have hbind : ∀ {α β : Type} {st : St} {t : Turn α} {f : St → α → Turn β},
      SameCore st t.st ∧ (∀ e ∈ t.out, e.aside) →
      (∀ u a, SameCore u (f u a).st ∧ ∀ e ∈ (f u a).out, e.aside) →
      SameCore st (t.bind f).st ∧ ∀ e ∈ (t.bind f).out, e.aside := by
    intro α β st t f h hf
    obtain ⟨hsame, hout⟩ := hf t.st t.val
    refine ⟨h.1.trans hsame, fun e he => ?_⟩
    rw [Turn.bind_out] at he
    exact (List.mem_append.mp he).elim (h.2 e) (hout e)
  have hdone : ∀ st : St, SameCore st (st.done ()).st ∧ ∀ e ∈ (st.done ()).out, e.aside :=
    fun st => ⟨SameCore.refl st, by simp⟩
  unfold St.announceState
  split
  · exact hdone st
  · refine hbind (sameCore_indInitComplete st .ready) fun u _ => hbind ?_ fun v _ => ?_
    · split
      · unfold St.indRadioUp
        split
        · exact hdone u
        · obtain ⟨hsame, hout⟩ := sameCore_indInitComplete { u with ind.radioUpReported := true } .radioUp
          have hmark : SameCore u { u with ind.radioUpReported := true } := by constructor <;> rfl
          exact ⟨hmark.trans hsame, hout⟩
      · exact hdone u
    · split
      · exact sameCore_indInitComplete v .loggedIn
      · exact hdone v

section Requests

variable {st : St} {env : Env} {frame : Bytes} {cl : Client}

/-- **No request changes the address.** -/
theorem not_appliesIp_handle
    (hroom : ∀ w path len, st.storeAsync = some w →
      ¬ (st.pendingAckAlloc = none ∨ (w.reserve path len).2 = .error .again)) (c : Command) :
    ∀ e ∈ (st.handle env frame cl c).out, e.appliesIp = false := by
  have haside : ∀ {out : List Effect}, (∀ e ∈ out, e.aside) → ∀ e ∈ out, e.appliesIp = false :=
    fun h e he => not_appliesIp_of_aside (h e he)
  cases c with
  | login =>
    simp only [St.handle, St.handleLogin]
    cases loginReqUnpack frame with
    | none => simp
    | some req =>
      dsimp only
      split_ifs
      all_goals first
        | simp only [St.emitAck_out, List.not_mem_nil, false_implies, implies_true]
        | simpa using haside (sameCore_indInitComplete _ .loggedIn).2
  | logout =>
    simp only [St.handle, St.handleLogout]
    split_ifs
    all_goals first
      | simp only [St.emitAck_out, List.not_mem_nil, false_implies, implies_true]
      | simpa [St.sessionLogout] using haside (sameCore_indInitComplete _ .loggedOut).2
  | getBasicInfo =>
    simp only [St.handle, St.handleGetBasicInfo]
    split <;> simp
  | getDeviceInfo =>
    simp only [St.handle, St.handleGetDeviceInfo]
    split_ifs
    · split
      · simp [Effect.appliesIp]
      · split <;> simp [Effect.appliesIp]
    · simp [Effect.appliesIp]
  | setPassword =>
    simp only [St.handle]
    cases hreq : setPasswordReqUnpack frame with
    | none => simp [St.handleSetPassword, hreq]
    | some req =>
      cases passwordTurn hreq hroom env cl with
      | refused around hout => simp [hout]
      | dropped around hout => simp [hout]
      | unreserved around hout => simp [hout, Effect.appliesIp]
      | written sync around due hout => simp [hout, Effect.appliesIp]
      | queued idle due hout => rw [hout]; exact not_appliesIp_queuedOut (by simp) _ _ _ _ _ _ _ _
  | setIpConfigList =>
    simp only [St.handle]
    cases hreq : setIpConfigListReqUnpack frame with
    | error e => cases e <;> simp [St.handleSetIpConfigList, hreq]
    | ok es =>
      cases @listTurn st frame es hreq hroom env cl (st.folded es).1 (st.folded es).2 rfl with
      | refused outsider same hout => simp [hout]
      | dropped busy same hout => simp [hout]
      | unreserved same hout => simp [hout, Effect.appliesIp]
      | @staged s owns idle unclosed only acks hipl hout =>
        rw [hout]
        cases s <;> simp [St.listAdmission, Effect.appliesIp]
      | unwritten sync owns closed hr only acks hipl hout => simp [hout, Effect.appliesIp]
      | written sync owns closed hr only acks hipl hout =>
        rw [hout]
        intro e he
        rcases List.mem_cons.mp he with rfl | he
        · rfl
        · exact (reconciles_writeUser _ _ _ e he).1
      | queued owns idle closed alloc only acks hipl hout =>
        rw [hout]
        exact not_appliesIp_queuedOut (by simp) _ _ _ _ _ _ _ _
  | changeIpAddress =>
    simp only [St.handle, St.handleChangeIpAddress]
    split
    · simp
    · split
      · simp
      · split <;> simp
  | setRadioConfig =>
    have hadmission : ∀ s, ∀ e ∈ st.radioAdmission s, e.appliesIp = false := by
      intro s
      cases s <;> simp [St.radioAdmission, Effect.appliesIp]
    have hmarker := not_appliesIp_armMarker st.paths env.marker
    simp only [St.handle]
    cases hreq : setRadioConfigReqUnpack frame with
    | none => simp [St.handleSetRadioConfig, hreq]
    | some req =>
      cases radioTurn hreq hroom env cl with
      | refused same hout => simp [hout]
      | dropped busy same hout => simp [hout]
      | answered committed equal same hout => simp [hout]
      | unreserved due same hout => simp [hout, Effect.appliesIp]
      | @unarmed s due failed only acks hrad hout =>
        rw [hout]
        intro e he
        exact (List.mem_append.mp he).elim (hadmission s e) (hmarker req e)
      | @failed s live due armed happly only acks hrad hout =>
        rw [hout]
        intro e he
        rcases List.mem_append.mp he with he | he
        · exact (List.mem_append.mp he).elim (hadmission s e) (hmarker req e)
        · rw [List.mem_singleton.mp he]
          rfl
      | written sync due armed happly only acks hrad hout =>
        rw [hout]
        intro e he
        rcases List.mem_append.mp he with he | he
        · rcases List.mem_append.mp he with he | he
          · exact hmarker req e he
          · simp only [List.mem_cons, List.not_mem_nil, or_false] at he
            rcases he with rfl | rfl <;> rfl
        · split at he
          · exact not_appliesIp_clearMarker _ _ e he
          · cases he
      | queued idle due armed happly only hrad hout =>
        rw [hout]
        refine not_appliesIp_queuedOut (fun e he => ?_) _ _ _ _ _ _ _ _
        rcases List.mem_append.mp he with he | he
        · exact hmarker req e he
        · rw [List.mem_singleton.mp he]
          rfl
  | setIndicationConfig =>
    simp only [St.handle, St.handleSetIndicationConfig]
    split
    · simp
    · split
      · simp
      · split_ifs
        · simp
        · simp
        · simpa using haside (sameCore_announceState _ env).2
  | reset =>
    simp only [St.handle, St.handleReset]
    split_ifs
    · split <;> simp
    · simp

/-! ## The requests about addresses -/

/-- A Login goes on with the session, opens one, or is refused. -/
theorem addr_handleLogin (st : St) (now : Nat) (frame : Bytes) (cl : Client) :
    (st.handleLogin now frame cl).st.addr = st.addr ∨
      st.session.loggedIn = false ∧ (st.handleLogin now frame cl).st.addr = st.addr.login := by
  have haccept : (st.acceptLogin cl).addr =
      if st.session.loggedIn then st.addr else st.addr.login := by
    cases hin : st.session.loggedIn with
    | true => simp [St.acceptLogin, St.addr, hin, St.persistResourceBusy]
    | false =>
      cases hca : st.chg.commitArmed <;> cases hld : st.chg.logoutDeferred <;>
        simp [St.acceptLogin, St.addr, Addr.login, IpChange.atLogin, hin, hca, hld, St.persistResourceBusy]
  unfold St.handleLogin
  cases loginReqUnpack frame with
  | none => exact .inl rfl
  | some req =>
    dsimp only
    split_ifs
    all_goals try exact .inl rfl
    have hind := (sameCore_indInitComplete ((st.acceptLogin cl).sessionTouch now) .loggedIn).1.addr
    have htouch := (SameCore.sessionTouch (st.acceptLogin cl) now).addr
    rw [Turn.bind_st, St.emitAck_st, hind, htouch, haccept]
    cases hin : st.session.loggedIn with
    | true => exact .inl rfl
    | false => exact .inr ⟨rfl, rfl⟩

/-- A Logout is refused, or decides on the change and ends the session. -/
theorem addr_handleLogout (st : St) (frame : Bytes) (cl : Client) :
    (st.handleLogout frame cl).st.addr = st.addr ∨ logoutReqUnpack frame = true ∧ st.session.loggedIn = true ∧
        (st.handleLogout frame cl).val = (logoutAckPack txCap cl.seq resultOk Err.none).getD [] ∧
        (st.handleLogout frame cl).st.addr = st.addr.logout := by
  unfold St.handleLogout
  dsimp only
  split_ifs with hun hin howns
  · refine .inr ⟨hun, hin, rfl, ?_⟩
    have hsame := (sameCore_indInitComplete st.logoutDecision .loggedOut).1.addr
    have hend : ∀ u : St, u.endSession.addr = u.addr.close := fun _ => rfl
    rw [Turn.bind_st, St.emitAck_st, St.sessionLogout, Turn.bind_st, St.done_st, hend, hsame, St.logoutDecision_eq]
    rfl
  all_goals exact .inl rfl

/-- A ChangeIpAddress is refused, or chooses its slot. -/
theorem addr_handleChangeIpAddress (st : St) (env : Env) (frame : Bytes) (cl : Client) :
    ((st.handleChangeIpAddress env frame cl).st.addr = st.addr ∧
        ∃ cause, (st.handleChangeIpAddress env frame cl).val =
          (changeIpAddressAckPack txCap cl.seq resultNg cause).getD []) ∨
      ∃ n, changeIpAddressReqUnpack frame = some n ∧ st.sessionOwns cl.ip = true ∧
        st.changeIpError env.otherIpv4 n = none ∧
        (st.handleChangeIpAddress env frame cl).val =
          (changeIpAddressAckPack txCap cl.seq resultOk Err.none).getD [] ∧
        (st.handleChangeIpAddress env frame cl).st.addr = st.addr.choose n := by
  unfold St.handleChangeIpAddress
  dsimp only
  cases hn : changeIpAddressReqUnpack frame with
  | none => exact .inl ⟨rfl, _, rfl⟩
  | some n =>
    dsimp only
    cases hown : st.sessionOwns cl.ip with
    | true =>
      rw [checkLoginRequired_owner hown]
      dsimp only
      cases herr : (st.sessionTouch env.now).changeIpError env.otherIpv4 n with
      | some cause => exact .inl ⟨(SameCore.sessionTouch st env.now).addr, _, rfl⟩
      | none => exact .inr ⟨n, rfl, rfl, herr, rfl, rfl⟩
    | false =>
      have hno : ∃ cause, st.checkLoginRequired env.now cl.ip = .error cause := by
        unfold St.checkLoginRequired
        split
        · exact ⟨_, rfl⟩
        · exact ⟨_, by rw [if_pos (by simp [hown])]⟩
      obtain ⟨cause, hcause⟩ := hno
      rw [hcause]
      exact .inl ⟨rfl, _, rfl⟩

/-- The write of a list. -/
def listWrite (p : Paths) (l : IpList) (r : WriteResult) : FileWrite := ⟨p.ipList, IpList.listText l, 0o644, r⟩

/-- What the entries of a request do to the addresses. -/
inductive Entered (st : St) (cl : Client) (es : List (Entry × Bool)) (t : Turn Bytes) : Prop
  | staged (idle : st.addr.writing = false) (unclosed : (st.folded es).1.committed = false)
      (hwrites : writesOf st.paths.ipList t.out = [])
      (h : t.st.addr = st.addr.stage (st.folded es).1)
      (hval : t.val = foldAck cl (st.folded es).2 true)
  | unwritten {r : WriteResult} (idle : st.addr.writing = false) (sync : st.storeAsync = none)
      (closed : (st.folded es).1.committed = true) (hr : r.outcome = .unchanged)
      (hwrites : writesOf st.paths.ipList t.out = [listWrite st.paths (st.folded es).1.candidate r])
      (h : t.st.addr = st.addr) (hval : t.val = foldAck cl (st.folded es).2 false)
  | published {r : WriteResult} (idle : st.addr.writing = false) (sync : st.storeAsync = none)
      (closed : (st.folded es).1.committed = true) (hr : r.outcome ≠ .unchanged)
      (hwrites : writesOf st.paths.ipList t.out = [listWrite st.paths (st.folded es).1.candidate r])
      (h : t.st.addr = st.addr.publish (st.folded es).1)
      (hval : t.val = foldAck cl (st.folded es).2 (r.outcome = .durable))
  | pended {k : AckIdx} (idle : st.addr.writing = false) (closed : (st.folded es).1.committed = true)
      (hwrites : writesOf st.paths.ipList t.out = [])
      (hmem : .defer k .ipList (st.folded es).2.isSome Resource.ipList.reqId cl
        (IpList.listText (st.folded es).1.candidate) ∈ t.out)
      (h : t.st.addr = st.addr.pend (st.folded es).1)
      (hval : t.val = if (st.folded es).2.isSome then foldAck cl (st.folded es).2 true else [])

/-- Why a request's entries are not read: its client holds no session, a list is being written, or the writer
does not take the path. -/
def Declined (st : St) (cl : Client) (out : List Effect) : Prop :=
  st.sessionOwns cl.ip = false ∨ st.addr.writing = true ∨
    ∃ e, .reserve st.paths.ipList (.error e) ∈ out

theorem ListOnly.addr_of_acks {st st' : St} (h : ListOnly st st') (ha : st'.acks = st.acks) :
    st'.addr = { st.addr with ipl := st'.ipl } := by
  simp only [St.addr, h.loggedIn, h.generation, h.chg, persistResourceBusy_congr ha]

/-- A list is under way for a client only while one is being written. -/
theorem writing_of_underWay {x : Sys} {closing : Bool} (hx : Shows closing x ⟨st, []⟩)
    (h : st.listUnderWay cl) : st.addr.writing = true := by
  rcases h with h | h
  · exact h
  · obtain ⟨txn, copy, -, ht⟩ := hx
    obtain ⟨k, hk⟩ := Option.isSome_iff_exists.mp h
    have hslot := List.find?_some hk
    simp only [decide_eq_true_eq] at hslot
    obtain ⟨r, t, htxn, rfl⟩ := ht.acked.owned k hslot.1
    have hack := ht.acked.ack r t htxn
    have hr : r = .ipList := by
      have hid : (st.acks t.slot).reqId = r.reqId := by rw [hack]; rfl
      have hreq : r.reqId = Command.setIpConfigList.id := by rw [← hid]; exact hslot.2.1
      cases r with
      | ipList => rfl
      | _ => exact absurd hreq (by decide)
    change st.persistResourceBusy .ipList = true
    rw [ht.acked.busy, ← hr, htxn]
    rfl

/-- A SetIpConfigList leaves the addresses alone, or is the holder's and its entries are taken. -/
theorem addr_handleSetIpConfigList {x : Sys} {closing : Bool} (hx : Shows closing x ⟨st, []⟩)
    (hroom : ∀ w path len, st.storeAsync = some w →
      ¬ (st.pendingAckAlloc = none ∨ (w.reserve path len).2 = .error .again))
    {es : List (Entry × Bool)} (hes : setIpConfigListReqUnpack frame = .ok es) :
    ((st.handleSetIpConfigList env frame cl).st.addr = st.addr ∧
        (∀ e ∈ (st.handleSetIpConfigList env frame cl).out, e.slot? = none) ∧
        writesOf st.paths.ipList (st.handleSetIpConfigList env frame cl).out = [] ∧
        Declined st cl (st.handleSetIpConfigList env frame cl).out) ∨
      st.sessionOwns cl.ip = true ∧ Entered st cl es (st.handleSetIpConfigList env frame cl) ∧
        ∀ e, .reserve st.paths.ipList (.error e) ∉ (st.handleSetIpConfigList env frame cl).out := by
  have hturn := @listTurn st frame es hes hroom env cl (st.folded es).1 (st.folded es).2 rfl
  by_cases hrefused : ∃ e, .reserve st.paths.ipList (.error e) ∈ (st.handleSetIpConfigList env frame cl).out
  · obtain ⟨e, he⟩ := hrefused
    obtain ⟨same, hout, -⟩ := hturn.refusal he
    exact .inl ⟨same.addr, by simp [hout, Effect.slot?], by simp [hout, writesOf], .inr (.inr ⟨e, he⟩)⟩
  have hreserved : ∀ e, .reserve st.paths.ipList (.error e) ∉ (st.handleSetIpConfigList env frame cl).out :=
    fun e he => hrefused ⟨e, he⟩
  have hsync : st.storeAsync = none → st.addr.writing = false := by
    intro hw
    obtain ⟨txn, copy, -, ht⟩ := hx
    change st.persistResourceBusy .ipList = false
    rw [ht.acked.busy, (ht.closed hw).1]
    rfl
  have hone : ∀ r out, (∀ e ∈ out, e.reconciles st.paths) →
      writesOf st.paths.ipList (.write (listWrite st.paths (st.folded es).1.candidate r) :: out) =
        [listWrite st.paths (st.folded es).1.candidate r] := by
    intro r out hout
    have hrest : writesOf st.paths.ipList out = [] := by
      refine List.filterMap_eq_nil_iff.mpr fun e he => ?_
      cases e with
      | write w => simp [(hout _ he).2 w rfl]
      | _ => rfl
    have hhead : ∀ e, writesOf st.paths.ipList (e :: out) = writesOf st.paths.ipList ([e] ++ out) := fun _ => rfl
    rw [hhead, writesOf_append, hrest]
    simp [writesOf, listWrite]
  cases hturn with
  | refused outsider same hout => exact .inl ⟨same.addr, by simp [hout], by simp [hout, writesOf], .inl outsider⟩
  | dropped busy same hout =>
    exact .inl ⟨same.addr, by simp [hout], by simp [hout, writesOf], .inr (.inl (writing_of_underWay hx busy))⟩
  | @unreserved e same hout =>
    refine absurd ?_ (hreserved e)
    rw [hout]
    exact List.mem_singleton_self _
  | @staged s owns idle unclosed only acks hipl hout hval =>
    refine .inr ⟨owns, .staged (idle.elim hsync id) unclosed ?_ ?_ hval, hreserved⟩
    · rw [hout]
      cases s <;> rfl
    · rw [only.addr_of_acks acks, hipl]
      rfl
  | unwritten sync owns closed hr only acks hipl hout hval =>
    refine .inr ⟨owns, .unwritten (hsync sync) sync closed hr ?_ ?_ hval, hreserved⟩
    · rw [hout]
      exact hone _ [] (by simp)
    rw [only.addr_of_acks acks, hipl]
    rfl
  | written sync owns closed hr only acks hipl hout hval =>
    refine .inr ⟨owns, .published (hsync sync) sync closed hr ?_ ?_ hval, hreserved⟩
    · rw [hout]
      exact hone _ _ (reconciles_writeUser st.paths _ _)
    · rw [only.addr_of_acks acks, hipl]
      rfl
  | @queued s k owns idle closed alloc only acks hipl hout hval =>
    refine .inr ⟨owns, .pended idle closed ?_ (k := k) (by rw [hout]; simp [queuedOut, Resource.reqId]) ?_ hval,
      hreserved⟩
    · rw [hout]
      rfl
    · have hbusy : (st.handleSetIpConfigList env frame cl).st.persistResourceBusy .ipList = true :=
        busy_of_ack k (by rw [acks, Function.update_self]; rfl) (by rw [acks, Function.update_self]; rfl)
      simp only [St.addr, only.loggedIn, only.generation, only.chg, hipl, hbusy]
      rfl

end Requests

/-! ## Actions -/

/-- The client is told OK, and nothing else is sent. -/
def AnsweredOk (st : St) (a : Action) (cl : Client) (id : BitVec 16) : Prop :=
  ∃ f, sends (daemon.out st a) = [(cl.ip, cl.port, f)] ∧ Acknowledges f id cl.seq 68 ∧
    simpleAckUnpack f id = some (resultOk, Err.none)

/-- The action is a Logout that is answered OK. -/
def LogsOut (st : St) (a : Action) : Prop :=
  ∃ cl frame, a.source = some (cl, frame) ∧ logoutReqUnpack frame = true ∧
    AnsweredOk st a cl Command.logout.id

/-- The action is a ChangeIpAddress to slot `n` that is answered OK. -/
def Chooses (st : St) (a : Action) (n : BitVec 16) : Prop :=
  ∃ cl frame, a.source = some (cl, frame) ∧ changeIpAddressReqUnpack frame = some n ∧
    AnsweredOk st a cl Command.changeIpAddress.id

/-- The action brings these entries. -/
def Action.Enters (a : Action) (cl : Client) (es : List (Entry × Bool)) : Prop :=
  ∃ frame, a.source = some (cl, frame) ∧ setIpConfigListReqUnpack frame = .ok es

/-- The session, if there is one, has not expired when the datagram comes in. -/
def InTime (st : St) : Action → Prop
  | .datagram env _ _ _ _ => st.session.loggedIn = true → env.now < st.session.idleDeadline
  | _ => True

/-- The entries are taken by the handler's turn `t`. -/
structure Takes (st : St) (a : Action) (cl : Client) (es : List (Entry × Bool)) (t : Turn Bytes) : Prop where
  owns : st.sessionOwns cl.ip = true
  inTime : InTime st a
  entered : Entered st cl es t
  addr : (daemon.step st a).addr = t.st.addr
  mem : ∀ e ∈ t.out, e ∈ daemon.out st a
  /-- every slot and every list write is the handler's -/
  out : ∀ e ∈ daemon.out st a, e.slot? ≠ none → e ∈ t.out
  writes : writesOf st.paths.ipList (daemon.out st a) = writesOf st.paths.ipList t.out
  sends : sends (daemon.out st a) = response cl t.val
  reserved : ∀ e, .reserve st.paths.ipList (.error e) ∉ daemon.out st a

/-- The entries that the action brings are not read. -/
structure Leaves (st : St) (a : Action) (cl : Client) : Prop where
  why : ¬ InTime st a ∨ Declined st cl (daemon.out st a)
  addr : (daemon.step st a).addr = st.addr ∨
    ¬ InTime st a ∧ st.session.loggedIn = true ∧ (daemon.step st a).addr = st.addr.close
  slots : ∀ e ∈ daemon.out st a, e.slot? = none
  writes : writesOf st.paths.ipList (daemon.out st a) = []

/-- What an action does to the addresses; `x` is the service that the state shows. -/
inductive Addressed (x : Sys) (st : St) (a : Action) : Prop
  | aside (h : (daemon.step st a).addr = st.addr)
  | closed (was : st.session.loggedIn = true) (h : (daemon.step st a).addr = st.addr.close)
  /-- a Login, of a session that had expired if there was one -/
  | opened {y : Addr} (hy : y = st.addr ∧ st.session.loggedIn = false ∨
      y = st.addr.close ∧ st.session.loggedIn = true) (h : (daemon.step st a).addr = y.login)
  | left (was : st.session.loggedIn = true) (ok : LogsOut st a)
      (h : (daemon.step st a).addr = st.addr.logout)
  | chosen {n : BitVec 16} {other : Option (BitVec 32 × BitVec 32)} (was : st.session.loggedIn = true)
      (herr : st.changeIpError other n = none) (ok : Chooses st a n)
      (h : (daemon.step st a).addr = st.addr.choose n)
  | entered {cl : Client} {es : List (Entry × Bool)} {t : Turn Bytes} (due : a.Enters cl es)
      (takes : Takes st a cl es t)
  | settled {env : ReadyEnv} {t : Txn} {res : WriteResult} (ha : a = .storeReady env)
      (opened : x.txn .ipList = some t) (made : t.result = some res)
      (h : (daemon.step st a).addr = st.addr.settle (decide (res.outcome ≠ .unchanged)))
  | applied {ok : Bool} (ha : a = .endOfCycle ok) (armed : st.chg.commitArmed = true)
      (h : (daemon.step st a).addr =
        if ok ∧ st.session.loggedIn then st.addr.clear.close else st.addr.clear)

section Classification

variable {x : Sys} {st : St}

theorem addr_idleCheck (st : St) (now : Nat) :
    st.idleCheck now = st.done () ∨ st.session.loggedIn = true ∧ (st.idleCheck now).st.addr = st.addr.close := by
  unfold St.idleCheck
  split
  next h =>
    refine .inr ⟨h.1, ?_⟩
    have hsame := (sameCore_indInitComplete st .loggedOut).1.addr
    have hend : ∀ u : St, u.endSession.addr = u.addr.close := fun _ => rfl
    rw [St.sessionLogout, Turn.bind_st, St.done_st, hend, hsame]
  · exact .inl rfl

/-- The idle check lets a session be only before it expires. -/
theorem inTime_of_idleCheck {st : St} {now : Nat} (h : st.idleCheck now = st.done ())
    (was : st.session.loggedIn = true) : now < st.session.idleDeadline := by
  by_contra hlate
  unfold St.idleCheck at h
  rw [if_pos ⟨was, by omega⟩] at h
  have hout : st.sessionLogout.st.session.loggedIn = false := rfl
  rw [h, St.done_st, was] at hout
  cases hout

theorem addr_radioRevertDrain (st : St) (res : ApplyResult) : (st.radioRevertDrain res).st.addr = st.addr := by
  unfold St.radioRevertDrain
  split <;> rfl

theorem addr_conclude (st : St) (revert : ApplyResult) (ip : BitVec 32) (port : BitVec 16) (resp : Bytes) :
    (st.conclude revert ip port resp).st.addr = st.addr := by
  simp only [St.conclude, Turn.bind_st, addr_radioRevertDrain]
  exact (sameCore_postAck st).1.addr

/-- A datagram that is no request with a known command. -/
theorem addr_unrequested {d : Bytes} (h : requested (frameOf d) = none) (st : St) (env : Env)
    (revert : ApplyResult) (ip : BitVec 32) (port : BitVec 16) :
    (st.receive env revert ip port d).st.addr = st.addr ∨
      st.session.loggedIn = true ∧ (st.receive env revert ip port d).st.addr = st.addr.close := by
  have hdispatch : (st.dispatch env (frameOf d) ip port).val.1 = -1 ∧
      ((st.dispatch env (frameOf d) ip port).st = st ∨
        (st.dispatch env (frameOf d) ip port).st = (st.idleCheck env.now).st) := by
    unfold St.dispatch
    unfold requested at h
    cases hp : frameParse (frameOf d) with
    | none => exact ⟨rfl, .inl rfl⟩
    | some p =>
      rw [hp] at h
      dsimp only at h ⊢
      split_ifs at h ⊢ with htype
      · exact ⟨rfl, .inl rfl⟩
      · simp only [Turn.bind_val, Turn.bind_st, h]
        exact ⟨rfl, .inr rfl⟩
  unfold St.receive
  dsimp only
  split
  · exact .inl rfl
  · rw [← frameOf]
    obtain ⟨hcode, hst⟩ := hdispatch
    simp only [Turn.bind_st, hcode, addr_radioRevertDrain]
    rw [if_neg (by decide)]
    rcases hst with hst | hst
    · exact .inl (congrArg St.addr hst)
    · rcases addr_idleCheck st env.now with hidle | ⟨was, hclose⟩
      · exact .inl (by rw [St.done_st, hst, hidle]; rfl)
      · exact .inr ⟨was, by rw [St.done_st, hst, hclose]⟩

/-- No datagram changes the address. -/
theorem not_appliesIp_datagram (hx : Shows false x ⟨st, []⟩) (env : Env) (revert : ApplyResult)
    (ip : BitVec 32) (port : BitVec 16) (d : Bytes) :
    ∀ e ∈ daemon.out st (.datagram env revert ip port d), e.appliesIp = false := by
  cases hreq : requested (frameOf d) with
  | some c =>
    obtain ⟨cl, rfl, rfl, hsrc⟩ := requestOf_of_requested hreq ip port
    obtain ⟨env', ⟨revert', ip', port', d', ha⟩, hs⟩ :=
      @served (.datagram env revert cl.ip cl.port d) cl (frameOf d) c hsrc hreq st
    intro e he
    rcases hs.out e he with h | h | ⟨rfl, -⟩
    · exact not_appliesIp_of_aside h
    · exact not_appliesIp_handle (fun w path len => hs.room hx w path len) c e h
    · rfl
  | none =>
    have hdispatch : ∀ e ∈ (st.dispatch env (frameOf d) ip port).out, e.aside := by
      unfold St.dispatch
      unfold requested at hreq
      cases hp : frameParse (frameOf d) with
      | none => simp
      | some p =>
        rw [hp] at hreq
        dsimp only at hreq ⊢
        split_ifs at hreq ⊢ with htype
        · simp
        · simp only [Turn.bind_out, hreq, St.done_out, List.append_nil]
          exact (around_idleCheck st env.now).2
    change ∀ e ∈ (st.receive env revert ip port d).out, e.appliesIp = false
    unfold St.receive
    dsimp only
    split
    · intro e he
      have hquiet := quiet_rejectBadLength st _ ip port e he
      cases e with
      | applyIpChange => cases hquiet
      | _ => rfl
    · rw [← frameOf]
      intro e he
      simp only [Turn.bind_out, List.mem_append] at he
      rcases he with he | he | he | he
      · exact not_appliesIp_of_aside (hdispatch e he)
      · split at he
        · rw [List.mem_singleton.mp he]
          rfl
        · cases he
      · split at he
        · exact not_appliesIp_of_aside ((sameCore_postAck _).2 e he)
        · cases he
      · exact not_appliesIp_of_aside ((around_radioRevertDrain _ _).2 e he)

/-- **The address is changed at the end of a cycle only**, once, to the entry a Logout armed. -/
theorem applyIpChange_out (hx : Shows false x ⟨st, []⟩) (a : Action) :
    (∀ e ∈ daemon.out st a, e.appliesIp = false) ∨ ∃ ok, a = .endOfCycle ok ∧ st.chg.commitArmed = true ∧
        (daemon.out st a).filter Effect.appliesIp =
          [.applyIpChange st.chg.armedEntry st.mgmtIpIfaceIdx st.chg.armedNo ok] := by
  have haside : ∀ {out : List Effect}, (∀ e ∈ out, e.aside) → ∀ e ∈ out, e.appliesIp = false :=
    fun h e he => not_appliesIp_of_aside (h e he)
  cases a with
  | datagram env revert ip port d => exact .inl (not_appliesIp_datagram hx env revert ip port d)
  | timer now => exact .inl (haside (around_idleCheck st now).2)
  | notices ind sent =>
    refine .inl fun e he => ?_
    obtain ⟨n, -, rfl⟩ := List.mem_map.mp he
    rfl
  | storeReady env => exact .inl fun e he => (reconciles_storeReady st env e he).1
  | worker r =>
    refine .inl fun e he => ?_
    change e ∈ (st.workerTurn r).out at he
    unfold St.workerTurn at he
    split at he
    · cases he
    · obtain ⟨w, -, rfl⟩ := List.mem_map.mp he
      rfl
  | endOfCycle ok =>
    by_cases harm : st.chg.commitArmed = true
    · refine .inr ⟨ok, rfl, harm, ?_⟩
      change (st.applyPendingIpChange ok).out.filter Effect.appliesIp = _
      have hnone : ∀ {out : List Effect}, (∀ e ∈ out, e.appliesIp = false) →
          out.filter Effect.appliesIp = [] := by
        intro out h
        exact List.filter_eq_nil_iff.mpr fun e he => by simp [h e he]
      have hheld : ∀ u : St, ∀ e ∈ u.endHeldSession.out, e.aside := by
        intro u
        unfold St.endHeldSession
        split
        · simpa [St.sessionLogout] using (sameCore_indInitComplete u .loggedOut).2
        · simp
      unfold St.applyPendingIpChange
      rw [if_neg (by simp [harm])]
      cases ok with
      | false => simp [Turn.bind, Effect.appliesIp]
      | true =>
        have hroute : ∀ (c : Prop) [Decidable c] (ip mask : BitVec 32),
            (if c then [Effect.peerRouteRefresh ip mask] else []).filter Effect.appliesIp = [] := by
          intro c _ ip mask
          split <;> rfl
        simp only [Turn.bind_out, not_true_eq_false, if_false, List.filter_append]
        rw [hroute, hnone (haside (hheld _))]
        rfl
    · refine .inl fun e he => ?_
      have hout : (st.applyPendingIpChange ok).out = [] := by
        unfold St.applyPendingIpChange
        rw [if_pos harm]
        rfl
      change e ∈ (st.applyPendingIpChange ok).out at he
      rw [hout] at he
      cases he

/-- The response to a request whose handler sends nothing else. -/
theorem answeredOk_of_val {env : Env} {revert : ApplyResult} {d : Bytes} {cl : Client} {c : Command}
    (hsrc : requestOf cl.ip cl.port (frameOf d) = some (cl, frameOf d))
    (hreq : requested (frameOf d) = some c) (hidle : st.idleCheck env.now = st.done ())
    (hout : sends (st.handle env (frameOf d) cl c).out = [])
    (hval : (st.handle env (frameOf d) cl c).val =
      (simpleAckPack txCap c.id cl.seq simpleAckLength resultOk Err.none).getD []) :
    AnsweredOk st (.datagram env revert cl.ip cl.port d) cl c.id := by
  obtain ⟨f, hf, hne⟩ := simpleAckPack_frameMax c.id cl.seq simpleAckLength resultOk Err.none
  have hf' : simpleAckPack txCap c.id cl.seq simpleAckLength resultOk Err.none = some f := hf
  refine ⟨f, ?_, acknowledges_simpleAck hf', simpleAckUnpack_simpleAckPack hf⟩
  rw [sends_served hsrc hreq, hidle, St.done_st, hout, hval, hf', Option.getD_some, List.nil_append,
    response, if_pos hne]

theorem requested_of_empty {c : Command} {frame : Bytes} (h : emptyReqUnpack c frame = true) :
    requested frame = some c := by
  unfold emptyReqUnpack at h
  unfold requested
  split at h
  · cases h
  · cases hp : frameParse frame with
    | none => simp [hp] at h
    | some p =>
      simp only [hp, decide_eq_true_eq] at h ⊢
      rw [if_neg (by simp [h.1]), h.2]
      cases c <;> rfl

/-- A request of another command depends on no address. -/
theorem aside_of_requested {frame : Bytes} {c : Command} (h : requested frame = some c)
    (hlogin : c ≠ .login) (hlogout : c ≠ .logout) (hchange : c ≠ .changeIpAddress)
    (hlist : c ≠ .setIpConfigList) (cl : Client) : Source.Aside cl frame := by
  have hother : ∀ {c' : Command} {n : Nat} {body : Bytes}, requestBody c' n frame = some body → c = c' :=
    fun hb => Option.some.inj (h.symm.trans (requested_of_requestBody hb))
  refine ⟨?_, ?_, ?_, fun es hes => ?_⟩
  · cases hreq : loginReqUnpack frame with
    | none => rfl
    | some req =>
      obtain ⟨body, hb, -⟩ := Option.map_eq_some_iff.mp hreq
      exact absurd (hother hb) hlogin
  · cases hreq : logoutReqUnpack frame with
    | false => rfl
    | true =>
      exact absurd (Option.some.inj (h.symm.trans (requested_of_empty hreq))) hlogout
  · cases hreq : changeIpAddressReqUnpack frame with
    | none => rfl
    | some n =>
      obtain ⟨body, hb, -⟩ := Option.map_eq_some_iff.mp hreq
      exact absurd (hother hb) hchange
  · unfold setIpConfigListReqUnpack at hes
    cases hb : requestBody .setIpConfigList 0 frame with
    | none => simp [hb] at hes
    | some body => exact absurd (hother hb) hlist

theorem sends_handleLogout (st : St) (frame : Bytes) (cl : Client) : sends (st.handleLogout frame cl).out = [] := by
  refine sends_aside ?_
  unfold St.handleLogout
  dsimp only
  split_ifs
  · simpa [St.sessionLogout] using (sameCore_indInitComplete st.logoutDecision .loggedOut).2
  all_goals simp

theorem sends_handleChangeIpAddress (st : St) (env : Env) (frame : Bytes) (cl : Client) :
    sends (st.handleChangeIpAddress env frame cl).out = [] := by
  have hout : (st.handleChangeIpAddress env frame cl).out = [] := by
    unfold St.handleChangeIpAddress
    dsimp only
    split
    · rfl
    · split
      · rfl
      · split <;> rfl
  rw [hout]
  rfl

/-- A SetIpConfigList is answered by its response only. -/
theorem sends_handleSetIpConfigList {st : St} {frame : Bytes} {es : List (Entry × Bool)}
    (hes : setIpConfigListReqUnpack frame = .ok es)
    (hroom : ∀ w path len, st.storeAsync = some w →
      ¬ (st.pendingAckAlloc = none ∨ (w.reserve path len).2 = .error .again)) (env : Env) (cl : Client) :
    sends (st.handleSetIpConfigList env frame cl).out = [] := by
  have hcopy : ∀ l, sends (st.paths.writeUser l env.mirror) = [] := by
    intro l
    unfold Paths.writeUser
    split
    · rfl
    · split
      · split <;> rfl
      · rfl
  cases @listTurn st frame es hes hroom env cl (st.folded es).1 (st.folded es).2 rfl with
  | refused outsider same hout => rw [hout]; rfl
  | dropped busy same hout => rw [hout]; rfl
  | unreserved same hout => rw [hout]; rfl
  | @staged s owns idle unclosed only acks hipl hout =>
    rw [hout]
    cases s <;> rfl
  | unwritten sync owns closed hr only acks hipl hout => rw [hout]; rfl
  | written sync owns closed hr only acks hipl hout =>
    rw [hout, ← List.singleton_append, sends_append, hcopy]
    rfl
  | queued owns idle closed alloc only acks hipl hout =>
    rw [hout]
    exact sends_queuedOut rfl _ _ _ _ _ _ _ _

theorem writesOf_aside {path : Path} {out : List Effect} (h : ∀ e ∈ out, e.aside) : writesOf path out = [] := by
  refine List.filterMap_eq_nil_iff.mpr fun e he => ?_
  cases e with
  | write w => exact absurd (h _ he) (by simp [Effect.aside])
  | _ => rfl

/-- What is written while a request is served is what its handler writes. -/
theorem writesOf_served {d : Bytes} {cl : Client} {c : Command}
    (hsrc : requestOf cl.ip cl.port (frameOf d) = some (cl, frameOf d))
    (hreq : requested (frameOf d) = some c) (env : Env) (revert : ApplyResult) (path : Path) :
    writesOf path (daemon.out st (.datagram env revert cl.ip cl.port d)) =
      writesOf path ((st.idleCheck env.now).st.handle env (frameOf d) cl c).out := by
  change writesOf path (st.receive env revert cl.ip cl.port d).out = _
  rw [receive_request hsrc hreq]
  have hresp : ∀ resp : Bytes, writesOf path (if resp ≠ [] then [.send cl.ip cl.port resp] else []) = [] := by
    intro resp
    split <;> rfl
  simp only [Turn.bind_out, St.conclude, writesOf_append, writesOf_aside (around_idleCheck st env.now).2,
    writesOf_aside (sameCore_postAck _).2, writesOf_aside (around_radioRevertDrain _ _).2, hresp,
    List.nil_append, List.append_nil]

theorem requested_of_setIpConfigList {frame : Bytes} {es : List (Entry × Bool)}
    (h : setIpConfigListReqUnpack frame = .ok es) : requested frame = some .setIpConfigList := by
  unfold setIpConfigListReqUnpack at h
  cases hb : requestBody .setIpConfigList 0 frame with
  | none => simp [hb] at h
  | some body => exact requested_of_requestBody hb

/-- A SetIpConfigList that finds the session expired. -/
theorem leaves_of_expired {env : Env} {revert : ApplyResult} {d : Bytes} {cl : Client}
    (hsrc : requestOf cl.ip cl.port (frameOf d) = some (cl, frameOf d))
    (hreq : requested (frameOf d) = some .setIpConfigList) {es : List (Entry × Bool)}
    (hun : setIpConfigListReqUnpack (frameOf d) = .ok es) (hlate : ¬ env.now < st.session.idleDeadline)
    (was : st.session.loggedIn = true) (hclose : (st.idleCheck env.now).st.addr = st.addr.close) :
    Leaves st (.datagram env revert cl.ip cl.port d) cl := by
  have hnobody : (st.idleCheck env.now).st.session.loggedIn = false := congrArg Addr.loggedIn hclose
  have hout : ((st.idleCheck env.now).st.handle env (frameOf d) cl .setIpConfigList).out = [] := by
    simp [St.handle, St.handleSetIpConfigList, hun, St.checkLoginRequired, hnobody]
  refine ⟨.inl fun h => hlate (h was), .inr ⟨fun h => hlate (h was), was, ?_⟩, fun e he => ?_, ?_⟩
  · change (st.receive env revert cl.ip cl.port d).st.addr = _
    rw [receive_request hsrc hreq, Turn.bind_st, Turn.bind_st, addr_conclude,
      handle_nobody hnobody env (frameOf d) cl (by decide), hclose]
  · obtain ⟨env', ⟨revert', ip', port', d', ha⟩, hs⟩ :=
      @served (.datagram env revert cl.ip cl.port d) cl (frameOf d) _ hsrc hreq st
    cases ha
    rcases hs.out e he with h | h | ⟨rfl, -⟩
    · cases e with
      | indicate | applyRadio => rfl
      | _ => cases h
    · rw [hout] at h
      cases h
    · rfl
  · rw [writesOf_served hsrc hreq, hout]
    rfl

/-- **A SetIpConfigList** is left, or its entries are taken. -/
theorem list_served (hx : Shows false x ⟨st, []⟩) {a : Action} {cl : Client} {es : List (Entry × Bool)}
    (due : a.Enters cl es) : Leaves st a cl ∨ ∃ t, Takes st a cl es t := by
  obtain ⟨frame, hsrc, hun⟩ := due
  have hreq := requested_of_setIpConfigList hun
  cases a with
  | datagram env revert ip port d =>
    obtain ⟨⟨rfl, rfl⟩, rfl⟩ : (cl.ip = ip ∧ cl.port = port) ∧ frameOf d = frame := by
      obtain ⟨p, -, hp⟩ := Option.map_eq_some_iff.mp hsrc
      obtain ⟨hcl, hf⟩ := Prod.mk.inj hp
      rw [← hcl]
      exact ⟨⟨rfl, rfl⟩, hf⟩
    have hsrc : requestOf cl.ip cl.port (frameOf d) = some (cl, frameOf d) := hsrc
    obtain ⟨env', ⟨revert', ip', port', d', ha⟩, hs⟩ :=
      @served (.datagram env revert cl.ip cl.port d) cl (frameOf d) _ hsrc hreq st
    cases ha
    rcases addr_idleCheck st env.now with hidle | ⟨was, hclose⟩
    · have hsends := sends_served hsrc hreq st env revert
      have hwrites := @writesOf_served st d cl _ hsrc hreq env revert st.paths.ipList
      rw [hidle, St.done_st] at hs hsends hwrites
      have hstep : (daemon.step st (.datagram env revert cl.ip cl.port d)).addr =
          (st.handle env (frameOf d) cl .setIpConfigList).st.addr := by
        change (st.receive env revert cl.ip cl.port d).st.addr = _
        rw [receive_request hsrc hreq, Turn.bind_st, Turn.bind_st, addr_conclude, hidle, St.done_st]
      have hslot : ∀ e ∈ daemon.out st (.datagram env revert cl.ip cl.port d), e.slot? ≠ none →
          e ∈ (st.handle env (frameOf d) cl .setIpConfigList).out := by
        intro e he hne
        rcases hs.out e he with h | h | ⟨rfl, -⟩
        · cases e with
          | indicate | applyRadio => exact absurd rfl hne
          | _ => cases h
        · exact h
        · exact absurd rfl hne
      rcases @addr_handleSetIpConfigList st env (frameOf d) cl x false hx (hs.room hx) es hun
        with ⟨h, hslots, hw, hwhy⟩ | ⟨owns, h, hreserved⟩
      · refine .inl ⟨.inr ?_, .inl (hstep.trans h), fun e he => ?_, hwrites.trans hw⟩
        · exact hwhy.imp_right (Or.imp_right fun ⟨e, he⟩ => ⟨e, hs.mem _ he⟩)
        · by_contra hne
          exact hne (hslots e (hslot e he hne))
      · have hquiet : sends (st.handle env (frameOf d) cl .setIpConfigList).out = [] :=
          sends_handleSetIpConfigList hun (hs.room hx) env cl
        rw [hquiet, List.nil_append] at hsends
        refine .inr ⟨_, owns, inTime_of_idleCheck hidle, h, hstep, hs.mem, hslot, hwrites, hsends, fun e he => ?_⟩
        rcases hs.out _ he with haside | hmem | ⟨hsend, -⟩
        · cases haside
        · exact hreserved e hmem
        · cases hsend
    · have hlate : ¬ env.now < st.session.idleDeadline := by
        intro hlt
        have hdone : st.idleCheck env.now = st.done () := by
          unfold St.idleCheck
          rw [if_neg (by omega)]
        rw [hdone] at hclose
        have hout : st.session.loggedIn = false := congrArg Addr.loggedIn hclose
        exact absurd (was.symm.trans hout) (by decide)
      exact .inl (leaves_of_expired hsrc hreq hun hlate was hclose)
  | _ => cases hsrc

/-- A request of the holder's session, or of nobody's, before it has expired. -/
theorem addressed_request (hx : Shows false x ⟨st, []⟩) {env : Env} (revert : ApplyResult) {d : Bytes}
    {cl : Client} {c : Command} (hsrc : requestOf cl.ip cl.port (frameOf d) = some (cl, frameOf d))
    (hreq : requested (frameOf d) = some c) (hidle : st.idleCheck env.now = st.done ()) :
    Addressed x st (.datagram env revert cl.ip cl.port d) := by
  have hstep : (daemon.step st (.datagram env revert cl.ip cl.port d)).addr =
      (st.handle env (frameOf d) cl c).st.addr := by
    change (st.receive env revert cl.ip cl.port d).st.addr = _
    rw [receive_request hsrc hreq, Turn.bind_st, Turn.bind_st, addr_conclude, hidle, St.done_st]
  have hother : c ≠ .login → c ≠ .logout → c ≠ .changeIpAddress → c ≠ .setIpConfigList →
      Addressed x st (.datagram env revert cl.ip cl.port d) := by
    intro hlogin hlogout hchange hlist
    obtain ⟨x', hsteps, hx'⟩ :=
      daemon_simulated x st (.datagram env revert cl.ip cl.port d) hx
    have hsource : (Action.datagram env revert cl.ip cl.port d).source = some (cl, frameOf d) := hsrc
    beta_reduce at hsteps
    rw [hsource] at hsteps
    have h := steps_aside hsteps (aside_of_requested hreq hlogin hlogout hchange hlist cl)
      (not_appliesIp_datagram hx env revert cl.ip cl.port d)
    rw [hx'.addr, hx.addr] at h
    rcases h with h | ⟨was, h⟩
    · exact .aside h
    · exact .closed ((congrArg Addr.loggedIn hx.addr).symm.trans was) h
  cases c with
  | login =>
    rcases addr_handleLogin st env.now (frameOf d) cl with h | ⟨hout, h⟩
    · exact .aside (hstep.trans h)
    · exact .opened (.inl ⟨rfl, hout⟩) (hstep.trans h)
  | logout =>
    rcases addr_handleLogout st (frameOf d) cl with h | ⟨hun, was, hval, h⟩
    · exact .aside (hstep.trans h)
    · refine .left was ⟨cl, frameOf d, hsrc, hun, ?_⟩ (hstep.trans h)
      exact answeredOk_of_val hsrc hreq hidle (sends_handleLogout st (frameOf d) cl) hval
  | changeIpAddress =>
    rcases addr_handleChangeIpAddress st env (frameOf d) cl with ⟨h, -⟩ | ⟨n, hun, owns, herr, hval, h⟩
    · exact .aside (hstep.trans h)
    · have was : st.session.loggedIn = true := by
        simp only [St.sessionOwns, decide_eq_true_eq] at owns
        exact owns.1
      refine .chosen was herr ⟨cl, frameOf d, hsrc, hun, ?_⟩ (hstep.trans h)
      exact answeredOk_of_val hsrc hreq hidle (sends_handleChangeIpAddress st env (frameOf d) cl) hval
  | setIpConfigList =>
    cases hun : setIpConfigListReqUnpack (frameOf d) with
    | error e =>
      refine .aside (hstep.trans ?_)
      simp only [St.handle, St.handleSetIpConfigList, hun]
      cases e <;> rfl
    | ok es =>
      rcases @list_served x st hx (.datagram env revert cl.ip cl.port d) cl es ⟨frameOf d, hsrc, hun⟩ with
        h | ⟨t, h⟩
      · rcases h.addr with h | ⟨-, was, h⟩
        · exact .aside h
        · exact .closed was h
      · exact .entered ⟨frameOf d, hsrc, hun⟩ h
  | _ => exact hother (by decide) (by decide) (by decide) (by decide)

/-- A request that finds the session expired: only a Login is still served. -/
theorem addressed_expired {env : Env} (revert : ApplyResult) {d : Bytes}
    {cl : Client} {c : Command} (hsrc : requestOf cl.ip cl.port (frameOf d) = some (cl, frameOf d))
    (hreq : requested (frameOf d) = some c) (was : st.session.loggedIn = true)
    (hclose : (st.idleCheck env.now).st.addr = st.addr.close) :
    Addressed x st (.datagram env revert cl.ip cl.port d) := by
  have hstep : (daemon.step st (.datagram env revert cl.ip cl.port d)).addr =
      ((st.idleCheck env.now).st.handle env (frameOf d) cl c).st.addr := by
    change (st.receive env revert cl.ip cl.port d).st.addr = _
    rw [receive_request hsrc hreq, Turn.bind_st, Turn.bind_st, addr_conclude]
  have hnobody : (st.idleCheck env.now).st.session.loggedIn = false := congrArg Addr.loggedIn hclose
  by_cases hlogin : c = .login
  · rw [hlogin] at hstep
    rcases addr_handleLogin (st.idleCheck env.now).st env.now (frameOf d) cl with h | ⟨-, h⟩
    · exact .closed was (hstep.trans (h.trans hclose))
    · exact .opened (.inr ⟨hclose, was⟩) (hstep.trans h)
  · rw [handle_nobody hnobody env (frameOf d) cl hlogin] at hstep
    exact .closed was (hstep.trans hclose)

/-- The reconciliation of completed writes settles the write of the list, or touches no address. -/
theorem addressed_storeReady (hx : Shows false x ⟨st, []⟩) (env : ReadyEnv) : Addressed x st (.storeReady env) := by
  obtain ⟨x', hsteps, hx'⟩ := daemon_simulated x st (.storeReady env) hx
  have hin : x'.loggedIn = x.loggedIn := by
    have hsess := congrArg Session.loggedIn (Unseen.storeAsyncOnReady true st env).session
    exact (congrArg Addr.loggedIn hx'.addr).trans (hsess.trans (congrArg Addr.loggedIn hx.addr).symm)
  have hout : ∀ e ∈ daemon.out st (.storeReady env), e.reconciles x.paths := by
    obtain ⟨txn, copy, rfl, -⟩ := hx
    exact reconciles_storeReady st env
  cases steps_readied hsteps hout with
  | closed was now =>
    rw [hin, was] at now
    cases now
  | same h =>
    rw [hx'.addr, hx.addr] at h
    exact .aside h
  | settled opened made h =>
    rw [hx'.addr, hx.addr] at h
    exact .settled rfl opened made h

/-- The end of a cycle carries out the change that a Logout armed. -/
theorem addr_endOfCycle (harm : st.chg.commitArmed = true) (ok : Bool) :
    (daemon.step st (.endOfCycle ok)).addr =
      if ok ∧ st.session.loggedIn then st.addr.clear.close else st.addr.clear := by
  have hheld : ∀ u : St, u.endHeldSession.st.clearIpChange.addr =
      if u.session.loggedIn then u.addr.clear.close else u.addr.clear := by
    intro u
    change u.endHeldSession.st.addr.clear = _
    unfold St.endHeldSession
    have hsame := (sameCore_indInitComplete u .loggedOut).1.addr
    have hend : ∀ u : St, u.endSession.addr = u.addr.close := fun _ => rfl
    split
    · rw [St.sessionLogout, Turn.bind_st, St.done_st, hend, hsame]
      rfl
    · rfl
  change (st.applyPendingIpChange ok).st.addr = _
  unfold St.applyPendingIpChange
  rw [if_neg (by simp [harm])]
  cases ok with
  | false => simp; rfl
  | true => cases hin : st.session.loggedIn <;> simp [hheld, hin] <;> rfl

/-- **What an action does to the addresses.** -/
theorem addressed (hx : Shows false x ⟨st, []⟩) (a : Action) : Addressed x st a := by
  cases a with
  | datagram env revert ip port d =>
    cases hreq : requested (frameOf d) with
    | none =>
      rcases addr_unrequested hreq st env revert ip port with h | ⟨was, h⟩
      · exact .aside h
      · exact .closed was h
    | some c =>
      obtain ⟨cl, rfl, rfl, hsrc⟩ := requestOf_of_requested hreq ip port
      rcases addr_idleCheck st env.now with hidle | ⟨was, hclose⟩
      · exact addressed_request hx revert hsrc hreq hidle
      · exact addressed_expired revert hsrc hreq was hclose
  | timer now =>
    rcases addr_idleCheck st now with hidle | ⟨was, hclose⟩
    · exact .aside (congrArg (fun t : Turn Unit => t.st.addr) hidle)
    · exact .closed was hclose
  | notices ind sent => exact .aside rfl
  | storeReady env => exact addressed_storeReady hx env
  | worker r =>
    refine .aside ?_
    change (st.workerTurn r).st.addr = _
    unfold St.workerTurn
    split <;> rfl
  | endOfCycle ok =>
    by_cases harm : st.chg.commitArmed = true
    · exact .applied rfl harm (addr_endOfCycle harm ok)
    · refine .aside (congrArg St.addr ?_)
      change (st.applyPendingIpChange ok).st = st
      unfold St.applyPendingIpChange
      rw [if_pos harm]
      rfl

/-- A ChangeIpAddress that is answered OK chooses its slot, in the session that goes on. -/
theorem Chooses.addr {a : Action} {n : BitVec 16} (h : Chooses st a n) :
    st.session.loggedIn = true ∧ (∃ other, st.changeIpError other n = none) ∧
      (daemon.step st a).addr = st.addr.choose n := by
  obtain ⟨cl, frame, hsrc, hun, f, hsends, -, hok⟩ := h
  have hreq : requested frame = some .changeIpAddress := by
    obtain ⟨body, hb, -⟩ := Option.map_eq_some_iff.mp hun
    exact requested_of_requestBody hb
  cases a with
  | datagram env revert ip port d =>
    obtain ⟨⟨hip, hport⟩, rfl⟩ : (cl.ip = ip ∧ cl.port = port) ∧ frameOf d = frame := by
      obtain ⟨p, -, hp⟩ := Option.map_eq_some_iff.mp hsrc
      obtain ⟨hcl, hf⟩ := Prod.mk.inj hp
      rw [← hcl]
      exact ⟨⟨rfl, rfl⟩, hf⟩
    subst hip hport
    rw [sends_served hsrc hreq] at hsends
    change sends ((st.idleCheck env.now).st.handleChangeIpAddress env (frameOf d) cl).out ++
      response cl ((st.idleCheck env.now).st.handleChangeIpAddress env (frameOf d) cl).val = _ at hsends
    rw [sends_handleChangeIpAddress, List.nil_append] at hsends
    rcases addr_handleChangeIpAddress (st.idleCheck env.now).st env (frameOf d) cl with
      ⟨-, cause, hval⟩ | ⟨m, hm, owns, herr, -, h⟩
    · -- a refusal does not unpack as OK
      obtain ⟨g, hg, hne⟩ := simpleAckPack_frameMax Command.changeIpAddress.id cl.seq simpleAckLength resultNg cause
      have hg' : changeIpAddressAckPack txCap cl.seq resultNg cause = some g := hg
      rw [hval, hg', Option.getD_some, response, if_pos hne] at hsends
      cases hsends
      rw [simpleAckUnpack_simpleAckPack hg] at hok
      cases hok
    · obtain rfl : n = m := Option.some.inj (hun.symm.trans hm)
      simp only [St.sessionOwns, decide_eq_true_eq] at owns
      rcases addr_idleCheck st env.now with hidle | ⟨-, hclose⟩
      · rw [hidle, St.done_st] at owns herr h
        refine ⟨owns.1, ⟨_, herr⟩, ?_⟩
        change (st.receive env revert cl.ip cl.port d).st.addr = _
        rw [receive_request hsrc hreq, Turn.bind_st, Turn.bind_st, addr_conclude, hidle, St.done_st]
        exact h
      · have hnobody : (st.idleCheck env.now).st.session.loggedIn = false := congrArg Addr.loggedIn hclose
        rw [hnobody] at owns
        cases owns.1
  | _ => cases hsrc

end Classification

end Opcd
