import Opcd.Daemon.Addressing
import Opcd.Lib.SinceThen

/-!
# A change of address is one that a Logout decided

`handle_change_ip_address` records the slot, `handle_logout` decides on it (or `opcd_store_async_on_ready`,
if a list is being written at the Logout), and `opcd_apply_pending_ip_change` carries the decision out. The
moments of a run are described by the run before them, in the past tense of `SinceThen`:

* `Chosen`: the slot is the last that the present session chose.
* `PutOff`: the session that chose it was logged out while a list was written, and still is.
* `Decided`: the decision was taken, and no address has been changed since the Logout.

`ChangeKept` ties the flags of the change record to these, and every action keeps it.
-/

namespace Opcd

open Bytes Protocol Store

/-- The session goes on: the one after the action is the one before. -/
def GoesOn (st : St) (a : Action) : Prop :=
  st.session.loggedIn = true ∧ (daemon.step st a).session.loggedIn = true ∧
    (daemon.step st a).session.generation = st.session.generation

instance (st : St) (a : Action) : Decidable (GoesOn st a) := inferInstanceAs (Decidable (_ ∧ _))

/-- The action changes no address. -/
def NoApply (st : St) (a : Action) : Prop := ∀ e ∈ daemon.out st a, e.appliesIp = false

/-- Slot `n` of the list is occupied, by `e`. -/
def IpList.Occupied (l : IpList) (n : BitVec 16) (e : Entry) : Prop :=
  ∃ i, slotIdx? n = some i ∧ l.present i = true ∧ e = l.slots i

section Moments

variable (s : St) (n : BitVec 16)

/-- A ChangeIpAddress to slot `n` was answered OK, and since then its session has gone on and chosen no
other slot. -/
def Chosen (as : List Action) : Prop :=
  SinceThen (fun bs b => Chooses (daemon.run s bs) b n ∧ GoesOn (daemon.run s bs) b)
    (fun bs b => GoesOn (daemon.run s bs) b ∧ ∀ m, ¬ Chooses (daemon.run s bs) b m) as

/-- That session was ended by a Logout that was answered OK. -/
def LoggedOut (as : List Action) (b : Action) : Prop :=
  Chosen s n as ∧ (daemon.run s as).session.loggedIn = true ∧ LogsOut (daemon.run s as) b ∧
    (daemon.step (daemon.run s as) b).session.loggedIn = false

/-- The session was logged out while a list was being written. Since then that write has not come to an
end, and no address was changed. -/
def PutOff (as : List Action) : Prop :=
  SinceThen (fun bs b => LoggedOut s n bs b ∧ (daemon.run s bs).persistResourceBusy .ipList = true)
    (fun bs b => (daemon.run s bs).persistResourceBusy .ipList = true ∧ NoApply (daemon.run s bs) b) as

/-- The decision on slot `n` was taken and found `e`: at the Logout, if no list was being written, and else
when that write had come to an end. Since the Logout no address was changed. -/
def Decided (e : Entry) (as : List Action) : Prop :=
  SinceThen (fun bs b => LoggedOut s n bs b ∧ (daemon.run s bs).persistResourceBusy .ipList = false ∧
      (daemon.run s bs).ipl.list.Occupied n e)
    (fun bs b => NoApply (daemon.run s bs) b) as ∨
  SinceThen (fun bs b => PutOff s n bs ∧ (daemon.run s bs).persistResourceBusy .ipList = true ∧
      (∃ env, b = .storeReady env) ∧ NoApply (daemon.run s bs) b ∧
      (daemon.run s (bs ++ [b])).persistResourceBusy .ipList = false ∧
      (daemon.run s (bs ++ [b])).ipl.list.Occupied n e)
    (fun bs b => NoApply (daemon.run s bs) b) as

end Moments

section Moments

variable {s : St} {n : BitVec 16} {as : List Action} {a : Action}

theorem Decided.keep {e : Entry} (h : Decided s n e as) (ha : NoApply (daemon.run s as) a) :
    Decided s n e (as ++ [a]) :=
  h.imp (fun h => h.keep ha) fun h => h.keep ha

end Moments

/-! ## The change record -/

namespace IpChange

variable {c : IpChange} {l : IpList}

theorem atLogin_of_armed (h : c.commitArmed = true ∨ c.logoutDeferred = true) : c.atLogin = c := by
  unfold atLogin
  rw [if_neg]
  rcases h with h | h <;> simp [h]

/-- What arming a chosen slot comes to. -/
theorem arm_cases {i : SlotIdx} (hi : slotIdx? c.listNo = some i) :
    (l.present i = true ∧
      c.arm l = { c with armedEntry := l.slots i, armedNo := c.listNo, commitArmed := true }) ∨
      l.present i = false ∧ c.arm l = { c with pending := false, listNo := 0 } := by
  unfold arm
  rw [hi]
  dsimp only
  cases hp : l.present i with
  | true => exact .inl ⟨rfl, by simp⟩
  | false => exact .inr ⟨rfl, by simp⟩

end IpChange

/-- The flags of the change record mean what their names say of the run so far. -/
structure ChangeKept (s : St) (as : List Action) (y : Addr) : Prop where
  slot : y.chg.pending = true → ∃ i, slotIdx? y.chg.listNo = some i
  chosen : y.loggedIn = true → y.chg.pending = true → y.chg.commitArmed = false →
    y.chg.logoutDeferred = false → Chosen s y.chg.listNo as
  putOff : y.chg.logoutDeferred = true → y.writing = true ∧ y.chg.pending = true ∧
    y.chg.commitArmed = false ∧ PutOff s y.chg.listNo as
  decided : y.chg.commitArmed = true → y.chg.logoutDeferred = false ∧
    Decided s y.chg.armedNo y.chg.armedEntry as

namespace ChangeKept

variable {s : St} {as : List Action} {a : Action} {y' : Addr}

/-- An action that leaves the record alone. -/
theorem same (h : ChangeKept s as (daemon.run s as).addr) (hno : NoApply (daemon.run s as) a)
    (hchg : y'.chg = (daemon.run s as).chg)
    (hw : (daemon.run s as).persistResourceBusy .ipList = true → y'.writing = true)
    (hgo : y'.loggedIn = true → Chosen s y'.chg.listNo as → Chosen s y'.chg.listNo (as ++ [a]))
    (hin : y'.loggedIn = true → (daemon.run s as).session.loggedIn = true) : ChangeKept s (as ++ [a]) y' := by
  constructor
  · rw [hchg]
    exact h.slot
  · intro hin' hpend harm hdef
    refine hgo hin' ?_
    rw [hchg] at hpend harm hdef ⊢
    exact h.chosen (hin hin') hpend harm hdef
  · intro hdef
    rw [hchg] at hdef ⊢
    obtain ⟨hbusy, hpend, harm, hput⟩ := h.putOff hdef
    exact ⟨hw hbusy, hpend, harm, hput.keep ⟨hbusy, hno⟩⟩
  · intro harm
    rw [hchg] at harm ⊢
    obtain ⟨hdef, hdec⟩ := h.decided harm
    exact ⟨hdef, hdec.keep hno⟩

/-- The session that chose a slot goes on, and chooses no other. -/
theorem goes_on {n : BitVec 16} (hch : ∀ m, ¬ Chooses (daemon.run s as) a m)
    (hin : (daemon.run s as).session.loggedIn = true)
    (hstep : (daemon.step (daemon.run s as) a).session.loggedIn = true)
    (hgen : (daemon.step (daemon.run s as) a).session.generation = (daemon.run s as).session.generation)
    (h : Chosen s n as) : Chosen s n (as ++ [a]) :=
  h.keep ⟨⟨hin, hstep, hgen⟩, hch⟩

/-- After an apply nothing is pending. -/
theorem cleared (h : ChangeKept s as (daemon.run s as).addr)
    (harm : (daemon.run s as).chg.commitArmed = true) (hchg : y'.chg = (daemon.run s as).chg.cleared) :
    ChangeKept s (as ++ [a]) y' := by
  have hdef : y'.chg.logoutDeferred = false := by
    rw [hchg]
    exact (h.decided harm).1
  have hpend : y'.chg.pending = false := by rw [hchg]; rfl
  constructor
  · intro hp
    rw [hpend] at hp
    cases hp
  · intro _ hp
    rw [hpend] at hp
    cases hp
  · intro hd
    rw [hdef] at hd
    cases hd
  · intro ha
    rw [hchg] at ha
    cases ha

/-- A Login drops what the session before had chosen, unless a Logout has decided on it or will. -/
theorem opened (h : ChangeKept s as (daemon.run s as).addr) (hno : NoApply (daemon.run s as) a)
    (hchg : y'.chg = (daemon.run s as).chg.atLogin)
    (hw : (daemon.run s as).persistResourceBusy .ipList = true → y'.writing = true) :
    ChangeKept s (as ++ [a]) y' := by
  by_cases hset : (daemon.run s as).chg.commitArmed = true ∨ (daemon.run s as).chg.logoutDeferred = true
  · rw [IpChange.atLogin_of_armed hset] at hchg
    constructor
    · rw [hchg]
      exact h.slot
    · intro _ _ harm hdef
      rw [hchg] at harm hdef
      rw [harm, hdef] at hset
      simp at hset
    · intro hdef
      rw [hchg] at hdef ⊢
      obtain ⟨hbusy, hpend, harm, hput⟩ := h.putOff hdef
      exact ⟨hw hbusy, hpend, harm, hput.keep ⟨hbusy, hno⟩⟩
    · intro harm
      rw [hchg] at harm ⊢
      obtain ⟨hdef, hdec⟩ := h.decided harm
      exact ⟨hdef, hdec.keep hno⟩
  · have hnone : y'.chg.pending = false ∧ y'.chg.commitArmed = false ∧ y'.chg.logoutDeferred = false := by
      rw [hchg]
      unfold IpChange.atLogin
      cases harm : (daemon.run s as).chg.commitArmed <;>
        cases hdef : (daemon.run s as).chg.logoutDeferred <;> simp_all
    obtain ⟨hpend, harm, hdef⟩ := hnone
    constructor <;> simp [hpend, harm, hdef]

/-- A slot is chosen. -/
theorem chooses {n : BitVec 16} (hch : Chooses (daemon.run s as) a n)
    (hy : y' = (daemon.step (daemon.run s as) a).addr) : ChangeKept s (as ++ [a]) y' := by
  obtain ⟨hin, ⟨other, herr⟩, haddr⟩ := hch.addr
  rw [haddr] at hy
  have hfree : (daemon.run s as).chg.commitArmed = false ∧ (daemon.run s as).chg.logoutDeferred = false ∧
      ∃ i, slotIdx? n = some i := by
    unfold St.changeIpError at herr
    split_ifs at herr with hconf hstage
    cases hi : slotIdx? n with
    | none => simp [hi] at herr
    | some i =>
      refine ⟨?_, ?_, i, rfl⟩
      · cases harm : (daemon.run s as).chg.commitArmed <;> simp_all
      · cases hdef : (daemon.run s as).chg.logoutDeferred <;> simp_all
  obtain ⟨harm, hdef, i, hi⟩ := hfree
  have hgoes : GoesOn (daemon.run s as) a :=
    ⟨hin, (congrArg Addr.loggedIn haddr).trans hin, congrArg Addr.generation haddr⟩
  subst hy
  constructor
  · intro _
    exact ⟨i, hi⟩
  · intro _ _ _ _
    exact .now ⟨hch, hgoes⟩
  · intro hd
    exact absurd (hdef.symm.trans hd) (by decide)
  · intro ha
    exact absurd (harm.symm.trans ha) (by decide)

/-- A Logout decides on the chosen slot, or puts the decision off. -/
theorem left (h : ChangeKept s as (daemon.run s as).addr) (hno : NoApply (daemon.run s as) a)
    (was : (daemon.run s as).session.loggedIn = true) (ok : LogsOut (daemon.run s as) a)
    (haddr : (daemon.step (daemon.run s as) a).addr = (daemon.run s as).addr.logout) :
    ChangeKept s (as ++ [a]) (daemon.run s as).addr.logout := by
  have hend : (daemon.step (daemon.run s as) a).session.loggedIn = false := congrArg Addr.loggedIn haddr
  have hout : ∀ {n : BitVec 16}, Chosen s n as → LoggedOut s n as a := fun hch => ⟨hch, was, ok, hend⟩
  have hchg : (daemon.run s as).addr.logout.chg =
      (daemon.run s as).chg.logout (daemon.run s as).ipl.list
        ((daemon.run s as).persistResourceBusy .ipList) := rfl
  by_cases hcond : (daemon.run s as).chg.pending = true ∧ (daemon.run s as).chg.commitArmed = false
  · obtain ⟨hpend, harm⟩ := hcond
    obtain ⟨i, hi⟩ := h.slot hpend
    rw [IpChange.logout, if_pos ⟨hpend, by simp [harm]⟩] at hchg
    cases hbusy : (daemon.run s as).persistResourceBusy .ipList with
    | true =>
      rw [hbusy, if_pos rfl] at hchg
      have hput : PutOff s (daemon.run s as).chg.listNo (as ++ [a]) := by
        cases hdef : (daemon.run s as).chg.logoutDeferred with
        | true => exact (h.putOff hdef).2.2.2.keep ⟨hbusy, hno⟩
        | false => exact .now ⟨hout (h.chosen was hpend harm hdef), hbusy⟩
      constructor
      · rw [hchg]
        exact h.slot
      · intro hin
        cases hin
      · intro _
        rw [hchg]
        exact ⟨hbusy, hpend, harm, hput⟩
      · intro ha
        rw [hchg] at ha
        exact absurd (harm.symm.trans ha) (by decide)
    | false =>
      rw [hbusy, if_neg (by decide)] at hchg
      have hdef : (daemon.run s as).chg.logoutDeferred = false := by
        cases hd : (daemon.run s as).chg.logoutDeferred with
        | false => rfl
        | true => exact absurd (hbusy.symm.trans (h.putOff hd).1) (by decide)
      rcases @IpChange.arm_cases (daemon.run s as).chg (daemon.run s as).ipl.list i hi with
        ⟨hp, harmed⟩ | ⟨-, hdropped⟩
      · rw [harmed] at hchg
        constructor
        · rw [hchg]
          exact h.slot
        · intro hin
          cases hin
        · intro hd
          rw [hchg] at hd
          exact absurd (hdef.symm.trans hd) (by decide)
        · intro _
          rw [hchg]
          refine ⟨hdef, .inl (.now ⟨hout (h.chosen was hpend harm hdef), hbusy, i, hi, hp, rfl⟩)⟩
      · rw [hdropped] at hchg
        constructor
        · intro hp
          rw [hchg] at hp
          cases hp
        · intro hin
          cases hin
        · intro hd
          rw [hchg] at hd
          exact absurd (hdef.symm.trans hd) (by decide)
        · intro ha
          rw [hchg] at ha
          exact absurd (harm.symm.trans ha) (by decide)
  · have hsame : (daemon.run s as).addr.logout.chg = (daemon.run s as).chg := by
      rw [hchg, IpChange.logout, if_neg]
      simpa using hcond
    exact h.same hno hsame id (fun hin => by cases hin) (fun hin => by cases hin)

/-- A list write has come to an end, and the decision that waited for it is taken. -/
theorem settled (h : ChangeKept s as (daemon.run s as).addr) (hno : NoApply (daemon.run s as) a)
    (hch : ∀ m, ¬ Chooses (daemon.run s as) a m) {env : ReadyEnv} (ha : a = .storeReady env)
    (hbusy : (daemon.run s as).persistResourceBusy .ipList = true) {shown : Bool}
    (haddr : (daemon.step (daemon.run s as) a).addr = (daemon.run s as).addr.settle shown) :
    ChangeKept s (as ++ [a]) ((daemon.run s as).addr.settle shown) := by
  have hlist : (daemon.run s (as ++ [a])).ipl.list =
      if shown then (daemon.run s as).ipl.pending else (daemon.run s as).ipl.list := by
    rw [daemon.run_snoc]
    refine (congrArg (fun y => y.ipl.list) haddr).trans ?_
    cases shown with
    | false => rfl
    | true =>
      change ((daemon.run s as).ipl.settle (daemon.run s as).addr.current).list = (daemon.run s as).ipl.pending
      unfold IpListState.settle
      split <;> rfl
  have hidle : (daemon.run s (as ++ [a])).persistResourceBusy .ipList = false := by
    rw [daemon.run_snoc]
    exact congrArg Addr.writing haddr
  have hchg : ((daemon.run s as).addr.settle shown).chg =
      (daemon.run s as).chg.settle (daemon.run s (as ++ [a])).ipl.list := by
    rw [hlist]
    rfl
  cases hdef : (daemon.run s as).chg.logoutDeferred with
  | true =>
    obtain ⟨-, hpend, harm, hput⟩ := h.putOff hdef
    obtain ⟨i, hi⟩ := h.slot hpend
    have harmed : ¬ (daemon.run s as).chg.commitArmed = true := fun h => absurd (harm.symm.trans h) (by decide)
    rw [IpChange.settle, if_pos hdef, if_pos ⟨hpend, harmed⟩] at hchg
    have hi' : slotIdx? ({ (daemon.run s as).chg with logoutDeferred := false } : IpChange).listNo = some i := hi
    rcases IpChange.arm_cases (l := (daemon.run s (as ++ [a])).ipl.list) hi' with
      ⟨hp, harmed⟩ | ⟨-, hdropped⟩
    · rw [harmed] at hchg
      constructor
      · rw [hchg]
        exact h.slot
      · intro _ _ hfalse
        rw [hchg] at hfalse
        cases hfalse
      · intro hd
        rw [hchg] at hd
        cases hd
      · intro _
        rw [hchg]
        exact ⟨rfl, .inr (.now ⟨hput, hbusy, ⟨env, ha⟩, hno, hidle, i, hi, hp, rfl⟩)⟩
    · rw [hdropped] at hchg
      constructor
      · intro hp
        rw [hchg] at hp
        cases hp
      · intro _ hp
        rw [hchg] at hp
        cases hp
      · intro hd
        rw [hchg] at hd
        cases hd
      · intro harm'
        rw [hchg] at harm'
        exact absurd (harm.symm.trans harm') (by decide)
  | false =>
    rw [IpChange.settle, if_neg (by simp [hdef])] at hchg
    constructor
    · rw [hchg]
      exact h.slot
    · intro hin hp ha' hd
      rw [hchg] at hp ha' hd ⊢
      have hin' : (daemon.run s as).session.loggedIn = true := hin
      exact goes_on hch hin' ((congrArg Addr.loggedIn haddr).trans hin) (congrArg Addr.generation haddr)
        (h.chosen hin' hp ha' hd)
    · intro hd
      rw [hchg] at hd
      exact absurd (hdef.symm.trans hd) (by decide)
    · intro ha'
      rw [hchg] at ha' ⊢
      obtain ⟨hd, hdec⟩ := h.decided ha'
      exact ⟨hd, hdec.keep hno⟩

/-- **Every action keeps it.** -/
theorem step (h : ChangeKept s as (daemon.run s as).addr) {x : Sys}
    (hx : Shows false x ⟨daemon.run s as, []⟩) (a : Action) :
    ChangeKept s (as ++ [a]) (daemon.run s (as ++ [a])).addr := by
  rw [daemon.run_snoc]
  by_cases hch : ∃ n, Chooses (daemon.run s as) a n
  · obtain ⟨n, hn⟩ := hch
    exact chooses hn rfl
  have hch : ∀ m, ¬ Chooses (daemon.run s as) a m := not_exists.mp hch
  rcases applyIpChange_out hx a with hno | ⟨ok, rfl, harm, -⟩
  · have hno : NoApply (daemon.run s as) a := hno
    have hgo : ∀ {n : BitVec 16}, (daemon.step (daemon.run s as) a).addr.loggedIn = true →
        (daemon.run s as).session.loggedIn = true →
        (daemon.step (daemon.run s as) a).addr.generation = (daemon.run s as).session.generation →
        Chosen s n as → Chosen s n (as ++ [a]) :=
      fun hstep hin hgen => goes_on hch hin hstep hgen
    cases addressed hx a with
    | aside haddr =>
      rw [haddr] at hgo ⊢
      exact h.same hno rfl id (fun hin => hgo hin hin rfl) id
    | closed was haddr =>
      rw [haddr]
      exact h.same hno rfl id (fun hin => by cases hin) (fun hin => by cases hin)
    | opened hy haddr =>
      rw [haddr]
      rcases hy with ⟨rfl, -⟩ | ⟨rfl, -⟩
      · exact h.opened hno rfl id
      · exact h.opened hno rfl id
    | left was ok haddr =>
      rw [haddr]
      exact h.left hno was ok haddr
    | chosen _ _ ok => exact absurd ok (hch _)
    | entered due takes =>
      rw [takes.addr] at hgo ⊢
      cases takes.entered with
      | staged idle unclosed hwrites ht =>
        rw [ht] at hgo ⊢
        exact h.same hno rfl id (fun hin => hgo hin hin rfl) id
      | unwritten idle sync closed hr hwrites ht =>
        rw [ht] at hgo ⊢
        exact h.same hno rfl id (fun hin => hgo hin hin rfl) id
      | published idle sync closed hr hwrites ht =>
        rw [ht] at hgo ⊢
        exact h.same hno rfl id (fun hin => hgo hin hin rfl) id
      | pended idle closed hwrites hmem ht =>
        rw [ht] at hgo ⊢
        exact h.same hno rfl (fun _ => rfl) (fun hin => hgo hin hin rfl) id
    | settled ha opened made haddr =>
      have hbusy : (daemon.run s as).persistResourceBusy .ipList = true := by
        have := congrArg Addr.writing hx.addr
        exact this.symm.trans (by simp [Sys.addr, opened])
      rw [haddr]
      exact h.settled hno hch ha hbusy haddr
    | applied ha armed haddr =>
      rw [haddr]
      refine h.cleared armed ?_
      split <;> rfl
  · rw [addr_endOfCycle harm]
    refine h.cleared harm ?_
    split <;> rfl

end ChangeKept

theorem changeKept_run (conf : Conf) (paths : Paths) (d : Disk) (start : StartEnv) (as : List Action) :
    ChangeKept (startup conf paths d start).st as (daemon.run (startup conf paths d start).st as).addr := by
  induction as using List.reverseRecOn with
  | nil =>
    have hchg : (startup conf paths d start).st.chg = ⟨false, false, false, 0, 0, Entry.zero⟩ := rfl
    constructor
    · intro h
      exact absurd ((congrArg IpChange.pending hchg).symm.trans h) (by decide)
    · intro _ h
      exact absurd ((congrArg IpChange.pending hchg).symm.trans h) (by decide)
    · intro h
      exact absurd ((congrArg IpChange.logoutDeferred hchg).symm.trans h) (by decide)
    · intro h
      exact absurd ((congrArg IpChange.commitArmed hchg).symm.trans h) (by decide)
  | append_singleton as a ih =>
    obtain ⟨x, hx⟩ := shows_run conf paths d start as
    exact ih.step hx a

/-- **A change of address is safe.** Along every run, an address is applied only once for a Logout answered
OK, by which the session ended that had last chosen its slot; and it is the slot's entry in the committed
list at that Logout or, if a list was being written then, when the outcome of that write had been
published. -/
theorem ip_change_commit_safe (conf : Conf) (paths : Paths) (d : Disk) (start : StartEnv)
    (as : List Action) (a : Action) {e : Entry} {iface : Nat} {n : BitVec 16} {ok : Bool}
    (h : .applyIpChange e iface n ok ∈ daemon.out (daemon.run (startup conf paths d start).st as) a) :
    Decided (startup conf paths d start).st n e as ∧
      (daemon.out (daemon.run (startup conf paths d start).st as) a).filter Effect.appliesIp =
        [.applyIpChange e iface n ok] := by
  obtain ⟨x, hx⟩ := shows_run conf paths d start as
  rcases applyIpChange_out hx a with hno | ⟨ok', -, harm, hout⟩
  · cases hno _ h
  · have hmem : Effect.applyIpChange e iface n ok ∈
        (daemon.out (daemon.run (startup conf paths d start).st as) a).filter Effect.appliesIp :=
      List.mem_filter.mpr ⟨h, rfl⟩
    rw [hout, List.mem_singleton] at hmem
    cases hmem
    exact ⟨((changeKept_run conf paths d start as).decided harm).2, hout⟩

theorem mem_out_endOfCycle {st : St} (harm : st.chg.commitArmed = true) (ok : Bool) :
    .applyIpChange st.chg.armedEntry st.mgmtIpIfaceIdx st.chg.armedNo ok ∈ daemon.out st (.endOfCycle ok) := by
  change _ ∈ (st.applyPendingIpChange ok).out
  unfold St.applyPendingIpChange
  rw [if_neg (by simp [harm])]
  cases ok <;> simp

/-- A session that stores an entry in slot 5, chooses it and logs out. -/
def chooseSlotFive : List Action :=
  [.holderLogin, .fromHolder (setIpConfigListReqPack frameMax 2 [(IpList.sampleEntry, true)]),
    .fromHolder (changeIpAddressReqPack frameMax 3 5), .fromHolder (logoutReqPack frameMax 4)]

theorem ip_change_commit_safe_slotFive :
    .applyIpChange (daemon.run bootSync chooseSlotFive).chg.armedEntry
        (daemon.run bootSync chooseSlotFive).mgmtIpIfaceIdx
        (daemon.run bootSync chooseSlotFive).chg.armedNo true ∈
      daemon.out (daemon.run bootSync chooseSlotFive) (.endOfCycle true) ∧
    (daemon.run bootSync chooseSlotFive).chg.armedNo = 5 ∧
    Decided bootSync (daemon.run bootSync chooseSlotFive).chg.armedNo
      (daemon.run bootSync chooseSlotFive).chg.armedEntry chooseSlotFive := by
  have harm : (daemon.run bootSync chooseSlotFive).chg.commitArmed = true := by decide +kernel
  have hno : (daemon.run bootSync chooseSlotFive).chg.armedNo = 5 := by decide +kernel
  have hmem : .applyIpChange (daemon.run bootSync chooseSlotFive).chg.armedEntry
      (daemon.run bootSync chooseSlotFive).mgmtIpIfaceIdx
      (daemon.run bootSync chooseSlotFive).chg.armedNo true ∈
      daemon.out (daemon.run bootSync chooseSlotFive) (.endOfCycle true) := mem_out_endOfCycle harm true
  exact ⟨hmem, hno, (ip_change_commit_safe _ _ _ _ _ _ hmem).1⟩

end Opcd
