import Opcd.Daemon.ChangeIp
import Opcd.IpList.Cycle

/-!
# List requests and their writes

A SetIpConfigList whose entries close a cycle has its list written before it is published, in line or by the writer.
Until the write ends no other list request is taken (`Flight`), but sessions may end and begin. When it ends,

* a list that was not written leaves the lists as they were, but for the cycle that the end of a session drops;
* a list that was is published, the cycle open behind it only in the session that sent it.

The session is told by its generation, so the number of sessions that begin or end meanwhile has to stay below 2^32.
`flight_ends` is the induction over the actions until then.

A session is a sequence of such requests, with other actions in between (`Serial`), and its lists are the fold of the
entries of those whose write did not fail.
-/

namespace Opcd

open Bytes Protocol Store

/-! ## Requests and sessions -/

/-- A SetIpConfigList with these entries, of the session's holder and in time. -/
structure Asks (s : St) (a : Action) (cl : Client) (es : List (Entry × Bool)) : Prop where
  enters : a.Enters cl es
  owns : s.sessionOwns cl.ip = true
  inTime : InTime s a

/-- The list write under way ends with the last of these actions; there are none if none is under way. -/
def EndsWith : St → List Action → Prop
  | s, [] => s.persistResourceBusy .ipList = false
  | s, a :: as => s.persistResourceBusy .ipList = true ∧ EndsWith (daemon.step s a) as

instance : (s : St) → (as : List Action) → Decidable (EndsWith s as)
  | s, [] => inferInstanceAs (Decidable (s.persistResourceBusy .ipList = false))
  | s, a :: as =>
    have := instDecidableEndsWith (daemon.step s a) as
    inferInstanceAs (Decidable (_ ∧ _))

/-- The session goes on through these actions. -/
def GoesOnFor : St → List Action → Prop
  | _, [] => True
  | s, a :: as => GoesOn s a ∧ GoesOnFor (daemon.step s a) as

instance : (s : St) → (as : List Action) → Decidable (GoesOnFor s as)
  | _, [] => inferInstanceAs (Decidable True)
  | s, a :: as =>
    have := instDecidableGoesOnFor (daemon.step s a) as
    inferInstanceAs (Decidable (_ ∧ _))

/-- The sessions that an action ends or begins: each counts the generation up by one. -/
def sessionEvent (s : St) (a : Action) : Nat := ((daemon.step s a).session.generation - s.session.generation).toNat

/-- The number of sessions that end or begin. -/
def sessionEvents : St → List Action → Nat
  | _, [] => 0
  | s, a :: as => sessionEvent s a + sessionEvents (daemon.step s a) as

theorem sessionEvent_of_generation {st : St} {a : Action} {k : Nat} (hk : k < 2 ^ 32)
    (h : (daemon.step st a).addr.generation = st.addr.generation + BitVec.ofNat 32 k) : sessionEvent st a = k := by
  have hgen : (daemon.step st a).session.generation = st.session.generation + BitVec.ofNat 32 k := h
  rw [sessionEvent, hgen, BitVec.add_comm, BitVec.add_sub_cancel, BitVec.toNat_ofNat, Nat.mod_eq_of_lt hk]

/-! ## A list under way -/

/-- The lists while a list is being written: `f` is what the request led to from the cycle `c` in the session of
generation `g`, and `n` sessions have ended or begun since. -/
structure Flight (c : Cycle) (f : St.Fold) (g : BitVec 32) (n : Nat) (st : St) : Prop where
  busy : st.addr.writing = true
  candidate : st.ipl.pending = f.candidate
  staging : st.ipl.pendingStaging = f.staging
  active : st.ipl.pendingStagingActive = f.active
  pendingGeneration : st.ipl.pendingGeneration = g
  generation : st.session.generation = g + BitVec.ofNat 32 n
  cycle : st.ipl.cycle = if n = 0 then c else c.drop
  session : n = 0 → st.session.loggedIn = true

section Flights

variable {c : Cycle} {f : St.Fold} {g : BitVec 32} {n : Nat} {st : St} {x : Sys}

/-- A request is under way. -/
theorem Flight.of_pend {s : St} (h : st.addr = s.addr.pend f) (hin : s.session.loggedIn = true) :
    Flight s.ipl.cycle f s.session.generation 0 st := by
  have hipl : st.ipl = s.ipl.pend f s.session.generation := congrArg Addr.ipl h
  refine ⟨congrArg Addr.writing h, ?_, ?_, ?_, ?_, ?_, ?_, fun _ => (congrArg Addr.loggedIn h).trans hin⟩
  · rw [hipl]; rfl
  · rw [hipl]; rfl
  · rw [hipl]; rfl
  · rw [hipl]; rfl
  · exact (congrArg Addr.generation h).trans (by simp [St.addr, Addr.pend])
  · rw [hipl]; rfl

/-- The flight goes on while the lists and the session are as they were. -/
theorem Flight.congr {st' : St} (h : Flight c f g n st) (hin : st'.addr.loggedIn = st.addr.loggedIn)
    (hgen : st'.addr.generation = st.addr.generation) (hipl : st'.addr.ipl = st.addr.ipl)
    (hbusy : st'.addr.writing = st.addr.writing) : Flight c f g n st' := by
  have hipl' : st'.ipl = st.ipl := hipl
  refine ⟨hbusy.trans h.busy, ?_, ?_, ?_, ?_, hgen.trans h.generation, ?_, fun h0 => hin.trans (h.session h0)⟩
  · rw [hipl', h.candidate]
  · rw [hipl', h.staging]
  · rw [hipl', h.active]
  · rw [hipl', h.pendingGeneration]
  · rw [hipl', h.cycle]

theorem cycle_closed (l : IpListState) : l.closed.cycle = l.cycle.drop := rfl

theorem Cycle.drop_drop (c : Cycle) : c.drop.drop = c.drop := rfl

/-- The session ends or begins. -/
theorem Flight.events {st' : St} {k : Nat} (h : Flight c f g n st) (hk : 0 < k)
    (hgen : st'.addr.generation = st.addr.generation + BitVec.ofNat 32 k)
    (hipl : st'.addr.ipl = st.addr.ipl.closed ∨ st'.addr.ipl = st.addr.ipl ∧ st.session.loggedIn = false)
    (hbusy : st'.addr.writing = st.addr.writing) : Flight c f g (n + k) st' := by
  have hgen' : st'.session.generation = st.session.generation + BitVec.ofNat 32 k := hgen
  have hpend : st'.ipl.pending = st.ipl.pending ∧ st'.ipl.pendingStaging = st.ipl.pendingStaging ∧
      st'.ipl.pendingStagingActive = st.ipl.pendingStagingActive ∧
      st'.ipl.pendingGeneration = st.ipl.pendingGeneration ∧ st'.ipl.cycle = c.drop := by
    rcases hipl with hipl | ⟨hipl, hout⟩
    · have hipl' : st'.ipl = st.ipl.closed := hipl
      rw [hipl']
      refine ⟨rfl, rfl, rfl, rfl, ?_⟩
      rw [cycle_closed, h.cycle]
      split <;> rfl
    · have hipl' : st'.ipl = st.ipl := hipl
      rw [hipl']
      refine ⟨rfl, rfl, rfl, rfl, ?_⟩
      rw [h.cycle, if_neg]
      intro h0
      cases (h.session h0).symm.trans hout
  obtain ⟨h₁, h₂, h₃, h₄, h₅⟩ := hpend
  refine ⟨hbusy.trans h.busy, h₁.trans h.candidate, h₂.trans h.staging, h₃.trans h.active,
    h₄.trans h.pendingGeneration, ?_, ?_, fun h0 => absurd h0 (by omega)⟩
  · rw [hgen', h.generation, BitVec.add_assoc, ← BitVec.ofNat_add]
  · rw [h₅, if_neg (by omega)]

/-- A list write that came to an end. -/
structure FlightEnd (c : Cycle) (f : St.Fold) (n : Nat) (shown : Bool) (st : St) : Prop where
  idle : st.persistResourceBusy .ipList = false
  unwritten : shown = false → st.ipl.cycle = if n = 0 then c else c.drop
  committed : shown = true → st.ipl.list = f.candidate
  same : shown = true → n = 0 → st.ipl.cycle = f.cycle
  other : shown = true → n ≠ 0 → n < 2 ^ 32 → st.ipl.cycle = ⟨f.candidate, IpList.empty, false⟩

theorem Flight.settle {st' : St} {shown : Bool} (h : Flight c f g n st) (hs : st'.addr = st.addr.settle shown) :
    FlightEnd c f n shown st' := by
  have hipl : st'.ipl = if shown then st.ipl.settle st.addr.current else st.ipl.unpend := congrArg Addr.ipl hs
  have hlist : shown = true → st'.ipl.list = f.candidate := by
    rintro rfl
    rw [hipl, if_pos rfl, ← h.candidate]
    unfold IpListState.settle
    split <;> rfl
  refine ⟨congrArg Addr.writing hs, ?_, hlist, ?_, ?_⟩
  · rintro rfl
    rw [hipl, if_neg (by decide), ← h.cycle]
    rfl
  · rintro rfl h0
    have hcurrent : st.addr.current = true := by
      have hgen := h.generation
      rw [h0, BitVec.add_zero] at hgen
      have hin := h.session h0
      simp [Addr.current, St.addr, hin, hgen, h.pendingGeneration]
    rw [hipl, if_pos rfl, hcurrent, IpListState.settle, if_pos rfl]
    have hcycle : f.cycle = ⟨st.ipl.pending, st.ipl.pendingStaging, st.ipl.pendingStagingActive⟩ := by
      rw [h.candidate, h.staging, h.active]
      rfl
    rw [hcycle]
    rfl
  · rintro rfl hne hlt
    -- the generation has not come round
    have hgen : st.session.generation ≠ g := by
      rw [h.generation]
      intro heq
      have hzero : BitVec.ofNat 32 n = 0 := by simpa using heq
      have hmod := congrArg BitVec.toNat hzero
      rw [BitVec.toNat_ofNat, Nat.mod_eq_of_lt hlt] at hmod
      exact hne hmod
    have hcurrent : st.addr.current = false := by
      simp [Addr.current, St.addr, h.pendingGeneration, hgen]
    have hcycle := h.cycle
    rw [if_neg hne] at hcycle
    have hstaging : st.ipl.staging = IpList.empty := congrArg Cycle.staging hcycle
    have hactive : st.ipl.stagingActive = false := congrArg Cycle.active hcycle
    rw [hipl, if_pos rfl, hcurrent, IpListState.settle, if_neg (by decide), ← h.candidate]
    exact Cycle.ext rfl hstaging hactive

/-- **An action while a list is being written**: the flight goes on, or the write ends. -/
theorem Flight.step (hx : Shows false x ⟨st, []⟩) (h : Flight c f g n st) (a : Action) :
    Flight c f g (n + sessionEvent st a) (daemon.step st a) ∨
      sessionEvent st a = 0 ∧ (n = 0 → GoesOn st a) ∧ (∃ env, a = .storeReady env) ∧
        ∃ t res, x.txn .ipList = some t ∧ t.result = some res ∧
          FlightEnd c f n (decide (res.outcome ≠ .unchanged)) (daemon.step st a) := by
  have hon : ∀ y : Addr, (daemon.step st a).addr = y → y.loggedIn = st.addr.loggedIn →
      y.generation = st.addr.generation → y.ipl = st.addr.ipl → y.writing = st.addr.writing →
      Flight c f g (n + sessionEvent st a) (daemon.step st a) := by
    rintro y rfl hin hgen hipl hbusy
    rw [@sessionEvent_of_generation st a 0 (by decide) (hgen.trans (by simp))]
    exact h.congr hin hgen hipl hbusy
  have hevents : ∀ (k : Nat) (y : Addr), (daemon.step st a).addr = y → 0 < k → k < 2 ^ 32 →
      y.generation = st.addr.generation + BitVec.ofNat 32 k →
      (y.ipl = st.addr.ipl.closed ∨ y.ipl = st.addr.ipl ∧ st.session.loggedIn = false) →
      y.writing = st.addr.writing → Flight c f g (n + sessionEvent st a) (daemon.step st a) := by
    rintro k y rfl hk hlt hgen hipl hbusy
    rw [sessionEvent_of_generation hlt hgen]
    exact h.events hk hgen hipl hbusy
  cases addressed hx a with
  | aside ha => exact .inl (hon _ ha rfl rfl rfl rfl)
  | closed was ha => exact .inl (hevents 1 _ ha (by decide) (by decide) rfl (.inl rfl) rfl)
  | @opened y hy ha =>
    refine .inl ?_
    rcases hy with ⟨rfl, hout⟩ | ⟨rfl, -⟩
    · exact hevents 1 _ ha (by decide) (by decide) rfl (.inr ⟨rfl, hout⟩) rfl
    · refine hevents 2 _ ha (by decide) (by decide) ?_ (.inl rfl) rfl
      change st.addr.generation + 1 + 1 = _
      rw [BitVec.add_assoc]
      rfl
  | left was ok ha => exact .inl (hevents 1 _ ha (by decide) (by decide) rfl (.inl rfl) rfl)
  | chosen was herr ok ha => exact .inl (hon _ ha rfl rfl rfl rfl)
  | entered due takes =>
    have hidle : st.addr.writing = false := by
      cases takes.entered <;> assumption
    cases h.busy.symm.trans hidle
  | @settled env t res ha opened made hs =>
    refine .inr ⟨?_, fun h0 => ?_, ⟨env, ha⟩, t, res, opened, made, h.settle hs⟩
    · exact @sessionEvent_of_generation st a 0 (by decide) ((congrArg Addr.generation hs).trans (by simp [Addr.settle]))
    · exact ⟨h.session h0, (congrArg Addr.loggedIn hs).trans (h.session h0), congrArg Addr.generation hs⟩
  | @applied ok ha armed hs =>
    refine .inl ?_
    by_cases hclose : ok = true ∧ st.session.loggedIn = true
    · rw [if_pos (by simpa using hclose)] at hs
      exact hevents 1 _ hs (by decide) (by decide) rfl (.inl rfl) rfl
    · rw [if_neg (by simpa using hclose)] at hs
      exact hon _ hs rfl rfl rfl rfl

/-! ### The write of a list under way -/

/-- The list under way has been written as often as its transaction says: at most once. -/
structure InFlight (p : Paths) (tr : List Effect) (x : Sys) : Prop where
  paths : x.paths = p
  noFile : x.txn .none = none
  sync : x.async = false → ∀ r, x.txn r = none
  writes : ∃ t, x.txn .ipList = some t ∧ writesOf p.ipList tr = t.writes p .ipList

/-- A move that does not close the transaction of the list. -/
theorem InFlight.move {src : Source} {p : Paths} {tr out : List Effect} {x x' : Sys} (h : InFlight p tr x)
    (hm : Move src x out x') : InFlight p (tr ++ out) x' ∨ x'.txn .ipList = none ∧ src = none := by
  obtain ⟨rfl, hnone, hsync, t, ht, hw⟩ := h
  have hkeep : ∀ t', x'.txn .ipList = some t' → writesOf x.paths.ipList (tr ++ out) = t'.writes x.paths .ipList →
      InFlight x.paths (tr ++ out) x' :=
    fun t' ht' hw' => ⟨hm.sameSetup.paths, hm.noFile hnone, hm.sync hnone hsync, t', ht', hw'⟩
  have hquiet : writesOf x.paths.ipList out = [] → x'.txn .ipList = x.txn .ipList → InFlight x.paths (tr ++ out) x' := by
    intro hout htxn
    refine hkeep t (htxn.trans ht) ?_
    rw [writesOf_append, hout, List.append_nil, hw]
  have hnil : (∀ w, .write w ∈ tableEvents x.paths out → w.path ≠ Resource.path x.paths .ipList) →
      writesOf x.paths.ipList out = [] := writesOf_eq_nil (r := .ipList) (by decide)
  cases hm.table hnone with
  | aside htxn hev => exact .inl (hquiet (hnil (by simp [hev])) (by rw [htxn]))
  | @queued r t' hr ready brought unmade htxn hev =>
    have hne : r ≠ .ipList := by
      rintro rfl
      cases ready.idle.symm.trans ht
    exact .inl (hquiet (hnil (by simp [hev])) (by rw [htxn, Function.update_of_ne hne.symm]))
  | @made r t' res hr opened unmade htxn hev =>
    by_cases hrl : r = .ipList
    · subst hrl
      obtain rfl : t = t' := Option.some.inj (ht.symm.trans opened)
      refine .inl (hkeep { t with result := some res } (by rw [htxn, Function.update_self]) ?_)
      have hone : writesOf x.paths.ipList out = _ := writesOf_one (r := .ipList) (by decide) rfl hev
      rw [writesOf_append, hone, hw]
      simp [Txn.writes, unmade, Resource.path]
    · have hno : writesOf x.paths.ipList out = [] :=
        @writesOf_none x.paths out r .ipList hr (by decide) (Ne.symm hrl) _ rfl hev
      exact .inl (hquiet hno (by rw [htxn, Function.update_of_ne (Ne.symm hrl)]))
  | @settled r t' res hr opened made ready htxn hev =>
    by_cases hrl : r = .ipList
    · subst hrl
      exact .inr ⟨by rw [htxn, Function.update_self], ready⟩
    · exact .inl (hquiet (hnil (by simp [hev])) (by rw [htxn, Function.update_of_ne (Ne.symm hrl)]))
  | written hr sync => cases (hsync sync .ipList).symm.trans ht

/-- A transaction of the list is opened by a request only. -/
theorem Move.unopened {x x' : Sys} {out : List Effect} (hm : Move none x out x')
    (hnone : x.txn .none = none) (h : x.txn .ipList = none) : x'.txn .ipList = none := by
  cases hm.table hnone with
  | aside htxn => rw [htxn, h]
  | queued hr ready brought =>
    obtain ⟨frame, hd, body, hsrc, -⟩ := brought
    cases hsrc
  | @made r t res hr opened unmade htxn =>
    have hne : r ≠ .ipList := by
      rintro rfl
      cases h.symm.trans opened
    rw [htxn, Function.update_of_ne hne.symm, h]
  | @settled r t res hr opened made ready htxn =>
    by_cases hrl : r = .ipList
    · subst hrl
      rw [htxn, Function.update_self]
    · rw [htxn, Function.update_of_ne (Ne.symm hrl), h]
  | written hr sync hw htxn => rw [htxn, h]

/-- An action: the list is still under way, or its transaction was closed. -/
theorem InFlight.action {p : Paths} {tr : List Effect} (hx : Shows false x ⟨st, []⟩) (h : InFlight p tr x) (a : Action) :
    ∃ x', Shows false x' ⟨daemon.step st a, []⟩ ∧
      (InFlight p (tr ++ daemon.out st a) x' ∨ x'.txn .ipList = none) := by
  obtain ⟨x', hsteps, hx'⟩ := daemon_simulated x st a hx
  refine ⟨x', hx', ?_⟩
  dsimp only at hsteps
  cases hsrc : a.source with
  | none =>
    rw [hsrc] at hsteps
    refine (hsteps.trace_inv
      (P := fun tr x => x.txn .none = none ∧ (InFlight p tr x ∨ x.txn .ipList = none)) ?_ tr ⟨h.noFile, .inl h⟩).2
    rintro tr x es x' ⟨hnone, h | h⟩ hm
    · exact ⟨hm.noFile hnone, (h.move hm).imp_right And.left⟩
    · exact ⟨hm.noFile hnone, .inr (hm.unopened hnone h)⟩
  | some request =>
    rw [hsrc] at hsteps
    refine .inl (hsteps.trace_inv (P := fun tr x => InFlight p tr x) (fun tr x es x' h hm => ?_) tr h)
    exact (h.move hm).resolve_right fun hno => by cases hno.2

/-- No list is under way, and the writer has written none. -/
structure Unlisted (p : Paths) (tr : List Effect) (x : Sys) : Prop where
  paths : x.paths = p
  noFile : x.txn .none = none
  sync : x.async = false → ∀ r, x.txn r = none
  idle : x.txn .ipList = none
  writes : x.async = true → writesOf p.ipList tr = []

theorem Unlisted.move {src : Source} {p : Paths} {tr out : List Effect} {x x' : Sys} (h : Unlisted p tr x)
    (hm : Move src x out x') : Unlisted p (tr ++ out) x' ∨ InFlight p (tr ++ out) x' := by
  obtain ⟨rfl, hnone, hsync, hidle, hw⟩ := h
  have hwrites : (x.async = true → writesOf x.paths.ipList out = []) → x'.async = true →
      writesOf x.paths.ipList (tr ++ out) = [] := by
    intro hout hasync
    have hasync' := hm.sameSetup.async.symm.trans hasync
    rw [writesOf_append, hout hasync', List.append_nil, hw hasync']
  have hquiet : (x.async = true → writesOf x.paths.ipList out = []) → x'.txn .ipList = x.txn .ipList →
      Unlisted x.paths (tr ++ out) x' := by
    intro hout htxn
    exact ⟨hm.sameSetup.paths, hm.noFile hnone, hm.sync hnone hsync, htxn.trans hidle, hwrites hout⟩
  have hnil : (∀ w, .write w ∈ tableEvents x.paths out → w.path ≠ Resource.path x.paths .ipList) →
      writesOf x.paths.ipList out = [] := writesOf_eq_nil (r := .ipList) (by decide)
  cases hm.table hnone with
  | aside htxn hev => exact .inl (hquiet (fun _ => hnil (by simp [hev])) (by rw [htxn]))
  | @queued r t hr ready brought unmade htxn hev =>
    have hout : writesOf x.paths.ipList out = [] := hnil (by simp [hev])
    by_cases hrl : r = .ipList
    · subst hrl
      have hopen : x'.txn .ipList = some t := by rw [htxn, Function.update_self]
      have hasync : x'.async = true := by
        by_contra hno
        cases (hm.sync hnone hsync (Bool.eq_false_iff.mpr hno) .ipList).symm.trans hopen
      refine .inr ⟨hm.sameSetup.paths, hm.noFile hnone, hm.sync hnone hsync, t, hopen, ?_⟩
      rw [hwrites (fun _ => hout) hasync, Txn.writes, unmade]
      rfl
    · exact .inl (hquiet (fun _ => hout) (by rw [htxn, Function.update_of_ne (Ne.symm hrl)]))
  | @made r t res hr opened unmade htxn hev =>
    have hne : r ≠ .ipList := by
      rintro rfl
      cases hidle.symm.trans opened
    have hno : writesOf x.paths.ipList out = [] :=
      @writesOf_none x.paths out r .ipList hr (by decide) hne.symm _ rfl hev
    exact .inl (hquiet (fun _ => hno) (by rw [htxn, Function.update_of_ne hne.symm]))
  | @settled r t res hr opened made ready htxn hev =>
    have hne : r ≠ .ipList := by
      rintro rfl
      cases hidle.symm.trans opened
    exact .inl (hquiet (fun _ => hnil (by simp [hev])) (by rw [htxn, Function.update_of_ne hne.symm]))
  | written hr sync hw htxn =>
    refine .inl (hquiet (fun hasync => ?_) (by rw [htxn]))
    cases sync.symm.trans hasync

theorem Shows.busy (hx : Shows false x ⟨st, []⟩) (r : Resource) : st.persistResourceBusy r = (x.txn r).isSome := by
  obtain ⟨txn, copy, rfl, ht⟩ := hx
  exact ht.acked.busy r

/-- A request that puts a list under way. -/
theorem inFlight_of_request (hx : Shows false x ⟨st, []⟩) (hidle : st.persistResourceBusy .ipList = false)
    {a : Action} {src : Client × Bytes} (hsrc : a.source = some src)
    (hbusy : (daemon.step st a).persistResourceBusy .ipList = true) :
    ∃ x', Shows false x' ⟨daemon.step st a, []⟩ ∧ InFlight st.paths (daemon.out st a) x' := by
  obtain ⟨x', hsteps, hx'⟩ := daemon_simulated x st a hx
  refine ⟨x', hx', ?_⟩
  dsimp only at hsteps
  rw [hsrc] at hsteps
  have hstart : Unlisted st.paths [] x := by
    have hclosed : x.txn .ipList = none := by
      rw [Shows.busy hx] at hidle
      exact Option.isSome_eq_false_iff.mp hidle |> Option.isNone_iff_eq_none.mp
    obtain ⟨txn, copy, rfl, ht⟩ := hx
    refine ⟨rfl, ht.noFile, fun hsync r => ?_, hclosed, fun _ => rfl⟩
    have hw : st.storeAsync = none := Option.isNone_iff_eq_none.mp (Option.isSome_eq_false_iff.mp hsync)
    exact congrFun (ht.closed hw).1 r
  have hend := hsteps.trace_inv (P := fun tr x => Unlisted st.paths tr x ∨ InFlight st.paths tr x)
    (fun tr x es x' h hm => ?_) [] (.inl hstart)
  · refine hend.resolve_left fun hno => ?_
    rw [Shows.busy hx', hno.idle] at hbusy
    cases hbusy
  · rcases h with h | h
    · exact h.move hm
    · refine .inr ((h.move hm).resolve_right fun hno => ?_)
      cases hno.2

theorem GoesOn.event {a : Action} (h : GoesOn st a) : sessionEvent st a = 0 := by
  rw [sessionEvent, h.2.2, BitVec.sub_self]
  rfl

/-- **The end of a list write**: its list was written once, and the lists are as the outcome says. -/
theorem flight_ends {p : Paths} {tr : List Effect} (hx : Shows false x ⟨st, []⟩) (hw : InFlight p tr x)
    (h : Flight c f g n st) {bs : List Action} (hends : EndsWith st bs) :
    (∃ w, writesOf p.ipList (tr ++ daemon.trace st bs) = [w] ∧
      FlightEnd c f (n + sessionEvents st bs) (decide (w.result.outcome ≠ .unchanged)) (daemon.run st bs)) ∧
    (n = 0 → (GoesOnFor st bs ↔ sessionEvents st bs = 0)) := by
  induction bs generalizing st x tr n with
  | nil => cases h.busy.symm.trans hends
  | cons a bs ih =>
    obtain ⟨-, hends⟩ := hends
    rcases h.step hx a with hnext | ⟨hzero, hon, ⟨env, rfl⟩, t, res, opened, made, hend⟩
    · obtain ⟨x', hx', hw'⟩ := hw.action hx a
      have hopen : x'.txn .ipList ≠ none := by
        intro hnone
        have hbusy := hnext.busy
        change (daemon.step st a).persistResourceBusy .ipList = true at hbusy
        rw [hx'.busy, hnone] at hbusy
        cases hbusy
      obtain ⟨⟨w, hone, hend⟩, hiff⟩ := ih hx' (hw'.resolve_right hopen) hnext hends
      refine ⟨⟨w, ?_, ?_⟩, fun h0 => ?_⟩
      · rw [Machine.trace_cons, ← List.append_assoc]
        exact hone
      · rw [sessionEvents, ← Nat.add_assoc]
        exact hend
      · rw [GoesOnFor, sessionEvents]
        constructor
        · rintro ⟨hgo, hrest⟩
          rw [hgo.event] at hiff ⊢
          rw [(hiff h0).mp hrest]
        · intro hsum
          have hfirst : sessionEvent st a = 0 := by omega
          have hrest : sessionEvents (daemon.step st a) bs = 0 := by omega
          rw [hfirst] at hnext hiff
          have hgen := hnext.generation.trans h.generation.symm
          exact ⟨⟨h.session h0, hnext.session h0, hgen⟩, (hiff h0).mpr hrest⟩
    · have hnil : bs = [] := by
        cases bs with
        | nil => rfl
        | cons b bs => cases hend.idle.symm.trans hends.1
      subst hnil
      have hout : writesOf p.ipList (daemon.out st (.storeReady env)) = [] := by
        have hrec := reconciles_storeReady st env
        refine List.filterMap_eq_nil_iff.mpr fun e he => ?_
        have hpaths : st.paths = p := by
          rw [← hw.paths]
          obtain ⟨txn, copy, rfl, -⟩ := hx
          rfl
        cases e with
        | write w' => exact if_neg (hpaths ▸ (hrec _ he).2 w' rfl)
        | _ => rfl
      obtain ⟨t', ht', hwrites⟩ := hw.writes
      obtain rfl : t = t' := Option.some.inj (opened.symm.trans ht')
      refine ⟨⟨⟨p.ipList, t.data, 0o644, res⟩, ?_, ?_⟩, fun h0 => ?_⟩
      · rw [Machine.trace_cons, Machine.trace_nil, List.append_nil, writesOf_append, hout, List.append_nil, hwrites,
          Txn.writes, made]
        rfl
      · rw [sessionEvents, sessionEvents, hzero]
        exact hend
      · rw [GoesOnFor, GoesOnFor, sessionEvents, sessionEvents, hzero]
        exact ⟨fun _ => rfl, fun _ => ⟨hon h0, trivial⟩⟩

end Flights

/-! ## A request -/

section Requests

variable {st : St} {x : Sys} {a : Action} {cl : Client} {es : List (Entry × Bool)}

/-- The writer has room for a list. -/
theorem Shows.room (hx : Shows false x ⟨st, []⟩) (hshort : st.paths.ipList.length < pathMax) (w : Writer)
    (hw : st.storeAsync = some w) :
    ∃ k w₁ s, st.pendingAckAlloc = some k ∧ w.reserve st.paths.ipList IpList.textMax = (w₁, .ok s) := by
  obtain ⟨txn, copy, -, ht⟩ := hx
  obtain ⟨p, hb⟩ := ht.booked hw
  obtain ⟨s, hfree⟩ := hb.freeSlot
  obtain ⟨k, hk⟩ := ht.acked.ackSlot
  rcases Writer.reserve_cases hfree st.paths.ipList (by decide : IpList.textMax ≤ dataMax) with
    ⟨w₁, hok⟩ | ⟨e, -, ⟨-, q, hq, hlong⟩ | ⟨-, hshut⟩⟩
  · exact ⟨k, w₁, s, hk, hok⟩
  · rw [List.mem_singleton.mp hq] at hlong
    omega
  · cases hb.shutdown.symm.trans hshut

/-- A writer that can hold the path does not refuse it. -/
theorem Asks.reserved (hx : Shows false x ⟨st, []⟩) (hshort : st.paths.ipList.length < pathMax) (h : Asks st a cl es)
    (e : SubmitError) : .reserve st.paths.ipList (.error e) ∉ daemon.out st a := by
  intro he
  obtain ⟨frame, hsrc, hun⟩ := h.enters
  obtain ⟨env, ⟨revert, ip, port, d, rfl⟩, hs⟩ := served hsrc (requested_of_setIpConfigList hun) st
  have hawake : (st.idleCheck env.now).st = st := by
    have hin : st.session.loggedIn = true := (of_decide_eq_true h.owns).1
    have htime := h.inTime hin
    unfold St.idleCheck
    rw [if_neg (by omega)]
    rfl
  rw [hawake] at hs
  rcases hs.out _ he with haside | hmem | ⟨hsend, -⟩
  · cases haside
  · obtain ⟨-, -, w, hw, hrefused⟩ := (listTurn hun (hs.room hx) env cl rfl).refusal hmem
    obtain ⟨k, w₁, s, -, hok⟩ := hx.room hshort w hw
    rw [hok] at hrefused
    cases hrefused
  · cases hsend

/-- The list of a request is not written: the writer refuses it, or its write leaves the file as it was. -/
def Fails (p : Paths) (s : St) (a : Action) (bs : List Action) : Prop :=
  (∃ e, .reserve p.ipList (.error e) ∈ daemon.out s a) ∨
    ∃ w ∈ writesOf p.ipList (daemon.trace s (a :: bs)), w.result.outcome = .unchanged

/-- What a request and its write come to. -/
inductive RequestEnd (p : Paths) (s : St) (a : Action) (es : List (Entry × Bool)) (bs : List Action) : Prop
  /-- the writer does not take the path -/
  | refused (e : SubmitError) (he : .reserve p.ipList (.error e) ∈ daemon.out s a) (now : bs = [])
      (writes : writesOf p.ipList (daemon.trace s (a :: bs)) = []) (h : (daemon.step s a).addr = s.addr)
  /-- no cycle is closed, and nothing is written -/
  | staged (taken : ∀ e, .reserve p.ipList (.error e) ∉ daemon.out s a) (unclosed : (s.folded es).1.committed = false)
      (now : bs = []) (writes : writesOf p.ipList (daemon.trace s (a :: bs)) = [])
      (h : (daemon.step s a).addr = s.addr.stage (s.folded es).1)
  /-- the list is written, once -/
  | written {w : FileWrite} (taken : ∀ e, .reserve p.ipList (.error e) ∉ daemon.out s a)
      (closed : (s.folded es).1.committed = true) (writes : writesOf p.ipList (daemon.trace s (a :: bs)) = [w])
      (ends : FlightEnd s.ipl.cycle (s.folded es).1 (sessionEvents (daemon.step s a) bs)
        (decide (w.result.outcome ≠ .unchanged)) (daemon.run s (a :: bs)))

/-- **A request, from its entries to the end of its write.** -/
theorem Asks.ends (hx : Shows false x ⟨st, []⟩) (hidle : st.persistResourceBusy .ipList = false) (h : Asks st a cl es)
    {bs : List Action} (hends : EndsWith (daemon.step st a) bs) :
    RequestEnd st.paths st a es bs ∧ GoesOn st a ∧
      (GoesOnFor (daemon.step st a) bs ↔ sessionEvents (daemon.step st a) bs = 0) := by
  have hin : st.session.loggedIn = true := (of_decide_eq_true h.owns).1
  have hgo : ∀ y : Addr, (daemon.step st a).addr = y → y.loggedIn = st.addr.loggedIn →
      y.generation = st.addr.generation → GoesOn st a := by
    rintro y rfl hlogged hgen
    exact ⟨hin, hlogged.trans hin, hgen⟩
  -- with no write under way after the request, there is nothing to wait for
  have hnow : (daemon.step st a).addr.writing = false → bs = [] := by
    intro hdone
    cases bs with
    | nil => rfl
    | cons b bs => cases hdone.symm.trans hends.1
  have hnil : GoesOnFor (daemon.step st a) [] ↔ sessionEvents (daemon.step st a) [] = 0 := ⟨fun _ => rfl, fun _ => trivial⟩
  have htrace : daemon.trace st [a] = daemon.out st a := by
    rw [Machine.trace_cons, Machine.trace_nil, List.append_nil]
  rcases list_served hx h.enters with hleaves | ⟨t, htakes⟩
  · have hsame := hleaves.addr.resolve_right fun hlate => hlate.1 h.inTime
    obtain ⟨e, he⟩ : ∃ e, .reserve st.paths.ipList (.error e) ∈ daemon.out st a := by
      rcases hleaves.why with hlate | hout | hbusy | hrefused
      · exact absurd h.inTime hlate
      · cases h.owns.symm.trans hout
      · cases hidle.symm.trans hbusy
      · exact hrefused
    obtain rfl := hnow ((congrArg Addr.writing hsame).trans hidle)
    exact ⟨.refused e he rfl (htrace ▸ hleaves.writes) hsame, hgo _ hsame rfl rfl, hnil⟩
  · have hwrites : writesOf st.paths.ipList (daemon.trace st [a]) = writesOf st.paths.ipList t.out := by
      rw [htrace, htakes.writes]
    cases htakes.entered with
    | staged idle unclosed hw hs hval =>
      have haddr := htakes.addr.trans hs
      obtain rfl := hnow ((congrArg Addr.writing haddr).trans idle)
      exact ⟨.staged htakes.reserved unclosed rfl (hwrites.trans hw) haddr, hgo _ haddr rfl rfl, hnil⟩
    | @unwritten r idle sync closed hr hw hs hval =>
      have haddr := htakes.addr.trans hs
      obtain rfl := hnow ((congrArg Addr.writing haddr).trans idle)
      refine ⟨.written htakes.reserved closed (hwrites.trans hw) ?_, hgo _ haddr rfl rfl, hnil⟩
      have hipl : (daemon.step st a).ipl = st.ipl := congrArg Addr.ipl haddr
      have hshown : decide ((listWrite st.paths (st.folded es).1.candidate r).result.outcome ≠ .unchanged) = false :=
        decide_eq_false (not_not.mpr hr)
      rw [hshown]
      refine ⟨(congrArg Addr.writing haddr).trans idle, fun _ => ?_, fun hyes => absurd hyes (by decide),
        fun hyes => absurd hyes (by decide), fun hyes => absurd hyes (by decide)⟩
      rw [Machine.run_cons, Machine.run_nil, hipl]
      rfl
    | @published r idle sync closed hr hw hs hval =>
      have haddr := htakes.addr.trans hs
      obtain rfl := hnow ((congrArg Addr.writing haddr).trans idle)
      refine ⟨.written htakes.reserved closed (hwrites.trans hw) ?_, hgo _ haddr rfl rfl, hnil⟩
      have hipl : (daemon.step st a).ipl = st.ipl.publish (st.folded es).1 := congrArg Addr.ipl haddr
      have hshown : decide ((listWrite st.paths (st.folded es).1.candidate r).result.outcome ≠ .unchanged) = true :=
        decide_eq_true hr
      rw [hshown]
      refine ⟨(congrArg Addr.writing haddr).trans idle, fun hno => ?_, fun _ => ?_, fun _ _ => ?_, fun _ hne => absurd rfl hne⟩
      · cases hno
      · rw [Machine.run_cons, Machine.run_nil, hipl]
        rfl
      · rw [Machine.run_cons, Machine.run_nil, hipl]
        rfl
    | @pended k idle closed hw hmem hs hval =>
      have haddr := htakes.addr.trans hs
      have hflight := Flight.of_pend haddr hin
      obtain ⟨frame, hsrc, -⟩ := h.enters
      obtain ⟨x', hx', hlist⟩ := inFlight_of_request hx hidle hsrc hflight.busy
      obtain ⟨⟨w, hone, hend⟩, hiff⟩ := flight_ends hx' hlist hflight hends
      rw [Nat.zero_add] at hend
      exact ⟨.written htakes.reserved closed hone hend, hgo _ haddr rfl rfl, hiff rfl⟩

end Requests

/-! ## Sessions -/

/-- Without a session no cycle is open. -/
def Shut (s : St) : Prop := s.session.loggedIn = false → s.ipl.cycle = s.ipl.cycle.drop

/-- The lists after `n` sessions have ended or begun. -/
def Cycle.after (c : Cycle) (n : Nat) : Cycle := if n = 0 then c else c.drop

section Sessions

variable {st : St} {x : Sys} {a : Action}

/-- **The cycle is closed with the session.** -/
theorem Shut.step (hx : Shows false x ⟨st, []⟩) (h : Shut st) (a : Action) : Shut (daemon.step st a) := by
  have hkeep : ∀ y : Addr, (daemon.step st a).addr = y → y.loggedIn = st.addr.loggedIn → y.ipl = st.addr.ipl →
      Shut (daemon.step st a) := by
    rintro y rfl hlogged hipl hout
    have hipl' : (daemon.step st a).ipl = st.ipl := hipl
    rw [hipl']
    exact h (hlogged.symm.trans hout)
  have hclosed : ∀ y : Addr, (daemon.step st a).addr = y → y.ipl = st.addr.ipl.closed → Shut (daemon.step st a) := by
    rintro y rfl hipl -
    have hipl' : (daemon.step st a).ipl = st.ipl.closed := hipl
    rw [hipl']
    rfl
  cases addressed hx a with
  | aside ha => exact hkeep _ ha rfl rfl
  | closed was ha => exact hclosed _ ha rfl
  | @opened y hy ha =>
    intro hout
    cases (congrArg Addr.loggedIn ha).symm.trans hout
  | left was ok ha => exact hclosed _ ha rfl
  | chosen was herr ok ha => exact hkeep _ ha rfl rfl
  | @entered cl es t due takes =>
    intro hout
    have hin : st.session.loggedIn = true := (of_decide_eq_true takes.owns).1
    have hstill : t.st.addr.loggedIn = st.addr.loggedIn := by
      cases takes.entered with
      | staged _ _ _ hs => rw [hs]; rfl
      | unwritten _ _ _ _ _ hs => rw [hs]
      | published _ _ _ _ _ hs => rw [hs]; rfl
      | pended _ _ _ _ hs => rw [hs]; rfl
    cases hout.symm.trans (((congrArg Addr.loggedIn takes.addr).trans hstill).trans hin)
  | @settled env t res ha opened made hs =>
    intro hout
    have hwas : st.session.loggedIn = false := (congrArg Addr.loggedIn hs).symm.trans hout
    have hcurrent : st.addr.current = false := by simp [Addr.current, St.addr, hwas]
    have hipl : (daemon.step st a).ipl =
        if decide (res.outcome ≠ .unchanged) then st.ipl.settle st.addr.current else st.ipl.unpend := congrArg Addr.ipl hs
    have hstaging : st.ipl.staging = IpList.empty := congrArg Cycle.staging (h hwas)
    have hactive : st.ipl.stagingActive = false := congrArg Cycle.active (h hwas)
    rw [hipl, hcurrent]
    split
    · exact Cycle.ext rfl hstaging hactive
    · exact h hwas
  | @applied ok ha armed hs =>
    split at hs
    · exact hclosed _ hs rfl
    · exact hkeep _ hs rfl rfl

/-- **Where a session ends or begins, the cycle is closed and empty.** -/
theorem closed_of_not_goesOn (hx : Shows false x ⟨st, []⟩) (hshut : Shut st) (h : ¬ GoesOn st a) :
    (daemon.step st a).ipl.cycle = (daemon.step st a).ipl.cycle.drop := by
  cases hin : (daemon.step st a).session.loggedIn with
  | false => exact hshut.step hx a hin
  | true =>
    have hgo : ∀ y : Addr, (daemon.step st a).addr = y → y.loggedIn = st.addr.loggedIn →
        y.generation = st.addr.generation → False := by
      rintro y rfl hlogged hgen
      exact h ⟨hlogged.symm.trans hin, hin, hgen⟩
    have hend : ∀ y : Addr, (daemon.step st a).addr = y → y.loggedIn = false → False := by
      rintro y rfl hout
      cases hin.symm.trans hout
    cases addressed hx a with
    | aside ha => exact (hgo _ ha rfl rfl).elim
    | closed was ha => exact (hend _ ha rfl).elim
    | @opened y hy ha =>
      have hipl : (daemon.step st a).ipl = y.ipl := congrArg Addr.ipl ha
      rw [hipl]
      rcases hy with ⟨rfl, hout⟩ | ⟨rfl, -⟩
      · exact hshut hout
      · rfl
    | left was ok ha => exact (hend _ ha rfl).elim
    | chosen was herr ok ha => exact (hgo _ ha rfl rfl).elim
    | entered due takes =>
      have haddr := takes.addr
      cases takes.entered with
      | staged _ _ _ hs => exact (hgo _ (haddr.trans hs) rfl rfl).elim
      | unwritten _ _ _ _ _ hs => exact (hgo _ (haddr.trans hs) rfl rfl).elim
      | published _ _ _ _ _ hs => exact (hgo _ (haddr.trans hs) rfl rfl).elim
      | pended _ _ _ _ hs => exact (hgo _ (haddr.trans hs) rfl rfl).elim
    | settled ha opened made hs => exact (hgo _ hs rfl rfl).elim
    | applied ha armed hs =>
      split at hs
      · exact (hend _ hs rfl).elim
      · exact (hgo _ hs rfl rfl).elim

/-- An action that brings no entries, while no list is being written. -/
theorem unasked_step (hx : Shows false x ⟨st, []⟩) (hshut : Shut st) (hidle : st.persistResourceBusy .ipList = false)
    (h : ∀ cl es, ¬ Asks st a cl es) :
    (daemon.step st a).persistResourceBusy .ipList = false ∧
      (daemon.step st a).ipl.cycle = st.ipl.cycle.after (sessionEvent st a) := by
  have hkeep : ∀ y : Addr, (daemon.step st a).addr = y → y.generation = st.addr.generation → y.ipl = st.addr.ipl →
      y.writing = st.addr.writing → (daemon.step st a).persistResourceBusy .ipList = false ∧
        (daemon.step st a).ipl.cycle = st.ipl.cycle.after (sessionEvent st a) := by
    rintro y rfl hgen hipl hbusy
    have hipl' : (daemon.step st a).ipl = st.ipl := hipl
    refine ⟨hbusy.trans hidle, ?_⟩
    rw [@sessionEvent_of_generation st a 0 (by decide) (hgen.trans (by simp)), hipl']
    rfl
  have hevents : ∀ (k : Nat) (y : Addr), (daemon.step st a).addr = y → 0 < k → k < 2 ^ 32 →
      y.generation = st.addr.generation + BitVec.ofNat 32 k → y.ipl.cycle = st.ipl.cycle.drop →
      y.writing = st.addr.writing → (daemon.step st a).persistResourceBusy .ipList = false ∧
        (daemon.step st a).ipl.cycle = st.ipl.cycle.after (sessionEvent st a) := by
    rintro k y rfl hk hlt hgen hipl hbusy
    have hipl' : (daemon.step st a).ipl.cycle = st.ipl.cycle.drop := hipl
    refine ⟨hbusy.trans hidle, ?_⟩
    rw [sessionEvent_of_generation hlt hgen, hipl', Cycle.after, if_neg (by omega)]
  cases addressed hx a with
  | aside ha => exact hkeep _ ha rfl rfl rfl
  | closed was ha => exact hevents 1 _ ha (by decide) (by decide) rfl rfl rfl
  | @opened y hy ha =>
    rcases hy with ⟨rfl, hout⟩ | ⟨rfl, -⟩
    · exact hevents 1 _ ha (by decide) (by decide) rfl (hshut hout) rfl
    · refine hevents 2 _ ha (by decide) (by decide) ?_ rfl rfl
      change st.addr.generation + 1 + 1 = _
      rw [BitVec.add_assoc]
      rfl
  | left was ok ha => exact hevents 1 _ ha (by decide) (by decide) rfl rfl rfl
  | chosen was herr ok ha => exact hkeep _ ha rfl rfl rfl
  | entered due takes => exact absurd ⟨due, takes.owns, takes.inTime⟩ (h _ _)
  | settled ha opened made hs =>
    rw [Shows.busy hx, opened] at hidle
    cases hidle
  | @applied ok ha armed hs =>
    split at hs
    · exact hevents 1 _ hs (by decide) (by decide) rfl rfl rfl
    · exact hkeep _ hs rfl rfl rfl

/-- A state of a service with these paths. -/
structure Serving (p : Paths) (s : St) : Prop where
  shows : ∃ x, Shows false x ⟨s, []⟩
  paths : s.paths = p
  shut : Shut s

theorem Serving.step {p : Paths} {s : St} (h : Serving p s) (a : Action) : Serving p (daemon.step s a) := by
  obtain ⟨x, hx⟩ := h.shows
  obtain ⟨x', hsteps, hx'⟩ := daemon_simulated x s a hx
  refine ⟨⟨x', hx'⟩, ?_, h.shut.step hx a⟩
  have hpaths := hsteps.trace_inv (P := fun _ x => x.paths = p) (fun _ _ _ _ h hm => hm.sameSetup.paths.trans h) []
  obtain ⟨txn, copy, rfl, -⟩ := hx
  obtain ⟨txn', copy', rfl, -⟩ := hx'
  exact hpaths h.paths

theorem Serving.run {p : Paths} {s : St} (h : Serving p s) (as : List Action) : Serving p (daemon.run s as) :=
  daemon.run_inv (fun _ a h => h.step a) h as

theorem serving_startup (conf : Conf) (paths : Paths) (d : Disk) (env : StartEnv) (as : List Action) :
    Serving paths (daemon.run (startup conf paths d env).st as) := by
  exact Serving.run ⟨⟨_, shows_startup conf paths d env⟩, rfl, fun _ => rfl⟩ as

end Sessions

/-! ## The requests of a session -/

/-- No action brings entries. -/
def Unasked : St → List Action → Prop
  | _, [] => True
  | s, a :: as => (∀ cl es, ¬ Asks s a cl es) ∧ Unasked (daemon.step s a) as

/-- A session's requests, each with its write; `parts` are the entries of those that did not fail. -/
inductive Serial (p : Paths) : St → List (List (Entry × Bool)) → List Action → Prop
  | nil (s : St) : Serial p s [] []
  | other {s : St} {a : Action} {parts : List (List (Entry × Bool))} {as : List Action}
      (h : ∀ cl es, ¬ Asks s a cl es) (on : GoesOn s a) (rest : Serial p (daemon.step s a) parts as) :
      Serial p s parts (a :: as)
  | request {s : St} {a : Action} {cl : Client} {es : List (Entry × Bool)} {bs : List Action}
      {parts : List (List (Entry × Bool))} {as : List Action} (asks : Asks s a cl es)
      (ends : EndsWith (daemon.step s a) bs) (on : GoesOnFor s (a :: bs)) (done : ¬ Fails p s a bs)
      (rest : Serial p (daemon.run s (a :: bs)) parts as) : Serial p s (es :: parts) (a :: bs ++ as)
  | failed {s : St} {a : Action} {cl : Client} {es : List (Entry × Bool)} {bs : List Action}
      {parts : List (List (Entry × Bool))} {as : List Action} (asks : Asks s a cl es)
      (ends : EndsWith (daemon.step s a) bs) (on : GoesOnFor s (a :: bs)) (fails : Fails p s a bs)
      (rest : Serial p (daemon.run s (a :: bs)) parts as) : Serial p s parts (a :: bs ++ as)

section Serials

variable {p : Paths} {s : St} {a : Action} {cl : Client} {es : List (Entry × Bool)} {as bs : List Action}

theorem Cycle.after_zero (c : Cycle) : c.after 0 = c := rfl

theorem Cycle.after_after (c : Cycle) (m n : Nat) : (c.after m).after n = c.after (m + n) := by
  unfold Cycle.after
  by_cases hm : m = 0
  · simp [hm]
  · by_cases hn : n = 0
    · simp [hn]
    · rw [if_neg hm, if_neg hn, if_neg (by omega), Cycle.drop_drop]

/-- Without requests, only the sessions change the lists. -/
theorem unasked_run (h : Serving p s) (hidle : s.persistResourceBusy .ipList = false) (has : Unasked s as) :
    (daemon.run s as).ipl.cycle = s.ipl.cycle.after (sessionEvents s as) := by
  induction as generalizing s with
  | nil => rfl
  | cons a as ih =>
    obtain ⟨x, hx⟩ := h.shows
    obtain ⟨hidle', hcycle⟩ := unasked_step hx h.shut hidle has.1
    rw [Machine.run_cons, ih (h.step a) hidle' has.2, hcycle, Cycle.after_after, sessionEvents]

/-- A request that fails does nothing to the lists. -/
theorem Asks.fails (h : Serving p s) (hidle : s.persistResourceBusy .ipList = false) (hasks : Asks s a cl es)
    (hends : EndsWith (daemon.step s a) bs) (hfails : Fails p s a bs) :
    (daemon.run s (a :: bs)).persistResourceBusy .ipList = false ∧
      (daemon.run s (a :: bs)).ipl.cycle = s.ipl.cycle.after (sessionEvents (daemon.step s a) bs) := by
  obtain ⟨⟨x, hx⟩, rfl, -⟩ := h
  cases (hasks.ends hx hidle hends).1 with
  | refused e he now writes hs =>
    subst now
    have hipl : (daemon.step s a).ipl = s.ipl := congrArg Addr.ipl hs
    refine ⟨(congrArg Addr.writing hs).trans hidle, ?_⟩
    rw [Machine.run_cons, Machine.run_nil, hipl]
    rfl
  | staged taken unclosed now writes hs =>
    rcases hfails with ⟨e, he⟩ | ⟨w, hw, -⟩
    · exact absurd he (taken e)
    · rw [writes] at hw
      cases hw
  | @written w taken closed writes ends =>
    rcases hfails with ⟨e, he⟩ | ⟨w', hw, hun⟩
    · exact absurd he (taken e)
    · rw [writes, List.mem_singleton] at hw
      subst hw
      exact ⟨ends.idle, ends.unwritten (decide_eq_false (not_not.mpr hun))⟩

/-- **A request that does not fail, in its session**: its entries are folded into the lists. -/
theorem Asks.folds (h : Serving p s) (hidle : s.persistResourceBusy .ipList = false) (hasks : Asks s a cl es)
    (hends : EndsWith (daemon.step s a) bs) (hon : GoesOnFor (daemon.step s a) bs) (hdone : ¬ Fails p s a bs) :
    (daemon.run s (a :: bs)).persistResourceBusy .ipList = false ∧
      (daemon.run s (a :: bs)).ipl.cycle = (s.ipl.cycle.fold es).1 := by
  obtain ⟨⟨x, hx⟩, rfl, -⟩ := h
  obtain ⟨hend, -, hiff⟩ := hasks.ends hx hidle hends
  have hfold : (s.ipl.cycle.fold es).1 = (s.folded es).1.cycle := congrArg Prod.fst (St.folded_cycle s es)
  cases hend with
  | refused e he now writes hs => exact absurd (.inl ⟨e, he⟩) hdone
  | staged taken unclosed now writes hs =>
    subst now
    have hipl : (daemon.step s a).ipl =
        { s.ipl with staging := (s.folded es).1.staging, stagingActive := (s.folded es).1.active } := congrArg Addr.ipl hs
    refine ⟨(congrArg Addr.writing hs).trans hidle, ?_⟩
    rw [Machine.run_cons, Machine.run_nil, hfold, hipl]
    exact Cycle.ext (St.folded_unclosed unclosed).symm rfl rfl
  | @written w taken closed writes ends =>
    have hshown : w.result.outcome ≠ .unchanged := by
      intro hun
      exact hdone (.inr ⟨w, by rw [writes]; exact List.mem_singleton_self w, hun⟩)
    exact ⟨ends.idle, (ends.same (decide_eq_true hshown) (hiff.mp hon)).trans hfold.symm⟩

/-- A request whose list is written. -/
theorem Asks.commits (h : Serving p s) (hidle : s.persistResourceBusy .ipList = false) (hasks : Asks s a cl es)
    (hends : EndsWith (daemon.step s a) bs) {w : FileWrite} (hw : w ∈ writesOf p.ipList (daemon.trace s (a :: bs)))
    (hshown : w.result.outcome ≠ .unchanged) :
    (daemon.run s (a :: bs)).ipl.list = (s.ipl.cycle.fold es).1.committed ∧
      (GoesOnFor (daemon.step s a) bs → (daemon.run s (a :: bs)).ipl.cycle = (s.ipl.cycle.fold es).1) ∧
      (¬ GoesOnFor (daemon.step s a) bs → sessionEvents (daemon.step s a) bs < 2 ^ 32 →
        (daemon.run s (a :: bs)).ipl.cycle = ⟨(s.ipl.cycle.fold es).1.committed, IpList.empty, false⟩) := by
  obtain ⟨⟨x, hx⟩, rfl, -⟩ := h
  obtain ⟨hend, -, hiff⟩ := hasks.ends hx hidle hends
  have hfold : (s.ipl.cycle.fold es).1 = (s.folded es).1.cycle := congrArg Prod.fst (St.folded_cycle s es)
  rw [hfold]
  cases hend with
  | refused e he now writes hs =>
    rw [writes] at hw
    cases hw
  | staged taken unclosed now writes hs =>
    rw [writes] at hw
    cases hw
  | @written w' taken closed writes ends =>
    rw [writes, List.mem_singleton] at hw
    subst hw
    have hshown' := decide_eq_true hshown
    exact ⟨ends.committed hshown', fun hon => ends.same hshown' (hiff.mp hon),
      fun hoff hlt => ends.other hshown' (fun hzero => hoff (hiff.mpr hzero)) hlt⟩

/-- **A session's requests are folded one after the other.** -/
theorem Serial.folds {parts : List (List (Entry × Bool))} (h : Serial p s parts as) (hs : Serving p s)
    (hidle : s.persistResourceBusy .ipList = false) :
    (daemon.run s as).ipl.cycle = parts.foldl (fun c es => (c.fold es).1) s.ipl.cycle := by
  induction h with
  | nil s => rfl
  | @other s a parts as hno on rest ih =>
    obtain ⟨x, hx⟩ := hs.shows
    obtain ⟨hidle', hcycle⟩ := unasked_step hx hs.shut hidle hno
    rw [on.event, Cycle.after_zero] at hcycle
    rw [Machine.run_cons, ih (hs.step a) hidle', hcycle]
  | @request s a cl es bs parts as asks ends on done rest ih =>
    obtain ⟨hidle', hcycle⟩ := asks.folds hs hidle ends on.2 done
    rw [Machine.run_append, ih (hs.run _) hidle', hcycle, List.foldl_cons]
  | @failed s a cl es bs parts as asks ends on fails rest ih =>
    obtain ⟨x, hx⟩ := hs.shows
    obtain ⟨hidle', hcycle⟩ := asks.fails hs hidle ends fails
    rw [(asks.ends hx hidle ends).2.2.mp on.2, Cycle.after_zero] at hcycle
    rw [Machine.run_append, ih (hs.run _) hidle', hcycle]

/-- A write under way ends at some action of a run that ends without one. -/
theorem endsWith_of_idle (h : (daemon.run s as).persistResourceBusy .ipList = false) :
    ∃ bs cs, as = bs ++ cs ∧ EndsWith s bs := by
  induction as generalizing s with
  | nil => exact ⟨[], [], rfl, h⟩
  | cons a as ih =>
    cases hbusy : s.persistResourceBusy .ipList with
    | false => exact ⟨[], a :: as, rfl, hbusy⟩
    | true =>
      obtain ⟨bs, cs, rfl, hends⟩ := ih h
      exact ⟨a :: bs, cs, rfl, hbusy, hends⟩

theorem GoesOnFor.append (h : GoesOnFor s (as ++ bs)) : GoesOnFor s as ∧ GoesOnFor (daemon.run s as) bs := by
  induction as generalizing s with
  | nil => exact ⟨trivial, h⟩
  | cons a as ih =>
    obtain ⟨hfirst, hrest⟩ := h
    obtain ⟨has, hbs⟩ := ih hrest
    exact ⟨⟨hfirst, has⟩, hbs⟩

/-- **Every session is a sequence of requests.** -/
theorem serial_of_goesOnFor (p : Paths) (n : Nat) (hn : as.length ≤ n) (hon : GoesOnFor s as)
    (hidle : (daemon.run s as).persistResourceBusy .ipList = false) : ∃ parts, Serial p s parts as := by
  induction n generalizing s as with
  | zero =>
    obtain rfl := List.length_eq_zero_iff.mp (Nat.le_zero.mp hn)
    exact ⟨[], .nil s⟩
  | succ n ih =>
    cases as with
    | nil => exact ⟨[], .nil s⟩
    | cons a as =>
      rw [List.length_cons] at hn
      by_cases hasks : ∃ cl es, Asks s a cl es
      · obtain ⟨cl, es, hasks⟩ := hasks
        obtain ⟨bs, cs, rfl, hends⟩ := endsWith_of_idle (s := daemon.step s a) hidle
        obtain ⟨hbs, hcs⟩ := hon.2.append
        rw [List.length_append] at hn
        have hrun : daemon.run s (a :: (bs ++ cs)) = daemon.run (daemon.run s (a :: bs)) cs :=
          daemon.run_append s (a :: bs) cs
        rw [hrun] at hidle
        obtain ⟨parts, hrest⟩ := @ih (daemon.run s (a :: bs)) cs (by omega) hcs hidle
        by_cases hfails : Fails p s a bs
        · exact ⟨parts, .failed hasks hends ⟨hon.1, hbs⟩ hfails hrest⟩
        · exact ⟨es :: parts, .request hasks hends ⟨hon.1, hbs⟩ hfails hrest⟩
      · obtain ⟨parts, hrest⟩ := @ih (daemon.step s a) as (by omega) hon.2 hidle
        exact ⟨parts, .other (fun cl es h => hasks ⟨cl, es, h⟩) hon.1 hrest⟩

end Serials

/-! ## Every state -/

/-- The client is told that its list request failed, with this cause. -/
def AnsweredNg (s : St) (a : Action) (cl : Client) (cause : BitVec 16) : Prop :=
  ∃ f, sends (daemon.out s a) = [(cl.ip, cl.port, f)] ∧ setIpConfigListAckUnpack f = some (resultNg, cause)

/-- The first wrong entry is answered, unless the writer refuses the list. -/
theorem Asks.answered {s : St} {a : Action} {cl : Client} {es : List (Entry × Bool)} {x : Sys}
    (hx : Shows false x ⟨s, []⟩) (hidle : s.persistResourceBusy .ipList = false) (h : Asks s a cl es)
    (hres : ∀ e, .reserve s.paths.ipList (.error e) ∉ daemon.out s a) {cause : BitVec 16}
    (hcause : (s.ipl.cycle.fold es).2 = some cause) : AnsweredNg s a cl cause := by
  have herr : (s.folded es).2 = some cause := (congrArg Prod.snd (St.folded_cycle s es)).symm.trans hcause
  rcases list_served hx h.enters with hleaves | ⟨t, htakes⟩
  · rcases hleaves.why with hlate | hout | hbusy | ⟨e, he⟩
    · exact absurd h.inTime hlate
    · cases h.owns.symm.trans hout
    · cases hidle.symm.trans hbusy
    · exact absurd he (hres e)
  · have hval : t.val = listAck cl resultNg cause := by
      cases htakes.entered with
      | staged idle unclosed hw hs hval => rw [hval, herr]; rfl
      | unwritten idle sync closed hr hw hs hval => rw [hval, herr]; rfl
      | published idle sync closed hr hw hs hval => rw [hval, herr]; rfl
      | pended idle closed hw hmem hs hval => rw [hval, herr]; rfl
    obtain ⟨f, hf, hne⟩ := simpleAckPack_frameMax Command.setIpConfigList.id cl.seq simpleAckLength resultNg cause
    have hack : listAck cl resultNg cause = f := by
      rw [listAck, setIpConfigListAckPack, txCap, hf, Option.getD_some]
    refine ⟨f, ?_, simpleAckUnpack_simpleAckPack hf⟩
    rw [htakes.sends, hval, hack, response, if_pos hne]

/-- **SetIpConfigList is a fold.** From every state in which no list is being written, a request of the session's
holder that does not fail, in a session that goes on until its write has ended, folds its entries into the lists, up to
the first that is wrong; this one's cause is answered. Entries of which none is wrong lead to the same lists in whatever
way they are cut into requests. The writer refuses a request only if it cannot hold the path. -/
theorem ip_config_list_folds (conf : Conf) (paths : Paths) (d : Disk) (start : StartEnv) (as : List Action) {s : St}
    (hs : daemon.run (startup conf paths d start).st as = s) (hidle : s.persistResourceBusy .ipList = false) :
    (∀ a cl es bs, Asks s a cl es → EndsWith (daemon.step s a) bs → GoesOnFor (daemon.step s a) bs →
      ¬ Fails paths s a bs → (daemon.run s (a :: bs)).ipl.cycle = (s.ipl.cycle.fold es).1 ∧
        ∀ cause, (s.ipl.cycle.fold es).2 = some cause → AnsweredNg s a cl cause) ∧
    (∀ parts bs, Serial paths s parts bs → (s.ipl.cycle.fold parts.flatten).2 = none →
      (daemon.run s bs).ipl.cycle = (s.ipl.cycle.fold parts.flatten).1) ∧
    (paths.ipList.length < pathMax → ∀ a cl es, Asks s a cl es →
      ∀ e, .reserve paths.ipList (.error e) ∉ daemon.out s a) := by
  have hserving : Serving paths s := hs ▸ serving_startup conf paths d start as
  obtain ⟨x, hx⟩ := hserving.shows
  refine ⟨fun a cl es bs hasks hends hon hdone => ⟨(hasks.folds hserving hidle hends hon hdone).2, fun cause hcause => ?_⟩,
    fun parts bs hserial hok => ?_, fun hshort a cl es hasks e => ?_⟩
  · refine hasks.answered hx hidle (fun e he => hdone (.inl ⟨e, ?_⟩)) hcause
    rwa [hserving.paths] at he
  · rw [hserial.folds hserving hidle]
    exact (foldOk_flatten parts hok).symm
  · have hpaths := hserving.paths
    subst hpaths
    exact hasks.reserved hx hshort e

/-- The session's holder sends a list of one entry. -/
def Action.holderSets (seq : BitVec 16) (e : Entry) : Action :=
  .fromHolder (setIpConfigListReqPack frameMax seq [(e, true)])

theorem Asks.holderSets {s : St} {seq : BitVec 16} {e : Entry}
    (frame : let f := frameOf ((setIpConfigListReqPack frameMax seq [(e, true)]).getD [])
      (Action.holderSets seq e).source = some (⟨0xC0A80001, 50000, seq⟩, f) ∧ setIpConfigListReqUnpack f = .ok [(e, true)])
    (live : s.sessionOwns 0xC0A80001 = true ∧ 0 < s.session.idleDeadline) :
    Asks s (.holderSets seq e) ⟨0xC0A80001, 50000, seq⟩ [(e, true)] :=
  ⟨⟨_, frame⟩, live.1, fun _ => live.2⟩

def Action.holderSetsSlotFive : Action := .holderSets 2 IpList.sampleEntry

/-- The writer's turns with this answer, and the reconciliation. -/
def writerEnds (r : WriteResult) : List Action := List.replicate 4 (.worker r) ++ [.storeReady (Env.allOk 0).ready]

/-- The holder's session on a device with no files. -/
def holderSession : St := daemon.run firstBoot [.holderLogin]

/-- The first entry of a list, and its last. -/
def firstEntry : Entry := { IpList.sampleEntry with boundaryFlag := Boundary.start }

def lastEntry : Entry := { IpList.sampleEntry with boundaryFlag := Boundary.fin, listNumber := 6 }

/-- **A list cut into two requests**, of which the first has nothing to write. -/
theorem ip_config_list_folds_cut :
    (daemon.run holderSession
      (.holderSets 2 firstEntry :: .holderSets 3 lastEntry :: writerEnds Env.durableWrite)).ipl.cycle =
      (holderSession.ipl.cycle.fold [(firstEntry, true), (lastEntry, true)]).1 := by
  obtain ⟨-, hcut, hreserved⟩ := @ip_config_list_folds defaultConf defaultPaths (fun _ => .absent) .allOk [.holderLogin]
    holderSession rfl (by decide +kernel)
  have hreserved' := (@ip_config_list_folds defaultConf defaultPaths (fun _ => .absent) .allOk
    ([.holderLogin] ++ [.holderSets 2 firstEntry]) _ (daemon.run_append firstBoot _ _) (by decide +kernel)).2.2
  have hopens : Asks holderSession (.holderSets 2 firstEntry) _ _ := .holderSets (by decide +kernel) (by decide +kernel)
  have hcloses : Asks (daemon.run holderSession [.holderSets 2 firstEntry]) (.holderSets 3 lastEntry) _ _ :=
    .holderSets (by decide +kernel) (by decide +kernel)
  have hsecond : Serial defaultPaths (daemon.run holderSession [.holderSets 2 firstEntry]) [[(lastEntry, true)]]
      (.holderSets 3 lastEntry :: writerEnds Env.durableWrite ++ []) := by
    refine .request hcloses (by decide +kernel) (by decide +kernel) ?_ (.nil _)
    rintro (⟨e, he⟩ | ⟨w, hw, hun⟩)
    · exact hreserved' (by decide +kernel) _ _ _ hcloses e he
    · revert w
      decide +kernel
  have hserial : Serial defaultPaths holderSession [[(firstEntry, true)], [(lastEntry, true)]]
      (.holderSets 2 firstEntry :: [] ++ (.holderSets 3 lastEntry :: writerEnds Env.durableWrite ++ [])) := by
    refine .request hopens (by decide +kernel) (by decide +kernel) ?_ hsecond
    rintro (⟨e, he⟩ | ⟨w, hw, hun⟩)
    · exact hreserved (by decide +kernel) _ _ _ hopens e he
    · revert w
      decide +kernel
  have hfold := hcut _ _ hserial (by decide +kernel)
  simp only [List.cons_append, List.nil_append, List.append_nil, List.flatten_cons, List.flatten_nil] at hfold
  exact hfold

theorem asks_holderSetsSlotFive :
    Asks holderSession .holderSetsSlotFive ⟨0xC0A80001, 50000, 2⟩
      [(IpList.sampleEntry, true)] := .holderSets (by decide +kernel) (by decide +kernel)

/-- **A list write that fails leaves no trace, and none leaks into another session.** From every state in which no list is
being written:

* a request that fails leaves the lists as they would be without it, with the same sessions ending and beginning;
* a request whose list is written commits its list, and leaves its cycle open only in the session that sent it;
* where a session ends or begins, the cycle is closed and empty;
* a session's lists are the fold of the entries of its own requests that did not fail. -/
theorem ip_config_list_confined (conf : Conf) (paths : Paths) (d : Disk) (start : StartEnv) (as : List Action) {s : St}
    (hs : daemon.run (startup conf paths d start).st as = s) (hidle : s.persistResourceBusy .ipList = false) :
    (∀ a cl es bs, Asks s a cl es → EndsWith (daemon.step s a) bs → Fails paths s a bs →
      (daemon.run s (a :: bs)).ipl.cycle = s.ipl.cycle.after (sessionEvents (daemon.step s a) bs)) ∧
    (∀ bs, Unasked s bs → (daemon.run s bs).ipl.cycle = s.ipl.cycle.after (sessionEvents s bs)) ∧
    (∀ a cl es bs, Asks s a cl es → EndsWith (daemon.step s a) bs →
      ∀ w ∈ writesOf paths.ipList (daemon.trace s (a :: bs)), w.result.outcome ≠ .unchanged →
      (daemon.run s (a :: bs)).ipl.list = (s.ipl.cycle.fold es).1.committed ∧
      (GoesOnFor (daemon.step s a) bs → (daemon.run s (a :: bs)).ipl.cycle = (s.ipl.cycle.fold es).1) ∧
      (¬ GoesOnFor (daemon.step s a) bs → sessionEvents (daemon.step s a) bs < 2 ^ 32 →
        (daemon.run s (a :: bs)).ipl.cycle = ⟨(s.ipl.cycle.fold es).1.committed, IpList.empty, false⟩)) ∧
    (∀ bs a, ¬ GoesOn (daemon.run s bs) a →
      (daemon.run s (bs ++ [a])).ipl.staging = IpList.empty ∧ (daemon.run s (bs ++ [a])).ipl.stagingActive = false) ∧
    (∀ bs, GoesOnFor s bs → (daemon.run s bs).persistResourceBusy .ipList = false → ∃ parts, Serial paths s parts bs ∧
        (daemon.run s bs).ipl.cycle = parts.foldl (fun c es => (c.fold es).1) s.ipl.cycle) := by
  have hserving : Serving paths s := hs ▸ serving_startup conf paths d start as
  refine ⟨fun a cl es bs hasks hends hfails => (hasks.fails hserving hidle hends hfails).2,
    fun bs hun => unasked_run hserving hidle hun,
    fun a cl es bs hasks hends w hw hshown => hasks.commits hserving hidle hends hw hshown, fun bs a hno => ?_,
    fun bs hon hdone => ?_⟩
  · have hthen := hserving.run bs
    obtain ⟨x', hx'⟩ := hthen.shows
    have hclosed := closed_of_not_goesOn hx' hthen.shut hno
    rw [Machine.run_snoc]
    exact ⟨congrArg Cycle.staging hclosed, congrArg Cycle.active hclosed⟩
  · obtain ⟨parts, hserial⟩ := serial_of_goesOnFor paths bs.length (le_refl _) hon hdone
    exact ⟨parts, hserial, hserial.folds hserving hidle⟩

/-- The list is not written, and its session ends before that is known. -/
def logoutThenUnwritten : List Action := .fromHolder (logoutReqPack frameMax 3) :: writerEnds ⟨.unchanged, 28⟩

theorem ip_config_list_confined_unwritten :
    (daemon.run holderSession (.holderSetsSlotFive :: logoutThenUnwritten)).ipl.cycle =
      holderSession.ipl.cycle.drop := by
  have hfails : Fails defaultPaths holderSession .holderSetsSlotFive logoutThenUnwritten := by
    right
    decide +kernel
  have hevents : sessionEvents (daemon.step holderSession .holderSetsSlotFive) logoutThenUnwritten = 1 := by
    decide +kernel
  have h := (@ip_config_list_confined defaultConf defaultPaths (fun _ => .absent) .allOk [.holderLogin] holderSession
    rfl (by decide +kernel)).1 _ _ _ logoutThenUnwritten asks_holderSetsSlotFive (by decide +kernel) hfails
  rw [hevents] at h
  exact h

end Opcd
