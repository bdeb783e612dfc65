import Opcd.Lib.Coalesce
import Opcd.Nl80211.Stage

/-!
# One drain of the netlink socket

`nxp_drain_events` of `platform_nxp.c` with its table: the datagrams that are waiting are received and staged one
message after the other, `nl_coalesce_put` keeps the latest event of each kind and interface, and what is in the
table is delivered at the end.

What the kernel answers while a message is staged (the name of its interface, the operating frequency, the link)
is part of what is received. The callback sees the calls made before, so it may keep a context.

* `table_stageAll`: the table after any events, which has room for the next one.
* `nxpDrainEvents_eq`: a drain stages the events it receives, and delivers the table.
* `drain_delivers_latest`: what the callback is called with.
-/

namespace Opcd.Nl80211

open Bytes

/-! ## The table -/

/-- `OPCD_PEVT_*`, the kinds that are staged. -/
inductive PevtKind
  | wlanStatus | roaming | apDisconnect
  deriving DecidableEq, Repr

instance instFintypePevtKind : Fintype PevtKind where
  elems := {.wlanStatus, .roaming, .apDisconnect}
  complete k := by cases k <;> simp

namespace PlatformEvt

def kind : PlatformEvt → PevtKind
  | .wlanStatus .. => .wlanStatus
  | .roaming .. => .roaming
  | .apDisconnect .. => .apDisconnect

/-- `coalesce_idx`. -/
def coalesceIdx : PlatformEvt → Fin 2
  | .wlanStatus idx .. => idx
  | .roaming idx .. => idx
  | .apDisconnect idx .. => idx

/-- What an event replaces another by. -/
def slot (e : PlatformEvt) : PevtKind × Fin 2 := (e.kind, e.coalesceIdx)

end PlatformEvt

/-- `NL_COALESCE_MAX`. -/
def nlCoalesceMax : Nat := 8

/-- `tab` and `count`, and whether an event was dropped. -/
structure CoalesceTab where
  rows : List PlatformEvt
  full : Bool
  deriving DecidableEq

namespace CoalesceTab

def empty : CoalesceTab := ⟨[], false⟩

/-- `nl_coalesce_put`. -/
def put (tab : CoalesceTab) (evt : PlatformEvt) : CoalesceTab :=
  match tab.rows.findIdx? fun r => r.kind = evt.kind ∧ r.coalesceIdx = evt.coalesceIdx with
  | some i => { tab with rows := tab.rows.set i evt }
  | none =>
    if tab.rows.length < nlCoalesceMax then { tab with rows := tab.rows ++ [evt] }
    else { tab with full := true }

end CoalesceTab

/-! ## The drain -/

/-- What the kernel answers for one message: `if_indextoname`, `nxp_query_iface` and `nxp_get_link`. -/
structure Answers where
  name : Option Bytes
  iface : Option (BitVec 32 × BitVec 16)
  link : LinkSignal

/-- `nl_ifindex_to_idx`. -/
def nlIfindexToIdx (ifindex : Int) (name : Option Bytes) : Option (Fin 2) :=
  if ifindex ≤ 0 then none
  else if name = some (ofString "mlan0") then some 0
  else if name = some (ofString "mlan1") then some 1
  else none

/-- How a `recv` ends. A datagram comes with the answers for each message of it. -/
inductive Recv
  | datagram (b : Bytes) (answers : Nat → Answers)
  | empty
  | again | interrupted | noBuffers | failed

/-- What a drain keeps: the latches and the table. -/
structure Drained where
  latches : Latches
  tab : CoalesceTab

/-- `nl_stage_evt`, with the table. -/
def Drained.stage (d : Drained) (x : Input) : Drained :=
  ⟨(stageEvt d.latches x).1, (stageEvt d.latches x).2.foldl .put d.tab⟩

/-- The event of a message, if it is for one of the two interfaces. -/
def Answers.input (a : Answers) (e : Evt) : Option Input :=
  (nlIfindexToIdx e.ifindex.toInt a.name).map fun idx => ⟨idx, e, a.iface, a.link⟩

/-- The events of a datagram, the first of them numbered `k`. -/
def stageMessages (answers : Nat → Answers) (d : Drained) (k : Nat) : List Evt → Drained
  | [] => d
  | e :: es =>
    match (answers k).input e with
    | none => stageMessages answers d (k + 1) es
    | some x => stageMessages answers (d.stage x) (k + 1) es

/-- The receive loop of `nxp_drain_events`. When nothing more is given, the socket has nothing more. -/
def recvLoop (family : Int) (d : Drained) : List Recv → Option Drained
  | [] => some d
  | .datagram b answers :: rs =>
    match drainMessages b b.length family 0 with
    | none => none
    | some es => recvLoop family (stageMessages answers d 0 es) rs
  | .interrupted :: rs | .noBuffers :: rs => recvLoop family d rs
  | .again :: _ | .failed :: _ | .empty :: _ => some d

/-- A callback: what it returns, after the calls before. -/
abbrev Callback := List PlatformEvt → PlatformEvt → Int

/-- The delivery of the rows after the calls `calls`: all the calls, and what is returned. -/
def deliver (cb : Callback) (calls : List PlatformEvt) : List PlatformEvt → List PlatformEvt × Int
  | [] => (calls, 0)
  | e :: es =>
    let rc := cb calls e
    if rc > 0 then (calls ++ [e], rc) else deliver cb (calls ++ [e]) es

/-- What a drain leaves: the latches, the table it had, the calls it made and what it returns. -/
structure DrainResult where
  latches : Latches
  tab : CoalesceTab
  calls : List PlatformEvt
  rc : Int

/-- `nxp_drain_events`. Without a socket there is nothing to do. -/
def nxpDrainEvents (hasFd : Bool) (family : Int) (cb : Callback) (s : Latches) (rs : List Recv) :
    Option DrainResult :=
  if hasFd then
    (recvLoop family ⟨s, .empty⟩ rs).map fun d =>
      ⟨d.latches, d.tab, (deliver cb [] d.tab.rows).1, (deliver cb [] d.tab.rows).2⟩
  else some ⟨s, .empty, [], 0⟩

/-! ## The table after any events -/

theorem card_slot : Fintype.card (PevtKind × Fin 2) = 6 := by decide

variable {tab : CoalesceTab} {es : List PlatformEvt}

/-- With a free row, a put is that of a coalescing table. -/
theorem CoalesceTab.put_eq (h : tab.rows.length < nlCoalesceMax) (e : PlatformEvt) :
    tab.put e = { tab with rows := Coalesce.put PlatformEvt.slot e tab.rows } := by
  have hsame : (fun r : PlatformEvt => decide (r.slot = e.slot)) =
      fun r => decide (r.kind = e.kind ∧ r.coalesceIdx = e.coalesceIdx) := by
    funext r
    simp [PlatformEvt.slot]
  rw [Coalesce.put_eq_set, hsame]
  unfold put
  cases tab.rows.findIdx? fun r => r.kind = e.kind ∧ r.coalesceIdx = e.coalesceIdx with
  | none => simp [h]
  | some i => rfl

/-- The table after the events `es`: the latest of each kind and interface, and nothing was dropped. -/
structure CoalesceTab.Holds (tab : CoalesceTab) (es : List PlatformEvt) : Prop where
  keeps : Coalesce.Keeps PlatformEvt.slot es tab.rows
  room : tab.full = false

/-- There are fewer kinds and interfaces than rows. -/
theorem CoalesceTab.Holds.length_lt (h : tab.Holds es) : tab.rows.length < nlCoalesceMax := by
  have hle := h.keeps.length_le
  have hmax : nlCoalesceMax = 8 := rfl
  rw [card_slot] at hle
  omega

theorem CoalesceTab.Holds.put (h : tab.Holds es) (e : PlatformEvt) : (tab.put e).Holds (es ++ [e]) := by
  rw [CoalesceTab.put_eq h.length_lt]
  exact ⟨Coalesce.keeps_put h.keeps e, h.room⟩

theorem CoalesceTab.Holds.puts (h : tab.Holds es)
    (new : List PlatformEvt) : (new.foldl .put tab).Holds (es ++ new) := by
  induction new generalizing tab es with
  | nil => simpa using h
  | cons e new ih => simpa using ih (h.put e)

/-- The events staged one after the other. -/
def Drained.stageAll (d : Drained) (xs : List Input) : Drained := xs.foldl .stage d

/-- **The table after any events** is that of what the staging puts out. -/
theorem table_stageAll {d : Drained} (h : d.tab.Holds es) (xs : List Input) :
    (d.stageAll xs).latches = staging.run d.latches xs ∧
      (d.stageAll xs).tab.Holds (es ++ staging.trace d.latches xs) := by
  induction xs generalizing d es with
  | nil => exact ⟨rfl, by rw [Machine.trace_nil, List.append_nil]; exact h⟩
  | cons x xs ih =>
    have hx : (d.stage x).tab.Holds (es ++ staging.out d.latches x) := h.puts _
    obtain ⟨hlatches, htab⟩ := ih hx
    refine ⟨hlatches, ?_⟩
    rw [Machine.trace_cons, ← List.append_assoc]
    exact htab

/-! ## What is received -/

/-- The events of a datagram that are for the two interfaces. -/
def inputs (answers : Nat → Answers) (k : Nat) : List Evt → List Input
  | [] => []
  | e :: es => ((answers k).input e).toList ++ inputs answers (k + 1) es

/-- The events that a drain receives. -/
def received (family : Int) : List Recv → Option (List Input)
  | [] => some []
  | .datagram b answers :: rs =>
    match drainMessages b b.length family 0 with
    | none => none
    | some es => (received family rs).map (inputs answers 0 es ++ ·)
  | .interrupted :: rs | .noBuffers :: rs => received family rs
  | .again :: _ | .failed :: _ | .empty :: _ => some []

theorem stageMessages_eq (answers : Nat → Answers) (d : Drained) (k : Nat) (es : List Evt) :
    stageMessages answers d k es = d.stageAll (inputs answers k es) := by
  induction es generalizing d k with
  | nil => rfl
  | cons e es ih =>
    unfold stageMessages inputs
    cases (answers k).input e with
    | none => exact ih d (k + 1)
    | some x => exact ih (d.stage x) (k + 1)

theorem recvLoop_eq (family : Int) (d : Drained) (rs : List Recv) :
    recvLoop family d rs = (received family rs).map d.stageAll := by
  induction rs generalizing d with
  | nil => rfl
  | cons r rs ih =>
    cases r with
    | datagram b answers =>
      unfold recvLoop received
      cases drainMessages b b.length family 0 with
      | none => rfl
      | some es =>
        dsimp only
        rw [ih, stageMessages_eq]
        cases received family rs with
        | none => rfl
        | some xs => simp [Drained.stageAll]
    | interrupted => exact ih d
    | noBuffers => exact ih d
    | empty => rfl
    | again => rfl
    | failed => rfl

/-- No read of a drain is outside of what was received. -/
theorem isSome_received (family : Int) (rs : List Recv) : (received family rs).isSome := by
  induction rs with
  | nil => rfl
  | cons r rs ih =>
    cases r with
    | datagram b answers =>
      obtain ⟨es, hes⟩ := Option.isSome_iff_exists.mp (isSome_drainMessages le_rfl family 0 (b := b))
      unfold received
      rw [hes]
      simpa using ih
    | interrupted => exact ih
    | noBuffers => exact ih
    | empty => rfl
    | again => rfl
    | failed => rfl

/-! ## What is delivered -/

/-- A callback that does not stop is called with every row. -/
theorem deliver_all {cb : Callback} (hcb : ∀ calls e, cb calls e ≤ 0) (calls rows : List PlatformEvt) :
    deliver cb calls rows = (calls ++ rows, 0) := by
  induction rows generalizing calls with
  | nil => simp [deliver]
  | cons e rows ih =>
    have hgo : ¬ cb calls e > 0 := not_lt.mpr (hcb calls e)
    simp [deliver, hgo, ih]

/-- The calls for the staged events: one for each kind and interface, with the latest event of it, in the order
in which they were first staged. -/
structure Delivered (staged calls : List PlatformEvt) : Prop where
  once : ∀ k, (calls.map PlatformEvt.slot).count k = if k ∈ staged.map PlatformEvt.slot then 1 else 0
  latest : ∀ e ∈ calls, staged.latest (fun x => x.slot = e.slot) = some e
  order : (calls.map PlatformEvt.slot).Pairwise fun j k =>
    (staged.map PlatformEvt.slot).idxOf j < (staged.map PlatformEvt.slot).idxOf k

theorem delivered_of_keeps {staged rows : List PlatformEvt}
    (h : Coalesce.Keeps PlatformEvt.slot staged rows) : Delivered staged rows :=
  ⟨h.count_key, fun e he => (h.latest e).mp he, h.order⟩

/-- **A drain delivers the latest events.** Whatever is staged for the two interfaces, with a callback that does
not stop: the table is never full, and the callback is called once for each kind and interface that was staged,
with the latest event of it, in the order of the first ones. So it is for what is received in one drain, which
returns 0. -/
theorem drain_delivers_latest (family : Int) (cb : Callback) (hcb : ∀ calls e, cb calls e ≤ 0) (s : Latches) :
    (∀ xs : List Input,
      let d := Drained.stageAll ⟨s, .empty⟩ xs
      d.tab.full = false ∧ Delivered (staging.trace s xs) (deliver cb [] d.tab.rows).1) ∧
    ∀ rs : List Recv, ∃ xs r, received family rs = some xs ∧ nxpDrainEvents true family cb s rs = some r ∧
      r.tab.full = false ∧ r.rc = 0 ∧ Delivered (staging.trace s xs) r.calls := by
  have hempty : CoalesceTab.empty.Holds [] := ⟨Coalesce.keeps_nil, rfl⟩
  have hall : ∀ xs : List Input,
      let d := Drained.stageAll ⟨s, .empty⟩ xs
      d.tab.full = false ∧ Delivered (staging.trace s xs) (deliver cb [] d.tab.rows).1 := by
    intro xs
    obtain ⟨-, htab⟩ := table_stageAll (d := ⟨s, .empty⟩) hempty xs
    refine ⟨htab.room, ?_⟩
    rw [deliver_all hcb]
    exact delivered_of_keeps htab.keeps
  refine ⟨hall, fun rs => ?_⟩
  obtain ⟨xs, hxs⟩ := Option.isSome_iff_exists.mp (isSome_received family rs)
  obtain ⟨hroom, hcalls⟩ := hall xs
  have hdrain : nxpDrainEvents true family cb s rs =
      let d := Drained.stageAll ⟨s, .empty⟩ xs
      some ⟨d.latches, d.tab, (deliver cb [] d.tab.rows).1, (deliver cb [] d.tab.rows).2⟩ := by
    rw [nxpDrainEvents, if_pos rfl, recvLoop_eq, hxs]
    rfl
  exact ⟨xs, _, hxs, hdrain, hroom, congrArg Prod.snd (deliver_all hcb _ _), hcalls⟩

/-- An association, the loss of it, a roaming of the other interface and a new association, with a callback that
does not stop. -/
theorem drain_delivers_latest_reassociation :
    let silent : LinkSignal := ⟨0, false, 0, false⟩
    let xs : List Input :=
      [⟨0, { Evt.zero with kind := .connect, channel := 6, freqMhz := 2437 }, none, silent⟩,
        ⟨0, { Evt.zero with kind := .disconnect, byAp := true, reasonCode := 4 }, none, silent⟩,
        ⟨1, { Evt.zero with kind := .roam, channel := 36, freqMhz := 5180 }, none, silent⟩,
        ⟨0, { Evt.zero with kind := .connect, channel := 11, freqMhz := 2462 }, none, silent⟩]
    let d := Drained.stageAll ⟨.init, .empty⟩ xs
    (staging.trace .init xs).length = 5 ∧
      (deliver (fun _ _ => 0) [] d.tab.rows).1.map PlatformEvt.slot =
        [(.wlanStatus, 0), (.apDisconnect, 0), (.roaming, 1)] ∧
      Delivered (staging.trace .init xs) (deliver (fun _ _ => 0) [] d.tab.rows).1 :=
  ⟨by decide, by decide,
    ((drain_delivers_latest 0 (fun _ _ => 0) (fun _ _ => le_rfl) .init).1 _).2⟩

end Opcd.Nl80211
