import Opcd.Daemon.ChangeIp
import Opcd.Daemon.Notices
import Opcd.Nl80211.Drain

/-!
# The main loop

`daemon` takes its actions in any order. The loop of `main` takes them in cycles: what `epoll_wait` found readable is
served descriptor by descriptor, the UDP socket in batches that end once an IP change is armed, and the armed change
is applied at the end of the cycle. A cycle is given by what was readable, with the answers of the environment; turns
of the writer's thread may stand anywhere between. Log output, the watchdog and the retry of the firmware version
are left out.

* `Main.run_st`: the loop makes runs of the daemon, so what holds along those holds in the loop.
* **`armed_change_first`**: a datagram that finds a change armed comes before the frames of its cycle.
-/

namespace Opcd

open Bytes Protocol Store Indication

/-- `OPCD_INGRESS_BATCH_MAX` -/
def ingressBatchMax : Nat := 16

/-! ## Reports -/

/-- `wlan_status_to_wire`. -/
def wlanStatusToWire : Nl80211.LinkStatus → BitVec 16
  | .associated | .channelChange => wlanStatusConnected
  | .up => 2

/-- `on_platform_event`: events of the second WLAN are dropped. -/
def onPlatformEvent (sends : Sends) (now : Nat) : Nl80211.PlatformEvt → Option Input
  | .wlanStatus idx status channel =>
    if idx ≠ 0 then none else some (.wlanStatus sends now ⟨wlanStatusToWire status, channel⟩)
  | .roaming idx snr rssi channel mac => if idx ≠ 0 then none else some (.roaming sends ⟨snr, rssi, mac, channel⟩)
  | .apDisconnect idx reason result mac => if idx ≠ 0 then none else some (.apDisconnect sends ⟨reason, result, mac⟩)

/-- A datagram of the roam-notify socket. One that is empty, over 512 bytes or malformed is dropped. -/
def onRoamDatagram (sends : Sends) (d : Bytes) : Option Input :=
  if d = [] ∨ 512 < d.length then none
  else
    (Platform.roamDatagramToEvt (cstr d)).bind fun r =>
      if r.idx ≠ 0 then none else some (.roaming sends ⟨r.snr, r.rssi, r.mac, r.channel⟩)

/-- The notifier's part of an action. -/
def St.report (st : St) (i : Input) : Action :=
  .notices (st.ind.take i).ind ((st.ind.take i).out.filterMap Event.datagram?)

def St.reports (st : St) : List Input → List Action
  | [] => []
  | i :: is => st.report i :: (daemon.step st (st.report i)).reports is

/-! ## The UDP socket -/

/-- A datagram, with the answers it is served with. -/
structure Rx where
  env : Env
  revert : ApplyResult
  ip : BitVec 32
  port : BitVec 16
  bytes : Bytes

def Rx.action (x : Rx) : Action := .datagram x.env x.revert x.ip x.port x.bytes

/-- The intake finds a frame. -/
def Rx.framed (x : Rx) : Bool := St.intakeFrameLen (x.bytes.take frameMax) ≠ 0

/-- A batch of at most `n` receptions, `none` where one is interrupted. After a frame the loop looks for an armed IP
change; a datagram without one is answered, and the next is received. -/
def St.udpBatch (st : St) : Nat → List (Option Rx) → List Action
  | 0, _ | _, [] => []
  | n + 1, none :: xs => st.udpBatch n xs
  | n + 1, some x :: xs =>
    x.action ::
      if x.framed ∧ (daemon.step st x.action).chg.commitArmed then [] else (daemon.step st x.action).udpBatch n xs

/-! ## Cycles -/

/-- `opcd_shutdown_reset_cause`: of a reset that the system did not name, the cause is `OPC_RESET_CAUSE_SYSTEM`. -/
def shutdownResetCause (stopping : Int) (fileCause : BitVec 32) : BitVec 32 :=
  if stopping ≠ 1 then 0 else if fileCause ≠ 0 then fileCause else 2

/-- A readable descriptor, with what is read from it and the answers of the environment. -/
inductive Ready
  /-- the signals, and what `opcd_system_stopping` and `opcd_reset_cause_read` answer -/
  | signal (signos : List Nat) (stopping : Int) (fileCause : BitVec 32) (sends : Sends)
  | timer (expirations : List (BitVec 64)) (now : Nat) (env : TickEnv)
  | store (env : ReadyEnv)
  | events (rs : List Nl80211.Recv) (sends : Sends) (now : Nat)
  | roam (ds : List (Option (Sends × Bytes)))
  | udp (xs : List (Option Rx))
  /-- the writer's thread, meanwhile -/
  | worker (r : WriteResult)

def Ready.isUdp : Ready → Bool
  | .udp _ => true
  | _ => false

/-- What `epoll_wait` returns: each descriptor once. `ok` answers the apply at the end of the cycle. -/
structure Wait where
  ready : List Ready
  once : ready.countP Ready.isUdp ≤ 1
  ok : Bool

/-- The variables of the loop. -/
structure Main where
  st : St
  family : Int
  latches : Nl80211.Latches
  /-- the platform's descriptor is still waited for -/
  evtFd : Bool
  shouldExit : Bool

namespace Main

/-- The drain of the platform's events, whose callback never stops it. -/
def drain (m : Main) (rs : List Nl80211.Recv) : Nl80211.DrainResult :=
  (Nl80211.nxpDrainEvents m.evtFd m.family (fun _ _ => 0) m.latches rs).getD ⟨m.latches, .empty, [], 0⟩

/-- What is done for a descriptor. -/
def actions (m : Main) : Ready → List Action
  | .signal signos stopping fileCause sends =>
    let cause := shutdownResetCause stopping fileCause
    -- the first signal read counts; SIGTERM is 15
    if signos.head? = some 15 ∧ cause ≠ 0 then [m.st.report (.resetNotice sends cause)] else []
  | .timer expirations now env =>
    let elapsed := min expirations.sum.toNat 0xFFFFFFFF
    [.timer now, (daemon.step m.st (.timer now)).report (.tick env (BitVec.ofNat 32 elapsed))]
  | .store env => [.storeReady env]
  | .events rs sends now => m.st.reports ((m.drain rs).calls.filterMap (onPlatformEvent sends now))
  | .roam ds => m.st.reports ((ds.take ingressBatchMax).reduceOption.filterMap fun d => onRoamDatagram d.1 d.2)
  | .udp xs => m.st.udpBatch ingressBatchMax xs
  | .worker r => [.worker r]

/-- The variables after it. -/
def serve (m : Main) (r : Ready) : Main :=
  let m' := { m with st := daemon.run m.st (m.actions r) }
  match r with
  | .signal .. => { m' with shouldExit := true }
  | .events rs .. => { m' with latches := (m.drain rs).latches, evtFd := m.evtFd && decide (0 ≤ (m.drain rs).rc) }
  | _ => m'

/-- What is done in a cycle, its end left out. -/
def served (m : Main) : List Ready → List Action
  | [] => []
  | r :: rs => m.actions r ++ (m.serve r).served rs

def cycle (m : Main) (w : Wait) : Main :=
  let m' := w.ready.foldl serve m
  { m' with st := daemon.step m'.st (.endOfCycle w.ok) }

/-- The loop, which ends with the cycle that asks it to. -/
def run (m : Main) : List Wait → Main
  | [] => m
  | w :: ws => if m.shouldExit ∨ m.st.shouldReset then m else (m.cycle w).run ws

variable {m : Main}

theorem serve_st (r : Ready) : (m.serve r).st = daemon.run m.st (m.actions r) := by
  cases r <;> rfl

theorem foldl_serve_st (rs : List Ready) : (rs.foldl serve m).st = daemon.run m.st (m.served rs) := by
  induction rs generalizing m with
  | nil => rfl
  | cons r rs ih => rw [List.foldl_cons, ih, serve_st, served, daemon.run_append]

theorem cycle_st (w : Wait) : (m.cycle w).st = daemon.run m.st (m.served w.ready ++ [.endOfCycle w.ok]) := by
  rw [daemon.run_snoc, ← foldl_serve_st]
  rfl

/-- The loop makes runs of the daemon. -/
theorem run_st (ws : List Wait) : ∃ as, (m.run ws).st = daemon.run m.st as := by
  induction ws generalizing m with
  | nil => exact ⟨[], rfl⟩
  | cons w ws ih =>
    rw [run]
    split_ifs
    · exact ⟨[], rfl⟩
    · obtain ⟨as, has⟩ := ih (m := m.cycle w)
      exact ⟨_, has.trans (by rw [cycle_st, ← daemon.run_append])⟩

end Main

/-! ## Armed changes -/

section Armed

variable {m : Main} {s st : St} {n : Nat} {xs : List (Option Rx)} {rs : List Ready} {b as : List Action}

theorem step_unframed {x : Rx} (h : x.framed = false) : daemon.step st x.action = st := by
  have hwant : St.intakeFrameLen (x.bytes.take frameMax) = 0 := by simpa [Rx.framed] using h
  change (st.receive x.env x.revert x.ip x.port x.bytes).st = st
  unfold St.receive
  rw [if_pos hwant]

/-- In a cycle from `s` that has come to `b`, a datagram comes next with a change armed only if no frame came before. -/
def FirstFrame (s : St) (b : List Action) (a : Action) : Prop :=
  ∀ y : Rx, a = y.action → (daemon.run s b).chg.commitArmed = true → ∀ x : Rx, x.framed = true → x.action ∉ b

/-- Over a batch: an armed change that came with a frame ends it. -/
theorem along_batch (hst : daemon.run s b = st)
    (hfirst : st.chg.commitArmed = true → ∀ x : Rx, x.framed = true → x.action ∉ b) :
    List.Along (FirstFrame s) b (st.udpBatch n xs) := by
  induction xs generalizing st n b with
  | nil => cases n <;> trivial
  | cons o xs ih =>
    cases n with
    | zero => trivial
    | succ n =>
      cases o with
      | none => exact ih hst hfirst
      | some x =>
        refine ⟨fun y _ harm => hfirst (hst ▸ harm), ?_⟩
        split_ifs with hstop
        · trivial
        · refine ih (by rw [daemon.run_snoc, hst]) fun harm x' hx' hmem => ?_
          have hunframed : x.framed = false := by simpa [harm] using hstop
          rw [step_unframed hunframed] at harm
          rcases List.mem_append.mp hmem with hmem | hmem
          · exact hfirst harm x' hx' hmem
          · cases x
            cases x'
            cases List.mem_singleton.mp hmem
            exact absurd (hunframed.symm.trans hx') (by decide)

theorem along_of_notMem (h : ∀ x : Rx, x.action ∉ as) : List.Along (FirstFrame s) b as := by
  induction as generalizing b with
  | nil => trivial
  | cons a as ih =>
    exact ⟨fun y hy => absurd (hy ▸ List.mem_cons_self) (h y), ih fun x hx => h x (.tail a hx)⟩

theorem notMem_reports (x : Rx) (is : List Input) : x.action ∉ st.reports is := by
  induction is generalizing st with
  | nil => simp [St.reports]
  | cons i is ih => exact fun h => ih (List.mem_of_ne_of_mem (by simp [St.report, Rx.action]) h)

/-- Datagrams come from the UDP socket only. -/
theorem notMem_actions {r : Ready} (h : r.isUdp = false) (x : Rx) : x.action ∉ m.actions r := by
  cases r with
  | signal => simp only [Main.actions]; split <;> simp [St.report, Rx.action]
  | events => exact notMem_reports x _
  | roam => exact notMem_reports x _
  | udp => cases h
  | _ => simp [Main.actions, St.report, Rx.action]

theorem notMem_served (h : rs.countP Ready.isUdp = 0) (x : Rx) : x.action ∉ m.served rs := by
  induction rs generalizing m with
  | nil => simp [Main.served]
  | cons r rs ih =>
    obtain ⟨hr, hrs⟩ : r.isUdp = false ∧ rs.countP Ready.isUdp = 0 := by simpa [List.countP_cons, and_comm] using h
    simp [Main.served, notMem_actions hr, ih hrs]

/-- Over a cycle, which has one batch. -/
theorem along_served (once : rs.countP Ready.isUdp ≤ 1) (hst : daemon.run s b = m.st) (hnone : ∀ x : Rx, x.action ∉ b) :
    List.Along (FirstFrame s) b (m.served rs) := by
  induction rs generalizing m b with
  | nil => trivial
  | cons r rs ih =>
    rw [List.countP_cons] at once
    refine List.along_append.mpr ?_
    cases hr : r.isUdp with
    | false =>
      refine ⟨along_of_notMem (notMem_actions hr), ih (by simpa [hr] using once) ?_ fun x => ?_⟩
      · rw [daemon.run_append, hst, Main.serve_st]
      · simp [hnone x, notMem_actions hr]
    | true =>
      refine ⟨?_, along_of_notMem (notMem_served (by simpa [hr] using once))⟩
      cases r with
      | udp xs => exact along_batch hst fun _ x _ => hnone x
      | _ => cases hr

theorem unarmed_endOfCycle (st : St) (ok : Bool) : (daemon.step st (.endOfCycle ok)).chg.commitArmed = false := by
  by_cases harm : st.chg.commitArmed = true
  · have haddr := congrArg (fun y : Addr => y.chg.commitArmed) (addr_endOfCycle harm ok)
    refine haddr.trans ?_
    split <;> rfl
  · change (st.applyPendingIpChange ok).st.chg.commitArmed = false
    unfold St.applyPendingIpChange
    rw [if_pos harm]
    simpa using harm

theorem unarmed_run (h : m.st.chg.commitArmed = false) (ws : List Wait) : (m.run ws).st.chg.commitArmed = false := by
  induction ws generalizing m with
  | nil => exact h
  | cons w ws ih =>
    rw [Main.run]
    split_ifs
    · exact h
    · exact ih (unarmed_endOfCycle _ w.ok)

end Armed

/-- **An armed change goes first.** The loop makes runs of the daemon, and when it waits no change is armed. In the
cycle that follows, a datagram is received with a change armed only if no frame was received before it in that cycle,
so that no request of the cycle armed the change; and the change is applied when the cycle ends. -/
theorem armed_change_first (conf : Conf) (paths : Paths) (d : Disk) (env : StartEnv) (family : Int)
    (latches : Nl80211.Latches) (evtFd : Bool) (ws : List Wait) :
    let m := Main.run ⟨(startup conf paths d env).st, family, latches, evtFd, false⟩ ws
    m.st.chg.commitArmed = false ∧ (∃ as, m.st = daemon.run (startup conf paths d env).st as) ∧ ∀ w : Wait,
      (m.cycle w).st = daemon.run m.st (m.served w.ready ++ [.endOfCycle w.ok]) ∧
      (∀ b y c, m.served w.ready = b ++ Rx.action y :: c → (daemon.run m.st b).chg.commitArmed = true →
        ∀ x : Rx, x.framed = true → x.action ∉ b) ∧
      ∀ st, st = daemon.run m.st (m.served w.ready) → st.chg.commitArmed = true →
        .applyIpChange st.chg.armedEntry st.mgmtIpIfaceIdx st.chg.armedNo w.ok ∈
          daemon.trace m.st (m.served w.ready ++ [.endOfCycle w.ok]) := by
  intro m
  refine ⟨unarmed_run rfl ws, Main.run_st ws, fun w => ⟨Main.cycle_st w, fun b y c h => ?_, ?_⟩⟩
  · exact (h ▸ along_served w.once (b := []) rfl (by simp)).split y rfl
  · rintro _ rfl harm
    rw [daemon.trace_snoc]
    exact List.mem_append_right _ (mem_out_endOfCycle harm w.ok)

end Opcd
