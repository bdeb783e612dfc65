import Opcd.Daemon.Transitions

/-!
# The daemon as a service over its settings

The abstract level: the settings, the session, and for each resource that is written at most one open
transaction, from the request that asked for the write to the answer its client gets. Job slots,
acknowledgement slots, the writer's queue and its thread are gone; `Move` says what can happen, with the
same effects as the daemon.

The groups of settings are those of the daemon's state, and each has a function for every way it
changes.
-/

namespace Opcd

open Bytes Protocol Store

/-! ## Resources -/

namespace Resource

/-- The file of a resource. -/
def path (p : Paths) : Resource → Path
  | .none => []
  | .password => p.password
  | .ipList => p.ipList
  | .radio => p.radio

/-- The mode its file is written with. -/
def mode : Resource → Nat
  | .password => 0o600
  | _ => 0o644

/-- The request that writes it. -/
def reqId : Resource → BitVec 16
  | .none => 0
  | .password => Command.setPassword.id
  | .ipList => Command.setIpConfigList.id
  | .radio => Command.setRadioConfig.id

end Resource

namespace Paths

/-- The copy of a list in the customer's file and, once it shows there, in the record. -/
def writeUser (p : Paths) (l : IpList) (env : MirrorEnv) : List Effect :=
  match p.ipListUser with
  | none => []
  | some user =>
    .write ⟨user, IpList.listText l, 0o644, env.user⟩ ::
      match p.ipListUserLast with
      | some last =>
        if env.user.outcome ≠ .unchanged then
          [.write ⟨last, IpList.listText l, 0o644, env.record⟩]
        else []
      | none => []

/-- The write of the radio marker. -/
def armMarker (p : Paths) (marker : WriteResult) (req : RadioConfig) : List Effect :=
  match p.radioMarker with
  | none => []
  | some m => [.write ⟨m, rawRadio req, 0o644, marker⟩]

/-- The removal of the radio marker. -/
def clearMarker (p : Paths) (ok : Bool) : List Effect :=
  match p.radioMarker with
  | none => []
  | some m => [.unlink m ok]

/-- The marker shows the request about to be applied, if there is a marker. -/
def MarkerArmed (p : Paths) (marker : WriteResult) : Prop :=
  p.radioMarker = none ∨ marker.rc = 0

end Paths

/-! ## How the groups change -/

namespace IpChange

/-- The change to the list in effect is armed, or dropped when its slot is empty. -/
def arm (c : IpChange) (l : IpList) : IpChange :=
  match slotIdx? c.listNo with
  | none => c
  | some i =>
    if l.present i then { c with armedEntry := l.slots i, armedNo := c.listNo, commitArmed := true }
    else { c with pending := false, listNo := 0 }

/-- The decision of a Logout, put off while the list is being written. -/
def logout (c : IpChange) (l : IpList) (busy : Bool) : IpChange :=
  if c.pending ∧ ¬ c.commitArmed then
    if busy then { c with logoutDeferred := true } else c.arm l
  else c

/-- The decision a Logout put off. -/
def settle (c : IpChange) (l : IpList) : IpChange :=
  if c.logoutDeferred then
    if c.pending ∧ ¬ c.commitArmed then { c with logoutDeferred := false }.arm l
    else { c with logoutDeferred := false }
  else c

/-- After the apply. -/
def cleared (c : IpChange) : IpChange :=
  { c with
    pending := false, commitArmed := false, listNo := 0, armedNo := 0, armedEntry := Entry.zero }

end IpChange

namespace IpListState

/-- The lists a request's entries lead to, and the cause they stop with. -/
def folded (l : IpListState) (es : List (Entry × Bool)) : St.Fold × Option (BitVec 16) :=
  St.foldEntries ⟨l.list, l.staging, l.stagingActive, false⟩ es

/-- The open cycle is dropped. -/
def closed (l : IpListState) : IpListState :=
  { l with staging := IpList.empty, stagingActive := false }

/-- A committed list is published. -/
def publish (l : IpListState) (f : St.Fold) : IpListState :=
  { l with list := f.candidate, staging := f.staging, stagingActive := f.active }

/-- A committed list is being written. -/
def pend (l : IpListState) (f : St.Fold) (generation : BitVec 32) : IpListState :=
  { l with
    pending := f.candidate, pendingStaging := f.staging, pendingStagingActive := f.active
    pendingGeneration := generation }

/-- Nothing is being written. -/
def unpend (l : IpListState) : IpListState :=
  { l with
    pending := IpList.empty, pendingStaging := IpList.empty, pendingStagingActive := false
    pendingGeneration := 0 }

/-- The write shows: the list is published, the open cycle behind it only in its own session. -/
def settle (l : IpListState) (current : Bool) : IpListState :=
  if current then
    { l with
      list := l.pending, staging := l.pendingStaging, stagingActive := l.pendingStagingActive }.unpend
  else { l with list := l.pending }.unpend

end IpListState

namespace RadioState

/-- After the apply of a request. -/
def applied (r : RadioState) (req : RadioConfig) : RadioState :=
  { r with
    radio := req, appliedKnown := true, recovery := .healthy, gen := r.gen + 1, committed := false }

/-- A request that was applied is being written. -/
def pend (r : RadioState) (req : RadioConfig) : RadioState :=
  { r.applied req with
    revertCfg := r.radio, revertCommitted := r.committed
    persistBaselineValid := radioBaselineCovers r req }

/-- A request that could not be applied. -/
def refused (r : RadioState) (req : RadioConfig) : RadioState :=
  if radioCfgDiffers req r.radio then
    r.armRevert r.radio r.committed (radioBaselineCovers r req)
  else r

/-- The revert that is armed when a write did not show. -/
def unwritten (r : RadioState) : RadioState :=
  { r with committed := false }.armRevert r.revertCfg r.revertCommitted r.persistBaselineValid

/-- After a write came to an end. -/
def settle (r : RadioState) (revert : ApplyResult) : Outcome → RadioState
  | .durable => { r with committed := true, persistBaselineValid := false }
  | .replacedUnsynced => { r with committed := false, persistBaselineValid := false }
  | .unchanged =>
    if r.unwritten.revertPending then
      { r.unwritten.reverted revert with persistBaselineValid := false }
    else { r.unwritten with persistBaselineValid := false }

/-- The calls made when a write came to an end. -/
def settleOut (r : RadioState) (p : Paths) (revert : ApplyResult) (unlink : Bool) :
    Outcome → List Effect
  | .durable => p.clearMarker unlink
  | .replacedUnsynced => []
  | .unchanged =>
    if r.unwritten.revertPending then [.applyRadio r.unwritten.revertCfg revert] else []

end RadioState

/-! ## Transactions -/

/-- A write that was asked for and not yet answered. -/
structure Txn where
  slot : AckIdx
  noAck : Bool
  cl : Client
  data : Bytes
  /-- what the write came to, once it was made -/
  result : Option WriteResult
  deriving DecidableEq

/-- The acknowledgement of a transaction whose write came to `res`. -/
def Txn.answer (r : Resource) (t : Txn) (res : WriteResult) :
    Option (BitVec 32 × BitVec 16 × Bytes) :=
  if t.noAck then none
  else
    some (t.cl.ip, t.cl.port,
      (simpleAckPack txCap r.reqId t.cl.seq simpleAckLength
        (if res.outcome = .durable then resultOk else resultNg)
        (if res.outcome = .durable then Err.none else Err.nvram)).getD [])

/-- How far a copy to the customer's file is. -/
inductive CopyPhase
  | waiting
  /-- the customer's file was written; the record is next -/
  | shown (r : WriteResult)
  | over
  deriving DecidableEq

/-- A copy under way. -/
structure Copy where
  text : Bytes
  phase : CopyPhase
  deriving DecidableEq

/-- The settings, the session and the open transactions. -/
structure Sys where
  paths : Paths
  iface : Nat
  loggedIn : Bool
  generation : BitVec 32
  pw : PasswordState
  rad : RadioState
  ipl : IpListState
  chg : IpChange
  /-- a writer is attached -/
  async : Bool
  /-- the writer takes no more jobs -/
  closing : Bool
  txn : Resource → Option Txn
  copy : Option Copy

namespace Sys

/-- Open, change or close the transaction of a resource. -/
def setTxn (x : Sys) (r : Resource) (t : Option Txn) : Sys :=
  { x with txn := Function.update x.txn r t }

@[simp] theorem setTxn_txn_self (x : Sys) (r : Resource) (t : Option Txn) : (x.setTxn r t).txn r = t :=
  Function.update_self _ _ _

theorem setTxn_txn_of_ne (x : Sys) {r r' : Resource} (h : r' ≠ r) (t : Option Txn) :
    (x.setTxn r t).txn r' = x.txn r' :=
  Function.update_of_ne h _ _

/-- The resource can be written, to be acknowledged from this slot. -/
structure Ready (x : Sys) (r : Resource) (k : AckIdx) : Prop where
  async : x.async = true
  idle : x.txn r = none
  fresh : ∀ r' t, x.txn r' = some t → t.slot ≠ k

/-- The session is the one a list under way was sent in. -/
def current (x : Sys) : Bool := x.loggedIn && decide (x.generation = x.ipl.pendingGeneration)

/-- The writer refuses the copy to the customer's file. -/
def Refuses (x : Sys) (user : Path) (e : SubmitError) : Prop :=
  e = .nameTooLong ∧
      (pathMax ≤ user.length ∨ ∃ last, x.paths.ipListUserLast = some last ∧ pathMax ≤ last.length) ∨
    e = .canceled ∧ x.closing = true

end Sys

/-- How the copy of a published list starts: its effects and what is under way then. -/
inductive CopyStart (x : Sys) (l : IpList) : List Effect → Option Copy → Prop
  | nowhere (huser : x.paths.ipListUser = none) : CopyStart x l [] x.copy
  | queued {user : Path} (huser : x.paths.ipListUser = some user) (idle : x.copy = none) :
      CopyStart x l [.submit user (.ok ())] (some ⟨IpList.listText l, .waiting⟩)
  | refused {user : Path} {e : SubmitError} {env : MirrorEnv}
      (huser : x.paths.ipListUser = some user) (idle : x.copy = none) (why : x.Refuses user e) :
      CopyStart x l (.submit user (.error e) :: x.paths.writeUser l env) x.copy

/-- What can happen. -/
inductive Move (src : Source) : Sys → List Effect → Sys → Prop
  | quiet {x : Sys} {out : List Effect} (hout : ∀ e ∈ out, e.quiet) : Move src x out x
  /-- a reservation that is given back -/
  | probe {x : Sys} {path : Path} {j : Slot} : Move src x [.reserve path (.ok j)] x
  | login {x : Sys} {cl : Client} {frame : Bytes} (source : src = some (cl, frame))
      (login : (loginReqUnpack frame).isSome = true) (was : x.loggedIn = false) :
      Move src x []
        { x with loggedIn := true, generation := x.generation + 1, chg := x.chg.atLogin }
  | close {x : Sys} (was : x.loggedIn = true) :
      Move src x []
        { x with loggedIn := false, generation := x.generation + 1, ipl := x.ipl.closed }
  | decide {x : Sys} {cl : Client} {frame : Bytes} (source : src = some (cl, frame))
      (logout : logoutReqUnpack frame = true) (was : x.loggedIn = true) :
      Move src x [] { x with chg := x.chg.logout x.ipl.list (x.txn .ipList).isSome }
  | stage {x : Sys} {cl : Client} {frame : Bytes} {n : BitVec 16} {i : SlotIdx}
      (source : src = some (cl, frame)) (change : changeIpAddressReqUnpack frame = some n)
      (was : x.loggedIn = true) (unarmed : x.chg.commitArmed = false)
      (undecided : x.chg.logoutDeferred = false) (unstaged : x.ipl.stagingActive = false)
      (slot : slotIdx? n = some i) (present : x.ipl.list.present i = true) :
      Move src x [] { x with chg.pending := true, chg.listNo := n }
  | apply {x : Sys} {ok : Bool} (armed : x.chg.commitArmed = true) :
      Move src x [.applyIpChange x.chg.armedEntry x.iface x.chg.armedNo ok]
        { x with chg := x.chg.cleared }
  /-- entries that close no cycle -/
  | staging {x : Sys} {cl : Client} {es : List (Entry × Bool)} (idle : x.txn .ipList = none)
      (due : EntriesDue src x.loggedIn cl es)
      (unclosed : (x.ipl.folded es).1.committed = false) :
      Move src x []
        { x with
          ipl.staging := (x.ipl.folded es).1.staging
          ipl.stagingActive := (x.ipl.folded es).1.active }
  | passwordQueued {x : Sys} {cl : Client} {req : SetPasswordReq} {data : Bytes} {s : Slot}
      {k : AckIdx} (due : PasswordDue src x.pw cl req data) (ready : x.Ready .password k) :
      Move src x (queuedOut .password x.paths.password data false Resource.password.reqId cl s k [])
        ({ x with pw.pending := Buf.ofBytes 128 data }.setTxn .password
          (some ⟨k, false, cl, data, none⟩))
  | ipListQueued {x : Sys} {cl : Client} {es : List (Entry × Bool)} {f : St.Fold}
      {err : Option (BitVec 16)} {s : Slot} {k : AckIdx} (due : EntriesDue src x.loggedIn cl es)
      (hf : x.ipl.folded es = (f, err)) (closed : f.committed = true) (ready : x.Ready .ipList k) :
      Move src x
        (queuedOut .ipList x.paths.ipList (IpList.listText f.candidate) err.isSome
          Resource.ipList.reqId cl s k [])
        ({ x with ipl := x.ipl.pend f x.generation }.setTxn .ipList
          (some ⟨k, err.isSome, cl, IpList.listText f.candidate, none⟩))
  | radioQueued {x : Sys} {cl : Client} {req : RadioConfig} {marker : WriteResult} {s : Slot}
      {k : AckIdx} (due : RadioDue src x.rad cl req) (armed : x.paths.MarkerArmed marker)
      (ready : x.Ready .radio k) :
      Move src x
        (queuedOut .radio x.paths.radio (rawRadio req) false Resource.radio.reqId cl s k
          (x.paths.armMarker marker req ++ [.applyRadio req .ok]))
        ({ x with rad := x.rad.pend req }.setTxn .radio (some ⟨k, false, cl, rawRadio req, none⟩))
  | passwordWritten {x : Sys} {cl : Client} {req : SetPasswordReq} {data : Bytes} {r : WriteResult}
      (sync : x.async = false) (due : PasswordDue src x.pw cl req data) :
      Move src x [.write ⟨x.paths.password, data, 0o600, r⟩]
        { x with pw := x.pw.publish (Buf.ofBytes 128 data) r.outcome }
  | ipListUnwritten {x : Sys} {cl : Client} {es : List (Entry × Bool)} {f : St.Fold}
      {err : Option (BitVec 16)} {r : WriteResult} (sync : x.async = false)
      (due : EntriesDue src x.loggedIn cl es) (hf : x.ipl.folded es = (f, err))
      (closed : f.committed = true) (hr : r.outcome = .unchanged) :
      Move src x [.write ⟨x.paths.ipList, IpList.listText f.candidate, 0o644, r⟩] x
  | ipListWritten {x : Sys} {cl : Client} {es : List (Entry × Bool)} {f : St.Fold}
      {err : Option (BitVec 16)} {r : WriteResult} {env : MirrorEnv} (sync : x.async = false)
      (due : EntriesDue src x.loggedIn cl es) (hf : x.ipl.folded es = (f, err))
      (closed : f.committed = true) (hr : r.outcome ≠ .unchanged) :
      Move src x
        (.write ⟨x.paths.ipList, IpList.listText f.candidate, 0o644, r⟩ ::
          x.paths.writeUser f.candidate env)
        { x with ipl := x.ipl.publish f }
  | radioWritten {x : Sys} {cl : Client} {req : RadioConfig} {marker r : WriteResult}
      {unlink : Bool} (sync : x.async = false) (due : RadioDue src x.rad cl req)
      (armed : x.paths.MarkerArmed marker) :
      Move src x
        (x.paths.armMarker marker req ++
          [.applyRadio req .ok, .write ⟨x.paths.radio, rawRadio req, 0o644, r⟩] ++
          if r.outcome = .durable then x.paths.clearMarker unlink else [])
        { x with
          rad := (x.rad.applied req).written x.rad (radioBaselineCovers x.rad req) r.outcome }
  | markerFailed {x : Sys} {cl : Client} {req : RadioConfig} {marker : WriteResult}
      (due : RadioDue src x.rad cl req) (failed : ¬ x.paths.MarkerArmed marker) :
      Move src x (x.paths.armMarker marker req) x
  | radioFailed {x : Sys} {cl : Client} {req : RadioConfig} {marker : WriteResult}
      {live : Option RadioConfig} (due : RadioDue src x.rad cl req)
      (armed : x.paths.MarkerArmed marker) :
      Move src x (x.paths.armMarker marker req ++ [.applyRadio req (.failed live)])
        { x with rad := x.rad.refused req }
  | revert {x : Sys} {res : ApplyResult} (pending : x.rad.revertPending = true) :
      Move src x [.applyRadio x.rad.revertCfg res] { x with rad := x.rad.reverted res }
  /-- the write of a transaction is made; that of a list, after the copy of the list before it -/
  | write {x : Sys} {r : Resource} {t : Txn} {res : WriteResult} (opened : x.txn r = some t)
      (unmade : t.result = none) (turn : r = .ipList → ∀ c, x.copy = some c → c.phase = .over) :
      Move src x [.write ⟨r.path x.paths, t.data, r.mode, res⟩]
        (x.setTxn r (some { t with result := some res }))
  | settlePassword {x : Sys} {t : Txn} {res : WriteResult} (opened : x.txn .password = some t)
      (made : t.result = some res) (ready : src = none) :
      Move src x [.settle t.slot (t.answer .password res)]
        ({ x with
          pw := { x.pw.publish x.pw.pending res.outcome with pending := Buf.zero 128 } }.setTxn
            .password none)
  /-- a list whose write did not show -/
  | settleUnwritten {x : Sys} {t : Txn} {res : WriteResult} (opened : x.txn .ipList = some t)
      (made : t.result = some res) (hr : res.outcome = .unchanged) (ready : src = none) :
      Move src x [.settle t.slot (t.answer .ipList res)]
        ({ x with ipl := x.ipl.unpend, chg := x.chg.settle x.ipl.list }.setTxn .ipList none)
  | settleIpList {x : Sys} {t : Txn} {res : WriteResult} {out : List Effect} {c : Option Copy}
      (opened : x.txn .ipList = some t) (made : t.result = some res)
      (hr : res.outcome ≠ .unchanged) (copy : CopyStart x x.ipl.pending out c) (ready : src = none) :
      Move src x (out ++ [.settle t.slot (t.answer .ipList res)])
        ({ x with
          ipl := x.ipl.settle x.current, chg := x.chg.settle x.ipl.pending, copy := c }.setTxn
            .ipList none)
  | settleRadio {x : Sys} {t : Txn} {res : WriteResult} {revert : ApplyResult} {unlink : Bool}
      (opened : x.txn .radio = some t) (made : t.result = some res) (ready : src = none) :
      Move src x
        (x.rad.settleOut x.paths revert unlink res.outcome ++ [.settle t.slot (t.answer .radio res)])
        ({ x with rad := x.rad.settle revert res.outcome }.setTxn .radio none)
  /-- the customer's file is written -/
  | copyShown {x : Sys} {text : Bytes} {user : Path} {res : WriteResult}
      (huser : x.paths.ipListUser = some user) (hc : x.copy = some ⟨text, .waiting⟩) :
      Move src x [.write ⟨user, text, 0o644, res⟩] { x with copy := some ⟨text, .shown res⟩ }
  /-- the record of the customer's file is written -/
  | copyRecorded {x : Sys} {text : Bytes} {last : Path} {res res' : WriteResult}
      (hlast : x.paths.ipListUserLast = some last) (hne : last ≠ [])
      (hc : x.copy = some ⟨text, .shown res⟩) (hr : res.outcome ≠ .unchanged) :
      Move src x [.write ⟨last, text, 0o644, res'⟩] { x with copy := some ⟨text, .over⟩ }
  | copyUnrecorded {x : Sys} {text : Bytes} {res : WriteResult}
      (hc : x.copy = some ⟨text, .shown res⟩)
      (why : (∀ last, x.paths.ipListUserLast = some last → last = []) ∨ res.outcome = .unchanged) :
      Move src x [] { x with copy := some ⟨text, .over⟩ }
  | copyOver {x : Sys} {text : Bytes} (hc : x.copy = some ⟨text, .over⟩) :
      Move src x [] { x with copy := none }

/-- What no move changes: the paths, the interface, the writer's presence and its readiness. -/
structure Sys.SameSetup (x x' : Sys) : Prop where
  paths : x'.paths = x.paths
  iface : x'.iface = x.iface
  async : x'.async = x.async
  closing : x'.closing = x.closing

theorem Move.sameSetup {src : Source} {x x' : Sys} {out : List Effect} (h : Move src x out x') : x.SameSetup x' := by
  cases h <;> constructor <;> simp only [Sys.setTxn]

end Opcd
