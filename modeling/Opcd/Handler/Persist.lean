import Opcd.Radio.Config

/-!
# Persisting a setting

The admission of a write (`persist_admit`), its submission (`persist_blob`), the copy of a published
IP list in the customer's file (`iplist_mirror_user`), and the reconciliation of completed writes
(`opcd_store_async_on_ready`), as in `handler.c`. Without an async writer the write is made in line.
-/

namespace Opcd

open Bytes Protocol Store

/-- `OPCD_STORE_TOKEN_MIRROR`. -/
def tokenMirror : Nat := 2 ^ 64 - 2

/-- What the two synchronous writes of the customer's file and its record come to. -/
structure MirrorEnv where
  user : WriteResult
  record : WriteResult

/-- The answers while completions are reconciled: for the `i`-th completion, the apply of a radio
revert, the removal of the radio marker, and the writes of a mirror that could not be queued. -/
structure ReadyEnv where
  revert : Nat → ApplyResult
  unlink : Nat → Bool
  mirror : Nat → MirrorEnv

namespace St

/-- `pending_ack_alloc`. -/
def pendingAckAlloc (st : St) : Option AckIdx :=
  (List.finRange pendingAckMax).find? fun i => !(st.acks i).inUse

/-- `pending_slot_for`. -/
def pendingSlotFor (st : St) (reqId : BitVec 16) (ip : BitVec 32) (port : BitVec 16) :
    Option AckIdx :=
  (List.finRange pendingAckMax).find? fun i =>
    (st.acks i).inUse ∧ (st.acks i).reqId = reqId ∧ (st.acks i).clientIp = ip ∧
      (st.acks i).clientPort = port

/-- `is_request_retransmission`. -/
def isRequestRetransmission (st : St) (reqId : BitVec 16) (ip : BitVec 32) (port : BitVec 16) :
    Bool := (st.pendingSlotFor reqId ip port).isSome

/-- `persist_resource_busy`. -/
def persistResourceBusy (st : St) (r : Resource) : Bool :=
  (List.finRange pendingAckMax).any fun i => (st.acks i).inUse ∧ (st.acks i).resource = r

/-- Replace the writer. -/
def setWriter (st : St) (w : Writer) : St := { st with storeAsync := some w }

/-- `opc_store_async_cancel` on the attached writer, if any. -/
def cancelReservation (st : St) (reservation : Option Slot) : St :=
  match st.storeAsync with
  | none => st
  | some w => st.setWriter (w.cancel reservation)

/-! ## The customer's file -/

/-- `iplist_write_user`: the list in effect to the customer's file and, once it shows there, to
the record of what was put in it. -/
def iplistWriteUser (st : St) (env : MirrorEnv) : List Effect :=
  match IpList.textFormat st.ipl.list IpList.textMax, st.paths.ipListUser with
  | some text, some user =>
    .write ⟨user, text, 0o644, env.user⟩ ::
      match st.paths.ipListUserLast with
      | some last =>
        if env.user.outcome ≠ .unchanged then [.write ⟨last, text, 0o644, env.record⟩] else []
      | none => []
  | _, _ => []

/-- The hand-over of the mirror to the writer: with the record as its echo when there is one. -/
def submitMirror (w : Writer) (user : Path) (last : Option Path) (text : Bytes) :
    Writer × Except SubmitError Unit :=
  match last with
  | some last => w.submitEcho user last text 0o644 tokenMirror
  | none => w.submit user text 0o644 tokenMirror

/-- `iplist_mirror_user`. -/
def iplistMirrorUser (st : St) (env : MirrorEnv) : Turn Unit :=
  match st.paths.ipListUser, IpList.textFormat st.ipl.list IpList.textMax with
  | some user, some text =>
    match st.storeAsync with
    | none => ⟨st, st.iplistWriteUser env, ()⟩
    | some w =>
      let r := submitMirror w user st.paths.ipListUserLast text
      ⟨st.setWriter r.1,
        .submit user r.2 ::
          match r.2 with
          | .ok () => []
          | .error _ => st.iplistWriteUser env, ()⟩
  | _, _ => st.done ()

end St

/-! ## Completions -/

/-- `password_note_outcome`: call before publishing `candidate`. -/
def PasswordState.noteOutcome (p : PasswordState) (candidate : Buf 128) (outcome : Outcome) :
    PasswordState :=
  match outcome with
  | .durable => { p with unsynced := false, unsyncedPrev := Buf.zero 128 }
  | .replacedUnsynced =>
    if strncmpEq 127 candidate.toList p.password.toList then p
    else { p with unsyncedPrev := p.password, unsynced := true }
  | .unchanged => p

/-- The password group once the write of `candidate` came to `outcome`. -/
def PasswordState.publish (p : PasswordState) (candidate : Buf 128) (outcome : Outcome) :
    PasswordState :=
  let p := p.noteOutcome candidate outcome
  if outcome ≠ .unchanged then { p with password := candidate } else p

namespace St

/-- `arm_ip_change_from_committed`. -/
def armIpChangeFromCommitted (st : St) : St :=
  let n := st.chg.listNo.toNat
  if h : 1 ≤ n ∧ n ≤ maxSlots then
    let i : SlotIdx := ⟨n - 1, by omega⟩
    if ¬ st.ipl.list.present i then
      { st with chg.pending := false, chg.listNo := 0 }
    else
      { st with
        chg.armedEntry := st.ipl.list.slots i
        chg.armedNo := st.chg.listNo
        chg.commitArmed := true }
  else st

/-- `radio_txn_clear`. -/
def radioTxnClear (st : St) (ok : Bool) : List Effect :=
  match st.paths.radioMarker with
  | none => []
  | some m => [.unlink m ok]

/-- A completed password write. -/
def completePassword (st : St) (outcome : Outcome) : St :=
  { st with
    pw := { st.pw.publish st.pw.pending outcome with pending := Buf.zero 128 } }

/-- The list of a completed IP-list write, published when the write shows. -/
def publishIpList (st : St) (env : MirrorEnv) (outcome : Outcome) : Turn Unit :=
  if outcome = .unchanged then st.done ()
  else
    ({ st with ipl.list := st.ipl.pending }.iplistMirrorUser env).bind fun st _ =>
      -- the trailing open cycle belongs to the session that sent the request
      if st.session.loggedIn ∧ st.session.generation = st.ipl.pendingGeneration then
        { st with
          ipl.staging := st.ipl.pendingStaging
          ipl.stagingActive := st.ipl.pendingStagingActive }.done ()
      else st.done ()

/-- The decision a Logout left to the completion of an IP-list write. -/
def decideDeferred (st : St) : St :=
  if ¬ st.chg.logoutDeferred then st
  else
    let st := { st with chg.logoutDeferred := false }
    if st.chg.pending ∧ ¬ st.chg.commitArmed then st.armIpChangeFromCommitted else st

/-- A completed IP-list write. -/
def completeIpList (st : St) (env : MirrorEnv) (outcome : Outcome) : Turn Unit :=
  (st.publishIpList env outcome).bind fun st _ =>
    { st with
      ipl.pending := IpList.empty
      ipl.pendingStaging := IpList.empty
      ipl.pendingStagingActive := false
      ipl.pendingGeneration := 0 }.decideDeferred.done ()

/-- A completed radio write of generation `gen`. -/
def completeRadio (st : St) (revert : ApplyResult) (unlink : Bool) (gen : BitVec 32)
    (outcome : Outcome) : Turn Unit :=
  (if gen ≠ st.rad.gen then st.done ()
    else
      match outcome with
      | .durable => ⟨{ st with rad.committed := true }, st.radioTxnClear unlink, ()⟩
      | .replacedUnsynced => { st with rad.committed := false }.done ()
      | .unchanged =>
        { st with
          rad := { st.rad with committed := false }.armRevert st.rad.revertCfg
            st.rad.revertCommitted st.rad.persistBaselineValid }.radioRevertDrain revert).bind
    fun st _ => { st with rad.persistBaselineValid := false }.done ()

/-- The acknowledgement of a completed write, in the format of its request. -/
def deferredAck (pa : PendingAck) (result : Int) : Bytes :=
  let r := if result = 0 then resultOk else resultNg
  let cause := if result = 0 then Err.none else Err.nvram
  if pa.reqId = Command.setPassword.id then (setPasswordAckPack txCap pa.seq r cause).getD []
  else if pa.reqId = Command.setIpConfigList.id then
    (setIpConfigListAckPack txCap pa.seq r cause).getD []
  else if pa.reqId = Command.setRadioConfig.id then
    (setRadioConfigAckPack txCap pa.seq r cause).getD []
  else []

/-- The state reconciled with one completed write. The radio part hangs on the request id, the
other two on the resource. -/
def reconcile (st : St) (env : ReadyEnv) (i : Nat) (pa : PendingAck) (d : Done) : Turn Unit :=
  (match pa.resource with
    | .password => (st.completePassword d.outcome).done ()
    | .ipList => st.completeIpList (env.mirror i) d.outcome
    | _ => st.done ()).bind fun st _ =>
  if pa.reqId = Command.setRadioConfig.id then
    st.completeRadio (env.revert i) (env.unlink i) pa.radioGen d.outcome
  else st.done ()

/-- One turn of the loop of `opcd_store_async_on_ready`. -/
def complete (st : St) (env : ReadyEnv) (i : Nat) (d : Done) : Turn Unit :=
  if d.token = tokenMirror then st.done ()
  else if h : d.token < pendingAckMax then
    let slot : AckIdx := ⟨d.token, h⟩
    let pa := st.acks slot
    if ¬ pa.inUse then st.done ()
    else
      (st.reconcile env i pa d).bind fun st _ =>
        let frame := deferredAck pa d.result
        ⟨{ st with acks := Function.update st.acks slot { st.acks slot with inUse := false } },
          [.settle slot
            (if ¬ pa.noAck ∧ frame ≠ [] then some (pa.clientIp, pa.clientPort, frame) else none)],
          ()⟩
  else st.done ()

/-- The completions from number `i` on. -/
def completeAll (st : St) (env : ReadyEnv) : Nat → List Done → Turn Unit
  | _, [] => st.done ()
  | i, d :: ds => (st.complete env i d).bind fun st _ => st.completeAll env (i + 1) ds

/-- `opcd_store_async_on_ready`. -/
def storeAsyncOnReady (st : St) (env : ReadyEnv) : Turn Unit :=
  match st.storeAsync with
  | none => st.done ()
  | some w =>
    let r := w.drain queueDepth
    (st.setWriter r.1).completeAll env 0 r.2

/-! ## Admission and submission -/

end St

/-- What `persist_admit` answers: admitted with a reservation (none without a writer), left
unaccepted, or failed. -/
inductive Admission
  | admitted (reservation : Option Slot)
  | unaccepted
  | failed

/-- What `persist_blob` reports. -/
structure Persisted where
  ok : Bool
  deferred : Bool
  outcome : Outcome

/-- A write that was not made. -/
def Persisted.failed : Persisted := ⟨false, false, .unchanged⟩

namespace St

/-- One attempt of `persist_admit`; no verdict means that capacity was short. -/
def admitOnce (st : St) (w : Writer) (r : Resource) (path : Path) (len : Nat) :
    Turn (Option Admission) :=
  if st.persistResourceBusy r then st.done (some .unaccepted)
  else if st.pendingAckAlloc.isSome then
    let res := w.reserve path len
    ⟨st.setWriter res.1, [.reserve path res.2],
      match res.2 with
      | .ok slot => some (.admitted (some slot))
      | .error .again => none
      | .error _ => some .failed⟩
  else st.done none

/-- The drain before the second attempt. -/
def drainForRetry (st : St) (env : ReadyEnv) : Turn Unit :=
  ⟨(st.storeAsyncOnReady env).st, .retry :: (st.storeAsyncOnReady env).out, ()⟩

/-- `persist_admit`. -/
def persistAdmit (st : St) (env : ReadyEnv) (r : Resource) (path : Path) (len : Nat) :
    Turn Admission :=
  match st.storeAsync with
  | none => st.done (.admitted none)
  | some w =>
    (st.admitOnce w r path len).bind fun st v =>
    match v with
    | some a => st.done a
    | none =>
      (st.drainForRetry env).bind fun st _ =>
      match st.storeAsync with
      | none => st.done .unaccepted
      | some w => (st.admitOnce w r path len).bind fun st v => st.done (v.getD .unaccepted)

/-- `persist_blob`. -/
def persistBlob (st : St) (write : WriteResult) (path : Path) (data : Bytes) (mode : Nat)
    (r : Resource) (noAck : Bool) (reqId : BitVec 16) (cl : Client) (reservation : Option Slot) :
    Turn Persisted :=
  match st.storeAsync with
  | none =>
    ⟨st, [.write ⟨path, data, mode, write⟩], ⟨write.rc = 0, false, write.outcome⟩⟩
  | some w =>
    match st.pendingAckAlloc with
    | none => ⟨st.cancelReservation reservation, [.ackAlloc none], .failed⟩
    | some slot =>
      match w.submitReserved reservation data mode slot with
      | (w, .error _) =>
        ⟨(st.setWriter w).cancelReservation reservation, [.ackAlloc (some slot)], .failed⟩
      | (w, .ok ()) =>
        let pa : PendingAck :=
          { inUse := true, noAck, resource := r, reqId, seq := cl.seq, radioGen := 0
            clientIp := cl.ip, clientPort := cl.port }
        ⟨{ st.setWriter w with acks := Function.update st.acks slot pa },
          [.ackAlloc (some slot), .defer slot r noAck reqId cl data], ⟨true, true, .unchanged⟩⟩

/-- `persist_password`. -/
def persistPassword (st : St) (write : WriteResult) (candidate : Buf 128) (len : Nat)
    (cl : Client) (reservation : Option Slot) : Turn Persisted :=
  st.persistBlob write st.paths.password (candidate.toList.take len) 0o600 .password false
    Command.setPassword.id cl reservation

/-- `persist_radio`. -/
def persistRadio (st : St) (write : WriteResult) (cl : Client) (reservation : Option Slot) :
    Turn Persisted :=
  st.persistBlob write st.paths.radio (rawRadio st.rad.radio) 0o644 .radio false
    Command.setRadioConfig.id cl reservation

/-- `persist_ip_list`. -/
def persistIpList (st : St) (write : WriteResult) (candidate : IpList) (noAck : Bool)
    (cl : Client) (reservation : Option Slot) : Turn Persisted :=
  match IpList.textFormat candidate IpList.textMax with
  | none => (st.cancelReservation reservation).done .failed
  | some text =>
    st.persistBlob write st.paths.ipList text 0o644 .ipList noAck Command.setIpConfigList.id cl
      reservation

end St

end Opcd
