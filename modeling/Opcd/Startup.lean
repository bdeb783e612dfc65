import Opcd.Handler.Dispatch
import Opcd.IpList.Load

/-!
# Start-up

`state_set_defaults` and `state_load_from_disk` of `opcd.c`, with `opcd_radio_conf_load` of `handler.c`:
the state the main loop starts from, given the files it finds.
-/

namespace Opcd

open Bytes Protocol Store

/-- `OPC_PASSWORD_DEFAULT`. -/
def passwordDefault : Buf 128 := Buf.ofBytes 128 (ofString "MyPassword")

/-- A configuration nothing was received for. -/
def RadioConfig.unset (station : BitVec 16) : RadioConfig :=
  ⟨station, 0, ⟨0, 0, scanBandUnset, 0⟩, ⟨0, 0, scanBandUnset, 0⟩⟩

/-- `state_set_defaults`, over the configuration and the paths in force. -/
def stateSetDefaults (conf : Conf) (paths : Paths) : St :=
  { conf, paths
    session := ⟨false, 0, 0, 0, 0⟩
    pw := ⟨passwordDefault, false, Buf.zero 128, Buf.zero 128⟩
    rad :=
      { radio := RadioConfig.unset stationSingle, committed := false, appliedKnown := false
        recovery := .healthy, gen := 0, revertPending := false
        revertCfg := ⟨0, 0, ⟨0, 0, 0, 0⟩, ⟨0, 0, 0, 0⟩⟩, revertCommitted := false
        persistBaselineValid := false }
    ipl := ⟨IpList.empty, IpList.empty, false, IpList.empty, IpList.empty, false, 0⟩
    chg := ⟨false, false, false, 0, 0, Entry.zero⟩
    ind :=
      { enabled := false, recipientIp := 0, recipientPort := 0, infoBits := 0, periodS := 0
        tickCounter := 0, seq := 0, radioUpReported := false, wlan0AssocKnown := false
        wlan0Assoc := false, wlan0AssocAt := 0, coalesce := fun _ => Coalesce.zero
        faultProbe := Fault.Probe.init }
    bootStatus := .booting
    storeAsync := none
    acks := fun _ => PendingAck.zero
    shouldReset := false
    resetNoticeSent := false }

/-- The password part of `state_load_from_disk`. -/
def loadPassword (f : File) (initial : Buf 128) : Buf 128 :=
  match f.readAll 127 with
  | none => initial
  | some [] => initial
  | some b => Buf.ofBytes 128 b

/-- `opcd_radio_conf_load`: the configuration, whether it counts as committed, and the write-back of
a migrated one. -/
def radioConfLoad (conf : Conf) (paths : Paths) (d : Disk) (writeBack : WriteResult) :
    RadioConfig × Bool × List Effect :=
  let marked := paths.radioMarker.any fun m => (d m).exists
  match radioConfRestore (((d paths.radio).readAll 64).getD []) with
  | .discardSize => (RadioConfig.unset conf.defaultStationType, false, [])
  | .discardInvalid => (RadioConfig.unset conf.defaultStationType, false, [])
  | .legacy c => (c, false, [])
  | .committed c => (c, !marked, [])
  | .migrated c =>
    (c, !marked && decide (writeBack.rc = 0),
      [.write ⟨paths.radio, rawRadio c, 0o644, writeBack⟩])

/-- The answers to the daemon while it starts. -/
structure StartEnv where
  radioWriteBack : WriteResult
  load : IpList.LoadEnv
  /-- the async writer could be created -/
  writer : Bool
  /-- the text of `opc.conf` that the congestion probe reads, if it can be opened -/
  opcConf : Option Bytes

/-- The state when the main loop is entered, and what the start did to the files. -/
def startup (conf : Conf) (paths : Paths) (d : Disk) (env : StartEnv) : Turn Unit :=
  let st := stateSetDefaults conf paths
  let r := radioConfLoad conf paths d env.radioWriteBack
  let l := IpList.load (d.after r.2.2) paths env.load
  ⟨{ st with
      pw.password := loadPassword (d paths.password) st.pw.password
      rad.radio := r.1
      rad.committed := r.2.1
      ipl.list := l.list
      ind.faultProbe := st.ind.faultProbe.conf env.opcConf
      bootStatus := .ready
      storeAsync := if env.writer then some Writer.create else none },
    r.2.2 ++ l.out, ()⟩

/-- The paths of `opcd_state.h`. -/
def defaultPaths : Paths :=
  { password := ofString "/usr/local/opc/etc/password"
    ipList := ofString "/usr/local/opc/etc/iplist.txt"
    radio := ofString "/usr/local/opc/etc/radio.conf"
    ipListUser := some (ofString "/home/admin/iplist.txt")
    ipListUserLast := some (ofString "/usr/local/opc/etc/iplist.user.last")
    ipListLegacy := some (ofString "/usr/local/opc/etc/iplist.cfg")
    radioMarker := some (ofString "/usr/local/opc/etc/radio.txn")
    nodup := by decide +kernel }

/-- The configuration without an `opc.conf`. -/
def defaultConf : Conf :=
  { defaultStationType := stationSingle, loginIdleS := 300, deviceInfoFreqSource := .live
    deviceIpIface := .eth0, managementTopology := .eth0Ip }

/-- A device with nothing to report. -/
def inventoryZero : Inventory :=
  { vendorCode := 0, productCode := 0, productSubcode := 0, hardwareVersion := Buf.zero 32
    serialNumber := Buf.zero 32, manufactureDate := ⟨0, 0, 0⟩, shipmentDate := ⟨0, 0, 0⟩
    ieee11r := 0, ieee11ai := 0, ieee11k := 0, ieee11v := 0 }

namespace Env

/-- A write that is synced. -/
def durableWrite : WriteResult := ⟨.durable, 0⟩

/-- At time `now`, with every call a success and no link up. -/
def allOk (now : Nat) : Env :=
  { now
    inventory := inventoryZero
    info :=
      { firmwareVersion := Buf.zero 32, ntpServer := 0, ethMac := Buf.zero 6
        devIpv4 := fun _ => (0, 0, 0), wlanMac := fun _ => Buf.zero 6, essid := Buf.zero 32
        link := fun _ => none, cfg := fun _ => (0, 0) }
    ready :=
      { revert := fun _ => .ok, unlink := fun _ => true
        mirror := fun _ => ⟨durableWrite, durableWrite⟩ }
    write := durableWrite
    mirror := ⟨durableWrite, durableWrite⟩
    validateRadio := .ok
    marker := durableWrite
    applyRadio := .ok
    unlink := true
    otherIpv4 := none
    directRoute := none
    link := none }

end Env

end Opcd
