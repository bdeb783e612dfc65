import Opcd.Lib.Machine
import Opcd.Store.Interleave
import Opcd.IpList.RoundTrip
import Opcd.Protocol.Codec
import Opcd.Session.Outsider
import Opcd.Session.IdleTimer
import Opcd.Platform.ApplyIp
import Opcd.Platform.RoamDatagram
import Opcd.Handler.Intake
import Opcd.Handler.Response
import Opcd.Abstract.Capacity
import Opcd.Abstract.Slots
import Opcd.Password.Authority
import Opcd.Daemon.ChangeIp
import Opcd.Radio.Baseline
import Opcd.Store.Atomic
import Opcd.Indication.Congestion
import Opcd.Nl80211.Drain
import Opcd.IpList.Request
import Opcd.IpList.Reservation
import Opcd.Indication.Period
import Opcd.Platform.ApplyRadio
import Opcd.Radio.Restore
import Opcd.Platform.Clash
import Opcd.Platform.Route
import Opcd.Config.DevinfoCfg
import Opcd.Config.Confinement
import Opcd.Platform.Netmask
import Opcd.Nl80211.Tables
import Opcd.Fault.Meminfo
import Opcd.Essid.Reading
import Opcd.IpList.Cycle
import Opcd.IpList.Reload
import Opcd.Daemon.Commits
import Opcd.Daemon.ListRuns
import Opcd.Daemon.Notices
import Opcd.Daemon.MainLoop
import Opcd.Daemon.Durability
