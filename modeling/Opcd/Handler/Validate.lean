import Opcd.Protocol.Commands

/-!
# Field checks shared by the handlers

The character set of passwords and ESSIDs, and the checks on IPv4 addresses and netmasks, as in
`handler.c`, and the check of a whole IP-list entry.
-/

namespace Opcd

open Bytes

/-- A character `valid_opc_charset` lets through. -/
def opcChar (c : Byte) : Bool :=
  (ch 'A' ≤ c ∧ c ≤ ch 'Z') ∨ (ch 'a' ≤ c ∧ c ≤ ch 'z') ∨ (ch '0' ≤ c ∧ c ≤ ch '9') ∨
    c ∈ ofString ".-_+/:=~@"

/-- `valid_opc_charset`, of a C string. -/
def validOpcCharset (s : Bytes) : Bool := s.all opcChar

/-- `valid_unicast_ipv4`. -/
def validUnicastIpv4 (ip : BitVec 32) : Bool :=
  ip ≠ 0 ∧ ip ≠ 0xFFFFFFFF ∧ ip &&& 0xF0000000 ≠ 0xE0000000

/-- `valid_netmask`: ones from the top, then zeros. -/
def validNetmask (m : BitVec 32) : Bool := m ≠ 0 ∧ ~~~m &&& (~~~m + 1) = 0

/-- `valid_ipcfg_addr`: unicast and not loopback. -/
def validIpcfgAddr (ip : BitVec 32) : Bool := validUnicastIpv4 ip ∧ ip >>> 24 ≠ 127

open Protocol in
/-- `ipcfg_entry_error`: 0, or the cause the entry is refused with. -/
def ipcfgEntryError (e : Entry) (essidTerminated : Bool) : BitVec 16 :=
  if ¬ validIpcfgAddr e.ipAddress then Err.ipcfgIp
  else if ¬ validNetmask e.subnetMask then Err.ipcfgNetmask
  -- the network and the broadcast address of the subnet are no host addresses
  else if e.subnetMask ≠ 0xFFFFFFFF ∧
      (e.ipAddress = e.ipAddress &&& e.subnetMask ∨
        e.ipAddress = e.ipAddress &&& e.subnetMask ||| ~~~e.subnetMask) then Err.ipcfgIp
  else if e.defaultGateway ≠ 0 ∧
      (¬ validIpcfgAddr e.defaultGateway ∨ e.defaultGateway = e.ipAddress ∨
        (e.subnetMask ≠ 0xFFFFFFFF ∧
          e.defaultGateway &&& e.subnetMask ≠ e.ipAddress &&& e.subnetMask)) then Err.ipcfgGw
  else if e.ntpServer ≠ 0 ∧ ¬ validIpcfgAddr e.ntpServer then Err.ipcfgNtp
  else if ¬ essidTerminated then Err.ipcfgEssidNul
  else if ¬ validOpcCharset e.essid.str then Err.ipcfgEssidChar
  else 0

end Opcd
