import Opcd.IpList.Text
import Opcd.Lib.Mask

/-!
# Applying an IP-list entry

`nxp_apply_ip_change` of `platform_nxp.c`: its checks on the values of an entry, and the commands it
runs once they pass. The ESSID part is `Opcd.Essid`; here it shows as the name that is asked for.

* **`platform_applies_iff`**: of the entries the handlers accept, the platform applies in full those
  whose address and gateway lie below 240.0.0.0; `nxpApplyIpChange_reserved` is one it refuses.
-/

namespace Opcd.Platform

open Bytes Protocol

/-! ## The checks -/

/-- The loop of `count_set_bits`, for as many turns as there are bits. -/
def countBits : Nat → BitVec 32 → Nat
  | 0, _ => 0
  | turns + 1, v => if v = 0 then 0 else (v &&& 1).toNat + countBits turns (v >>> 1)

/-- `count_set_bits`. -/
def countSetBits (v : BitVec 32) : Nat := countBits 32 v

/-- The netmask of a prefix length. -/
def recon (len : Nat) : BitVec 32 := if len = 0 then 0 else 0xFFFFFFFF#32 <<< (32 - len)

/-- The netmask has no prefix length. -/
def netmaskRefused (m : BitVec 32) : Bool :=
  countSetBits m < 1 ∨ 32 < countSetBits m ∨ recon (countSetBits m) ≠ m

/-- The top octet of an address. -/
def topOctet (a : BitVec 32) : Byte := ((a >>> 24) &&& 0xFF).setWidth 8

/-- The address is unset, loopback, broadcast, or multicast and above. -/
def targetRefused (a : BitVec 32) : Bool :=
  a = 0 ∨ a = 0xFFFFFFFF ∨ topOctet a = 127 ∨ 224 ≤ topOctet a

/-- What becomes of a default gateway. -/
inductive Gateway
  | install
  /-- the default route is removed -/
  | flush
  | notApplied
  deriving DecidableEq, Repr

def gatewayStep (gw : BitVec 32) : Gateway :=
  if gw ≠ 0 ∧ gw ≠ 0xFFFFFFFF ∧ topOctet gw ≠ 127 ∧ topOctet gw < 224 then .install
  else if gw = 0 then .flush
  else .notApplied

/-! ## The commands -/

def devName (iface : Nat) : Bytes := ofString (if iface = 1 then "mlan0" else "eth0")

/-- The pipeline that moves the address. -/
def addrCommand (addr dev : Bytes) (len : Nat) : Bytes :=
  let cidr := addr ++ ofString "/" ++ decimal len
  ofString "ip addr replace " ++ cidr ++ ofString " dev " ++ dev ++
    ofString " && ip -4 -o addr show dev " ++ dev ++ ofString " | grep -q 'inet " ++ cidr ++
    ofString " .*scope global' && ip -4 addr show dev " ++ dev ++
    ofString " | awk -v keep=" ++ cidr ++
    ofString " '/scope global/&&!/\\/32/&&$2!=keep\x7bprint $2\x7d' | xargs -r -I\x7b\x7d ip addr del \x7b\x7d dev " ++
    dev

/-- The command for the default route, if there is one to run. -/
def gatewayCommand (gw : BitVec 32) (dev : Bytes) (len : Nat) : Option Bytes :=
  match gatewayStep gw with
  | .install =>
    some (ofString "ip route replace default via " ++ IpList.ipv4Str gw ++ ofString " dev " ++ dev ++
      ofString (if len = 32 then " onlink" else ""))
  | .flush => some (ofString "ip -4 route flush exact 0.0.0.0/0 dev " ++ dev)
  | .notApplied => none

/-- The time server drop-in that is put in place, or its removal. -/
def ntpDropIn (ntp : BitVec 32) : Option Bytes :=
  if ntp ≠ 0 then some (ofString "[Time]\nNTP=\nNTP=" ++ IpList.ipv4Str ntp ++ [nl]) else none

inductive Refusal
  | netmask | target | clash
  deriving DecidableEq, Repr

/-- What an entry that passes the checks leads to. The route and the time server follow only an
address that was moved. -/
structure Applied where
  addr : Bytes
  route : Option Bytes
  dropIn : Option Bytes
  essid : Option Bytes
  deriving DecidableEq, Repr

/-- `nxp_apply_ip_change`, up to the results of its commands. `other` is the address and mask of the
other interface. -/
def nxpApplyIpChange (e : Entry) (iface : Nat) (other : Option (BitVec 32 × BitVec 32)) :
    Except Refusal Applied :=
  let len := countSetBits e.subnetMask
  let dev := devName iface
  if netmaskRefused e.subnetMask then .error .netmask
  else if targetRefused e.ipAddress then .error .target
  else if other.any fun o => o.1 ≠ 0 ∧ o.2 ≠ 0 ∧ o.2 ≠ 0xFFFFFFFF ∧
      (e.ipAddress ^^^ o.1) &&& e.subnetMask &&& o.2 = 0 then .error .clash
  else
    .ok
      { addr := addrCommand (IpList.ipv4Str e.ipAddress) dev len
        route := gatewayCommand e.defaultGateway dev len
        dropIn := ntpDropIn e.ntpServer
        essid := if e.essid.toList.head? = some 0 then none else some e.essid.str }

/-! ## Netmasks -/

/-- The netmasks the handlers accept. -/
theorem validNetmask_cases {m : BitVec 32} (h : validNetmask m = true) :
    ∃ k < 32, m = ~~~BitVec.ofNat 32 (2 ^ k - 1) := by
  simp only [validNetmask, ne_eq, decide_eq_true_eq] at h
  obtain ⟨hm, hand⟩ := h
  have hlt := (~~~m).isLt
  have hne : (~~~m).toNat ≠ 2 ^ 32 - 1 := by
    rw [BitVec.toNat_not]
    intro e
    exact hm (BitVec.eq_of_toNat_eq (by simp; omega))
  have hsucc : (~~~m + 1).toNat = (~~~m).toNat + 1 := by
    rw [BitVec.toNat_add]
    simp only [BitVec.ofNat_eq_ofNat, BitVec.toNat_ofNat]
    omega
  have hnat : (~~~m).toNat &&& ((~~~m).toNat + 1) = 0 := by
    rw [← hsucc, ← BitVec.toNat_and, hand]
    rfl
  obtain ⟨k, hk⟩ := Nat.exists_eq_two_pow_sub_one hnat
  refine ⟨k, ?_, ?_⟩
  · by_contra hge
    have hpow : 2 ^ 32 ≤ 2 ^ k := Nat.pow_le_pow_right (by decide) (by omega)
    omega
  · rw [← hk, BitVec.ofNat_toNat, BitVec.setWidth_eq, BitVec.not_not]

/-- Every netmask the handlers accept has a prefix length. -/
theorem netmaskRefused_of_valid {m : BitVec 32} (h : validNetmask m = true) : netmaskRefused m = false := by
  obtain ⟨k, hk, rfl⟩ := validNetmask_cases h
  revert k
  decide +kernel

/-! ## Addresses -/

/-- The multicast test looks at the top four bits. -/
theorem and_top_eq_iff (a : BitVec 32) : a &&& 0xF0000000 = 0xE0000000 ↔ (a >>> 28).toNat = 14 := by
  have hbits : ∀ i < 32, (0xF0000000#32).getLsbD i = decide (28 ≤ i) := by decide
  have hshift : a &&& 0xF0000000#32 = (a >>> 28) <<< 28 := by
    refine BitVec.eq_of_getLsbD_eq fun i hi => ?_
    simp only [BitVec.getLsbD_and, hbits i hi, BitVec.getLsbD_shiftLeft, BitVec.getLsbD_ushiftRight]
    grind
  have hlt : (a >>> 28).toNat < 16 := by
    rw [BitVec.toNat_ushiftRight, Nat.shiftRight_eq_div_pow]
    omega
  rw [BitVec.ofNat_eq_ofNat, hshift, ← BitVec.toNat_inj, BitVec.toNat_shiftLeft, Nat.shiftLeft_eq]
  simp only [BitVec.ofNat_eq_ofNat, BitVec.toNat_ofNat]
  omega

theorem toNat_topOctet (a : BitVec 32) : (topOctet a).toNat = a.toNat / 2 ^ 24 := by
  have hlt := a.isLt
  have hand : ((a >>> 24) &&& 0xFF).toNat = a.toNat / 2 ^ 24 := by
    rw [BitVec.toNat_and, BitVec.toNat_ushiftRight, Nat.shiftRight_eq_div_pow]
    exact (Nat.and_two_pow_sub_one_eq_mod _ 8).trans (Nat.mod_eq_of_lt (by omega))
  rw [topOctet, BitVec.toNat_setWidth, hand]
  omega

/-- What the handlers ask of an address, as numbers. -/
theorem validIpcfgAddr_iff (a : BitVec 32) : validIpcfgAddr a = true ↔
    a.toNat ≠ 0 ∧ a.toNat ≠ 2 ^ 32 - 1 ∧ a.toNat / 2 ^ 28 ≠ 14 ∧ a.toNat / 2 ^ 24 ≠ 127 := by
  have htop := and_top_eq_iff a
  rw [BitVec.toNat_ushiftRight, Nat.shiftRight_eq_div_pow] at htop
  have hloop : a >>> 24 = 127 ↔ a.toNat / 2 ^ 24 = 127 := by
    rw [← BitVec.toNat_inj, BitVec.toNat_ushiftRight, Nat.shiftRight_eq_div_pow]
    rfl
  have hzero : a = 0 ↔ a.toNat = 0 := by rw [← BitVec.toNat_inj]; rfl
  have hones : a = 0xFFFFFFFF ↔ a.toNat = 2 ^ 32 - 1 := by rw [← BitVec.toNat_inj]; rfl
  simp only [validIpcfgAddr, validUnicastIpv4, ne_eq, decide_eq_true_eq, hzero, hones, htop, hloop]
  tauto

/-- An accepted address is refused as a target exactly from 240.0.0.0 on. -/
theorem targetRefused_iff {a : BitVec 32} (h : validIpcfgAddr a = true) :
    targetRefused a = true ↔ 240 ≤ a.toNat / 2 ^ 24 := by
  obtain ⟨h0, h1, h2, h3⟩ := (validIpcfgAddr_iff a).mp h
  have hzero : a = 0 ↔ a.toNat = 0 := by rw [← BitVec.toNat_inj]; rfl
  have hones : a = 0xFFFFFFFF ↔ a.toNat = 2 ^ 32 - 1 := by rw [← BitVec.toNat_inj]; rfl
  have hloop : topOctet a = 127 ↔ a.toNat / 2 ^ 24 = 127 := by
    rw [← BitVec.toNat_inj, toNat_topOctet]; rfl
  have hhigh : 224 ≤ topOctet a ↔ 224 ≤ a.toNat / 2 ^ 24 := by
    rw [BitVec.le_def, toNat_topOctet]; rfl
  simp only [targetRefused, decide_eq_true_eq, hzero, hones, hloop, hhigh]
  omega

/-- A gateway that is set and no refused target is installed. -/
theorem gatewayStep_eq_install_iff (gw : BitVec 32) : gatewayStep gw = .install ↔ targetRefused gw = false := by
  simp only [gatewayStep, targetRefused, decide_eq_false_iff_not, not_or, ne_eq]
  split_ifs <;> simp_all

/-! ## The two validators -/

/-- The value checks of `nxp_apply_ip_change` let the entry through, its gateway included. -/
structure Applies (e : Entry) : Prop where
  netmask : netmaskRefused e.subnetMask = false
  target : targetRefused e.ipAddress = false
  gateway : e.defaultGateway ≠ 0 → gatewayStep e.defaultGateway = .install

theorem ipcfgEntryError_accepts {e : Entry} {terminated : Bool} (h : ipcfgEntryError e terminated = 0) :
    validIpcfgAddr e.ipAddress = true ∧ validNetmask e.subnetMask = true ∧
      (e.defaultGateway ≠ 0 → validIpcfgAddr e.defaultGateway = true) := by
  unfold ipcfgEntryError at h
  split_ifs at h with h1 h2 h3 h4
  all_goals first | exact absurd h (by decide) | skip
  refine ⟨by simpa using h1, by simpa using h2, fun hgw => ?_⟩
  by_contra hbad
  exact h4 ⟨hgw, .inl hbad⟩

/-- An entry that passes its value checks is refused only for the other interface. -/
theorem Applies.refusal {e : Entry} (h : Applies e) {iface : Nat}
    {other : Option (BitVec 32 × BitVec 32)} {r : Refusal}
    (hr : nxpApplyIpChange e iface other = .error r) : r = .clash := by
  simp only [nxpApplyIpChange, h.netmask, h.target, Bool.false_eq_true, if_false] at hr
  split_ifs at hr
  exact (Except.error.inj hr).symm

/-- **What the platform applies of what the handlers accept**: the entries whose address and
gateway, if set, lie below 240.0.0.0. -/
theorem platform_applies_iff {e : Entry} {terminated : Bool} (h : ipcfgEntryError e terminated = 0) :
    (Applies e ↔ e.ipAddress.toNat / 2 ^ 24 < 240 ∧ (e.defaultGateway ≠ 0 → e.defaultGateway.toNat / 2 ^ 24 < 240)) ∧
    (Applies e → ∀ iface other r, nxpApplyIpChange e iface other = .error r → r = .clash) := by
  obtain ⟨haddr, hmask, hgw⟩ := ipcfgEntryError_accepts h
  have htarget := targetRefused_iff haddr
  refine ⟨⟨?_, ?_⟩, fun ha _ _ _ => ha.refusal⟩
  · rintro ⟨-, ht, hg⟩
    refine ⟨by rw [ht] at htarget; simpa using htarget, fun hne => ?_⟩
    have hfalse := (gatewayStep_eq_install_iff _).mp (hg hne)
    have hgt := targetRefused_iff (hgw hne)
    rw [hfalse] at hgt
    simpa using hgt
  · rintro ⟨hlow, hglow⟩
    refine ⟨netmaskRefused_of_valid hmask, ?_, fun hne => ?_⟩
    · rw [← Bool.not_eq_true, htarget]
      exact Nat.not_le.mpr hlow
    · have hgt := targetRefused_iff (hgw hne)
      rw [gatewayStep_eq_install_iff, ← Bool.not_eq_true, hgt]
      exact Nat.not_le.mpr (hglow hne)

/-- 192.168.0.2/24 behind 192.168.0.1 is applied. -/
theorem platform_applies_private :
    let e : Entry := ⟨0, 1, 0xC0A80002, 0xFFFFFF00, 0xC0A80001, 0, Buf.zero 32⟩
    ipcfgEntryError e true = 0 ∧ Applies e :=
  ⟨by decide, (@platform_applies_iff _ true (by decide)).1.mpr (by decide)⟩

/-- 240.0.0.1/24 passes the handlers' checks, and so does the gateway 240.0.0.1 of 10.0.0.1/32; the
platform refuses the one and does not install the other. -/
theorem nxpApplyIpChange_reserved :
    let e : Entry := ⟨0, 1, 0xF0000001, 0xFFFFFF00, 0, 0, Buf.zero 32⟩
    let g : Entry := ⟨0, 1, 0x0A000001, 0xFFFFFFFF, 0xF0000001, 0, Buf.zero 32⟩
    ipcfgEntryError e true = 0 ∧ nxpApplyIpChange e 1 none = .error .target ∧
    ipcfgEntryError g true = 0 ∧ gatewayStep g.defaultGateway = .notApplied := by
  decide

end Opcd.Platform
