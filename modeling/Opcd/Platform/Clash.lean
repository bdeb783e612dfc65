import Opcd.Handler.Settings
import Opcd.Platform.ApplyIp

/-!
# The guard of the management plane

An entry whose subnet meets the one the other interface is on is refused twice: by
`ipcfg_clashes_other_iface` when ChangeIpAddress stages it, and by `nxp_apply_ip_change` when it is applied.
Each of the two picks the other interface on its own (`otherIface`, `nxpOtherIface`).

* `clash_is_intersection`: one xor under both masks says whether two subnets meet, contiguous masks or not.
* `clash_guards_agree`: what each of the two refuses, and that they refuse the same.
-/

namespace Opcd.Platform

open Bytes Protocol

/-- The addresses of a subnet. -/
def Subnet (addr mask : BitVec 32) : Set (BitVec 32) := { a | a &&& mask = addr &&& mask }

/-- The interface `ipcfg_clashes_other_iface` reads. -/
def otherIface (st : St) : Nat := if st.mgmtIpIfaceIdx = 0 then 1 else 0

/-- The interface `nxp_apply_ip_change` reads. -/
def nxpOtherIface (iface : Nat) : Nat := if iface = 1 then 0 else 1

theorem mgmtIpIfaceIdx_cases (st : St) : st.mgmtIpIfaceIdx = 0 ∨ st.mgmtIpIfaceIdx = 1 := by
  unfold St.mgmtIpIfaceIdx
  split
  · exact .inr rfl
  · exact .inr rfl
  · exact .inl rfl

/-- The two pick the same interface. -/
theorem nxpOtherIface_mgmt (st : St) : nxpOtherIface st.mgmtIpIfaceIdx = otherIface st := by
  rcases mgmtIpIfaceIdx_cases st with h | h
  · rw [nxpOtherIface, otherIface, h]; rfl
  · rw [nxpOtherIface, otherIface, h]; rfl

/-- What an interface that takes part reports: an address, and a mask that leaves hosts and is set. -/
structure OnSubnet (other : Option (BitVec 32 × BitVec 32)) (addr mask : BitVec 32) : Prop where
  reported : other = some (addr, mask)
  addr_ne : addr ≠ 0
  mask_ne : mask ≠ 0
  mask_ne_host : mask ≠ 0xFFFFFFFF

/-- The xor under both masks is a shared address. -/
theorem xor_eq_zero_iff (a m b n : BitVec 32) :
    (a ^^^ b) &&& m &&& n = 0 ↔ (Subnet a m ∩ Subnet b n).Nonempty :=
  (BitVec.exists_masked_iff a b m n).symm

/-- **The guard of the handler is subnet intersection.** -/
theorem clash_is_intersection (other : Option (BitVec 32 × BitVec 32)) (e : Entry) :
    St.ipcfgClashesOtherIface other e = true ↔ ∃ addr mask, OnSubnet other addr mask ∧
      (Subnet e.ipAddress e.subnetMask ∩ Subnet addr mask).Nonempty := by
  cases other with
  | none =>
    constructor
    · intro h
      cases h
    · rintro ⟨addr, mask, ⟨hsome, -, -, -⟩, -⟩
      cases hsome
  | some o =>
    obtain ⟨oip, omask⟩ := o
    simp only [St.ipcfgClashesOtherIface]
    split
    · rename_i hout
      refine ⟨nofun, ?_⟩
      rintro ⟨addr, mask, ⟨hsome, haddr, hmask, hhost⟩, -⟩
      cases hsome
      rcases hout with h | h | h
      · exact absurd h haddr
      · exact absurd h hmask
      · exact absurd h hhost
    · rename_i hin
      obtain ⟨haddr, hmask, hhost⟩ : oip ≠ 0 ∧ omask ≠ 0 ∧ omask ≠ 0xFFFFFFFF := by
        simpa only [not_or] using hin
      rw [decide_eq_true_iff, xor_eq_zero_iff]
      constructor
      · exact fun h => ⟨oip, omask, ⟨rfl, haddr, hmask, hhost⟩, h⟩
      · rintro ⟨addr, mask, ⟨hsome, -, -, -⟩, h⟩
        cases hsome
        exact h

/-- The test of the platform is that of the handler. -/
theorem recheck_eq (other : Option (BitVec 32 × BitVec 32)) (e : Entry) :
    (other.any fun o => o.1 ≠ 0 ∧ o.2 ≠ 0 ∧ o.2 ≠ 0xFFFFFFFF ∧
      (e.ipAddress ^^^ o.1) &&& e.subnetMask &&& o.2 = 0) = St.ipcfgClashesOtherIface other e := by
  cases other with
  | none => rfl
  | some o =>
    obtain ⟨oip, omask⟩ := o
    simp only [Option.any_some, St.ipcfgClashesOtherIface]
    split
    · rename_i hout
      rw [decide_eq_false_iff_not]
      rintro ⟨haddr, hmask, hhost, -⟩
      rcases hout with h | h | h
      · exact haddr h
      · exact hmask h
      · exact hhost h
    · rename_i hin
      obtain ⟨haddr, hmask, hhost⟩ : oip ≠ 0 ∧ omask ≠ 0 ∧ omask ≠ 0xFFFFFFFF := by
        simpa only [not_or] using hin
      exact decide_eq_decide.mpr ⟨fun h => h.2.2.2, fun h => ⟨haddr, hmask, hhost, h⟩⟩

/-- The answer of the platform to an entry the handlers accept. An address it cannot be given is refused before
the other interface is looked at. -/
theorem nxpApplyIpChange_accepted {e : Entry} {terminated : Bool} (h : ipcfgEntryError e terminated = 0)
    (iface : Nat) (other : Option (BitVec 32 × BitVec 32)) :
    (targetRefused e.ipAddress = true → nxpApplyIpChange e iface other = .error .target) ∧
      (targetRefused e.ipAddress = false →
        (nxpApplyIpChange e iface other = .error .clash ↔ St.ipcfgClashesOtherIface other e = true)) := by
  have hmask := netmaskRefused_of_valid (ipcfgEntryError_accepts h).2.1
  rw [← recheck_eq]
  unfold nxpApplyIpChange
  refine ⟨fun ht => ?_, fun ht => ?_⟩
  · simp only [hmask, ht, Bool.false_eq_true, if_false, if_true]
  · simp only [hmask, ht, Bool.false_eq_true, if_false]
    split
    · rename_i hclash
      exact ⟨fun _ => hclash, fun _ => rfl⟩
    · rename_i hno
      exact ⟨nofun, fun hclash => absurd hclash hno⟩

/-- **The two guards of the management plane**, for an entry the handlers accept and whatever the interfaces
report. ChangeIpAddress refuses it exactly when the other interface has an address, with a mask that is neither
0 nor that of a host, and some address lies in both subnets. On the same reports the check of the platform, on
the interface the handler selects, refuses it then and only then; an entry whose address is refused as a target
does not come to that check. -/
theorem clash_guards_agree {e : Entry} {terminated : Bool} (h : ipcfgEntryError e terminated = 0) :
    (∀ other, St.ipcfgClashesOtherIface other e = true ↔ ∃ addr mask, OnSubnet other addr mask ∧
      (Subnet e.ipAddress e.subnetMask ∩ Subnet addr mask).Nonempty) ∧
    ∀ (st : St) (read : Nat → Option (BitVec 32 × BitVec 32)),
      let iface := st.mgmtIpIfaceIdx
      let refused := nxpApplyIpChange e iface (read (nxpOtherIface iface))
      (targetRefused e.ipAddress = false →
        (refused = .error .clash ↔ St.ipcfgClashesOtherIface (read (otherIface st)) e = true)) ∧
      (targetRefused e.ipAddress = true → refused = .error .target) := by
  refine ⟨fun other => clash_is_intersection other e, fun st read => ?_⟩
  dsimp only
  rw [nxpOtherIface_mgmt]
  obtain ⟨htarget, hclash⟩ := nxpApplyIpChange_accepted h st.mgmtIpIfaceIdx (read (otherIface st))
  exact ⟨hclash, htarget⟩

/-- 10.0.0.1/9 is refused while the other interface is 10.64.0.1 under the mask 255.64.0.255, which is no
prefix: 10.64.0.1 is in both. -/
theorem clash_guards_agree_scattered :
    let e : Entry := ⟨0, 1, 0x0A000001, 0xFF800000, 0, 0, Buf.zero 32⟩
    ipcfgEntryError e true = 0 ∧ St.ipcfgClashesOtherIface (some (0x0A400001, 0xFF4000FF)) e = true := by
  refine ⟨by decide, ((@clash_guards_agree _ true (by decide)).1 _).mpr ?_⟩
  exact ⟨_, _, ⟨rfl, by decide, by decide, by decide⟩, 0x0A400001, rfl, rfl⟩

end Opcd.Platform
