import Opcd.Lib.Memory
import Opcd.IpList.RoundTrip
import Opcd.Handler.Persist
import Opcd.Store.Queue

/-!
# The text of a list in its buffer

`opc_iplist_text_format` as it writes: two `snprintf` a line, at the running offset, into what is left of the
buffer. `IpList.textFormat` is the text of it.

* `textFormatInto_fails`: the writes go on as the text does, and stay inside the buffer.
* `persistAdmit_reserved`: an admitted write has a slot with the length it asked for.
* `text_fits_reservation`: the text of every list fits its buffer and its reservation.
-/

namespace Opcd

open Bytes Protocol Store

namespace IpList

/-! ## The writes -/

/-- `put`, at offset `x.2` of the buffer of `cap` bytes at `p`: the memory and the new offset, or the memory as
it is when -1 is returned. -/
def putInto (p cap : Nat) (key : Bytes) (n : Nat) (value : Bytes) (x : Mem × Nat) : Except Mem (Mem × Nat) :=
  let w := key ++ decimal n ++ [ch '=']
  let m := x.1.snprintf (p + x.2) (sizeSub cap x.2) w
  if w.length ≥ sizeSub cap x.2 then .error m
  else
    let pos := x.2 + w.length
    let m := m.snprintf (p + pos) (sizeSub cap pos) value
    if value.length ≥ sizeSub cap pos then .error m else .ok (m, pos + value.length)

/-- What the value of a key prints as. The addresses are printed into 16 bytes, and the last byte of the copy of
the ESSID is a NUL. -/
def printedValue (e : Entry) : Key → Bytes
  | .ip => (ipv4Str e.ipAddress).take 15 ++ [nl]
  | .mask => (ipv4Str e.subnetMask).take 15 ++ [nl]
  | .gw => (ipv4Str e.defaultGateway).take 15 ++ [nl]
  | .essid => ch '"' :: cstr (e.essid.toList.take 31 ++ [0#8]) ++ [ch '"', nl]
  | .ntp => (ipv4Str e.ntpServer).take 15 ++ [nl]

def putSlotInto (p cap : Nat) (l : IpList) (x : Mem × Nat) (i : SlotIdx) : Except Mem (Mem × Nat) :=
  if ¬ l.present i then .ok x
  else Key.all.foldlM (fun x k => putInto p cap k.name (i + 1) (printedValue (l.slots i) k) x) x

/-- `opc_iplist_text_format` into the buffer of `cap` bytes at `p`. -/
def textFormatInto (l : IpList) (m : Mem) (p cap : Nat) : Except Mem (Mem × Nat) :=
  if cap = 0 then .error m
  else (List.finRange maxSlots).foldlM (putSlotInto p cap l) (m.store p [0#8], 0)

/-! ## They are those of the text -/

theorem printedValue_eq (e : Entry) (k : Key) : printedValue e k = valueText e k := by
  have hcut (a : BitVec 32) : (ipv4Str a).take 15 = ipv4Str a := List.take_of_length_le (length_ipv4Str a)
  have hnul (s : Bytes) : cstr (s ++ [0#8]) = cstr s := by
    induction s with
    | nil => rfl
    | cons b s ih =>
      by_cases hb : b = 0#8
      · simp [cstr, hb]
      · simpa [cstr, hb] using ih
  cases k <;> simp only [printedValue, valueText, hcut, hnul]

section Writes

variable {p cap : Nat} {m₀ : Mem}

/-- The offset is at the end of what was printed so far. -/
def AtEnd (p cap : Nat) (m₀ : Mem) (buf : Bytes) (x : Mem × Nat) : Prop :=
  x.2 = buf.length ∧ Mem.Printed p cap m₀ buf x.1

/-- Nothing outside of the buffer was written. -/
def Inside (p cap : Nat) (m₀ m : Mem) : Prop := ∀ a, a < p ∨ p + cap ≤ a → m a = m₀ a

theorem putInto_fails (hcap : cap < 2 ^ 64) (key : Bytes) (n : Nat) (value : Bytes) {buf : Bytes}
    {x : Mem × Nat} (h : AtEnd p cap m₀ buf x) :
    Fails (AtEnd p cap m₀) (Inside p cap m₀) (put cap key n value buf) (putInto p cap key n value x) := by
  obtain ⟨m, pos⟩ := x
  obtain ⟨rfl, hm⟩ := h
  unfold put putInto
  dsimp only
  have hroom := hm.room
  rw [sizeSub_eq hroom.le hcap]
  generalize key ++ decimal n ++ [ch '='] = w
  split
  · rename_i hw
    exact hm.frame_snprintf w
  · rename_i hw
    have hm₁ := hm.snprintf (s := w) (by omega)
    have hroom₁ := hm₁.room
    rw [← List.length_append, sizeSub_eq hroom₁.le hcap]
    split
    · exact hm₁.frame_snprintf value
    · rename_i hv
      exact ⟨List.length_append.symm, hm₁.snprintf (by omega)⟩

theorem putSlotInto_fails (hcap : cap < 2 ^ 64) (l : IpList) (i : SlotIdx) {buf : Bytes} {x : Mem × Nat}
    (h : AtEnd p cap m₀ buf x) :
    Fails (AtEnd p cap m₀) (Inside p cap m₀) (putSlot cap l buf i) (putSlotInto p cap l x i) := by
  unfold putSlot putSlotInto
  split
  · exact h
  · refine Fails.foldlM (fun buf x k hx => ?_) _ h
    rw [printedValue_eq]
    exact putInto_fails hcap k.name (i + 1) (valueText (l.slots i) k) hx

/-- **The writes are those of the text**: both fail, or the buffer holds the text; and nothing outside of the
buffer is written. -/
theorem textFormatInto_fails (hcap : cap < 2 ^ 64) (l : IpList) (m : Mem) (p : Nat) :
    Fails (AtEnd p cap m) (Inside p cap m) (textFormat l cap) (textFormatInto l m p cap) := by
  unfold textFormat textFormatInto
  split
  · exact fun a _ => rfl
  · rename_i hne
    exact Fails.foldlM (fun buf x i hx => putSlotInto_fails hcap l i hx) _ ⟨rfl, Mem.printed_nil hne m p⟩

end Writes

/-! ## Any capacity -/

/-- A `put` that does not fail appends its line. -/
theorem put_some {cap n : Nat} {key value buf buf' : Bytes} (h : put cap key n value buf = some buf') :
    buf' = buf ++ (key ++ decimal n ++ ch '=' :: value) := by
  unfold put at h
  dsimp only at h
  split at h
  · cases h
  · split at h
    · cases h
    · rw [← Option.some.inj h]
      simp

/-- A fold of steps that append, whatever it is that may fail. -/
theorem foldlM_some {α : Type} {f : Bytes → α → Option Bytes} {g : α → Bytes}
    (hf : ∀ buf a buf', f buf a = some buf' → buf' = buf ++ g a) (as : List α) {buf buf' : Bytes}
    (h : as.foldlM f buf = some buf') : buf' = buf ++ as.flatMap g := by
  induction as generalizing buf with
  | nil => simpa using (Option.some.inj h).symm
  | cons a as ih =>
    rw [List.foldlM_cons] at h
    obtain ⟨b, hb, has⟩ := Option.bind_eq_some_iff.mp h
    rw [ih has, hf _ _ _ hb, List.flatMap_cons, List.append_assoc]

theorem putSlot_some {cap : Nat} {l : IpList} {buf buf' : Bytes} {i : SlotIdx}
    (h : putSlot cap l buf i = some buf') : buf' = buf ++ terminated (slotLines l i) := by
  unfold putSlot at h
  split at h
  · rename_i hp
    have hp' : l.present i = false := by simpa using hp
    rw [← Option.some.inj h]
    simp [slotLines, hp', terminated]
  · rename_i hp
    have hp' : l.present i = true := by simpa using hp
    rw [foldlM_some (fun buf k buf' hk => put_some hk) Key.all h]
    simp [slotLines, hp', terminated, Key.all, keyLine, valueText_eq]

/-- Whatever the capacity, there is no text but that of the list. -/
theorem textFormat_some {cap : Nat} {l : IpList} {t : Bytes} (h : textFormat l cap = some t) : t = listText l := by
  unfold textFormat at h
  split at h
  · cases h
  · rw [foldlM_some (fun buf i buf' hi => putSlot_some hi) _ h, listText_eq_flatMap, List.nil_append]

/-- No byte of the text ends it as a C string. -/
theorem zero_notMem_listText (l : IpList) : 0#8 ∉ listText l := by
  have hdec (n : Nat) : 0#8 ∉ decimal n := notMem_decimal rfl n
  have hip (a : BitVec 32) : 0#8 ∉ ipv4Str a := by
    simp only [ipv4Str, List.mem_append, List.mem_cons, not_or]
    exact ⟨⟨⟨hdec _, by decide, hdec _⟩, by decide, hdec _⟩, by decide, hdec _⟩
  have hname (k : Key) : 0#8 ∉ k.name := by cases k <;> decide
  have hvalue (e : Entry) (k : Key) : 0#8 ∉ valueLine e k := by
    cases k with
    | essid =>
      simp only [valueLine, List.mem_append, List.mem_cons, not_or]
      exact ⟨⟨by decide, zero_notMem_cstr _⟩, by decide, List.not_mem_nil⟩
    | _ => exact hip _
  intro hmem
  obtain ⟨line, hline, hb⟩ := List.mem_flatMap.mp hmem
  obtain ⟨i, -, hline⟩ := List.mem_flatMap.mp hline
  unfold slotLines at hline
  split at hline
  · obtain ⟨k, -, rfl⟩ := List.mem_map.mp hline
    simp only [keyLine, List.mem_append, List.mem_cons, List.not_mem_nil, or_false] at hb
    rcases hb with ((hb | hb) | hb | hb) | hb
    · exact hname k hb
    · exact hdec _ hb
    · exact absurd hb (by decide)
    · exact hvalue _ k hb
    · exact absurd hb (by decide)
  · exact absurd hline List.not_mem_nil

end IpList

/-! ## The reservation -/

namespace St

variable {st : St}

theorem admitOnce_reserved {w : Writer} {r : Resource} {path : Path} {len : Nat} {s : Slot}
    (h : (st.admitOnce w r path len).val = some (.admitted (some s))) :
    ∃ w₁, w.reserve path len = (w₁, .ok s) ∧ (st.admitOnce w r path len).st.storeAsync = some w₁ := by
  unfold admitOnce at h ⊢
  split at h
  · simp [done] at h
  · rename_i hidle
    split at h
    · rename_i hack
      rw [if_neg hidle, if_pos hack]
      rcases hr : w.reserve path len with ⟨w₁, e | s'⟩
      · rw [hr] at h
        cases e <;> simp at h
      · rw [hr] at h
        obtain rfl : s' = s := by simpa using h
        exact ⟨w₁, rfl, rfl⟩
    · simp [done] at h

/-- **An admitted write has its slot**, reserved with the length it asked for, at once or after a drain. -/
theorem persistAdmit_reserved {env : ReadyEnv} {r : Resource} {path : Path} {len : Nat} {s : Slot}
    (h : (st.persistAdmit env r path len).val = .admitted (some s)) :
    ∃ w₀ w : Writer, w₀.reserve path len = (w, .ok s) ∧ (st.persistAdmit env r path len).st.storeAsync = some w := by
  unfold persistAdmit at h ⊢
  cases hw : st.storeAsync with
  | none => simp [hw, done] at h
  | some w =>
    rw [hw] at h
    dsimp only [Turn.bind] at h ⊢
    cases hv : (st.admitOnce w r path len).val with
    | some a =>
      rw [hv] at h
      obtain rfl : a = .admitted (some s) := h
      obtain ⟨w₁, hr, hst⟩ := admitOnce_reserved hv
      exact ⟨w, w₁, hr, hst⟩
    | none =>
      rw [hv] at h
      dsimp only at h ⊢
      generalize ((st.admitOnce w r path len).st.drainForRetry env).st = st₁ at h ⊢
      cases hw₁ : st₁.storeAsync with
      | none => simp [hw₁, done] at h
      | some w' =>
        rw [hw₁] at h
        dsimp only at h ⊢
        cases hv₁ : (st₁.admitOnce w' r path len).val with
        | none => simp [hv₁, done] at h
        | some a =>
          rw [hv₁] at h
          obtain rfl : a = .admitted (some s) := h
          obtain ⟨w₁, hr, hst⟩ := admitOnce_reserved hv₁
          exact ⟨w', w₁, hr, hst⟩

end St

open IpList in
/-- **The text of every list fits.** Into a buffer of `textMax` bytes it is written whole, with its NUL: it is
never longer than 21604 bytes, and what is returned is its length. Into a smaller buffer the same text is
written, or -1 is returned. Nothing outside of the buffer is written in either case. So `persist_ip_list` hands
the text over, and what an admission reserved for it is enough. -/
theorem text_fits_reservation :
    (∀ (l : IpList) (m : Mem) (p : Nat), ∃ m',
      textFormatInto l m p textMax = .ok (m', (listText l).length) ∧ (listText l).length ≤ 21604 ∧
        0#8 ∉ listText l ∧ Mem.Printed p textMax m (listText l) m') ∧
    (∀ (l : IpList) (m : Mem) (p cap : Nat), cap < textMax →
      (∃ m', textFormatInto l m p cap = .ok (m', (listText l).length) ∧ Mem.Printed p cap m (listText l) m') ∨
      ∃ m', textFormatInto l m p cap = .error m' ∧ Inside p cap m m') ∧
    (∀ (st : St) (write : WriteResult) (l : IpList) (noAck : Bool) (cl : Client) (r : Option Slot),
      st.persistIpList write l noAck cl r =
        st.persistBlob write st.paths.ipList (listText l) 0o644 .ipList noAck
          Command.setIpConfigList.id cl r) ∧ ∀ (st : St) (env : ReadyEnv) (path : Path) (s : Slot),
      (st.persistAdmit env .ipList path textMax).val = .admitted (some s) →
      ∃ w, (st.persistAdmit env .ipList path textMax).st.storeAsync = some w ∧ (w.jobs s).len = textMax ∧
        ∀ (l : IpList) (mode token : Nat), (listText l).length ≤ (w.jobs s).len ∧
          ∃ w', w.submitReserved (some s) (listText l) mode token = (w', .ok ()) := by
  have hmax : textMax = 24576 := rfl
  refine ⟨fun l m p => ?_, fun l m p cap hcap => ?_, fun st write l noAck cl r => ?_,
    fun st env path s h => ?_⟩
  · have h := textFormatInto_fails (show textMax < 2 ^ 64 by omega) l m p
    rw [textFormat_eq] at h
    cases hr : textFormatInto l m p textMax with
    | error m' => rw [hr] at h; exact h.elim
    | ok x =>
      rw [hr] at h
      obtain ⟨hlen, hm⟩ := h
      exact ⟨x.1, by rw [← hlen], length_listText l, zero_notMem_listText l, hm⟩
  · have h := textFormatInto_fails (show cap < 2 ^ 64 by omega) l m p
    cases hr : textFormatInto l m p cap with
    | error m' =>
      refine .inr ⟨m', rfl, ?_⟩
      rw [hr] at h
      cases ht : textFormat l cap with
      | none => rwa [ht] at h
      | some t => rw [ht] at h; exact h.elim
    | ok x =>
      rw [hr] at h
      cases ht : textFormat l cap with
      | none => rw [ht] at h; exact h.elim
      | some t =>
        rw [ht, textFormat_some ht] at h
        obtain ⟨hlen, hm⟩ := h
        exact .inl ⟨x.1, by rw [← hlen], hm⟩
  · rw [St.persistIpList, textFormat_eq]
  · obtain ⟨w₀, w, hr, hw⟩ := St.persistAdmit_reserved h
    obtain ⟨-, -, -, -, hw₁⟩ := Writer.reserve_ok hr
    have hlen : (w.jobs s).len = textMax := by simp [hw₁, Writer.setJob]
    refine ⟨w, hw, hlen, fun l mode token => ?_⟩
    have hfit : (listText l).length ≤ textMax := (length_listText l).trans (by omega)
    exact ⟨hlen ▸ hfit, Writer.submitReserved_reserve hr hfit mode token⟩

end Opcd
