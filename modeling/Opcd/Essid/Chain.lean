import Opcd.Essid.Marker
import Opcd.Handler.Validate
import Opcd.Lib.Machine

/-!
# ChangeIp ESSID attempts and the restore at boot

The ESSID part of `nxp_apply_ip_change`, as a machine: an attempt arms the marker, runs the apply
helper if that succeeded, and then commits or settles by what the helper reported. The helper is
outside the repository; it may leave the conf alone or put the requested SSID into the `ssid=` line,
quoted or as hex, and report either way. The daemon may stop between any two steps, and any write
of the marker or unlink may fail. `opcd -R` may run at any stop.

The chain never loses the original (`Inv`): as long as there is a marker it records the original,
and the conf holds the original or a token the marker owns; without one the conf holds the
original. `restore_returns_original` follows.
-/

namespace Opcd.Essid

open Bytes

/-- A requested SSID: what `0x0016`/`0x0015` validation lets into a slot, if not empty. -/
structure Ssid where
  bytes : Bytes
  ne_nil : bytes ≠ []
  length_le : bytes.length ≤ 31
  charset : validOpcCharset bytes = true

/-- The SSID between quotes. -/
def quoted (s : Bytes) : Bytes := (ch '"' :: s) ++ [ch '"']

/-- What the helper does to the conf. -/
inductive Install
  | nothing
  | quoted
  | hex (t : Bytes)

/-- The token the helper writes, if it writes one: the quoted SSID, or any spelling of it in hex
digits. -/
def Install.token (s : Ssid) : Install → Option Bytes
  | .nothing => none
  | .quoted => some (Essid.quoted s.bytes)
  | .hex t => if hexDenotes t s.bytes then some t else none

/-- The helper replaces just the token. -/
def install (f : Files) (t : Bytes) : Files :=
  match f.conf.map findSsid with
  | some (1, some pl) => { f with conf := some (pl.text t) }
  | _ => f

/-- Where an attempt stands. -/
inductive Phase
  | idle
  /-- armed, the helper is next -/
  | armed (s : Ssid)
  /-- the helper reported success (`true`) or failure -/
  | helped (ok : Bool)

structure Chain where
  files : Files
  phase : Phase

inductive Act
  | arm (slot : BitVec 32) (now : BitVec 64) (s : Ssid) (fault : Option Errno)
  | helper (w : Install) (ok : Bool)
  /-- commit or settle -/
  | finish (fault : Option Errno)
  /-- the daemon stops; nothing else is done for the attempt -/
  | crash
  /-- the daemon stops and `opcd -R` runs -/
  | reboot (writeFault unlinkFault : Option Errno)

/-- Reads succeed; a write of the marker, or an unlink, fails as given. -/
def Io.faulty (fault : Option Errno) : Io := ⟨none, none, fault, fault⟩

namespace Chain

def step (c : Chain) : Act → Chain
  | .arm slot now s fault =>
    match c.phase with
    | .idle =>
      let r := arm (.faulty fault) c.files slot now s.bytes
      ⟨r.1, match r.2 with | .ok 0 => .armed s | _ => .idle⟩
    | _ => c
  | .helper w ok =>
    match c.phase with
    | .armed s =>
      ⟨match w.token s with | some t => install c.files t | none => c.files, .helped ok⟩
    | _ => c
  | .finish fault =>
    match c.phase with
    | .helped true => ⟨(commit (.faulty fault) c.files).1, .idle⟩
    | .helped false => ⟨(settle (.faulty fault) c.files).1, .idle⟩
    | _ => c
  | .crash => ⟨c.files, .idle⟩
  | .reboot writeFault unlinkFault =>
    ⟨(restore ⟨none, none, writeFault, unlinkFault⟩ c.files).1, .idle⟩

end Chain

def chain : Machine Chain Act Empty := ⟨Chain.step, fun _ _ => []⟩

/-! ## The helper's tokens are recognised -/

theorem hexval_lt {c : Byte} {n : Nat} (h : hexval c = some n) : n < 16 := by
  revert c n
  have : ∀ c : Byte, ∀ n ∈ hexval c, n < 16 := by decide
  exact fun {c n} h => this c n h

/-- Two lower-case digits denote the byte they are printed from. -/
theorem hexval_hexByte (b : Byte) :
    ∃ h l, hexByte b = [h, l] ∧ hexval h = some (b.toNat / 16) ∧ hexval l = some (b.toNat % 16) := by
  refine ⟨_, _, rfl, ?_, ?_⟩
  · revert b; decide
  · revert b; decide

theorem hexDenotes_hexOf (s : Bytes) : hexDenotes (hexOf s) s = true := by
  induction s with
  | nil => rfl
  | cons b s ih =>
    obtain ⟨h, l, hb, hh, hl⟩ := hexval_hexByte b
    have hex : hexOf (b :: s) = h :: l :: hexOf s := by
      rw [hexOf, List.flatMap_cons, hb]
      rfl
    rw [hex, hexDenotes, hh, hl, ih]
    simp only [Bool.and_true, decide_eq_true_eq]
    omega

theorem length_hexOf (s : Bytes) : (hexOf s).length = 2 * s.length := by
  induction s with
  | nil => rfl
  | cons b s ih =>
    rw [hexOf, List.flatMap_cons, List.length_append, ← hexOf, ih]
    show 2 + 2 * s.length = 2 * (s.length + 1)
    omega

theorem hexDenotes_nil {t : Bytes} (h : hexDenotes t [] = true) : t = [] := by
  match t, h with
  | [], _ => rfl
  | [_], h => simp [hexDenotes] at h
  | _ :: _ :: _, h => simp [hexDenotes] at h

/-- What denotes a non-empty string starts with the two digits of its first byte. -/
theorem hexDenotes_cons {t s : Bytes} {b : Byte} (h : hexDenotes t (b :: s) = true) :
    ∃ x y t' hi lo, t = x :: y :: t' ∧ hexval x = some hi ∧ hexval y = some lo ∧
      b.toNat = hi * 16 + lo ∧ hexDenotes t' s = true := by
  match t, h with
  | [], h => simp [hexDenotes] at h
  | [_], h => simp [hexDenotes] at h
  | x :: y :: t, h =>
    simp only [hexDenotes, Bool.and_eq_true] at h
    obtain ⟨hxy, ht⟩ := h
    cases hx : hexval x with
    | none => simp [hx] at hxy
    | some hi =>
      cases hy : hexval y with
      | none => simp [hx, hy] at hxy
      | some lo => exact ⟨x, y, t, hi, lo, rfl, hx, hy, by simpa [hx, hy] using hxy, ht⟩

theorem hexAgrees_hexOf {t s : Bytes} (h : hexDenotes t s = true) : hexAgrees t (hexOf s) = true := by
  induction s generalizing t with
  | nil =>
    obtain rfl := hexDenotes_nil h
    rfl
  | cons b s ih =>
    obtain ⟨x, y, t', hi, lo, rfl, hx, hy, hb, ht⟩ := hexDenotes_cons h
    obtain ⟨u, v, huv, hu, hv⟩ := hexval_hexByte b
    have hex : hexOf (b :: s) = u :: v :: hexOf s := by
      rw [hexOf, List.flatMap_cons, huv]
      rfl
    have h1 := hexval_lt hx
    have h2 := hexval_lt hy
    have hdiv : b.toNat / 16 = hi := by omega
    have hmod : b.toNat % 16 = lo := by omega
    rw [hex, hexAgrees, hexAgrees, hx, hy, hu, hv, hdiv, hmod, ih ht]
    simp

theorem length_of_hexDenotes {t s : Bytes} (h : hexDenotes t s = true) : t.length = 2 * s.length := by
  induction s generalizing t with
  | nil => rw [hexDenotes_nil h]; rfl
  | cons b s ih =>
    obtain ⟨x, y, t', hi, lo, rfl, -, -, -, ht⟩ := hexDenotes_cons h
    simp only [List.length_cons, ih ht]
    omega

theorem hexDigit_of_hexDenotes {t s : Bytes} (h : hexDenotes t s = true) : ∀ x ∈ t, (hexval x).isSome := by
  induction s generalizing t with
  | nil => simp [hexDenotes_nil h]
  | cons b s ih =>
    obtain ⟨x, y, t', hi, lo, rfl, hx, hy, -, ht⟩ := hexDenotes_cons h
    intro z hz
    rcases List.mem_cons.mp hz with rfl | hz
    · simp [hx]
    · rcases List.mem_cons.mp hz with rfl | hz
      · simp [hy]
      · exact ih ht z hz

/-- A string of hex digits contains nothing else. -/
theorem notMem_of_hexDenotes {t s : Bytes} (h : hexDenotes t s = true) {b : Byte}
    (hb : hexval b = none) : b ∉ t := fun hm => by
  simpa [hb] using hexDigit_of_hexDenotes h b hm

theorem Ssid.notMem {s : Ssid} {b : Byte} (hb : opcChar b = false) : b ∉ s.bytes := fun hm => by
  simpa [hb] using List.all_eq_true.mp s.charset b hm

theorem notMem_quoted {s : Bytes} {b : Byte} (hq : b ≠ ch '"') (hs : b ∉ s) : b ∉ quoted s := by
  simp only [quoted, List.mem_append, List.mem_cons, List.not_mem_nil, or_false, not_or]
  exact ⟨⟨hq, hs⟩, hq⟩

/-- **Recognised.** Whatever the helper installs for `s` denotes `s`. -/
theorem tokenIsSsid_token {s : Ssid} {w : Install} {t : Bytes} (h : w.token s = some t) :
    tokenIsSsid t (hexOf s.bytes) = true := by
  have hpos : 0 < s.bytes.length := List.length_pos_iff.mpr s.ne_nil
  have hlen := length_hexOf s.bytes
  unfold tokenIsSsid
  rw [if_neg (by omega)]
  cases w with
  | nothing => simp [Install.token] at h
  | quoted =>
    obtain rfl : quoted s.bytes = t := by simpa [Install.token] using h
    rw [if_pos ⟨by simp [quoted], rfl, List.getLast?_concat ..⟩]
    simpa [quoted] using hexDenotes_hexOf s.bytes
  | hex u =>
    obtain ⟨hu, rfl⟩ : hexDenotes u s.bytes = true ∧ u = t := by simpa [Install.token] using h
    rw [if_neg]
    · exact hexAgrees_hexOf hu
    · rintro ⟨-, hq, -⟩
      exact notMem_of_hexDenotes hu (b := ch '"') (by decide) (List.mem_of_mem_head? hq)

/-- What the helper installs is a clean token of at most 62 bytes. -/
theorem cleanToken_token {s : Ssid} {w : Install} {t : Bytes} (h : w.token s = some t) :
    CleanToken t ∧ t.length ≤ 62 := by
  have hpos : 0 < s.bytes.length := List.length_pos_iff.mpr s.ne_nil
  have hle := s.length_le
  cases w with
  | nothing => simp [Install.token] at h
  | quoted =>
    obtain rfl : quoted s.bytes = t := by simpa [Install.token] using h
    have hlen : (quoted s.bytes).length = s.bytes.length + 2 := by simp [quoted]
    refine ⟨⟨by simp [quoted], by rw [hlen, tokenMax]; omega, ?_, ?_, ?_⟩, by omega⟩
    · exact notMem_quoted (by decide) (s.notMem (by decide))
    · exact notMem_quoted (by decide) (s.notMem (by decide))
    · intro hne
      simp only [quoted, List.getLast_append_singleton]
      decide
  | hex u =>
    obtain ⟨hu, rfl⟩ : hexDenotes u s.bytes = true ∧ u = t := by simpa [Install.token] using h
    have hlen := length_of_hexDenotes hu
    refine ⟨⟨?_, by rw [hlen, tokenMax]; omega, notMem_of_hexDenotes hu (by decide),
      notMem_of_hexDenotes hu (by decide), fun hne => ?_⟩, by omega⟩
    · rintro rfl
      rw [List.length_nil] at hlen
      omega
    · have hdigit := hexDigit_of_hexDenotes hu _ (List.getLast_mem hne)
      revert hdigit
      generalize u.getLast hne = b
      revert b
      decide

theorem cleanField_hexOf (s : Ssid) : CleanField (hexOf s.bytes) := by
  have hd := hexDenotes_hexOf s.bytes
  have hle := s.length_le
  refine ⟨by rw [length_hexOf, tokenMax]; omega, notMem_of_hexDenotes hd (by decide),
    notMem_of_hexDenotes hd (by decide)⟩

/-! ## The chain keeps the original -/

section Chain

variable {conf : Bytes} {pl : Place}

/-- The marker of `f`, if there is one, loads as `m`. -/
def Holds (f : Files) (m : Marker) : Prop :=
  m.Clean ∧ ∀ io, io.readMarker = none → loadMarker io f = .ok m

/-- The marker and the token `t` in the conf fit: the original is recorded, and `t` is the original
or the chain's. -/
def Recorded (pl : Place) (t : Bytes) (f : Files) : Prop :=
  ∃ m, Holds f m ∧ m.essid = pl.token ∧ (t = pl.token ∨ m.owns t = true)

/-- The conf has the token `t`: its own one, with no marker, or one that a marker with its own token records. -/
structure Inv (pl : Place) (f : Files) (t : Bytes) : Prop where
  conf : f.conf = some (pl.text t)
  clean : CleanToken t
  length_le : t.length ≤ max pl.token.length 62
  marker : f.marker = none ∧ t = pl.token ∨ Recorded pl t f

variable {f : Files} {t : Bytes}

theorem Inv.no_nul (h : Inv pl f t) (hfind : findSsid conf = (1, some pl)) (hnul : 0#8 ∉ conf) : 0#8 ∉ pl.text t := by
  have htoken : 0#8 ∉ pl.text pl.token := by rw [text_token hfind]; exact hnul
  simp only [Place.text, List.mem_append, not_or] at htoken ⊢
  exact ⟨⟨htoken.1.1, h.clean.no_nul⟩, htoken.2⟩

/-- Reading the token back: it fails only when the conf outgrew the buffer. -/
theorem Inv.confToken (h : Inv pl f t) (hfind : findSsid conf = (1, some pl))
    (hnul : 0#8 ∉ conf) (io : Io) (hio : io.readConf = none) :
    confToken io f = .error .fbig ∨ confToken io f = .ok t := by
  have hpl := h.no_nul hfind hnul
  unfold Essid.confToken slurp
  rw [hio, h.conf]
  by_cases hbig : fileMaxBytes ≤ (pl.text t).length
  · exact .inl (by simp [hbig])
  · refine .inr ?_
    simp [hbig, cstr_eq_self hpl, findSsid_text hfind h.clean, h.clean.ne_nil, Nat.not_le.mpr h.clean.length_lt]

/-- A marker write either leaves the files alone or leaves a marker that loads as written. -/
theorem markerWrite_cases (io : Io) (f : Files) {m : Marker} (hm : m.Clean) :
    (∃ e, markerWrite io f m = (f, .error e)) ∨
      ∃ f', markerWrite io f m = (f', .ok 0) ∧ f'.conf = f.conf ∧ Holds f' m := by
  unfold markerWrite
  by_cases hlen : 3 * tokenMax + 96 ≤ m.text.length
  · exact .inl ⟨.nametoolong, by simp [hlen]⟩
  · cases hw : io.write with
    | some e => exact .inl ⟨e, by simp [hlen]⟩
    | none =>
      refine .inr ⟨{ f with marker := some m.text }, by simp [hlen], rfl, hm, fun io' hio => ?_⟩
      have hsmall : ¬ fileMaxBytes ≤ m.text.length := by
        simp only [fileMaxBytes, tokenMax] at hlen ⊢
        omega
      simpa [loadMarker, slurp, hio, hsmall] using Marker.parse_text hm

theorem markerUnlink_cases (io : Io) (f : Files) :
    (markerUnlink io f).1 = f ∨ (markerUnlink io f).1 = { f with marker := none } := by
  unfold markerUnlink
  split <;> simp

/-- Writing a marker that records the original and fits the token keeps the invariant. -/
theorem Inv.markerWrite (h : Inv pl f t) (io : Io) {m : Marker}
    (hm : m.Clean) (hessid : m.essid = pl.token) (ht : t = pl.token ∨ m.owns t = true) :
    Inv pl (markerWrite io f m).1 t := by
  rcases markerWrite_cases io f hm with ⟨e, hw⟩ | ⟨f', hw, hconf, hload⟩ <;> rw [hw]
  · exact h
  · exact ⟨hconf.trans h.conf, h.clean, h.length_le, .inr ⟨_, hload, hessid, ht⟩⟩

theorem Inv.markerUnlink (h : Inv pl f t) (io : Io) (ht : t = pl.token) : Inv pl (markerUnlink io f).1 t := by
  rcases markerUnlink_cases io f with hu | hu <;> rw [hu]
  · exact h
  · exact ⟨h.conf, h.clean, h.length_le, .inl ⟨rfl, ht⟩⟩

theorem loadMarker_none {io : Io} (hio : io.readMarker = none) (h : f.marker = none) :
    loadMarker io f = .error .noent := by
  simp [loadMarker, slurp, hio, h]

theorem Marker.owns_iff {m : Marker} :
    m.owns t = true ↔ (m.applied ≠ [] ∧ m.applied = t) ∨ (m.targetHex ≠ [] ∧ tokenIsSsid t m.targetHex = true) := by
  simp [Marker.owns]

/-- The marker `arm` builds records the original, whatever was there before. -/
theorem Inv.armed (h : Inv pl f t) (io : Io) (hio : io.readMarker = none) (slot : BitVec 32) (now : BitVec 64) :
    (armed (loadMarker io f) t slot now).essid = pl.token ∧ CleanField (armed (loadMarker io f) t slot now).applied ∧
      (t = pl.token ∨ (armed (loadMarker io f) t slot now).applied = t) := by
  rcases h.marker with ⟨hnone, rfl⟩ | ⟨m, hm, hessid, ht⟩
  · rw [loadMarker_none hio hnone]
    exact ⟨rfl, .nil, .inl rfl⟩
  · rw [hm.2 io hio]
    simp only [Essid.armed]
    split
    · exact ⟨hessid, h.clean.field, .inr rfl⟩
    · next hown =>
      have ht : t = pl.token := ht.resolve_right hown
      exact ⟨ht, .nil, .inl ht⟩

theorem Inv.arm (h : Inv pl f t) (hfind : findSsid conf = (1, some pl))
    (hnul : 0#8 ∉ conf) (horig : CleanToken pl.token) (fault : Option Errno) (slot : BitVec 32)
    (now : BitVec 64) (s : Ssid) :
    Inv pl (arm (.faulty fault) f slot now s.bytes).1 t ∧ ((arm (.faulty fault) f slot now s.bytes).2 = .ok 0 →
        ∃ m, Holds (arm (.faulty fault) f slot now s.bytes).1 m ∧ m.essid = pl.token ∧
          m.targetHex = hexOf s.bytes) := by
  unfold Essid.arm
  rcases h.confToken hfind hnul (.faulty fault) rfl with hc | hc <;> rw [hc]
  · exact ⟨h, by simp⟩
  · obtain ⟨hessid, happ, ht⟩ := h.armed (.faulty fault) rfl slot now
    have hle := s.length_le
    have hlen : ¬ tokenMax ≤ 2 * s.bytes.length := by
      simp only [tokenMax]
      omega
    set m := Essid.armed (loadMarker (.faulty fault) f) t slot now
    have hm : ({ m with targetHex := hexOf s.bytes } : Marker).Clean :=
      ⟨by rw [hessid]; exact horig.field, by rw [hessid]; exact horig.ne_nil, happ,
        cleanField_hexOf s⟩
    have hown : t = pl.token ∨ ({ m with targetHex := hexOf s.bytes } : Marker).owns t = true :=
      ht.imp_right fun e => Marker.owns_iff.mpr (.inl ⟨by rw [e]; exact h.clean.ne_nil, e⟩)
    simp only [ne_eq, s.ne_nil, not_false_eq_true, if_true, if_neg hlen]
    refine ⟨h.markerWrite _ hm hessid hown, fun hok => ?_⟩
    rcases markerWrite_cases (.faulty fault) f hm with ⟨e, hw⟩ | ⟨f', hw, -, hload⟩
    · rw [hw] at hok
      cases hok
    · rw [hw]
      exact ⟨_, hload, hessid, rfl⟩

theorem Inv.commit (h : Inv pl f t) (hfind : findSsid conf = (1, some pl))
    (hnul : 0#8 ∉ conf) (fault : Option Errno) : Inv pl (commit (.faulty fault) f).1 t := by
  unfold Essid.commit
  rcases h.marker with ⟨hnone, -⟩ | ⟨m, hm, hessid, -⟩
  · rw [loadMarker_none rfl hnone]
    exact h
  · rw [hm.2 _ rfl]
    rcases h.confToken hfind hnul (.faulty fault) rfl with hc | hc <;> simp only [hc]
    · exact h
    · exact h.markerWrite _ ⟨hm.1.essid, hm.1.essid_ne_nil, h.clean.field, hm.1.targetHex⟩ hessid
        (.inr (Marker.owns_iff.mpr (.inl ⟨h.clean.ne_nil, rfl⟩)))

theorem Inv.settle (h : Inv pl f t) (hfind : findSsid conf = (1, some pl))
    (hnul : 0#8 ∉ conf) (fault : Option Errno) : Inv pl (settle (.faulty fault) f).1 t := by
  unfold Essid.settle
  rcases h.marker with ⟨hnone, -⟩ | ⟨m, hm, hessid, ht⟩
  · rw [loadMarker_none rfl hnone]
    exact h
  · rw [hm.2 _ rfl]
    rcases h.confToken hfind hnul (.faulty fault) rfl with hc | hc <;> simp only [hc]
    · exact h
    · have hcut : ({ m with targetHex := [] } : Marker).Clean :=
        ⟨hm.1.essid, hm.1.essid_ne_nil, hm.1.applied, .nil⟩
      split
      · next hpre =>
        -- the helper changed nothing
        unfold Marker.pre at hpre
        split
        · next happ =>
          rw [if_neg (by simp [happ])] at hpre
          exact h.markerUnlink _ (hpre.trans hessid)
        · next happ =>
          rw [if_pos happ] at hpre
          exact h.markerWrite _ hcut hessid
            (.inr (Marker.owns_iff.mpr (.inl ⟨happ, hpre.symm⟩)))
      · next hpre =>
        split
        · -- the requested SSID was installed all the same
          exact h.markerWrite _ ⟨hm.1.essid, hm.1.essid_ne_nil, h.clean.field, hm.1.targetHex⟩
            hessid (.inr (Marker.owns_iff.mpr (.inl ⟨h.clean.ne_nil, rfl⟩)))
        · next htarget =>
          -- nobody else writes the conf, so the token is the original
          have hown : m.owns t = true → m.applied ≠ [] ∧ m.applied = t := fun ho =>
            (Marker.owns_iff.mp ho).resolve_right htarget
          have htok : t = pl.token := by
            refine ht.resolve_right fun ho => ?_
            obtain ⟨hne, he⟩ := hown ho
            exact hpre (by rw [Marker.pre, if_pos hne, he])
          split
          · exact h.markerUnlink _ htok
          · exact h.markerWrite _ hcut hessid (.inl htok)

/-- What `restore` does to a chain: nothing if the conf cannot be read, and otherwise it unlinks
the marker of a conf that holds the original, writing the original first if need be. -/
theorem Inv.restore_cases (h : Inv pl f t) (hfind : findSsid conf = (1, some pl)) (hnul : 0#8 ∉ conf) (io : Io)
    (hm : io.readMarker = none) (hc : io.readConf = none) :
    (f.marker = none ∧ t = pl.token ∧ Essid.restore io f = (f, .ok 0)) ∨
      (fileMaxBytes ≤ (pl.text t).length ∧ Essid.restore io f = (f, .error .fbig)) ∨
      (t = pl.token ∧ Essid.restore io f = Essid.markerUnlink io f) ∨
      (io.write ≠ none ∧ ∃ e, Essid.restore io f = (f, .error e)) ∨
      (io.write = none ∧ Essid.restore io f =
        reporting 1 (Essid.markerUnlink io { f with conf := some (pl.text pl.token) })) := by
  have hpl := h.no_nul hfind hnul
  unfold Essid.restore
  rcases h.marker with ⟨hnone, ht⟩ | ⟨m, hload, hessid, ht⟩
  · exact .inl ⟨hnone, ht, by rw [loadMarker_none hm hnone]⟩
  · refine .inr ?_
    rw [hload.2 io hm]
    simp only [slurp, hc, h.conf]
    by_cases hbig : fileMaxBytes ≤ (pl.text t).length
    · exact .inl ⟨hbig, by simp [hbig]⟩
    · refine .inr ?_
      simp only [hbig, if_false, cstr_eq_self hpl, findSsid_text hfind h.clean,
        Nat.not_le.mpr h.clean.length_lt, hessid]
      by_cases heq : t = pl.token
      · exact .inl ⟨heq, by simp [heq]⟩
      · refine .inr ?_
        simp only [heq, if_false, ht.resolve_left heq, not_true_eq_false]
        cases hw : io.write with
        | some e => exact .inl ⟨by simp, e, rfl⟩
        | none => exact .inr ⟨rfl, rfl⟩

theorem Inv.restore (h : Inv pl f t) (hfind : findSsid conf = (1, some pl))
    (hnul : 0#8 ∉ conf) (horig : CleanToken pl.token) (io : Io) (hm : io.readMarker = none)
    (hc : io.readConf = none) : ∃ t', Inv pl (restore io f).1 t' := by
  rcases h.restore_cases hfind hnul io hm hc with
    ⟨-, -, hr⟩ | ⟨-, hr⟩ | ⟨ht, hr⟩ | ⟨-, e, hr⟩ | ⟨-, hr⟩ <;> rw [hr]
  · exact ⟨t, h⟩
  · exact ⟨t, h⟩
  · exact ⟨t, h.markerUnlink io ht⟩
  · exact ⟨t, h⟩
  · -- the conf is back; the marker goes, or stays and still records the original
    refine ⟨pl.token, ?_⟩
    have hback : Inv pl { f with conf := some (pl.text pl.token) } pl.token := by
      refine ⟨rfl, horig, le_max_left _ _, ?_⟩
      rcases h.marker with ⟨hnone, -⟩ | ⟨m, hload, hessid, -⟩
      · exact .inl ⟨hnone, rfl⟩
      · exact .inr ⟨m, hload, hessid, .inl rfl⟩
    exact hback.markerUnlink io rfl

/-- The invariant of a run: the files' invariant, and an armed attempt's target is on record. -/
def ChainInv (pl : Place) (c : Chain) : Prop :=
  ∃ t, Inv pl c.files t ∧ ∀ s, c.phase = .armed s →
    ∃ m, Holds c.files m ∧ m.essid = pl.token ∧ m.targetHex = hexOf s.bytes

/-- The helper puts a token of the armed SSID in the place of the old one. -/
theorem Inv.install {t u : Bytes} (h : Inv pl f t)
    (hfind : findSsid conf = (1, some pl)) {s : Ssid} {w : Install} (hw : w.token s = some u)
    {m : Marker} (hm : Holds f m) (hessid : m.essid = pl.token)
    (htarget : m.targetHex = hexOf s.bytes) : Inv pl (install f u) u := by
  obtain ⟨hclean, hlen⟩ := cleanToken_token hw
  have hpos : 0 < s.bytes.length := List.length_pos_iff.mpr s.ne_nil
  have hne : m.targetHex ≠ [] := by
    rw [htarget, ← List.length_pos_iff, length_hexOf]
    omega
  have hfiles : Essid.install f u = { f with conf := some (pl.text u) } := by
    simp only [Essid.install, h.conf, Option.map_some, findSsid_text hfind h.clean]
    rfl
  rw [hfiles]
  exact ⟨rfl, hclean, le_trans hlen (le_max_right _ _), .inr ⟨m, hm, hessid,
    .inr (Marker.owns_iff.mpr (.inr ⟨hne, by rw [htarget]; exact tokenIsSsid_token hw⟩))⟩⟩

/-- **One step.** -/
theorem ChainInv.step {c : Chain} (h : ChainInv pl c) (hfind : findSsid conf = (1, some pl))
    (hnul : 0#8 ∉ conf) (horig : CleanToken pl.token) (a : Act) : ChainInv pl (c.step a) := by
  obtain ⟨t, hinv, harmed⟩ := h
  have hidle : ∀ f' t', Inv pl f' t' → ChainInv pl ⟨f', .idle⟩ := fun f' t' h' =>
    ⟨t', h', by simp⟩
  cases a with
  | arm slot now s fault =>
    simp only [Chain.step]
    split
    · obtain ⟨hfiles, hok⟩ := hinv.arm hfind hnul horig fault slot now s
      refine ⟨t, hfiles, fun s' hs' => ?_⟩
      simp only at hs'
      split at hs'
      · next hr =>
        obtain rfl : s = s' := by simpa using hs'
        exact hok hr
      · cases hs'
    · exact ⟨t, hinv, harmed⟩
  | helper w ok =>
    simp only [Chain.step]
    split
    · next s hs =>
      obtain ⟨m, hm, hessid, htarget⟩ := harmed s hs
      cases hw : w.token s with
      | none => exact ⟨t, hinv, by simp⟩
      | some u => exact ⟨u, hinv.install hfind hw hm hessid htarget, by simp⟩
    · exact ⟨t, hinv, harmed⟩
  | finish fault =>
    simp only [Chain.step]
    split
    · exact hidle _ t (hinv.commit hfind hnul fault)
    · exact hidle _ t (hinv.settle hfind hnul fault)
    · exact ⟨t, hinv, harmed⟩
  | crash => exact hidle _ t hinv
  | reboot writeFault unlinkFault =>
    obtain ⟨t', ht'⟩ := hinv.restore hfind hnul horig
      ⟨none, none, writeFault, unlinkFault⟩ rfl rfl
    exact hidle _ t' ht'

end Chain

/-- **The restore returns the original.** Take a conf without NUL bytes and with one `ssid=`
assignment, whose token `pl.token` is not empty and fits the token buffer, and no marker. After
any sequence of attempts, crashes and reboots, a restore none of whose calls fails, on a conf that
can still be read, succeeds, and leaves the conf as it was byte for byte and no marker. The conf
can be read as long as the 62 bytes of the longest installed token fit in 64 KiB with the rest. -/
theorem restore_returns_original (conf : Bytes) (pl : Place) (hnul : 0#8 ∉ conf)
    (hfind : findSsid conf = (1, some pl)) (hne : pl.token ≠ []) (hlen : pl.token.length < tokenMax) (as : List Act) :
    let f := (chain.run ⟨⟨some conf, none⟩, .idle⟩ as).files
    (∀ text, slurp none f.conf = .ok text →
      (restore .fine f).1 = ⟨some conf, none⟩ ∧ ∃ n, (restore .fine f).2 = .ok n) ∧
    (conf.length < fileMaxBytes → conf.length + 62 < fileMaxBytes + pl.token.length →
      ∃ text, slurp none f.conf = .ok text) := by
  intro f
  have horig := cleanToken_of_findSsid hfind hnul hne hlen
  have hstart : ChainInv pl ⟨⟨some conf, none⟩, .idle⟩ :=
    ⟨pl.token, ⟨by rw [text_token hfind], horig, le_max_left _ _, .inl ⟨rfl, rfl⟩⟩, by simp⟩
  obtain ⟨t, hinv, -⟩ := chain.run_inv (P := ChainInv pl)
    (fun c a hc => hc.step hfind hnul horig a) hstart as
  have hsize : (pl.text t).length + pl.token.length = conf.length + t.length := by
    rw [← text_token hfind]
    simp only [Place.text, List.length_append]
    omega
  constructor
  · intro text hread
    have hsmall : ¬ fileMaxBytes ≤ (pl.text t).length := by
      intro hbig
      simp [f, slurp, hinv.conf, hbig] at hread
    rcases hinv.restore_cases hfind hnul .fine rfl rfl with
      ⟨hnone, rfl, hr⟩ | ⟨hbig, -⟩ | ⟨rfl, hr⟩ | ⟨hw, -⟩ | ⟨-, hr⟩
    · have hfiles : f = ⟨some conf, none⟩ :=
        Files.ext (hinv.conf.trans (by rw [text_token hfind])) hnone
      exact ⟨by rw [hr]; exact hfiles, 0, by rw [hr]⟩
    · exact absurd hbig hsmall
    · have hconf : f.conf = some conf := hinv.conf.trans (by rw [text_token hfind])
      exact ⟨by rw [hr]; exact Files.ext hconf rfl, 0, by rw [hr]; rfl⟩
    · exact absurd rfl hw
    · exact ⟨by rw [hr, text_token hfind]; rfl, 1, by rw [hr]; rfl⟩
  · intro hconf hroom
    have hle := hinv.length_le
    have hsmall : ¬ fileMaxBytes ≤ (pl.text t).length := by
      rcases le_total pl.token.length 62 with h62 | h62
      · rw [max_eq_right h62] at hle
        omega
      · rw [max_eq_left h62] at hle
        omega
    exact ⟨cstr (pl.text t), by simp only [f, slurp, hinv.conf, if_neg hsmall]⟩

/-- The statement at a conf of one line, after a first attempt cut short behind its helper and a
second one that fails to commit. -/
theorem restore_returns_original_ab :
    (restore .fine (chain.run ⟨⟨some (ofString "ssid=\"ab\""), none⟩, .idle⟩
      [.arm 1 0 ⟨ofString "c", by decide, by decide, by decide⟩ none, .helper .quoted true, .crash,
        .arm 2 0 ⟨ofString "d", by decide, by decide, by decide⟩ none,
        .helper (.hex (ofString "64")) false, .finish (some .inval)]).files).1 =
      ⟨some (ofString "ssid=\"ab\""), none⟩ := by
  have h := restore_returns_original (ofString "ssid=\"ab\"")
    ⟨[], ofString "ssid=", ofString "\"ab\"", [], []⟩ (by decide) (by decide) (by decide)
    (by decide)
    [.arm 1 0 ⟨ofString "c", by decide, by decide, by decide⟩ none, .helper .quoted true, .crash,
      .arm 2 0 ⟨ofString "d", by decide, by decide, by decide⟩ none,
      .helper (.hex (ofString "64")) false, .finish (some .inval)]
  obtain ⟨text, ht⟩ := h.2 (by decide) (by decide)
  exact (h.1 text ht).1

end Opcd.Essid
