import Opcd.Essid.Conf
import Opcd.Lib.Decimal

/-!
# The ESSID restore marker

`essid_marker.c`: the marker file's text (`Marker.text`, `Marker.parse`), and the operations on the
marker and the conf: `arm`, `commit`, `settle` and `restore`. Each reads each file at
most once and makes at most one write of the marker, one of the conf and one unlink; `Io` says
which of these calls fail, and a call that fails leaves its file alone.

A marker written from clean fields is read back with those fields (`Marker.parse_text`).
-/

namespace Opcd.Essid

open Bytes

/-- The errno values the operations return, negated in the source. -/
inductive Errno
  | noent
  | inval
  | fbig
  | nametoolong
  /-- what a failing system call reported -/
  | sys (n : Nat)
  deriving DecidableEq, Repr

/-- `slurp`: the C string in a file of less than 64 KiB. -/
def slurp (fault : Option Errno) (file : Option Bytes) : Except Errno Bytes :=
  match fault, file with
  | some e, _ => .error e
  | none, none => .error .noent
  | none, some b => if fileMaxBytes ≤ b.length then .error .fbig else .ok (cstr b)

/-- `line_value` over the lines of a body, of which the last has no newline. -/
def lineValueIn (key : Bytes) (cap : Nat) : List Bytes → Except Errno Bytes
  | [] => .error .noent
  | [l] => if key.isPrefixOf l then .error .inval else .error .noent
  | l :: ls =>
    if key.isPrefixOf l then
      let v := l.drop key.length
      if v = [] ∨ cap ≤ v.length then .error .inval else .ok v
    else lineValueIn key cap ls

/-- `line_value`: the value of the first line that starts with `key`. -/
def lineValue (body key : Bytes) (cap : Nat) : Except Errno Bytes :=
  lineValueIn key cap (lines body)

/-- `marker_t`. -/
structure Marker where
  essid : Bytes
  applied : Bytes
  targetHex : Bytes
  slot : BitVec 32
  time : BitVec 64
  deriving DecidableEq

namespace Marker

def keyEssid : Bytes := ofString "essid="
def keyApplied : Bytes := ofString "applied="
def keyTarget : Bytes := ofString "target="
def keySlot : Bytes := ofString "slot="
def keyTime : Bytes := ofString "time="

/-- An optional line, absent when its value is empty. -/
def optional (key value : Bytes) : List Bytes := if value = [] then [] else [key ++ value]

/-- The lines of a marker body. -/
def body (m : Marker) : List Bytes :=
  [keyEssid ++ m.essid, keySlot ++ decimal m.slot.toNat, keyTime ++ decimalInt m.time.toInt] ++
    optional keyTarget m.targetHex ++ optional keyApplied m.applied

def text (m : Marker) : Bytes := terminated m.body

/-- `marker_parse`. -/
def parse (body : Bytes) : Except Errno Marker :=
  if ¬ keyEssid.isPrefixOf body then .error .inval
  else
    match lineValue body keyEssid tokenMax, lineValue body keyApplied tokenMax,
        lineValue body keyTarget tokenMax with
    | .error _, _, _ => .error .inval
    | _, .error .inval, _ => .error .inval
    | _, _, .error .inval => .error .inval
    | .ok essid, applied, target =>
      let slot := match lineValue body keySlot 32 with
        | .ok num => BitVec.ofNat 32 (strtoul num)
        | .error _ => 0
      let time := match lineValue body keyTime 32 with
        | .ok num => BitVec.ofInt 64 (strtoll num)
        | .error _ => 0
      .ok { essid, applied := applied.toOption.getD [], targetHex := target.toOption.getD [],
            slot, time }

end Marker

/-- The two files. -/
@[ext]
structure Files where
  conf : Option Bytes
  marker : Option Bytes
  deriving DecidableEq

/-- Which system calls of an operation fail, and with what. -/
structure Io where
  readMarker : Option Errno
  readConf : Option Errno
  write : Option Errno
  unlink : Option Errno

/-- No call fails. -/
def Io.fine : Io := ⟨none, none, none, none⟩

/-- `marker_write`; 864 is `sizeof body`. -/
def markerWrite (io : Io) (f : Files) (m : Marker) : Files × Except Errno Nat :=
  if 3 * tokenMax + 96 ≤ m.text.length then (f, .error .nametoolong)
  else
    match io.write with
    | some e => (f, .error e)
    | none => ({ f with marker := some m.text }, .ok 0)

/-- `conf_token`: the conf's single `ssid=` token. -/
def confToken (io : Io) (f : Files) : Except Errno Bytes :=
  match slurp io.readConf f.conf with
  | .error e => .error e
  | .ok conf =>
    match findSsid conf with
    | (1, some pl) =>
      if pl.token = [] ∨ tokenMax ≤ pl.token.length then .error .inval else .ok pl.token
    | _ => .error .inval

/-- `marker_unlink`. -/
def markerUnlink (io : Io) (f : Files) : Files × Except Errno Nat :=
  match io.unlink with
  | some .noent => (f, .ok 0)
  | some e => (f, .error e)
  | none => ({ f with marker := none }, .ok 0)

/-- `load_marker`. -/
def loadMarker (io : Io) (f : Files) : Except Errno Marker :=
  match slurp io.readMarker f.marker with
  | .error e => .error e
  | .ok body => Marker.parse body

/-- `hexval`; `none` is the source's -1. -/
def hexval (c : Byte) : Option Nat :=
  if ch '0' ≤ c ∧ c ≤ ch '9' then some (c.toNat - (ch '0').toNat)
  else if ch 'a' ≤ c ∧ c ≤ ch 'f' then some (c.toNat - (ch 'a').toNat + 10)
  else if ch 'A' ≤ c ∧ c ≤ ch 'F' then some (c.toNat - (ch 'A').toNat + 10)
  else none

/-- The quoted branch of `token_is_ssid`: hex pairs against the characters between the quotes. -/
def hexDenotes : Bytes → Bytes → Bool
  | [], [] => true
  | h :: l :: hex, c :: cs =>
    (match hexval h, hexval l with
      | some hi, some lo => c.toNat = hi * 16 + lo
      | _, _ => false) && hexDenotes hex cs
  | _, _ => false

/-- The bare branch of `token_is_ssid`: two hex strings, digit by digit. -/
def hexAgrees : Bytes → Bytes → Bool
  | [], [] => true
  | a :: as, b :: bs => (hexval a).isSome && hexval a = hexval b && hexAgrees as bs
  | _, _ => false

/-- `token_is_ssid`: does the conf token denote the SSID bytes in `targetHex`? -/
def tokenIsSsid (tok targetHex : Bytes) : Bool :=
  if targetHex.length = 0 ∨ targetHex.length % 2 ≠ 0 then false
  else if 2 ≤ tok.length ∧ tok.head? = some (ch '"') ∧ tok.getLast? = some (ch '"') then
    hexDenotes targetHex (tok.drop 1).dropLast
  else hexAgrees tok targetHex

/-- `%02x`. -/
def hexByte (b : Byte) : Bytes :=
  let digit (n : Nat) : Byte := BitVec.ofNat 8 (if n < 10 then 48 + n else 87 + n)
  [digit (b.toNat / 16), digit (b.toNat % 16)]

/-- The SSID as `target=` hex. -/
def hexOf (s : Bytes) : Bytes := s.flatMap hexByte

/-- The ownership test of `arm` and `restore`: the chain wrote the token `cur`. -/
def Marker.owns (m : Marker) (cur : Bytes) : Bool :=
  (m.applied ≠ [] ∧ m.applied = cur) ∨ (m.targetHex ≠ [] ∧ tokenIsSsid cur m.targetHex)

/-- The marker `arm` writes, up to the requested SSID. -/
def armed (old : Except Errno Marker) (cur : Bytes) (slot : BitVec 32) (now : BitVec 64) :
    Marker :=
  match old with
  | .ok m =>
    if m.owns cur then ⟨m.essid, cur, [], slot, now⟩ else ⟨cur, [], [], slot, now⟩
  | .error _ => ⟨cur, [], [], slot, now⟩

/-- `opc_essid_marker_arm`. -/
def arm (io : Io) (f : Files) (slot : BitVec 32) (now : BitVec 64) (requested : Bytes) :
    Files × Except Errno Nat :=
  match confToken io f with
  | .error e => (f, .error e)
  | .ok cur =>
    let m := armed (loadMarker io f) cur slot now
    if requested ≠ [] then
      if tokenMax ≤ 2 * requested.length then (f, .error .nametoolong)
      else markerWrite io f { m with targetHex := hexOf requested }
    else markerWrite io f m

/-- `opc_essid_marker_commit`. -/
def commit (io : Io) (f : Files) : Files × Except Errno Nat :=
  match loadMarker io f with
  | .error e => (f, .error e)
  | .ok m =>
    match confToken io f with
    | .error e => (f, .error e)
    | .ok cur => markerWrite io f { m with applied := cur }

/-- What the conf held before the helper ran: the committed token, or the original. -/
def Marker.pre (m : Marker) : Bytes := if m.applied ≠ [] then m.applied else m.essid

/-- Report `n` in place of a success. -/
def reporting (n : Nat) (r : Files × Except Errno Nat) : Files × Except Errno Nat :=
  (r.1, r.2.map fun _ => n)

/-- `opc_essid_marker_settle`. -/
def settle (io : Io) (f : Files) : Files × Except Errno Nat :=
  match loadMarker io f with
  | .error .noent => (f, .ok 0)
  | .error e => (f, .error e)
  | .ok m =>
    match confToken io f with
    | .error e => (f, .error e)
    | .ok cur =>
      if cur = m.pre then
        if m.applied = [] then markerUnlink io f else markerWrite io f { m with targetHex := [] }
      else if m.targetHex ≠ [] ∧ tokenIsSsid cur m.targetHex then
        reporting 1 (markerWrite io f { m with applied := cur })
      else if m.applied = [] then reporting 2 (markerUnlink io f)
      else reporting 2 (markerWrite io f { m with targetHex := [] })

/-- `opc_essid_marker_restore`. The conf keeps its file mode. -/
def restore (io : Io) (f : Files) : Files × Except Errno Nat :=
  match loadMarker io f with
  | .error .noent => (f, .ok 0)
  | .error e => (f, .error e)
  | .ok m =>
    match slurp io.readConf f.conf with
    | .error e => (f, .error e)
    | .ok conf =>
      match findSsid conf with
      | (1, some pl) =>
        if tokenMax ≤ pl.token.length then (f, .error .inval)
        else if pl.token = m.essid then markerUnlink io f
        else if ¬ m.owns pl.token then reporting 2 (markerUnlink io f)
        else
          match io.write with
          | some e => (f, .error e)
          | none =>
            reporting 1 (markerUnlink io { f with conf := some (pl.head ++ m.essid ++ pl.tail) })
      | _ => (f, .error .inval)

/-! ## A written marker is read back -/

theorem lineValueIn_hit {key v : Bytes} {cap : Nat} {rest : List Bytes} (hrest : rest ≠ [])
    (hv : v ≠ []) (hlen : v.length < cap) : lineValueIn key cap ((key ++ v) :: rest) = .ok v := by
  obtain ⟨l, ls, rfl⟩ := List.exists_cons_of_ne_nil hrest
  have hp : key.isPrefixOf (key ++ v) = true :=
    List.isPrefixOf_iff_prefix.mpr (List.prefix_append _ _)
  simp [lineValueIn, hp, hv, Nat.not_le.mpr hlen]

theorem lineValueIn_miss {key l : Bytes} {cap : Nat} {rest : List Bytes} (hrest : rest ≠ [])
    (h : key.isPrefixOf l = false) : lineValueIn key cap (l :: rest) = lineValueIn key cap rest := by
  obtain ⟨k, ls, rfl⟩ := List.exists_cons_of_ne_nil hrest
  simp [lineValueIn, h]

/-- An optional line is found if it is there, and is no obstacle if another key is looked for. -/
theorem lineValueIn_optional {key v : Bytes} {cap : Nat} {rest : List Bytes} (hrest : rest ≠ [])
    (hlen : v.length < cap) :
    lineValueIn key cap (Marker.optional key v ++ rest) =
      if v = [] then lineValueIn key cap rest else .ok v := by
  unfold Marker.optional
  split
  · rfl
  · next hv => exact lineValueIn_hit hrest hv hlen

theorem lineValueIn_optional_miss {key k v : Bytes} {cap : Nat} {rest : List Bytes}
    (hrest : rest ≠ []) (h : key.isPrefixOf (k ++ v) = false) :
    lineValueIn key cap (Marker.optional k v ++ rest) = lineValueIn key cap rest := by
  unfold Marker.optional
  split
  · rfl
  · exact lineValueIn_miss hrest h

/-- A field that can be written on a marker line. -/
structure CleanField (v : Bytes) : Prop where
  length_lt : v.length < tokenMax
  no_nul : 0#8 ∉ v
  no_nl : nl ∉ v

theorem CleanToken.field {t : Bytes} (h : CleanToken t) : CleanField t :=
  ⟨h.length_lt, h.no_nul, h.no_nl⟩

theorem CleanField.nil : CleanField [] := ⟨by decide, by simp, by simp⟩

/-- A 64-bit number is printed in at most 20 bytes. -/
theorem length_decimalInt_le (t : BitVec 64) : (decimalInt t.toInt).length ≤ 20 := by
  have hlo := t.le_toInt
  have hhi := t.toInt_lt
  cases hn : t.toInt with
  | ofNat n =>
    have : (decimal n).length ≤ 19 := length_decimal_le_of_lt (by
      rw [hn, Int.ofNat_eq_natCast] at hhi
      omega)
    exact this.trans (by decide)
  | negSucc n =>
    have : (decimal (n + 1)).length ≤ 19 := length_decimal_le_of_lt (by
      rw [hn] at hlo
      omega)
    exact Nat.succ_le_succ this

namespace Marker

/-- A marker whose text can be read back. -/
structure Clean (m : Marker) : Prop where
  essid : CleanField m.essid
  essid_ne_nil : m.essid ≠ []
  applied : CleanField m.applied
  targetHex : CleanField m.targetHex

theorem notMem_optional {key v : Bytes} {b : Byte} (hk : b ∉ key) (hv : b ∉ v) : ∀ l ∈ optional key v, b ∉ l := by
  unfold optional
  split <;> simp [hk, hv]

/-- No line of a clean marker contains a byte that its keys and numbers do not. -/
theorem notMem_body {m : Marker} {b : Byte} (hkeys : b ∉ keyEssid ++ keySlot ++ keyTime ++ keyTarget ++ keyApplied)
    (hd : isDigit b = false) (hm : b ≠ ch '-') (he : b ∉ m.essid) (ht : b ∉ m.targetHex)
    (ha : b ∉ m.applied) : ∀ l ∈ m.body, b ∉ l := by
  simp only [List.mem_append, not_or] at hkeys
  obtain ⟨⟨⟨⟨h1, h2⟩, h3⟩, h4⟩, h5⟩ := hkeys
  intro l hl
  simp only [body, List.mem_append, List.mem_cons, List.not_mem_nil, or_false] at hl
  rcases hl with ((rfl | rfl | rfl) | hl) | hl
  · simp [h1, he]
  · simp [h2, notMem_decimal hd]
  · simp [h3, notMem_decimalInt hd hm]
  · exact notMem_optional h4 ht l hl
  · exact notMem_optional h5 ha l hl

theorem Clean.cstr_text {m : Marker} (h : m.Clean) : cstr m.text = m.text := by
  refine cstr_eq_self fun hmem => ?_
  obtain ⟨l, hl, hb⟩ := List.mem_flatMap.mp hmem
  rcases List.mem_append.mp hb with hb | hb
  · exact notMem_body (by decide) (by decide) (by decide) h.essid.no_nul h.targetHex.no_nul
      h.applied.no_nul l hl hb
  · exact absurd (List.mem_singleton.mp hb) (by decide)

theorem Clean.lines_text {m : Marker} (h : m.Clean) :
    lines m.text = (keyEssid ++ m.essid) :: (keySlot ++ decimal m.slot.toNat) ::
        (keyTime ++ decimalInt m.time.toInt) ::
          (optional keyTarget m.targetHex ++ (optional keyApplied m.applied ++ [[]])) := by
  rw [text, lines_terminated (notMem_body (by decide) (by decide) (by decide) h.essid.no_nl
    h.targetHex.no_nl h.applied.no_nl)]
  simp [body]

/-- The slot and the time fit `num` of `marker_parse`, and are converted back. -/
theorem lineValue_number {m : Marker} (h : m.Clean) :
    lineValue m.text keySlot 32 = .ok (decimal m.slot.toNat) ∧
      lineValue m.text keyTime 32 = .ok (decimalInt m.time.toInt) := by
  have hslot : (decimal m.slot.toNat).length ≤ 10 := length_decimal_le_of_lt (by omega)
  have htime := length_decimalInt_le m.time
  have hne : decimalInt m.time.toInt ≠ [] := by
    cases m.time.toInt with
    | ofNat n => exact decimal_ne_nil n
    | negSucc n => exact List.cons_ne_nil _ _
  constructor
  · rw [lineValue, h.lines_text, lineValueIn_miss (by simp) rfl]
    exact lineValueIn_hit (by simp) (decimal_ne_nil _) (by omega)
  · rw [lineValue, h.lines_text, lineValueIn_miss (by simp) rfl, lineValueIn_miss (by simp) rfl]
    exact lineValueIn_hit (by simp) hne (by omega)

/-- **Round trip.** A clean marker is read back. -/
theorem parse_text {m : Marker} (h : m.Clean) : parse (cstr m.text) = .ok m := by
  rw [h.cstr_text]
  have hpre : keyEssid.isPrefixOf m.text = true :=
    List.isPrefixOf_iff_prefix.mpr ⟨_, by simp only [text, body, terminated, List.cons_append,
      List.flatMap_cons, List.append_assoc]; rfl⟩
  have hlast : ∀ key cap, key ≠ [] → lineValueIn key cap [[]] = .error .noent := by
    intro key cap hkey
    cases key with
    | nil => exact absurd rfl hkey
    | cons b bs => rfl
  have hessid : lineValue m.text keyEssid tokenMax = .ok m.essid := by
    rw [lineValue, h.lines_text]
    exact lineValueIn_hit (by simp) h.essid_ne_nil h.essid.length_lt
  have htarget : lineValue m.text keyTarget tokenMax =
      if m.targetHex = [] then .error .noent else .ok m.targetHex := by
    rw [lineValue, h.lines_text, lineValueIn_miss (by simp) rfl, lineValueIn_miss (by simp) rfl,
      lineValueIn_miss (by simp) rfl, lineValueIn_optional (by simp) h.targetHex.length_lt,
      lineValueIn_optional_miss (by simp) rfl, hlast _ _ (by decide)]
  have happlied : lineValue m.text keyApplied tokenMax =
      if m.applied = [] then .error .noent else .ok m.applied := by
    rw [lineValue, h.lines_text, lineValueIn_miss (by simp) rfl, lineValueIn_miss (by simp) rfl,
      lineValueIn_miss (by simp) rfl, lineValueIn_optional_miss (by simp) rfl,
      lineValueIn_optional (by simp) h.applied.length_lt, hlast _ _ (by decide)]
  have hget : ∀ v : Bytes,
      (if v = [] then (.error .noent : Except Errno Bytes) else .ok v).toOption.getD [] = v := by
    intro v
    by_cases hv : v = [] <;> simp [hv, Except.toOption]
  have hne : ∀ v : Bytes,
      (if v = [] then (.error .noent : Except Errno Bytes) else .ok v) ≠ .error .inval := by
    intro v
    by_cases hv : v = [] <;> simp [hv]
  unfold parse
  rw [hessid, htarget, happlied]
  simp only [hpre, not_true_eq_false, if_false]
  split
  · next heq => cases heq
  · exact absurd ‹_ = Except.error Errno.inval› (hne _)
  · exact absurd ‹_ = Except.error Errno.inval› (hne _)
  · next heq _ _ =>
    obtain rfl := Except.ok.inj heq
    have hslot : strtoul (decimal m.slot.toNat) = m.slot.toNat := strtoul_decimal (by omega)
    have htime : strtoll (decimalInt m.time.toInt) = m.time.toInt :=
      strtoll_decimalInt m.time.le_toInt m.time.toInt_lt
    rw [hget, hget, (lineValue_number h).1, (lineValue_number h).2]
    dsimp only
    rw [hslot, htime, BitVec.ofNat_toNat, BitVec.setWidth_eq, BitVec.ofInt_toInt]

end Marker

end Opcd.Essid
