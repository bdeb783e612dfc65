import Opcd.Config.Topology

/-!
# The configured mode and bandwidth of an interface

`opcd_devinfo_cfg_from_json` (`devinfo_cfg.c`) takes them from `wifi_init_conf.json`: `.<iface>.radio.mode` and
`.<iface>.radio.bw`, and for a mode that is not usable the limit `.<iface>.STANDARD`, or `.global.STANDARD` where
that is empty. Its walker `member` counts brackets too, and starts from the value a lookup before it gave.

* `member_value`: `member` looks up a member of a value.
* `member_path`: a chain of them looks up a path.
* `json_walkers_agree`: both walkers of `wifi_init_conf.json` agree with path lookup.
-/

namespace Opcd.Config

open Bytes Json

/-! ## The walker -/

/-- `member`. -/
def member (name : Bytes) (obj : Option Bytes) : Option Bytes :=
  obj.bind fun obj =>
    if obj.head? ≠ some (ch '\x7b') then none
    else
      walk (fun depth p => if depth = 1 then atKey name p else none) skipString
        (fun depth b =>
          if b = ch '\x7b' ∨ b = ch '[' then some (depth + 1)
          else if b = ch '\x7d' ∨ b = ch ']' then if depth - 1 = 0 then none else some (depth - 1)
          else some depth)
        obj.length 0 obj

/-- `scalar`, into a buffer of `cap` bytes: the text of a string without escapes, or of a bare token. -/
def scalar (cap : Nat) (v : Option Bytes) : Option Bytes :=
  v.bind fun v =>
    if v.head? = some quote then
      let t := (v.drop 1).takeWhile fun c => c ≠ quote ∧ c ≠ backslash
      if ((v.drop 1).drop t.length).head? = some quote ∧ t.length < cap then some t else none
    else
      let t := v.takeWhile fun c => isDigit c ∨ (ch 'a' ≤ c ∧ c ≤ ch 'z')
      if t ≠ [] ∧ t.length < cap then some t else none

/-! ## The tokens -/

def wlanModeUnset : Byte := 0xFF

def bandwidthUnset : Byte := 0xFF

/-- `mode_from_radio`. -/
def modeFromRadio (t : Bytes) (mlan1 : Bool) : Byte :=
  if t = ofString "b" then 5
  else if t = ofString "g" then 6
  else if t = ofString "a" then 4
  else if t = ofString "n" then 7
  else if t = ofString "ac" then 9
  else if t = ofString "ax" ∧ ¬ mlan1 then 11
  else wlanModeUnset

def toLower (b : Byte) : Byte := if ch 'A' ≤ b ∧ b ≤ ch 'Z' then b - ch 'A' + ch 'a' else b

/-- `mode_from_standard`. -/
def modeFromStandard (t : Bytes) (mlan1 : Bool) : Byte :=
  let s := t.map toLower
  if 8 ≤ t.length then wlanModeUnset
  else if s = ofString "n" ∨ s = ofString "4" then 7
  else if s = ofString "ac" ∨ s = ofString "5" then 9
  else if s = ofString "ax" ∨ s = ofString "6" then if mlan1 then 9 else 11
  else wlanModeUnset

/-- `std_value`: a scalar that is not empty, null or false. -/
def stdValue (v : Option Bytes) : Option Bytes :=
  (scalar 16 v).filter fun t => t ≠ [] ∧ t ≠ ofString "null" ∧ t ≠ ofString "false"

/-- `bw_from_token`. -/
def bwFromToken (t : Bytes) : Byte :=
  if t = ofString "20" then 0 else if t = ofString "40" then 1 else if t = ofString "80" then 2 else bandwidthUnset

/-! ## The lookups -/

/-- The document behind a byte order mark and white space. -/
def rootOf (json : Bytes) : Bytes :=
  (if json.take 3 = [0xEF, 0xBB, 0xBF] then json.drop 3 else json).dropWhile isWs

/-- The values that are looked up. -/
structure Lookups where
  mode : Option Bytes
  bw : Option Bytes
  standard : Option Bytes
  globalStandard : Option Bytes

def lookups (json iface : Bytes) : Lookups :=
  let root := some (rootOf json)
  let ifo := member iface root
  let radio := member (ofString "radio") ifo
  { mode := member (ofString "mode") radio
    bw := member (ofString "bw") radio
    standard := member (ofString "STANDARD") ifo
    globalStandard := member (ofString "STANDARD") (member (ofString "global") root) }

/-- `opcd_devinfo_cfg_from_json`: mode and bandwidth. -/
def devinfoCfgFromJson (json iface : Bytes) : Byte × Byte :=
  let l := lookups json iface
  let mlan1 := decide (iface = ofString "mlan1")
  let mode := (scalar 16 l.mode).elim wlanModeUnset fun t => modeFromRadio t mlan1
  let bandwidth := (scalar 16 l.bw).elim bandwidthUnset bwFromToken
  if mode ≠ wlanModeUnset then (mode, bandwidth)
  else
    match stdValue l.standard with
    | some t => (modeFromStandard t mlan1, bandwidth)
    | none =>
      match stdValue l.globalStandard with
      | some t => (modeFromStandard t mlan1, bandwidth)
      | none => (mode, bandwidth)

-- the mode of another interface, and a limit that is no scalar
example : devinfoCfgFromJson (ofString
    "\x7b\"mlan1\": \x7b\"radio\": \x7b\"mode\": \"b\"\x7d\x7d, \"mlan0\": \x7b\"radio\": \x7b\"bw\": 40\x7d, \"STANDARD\": [6]\x7d, \"global\": \x7b\"STANDARD\": \"AX\"\x7d\x7d")
    (ofString "mlan0") = (11, 1) := by decide +kernel

/-! ## The walker looks up members -/

theorem walks_member (name : Bytes) : Walks (hitAt name) skipString
      (fun depth b =>
        if b = ch '\x7b' ∨ b = ch '[' then some (depth + 1)
        else if b = ch '\x7d' ∨ b = ch ']' then if depth - 1 = 0 then none else some (depth - 1)
        else some depth) 1 1 where
  arr_nonneg := by decide
  skip_chars := fun after hraw => skipString_chars hraw after
  skip_length := skipString_length
  hit_quote := hitAt_cons name
  neutral := by
    intro b d hb
    obtain ⟨h₁, h₂, h₃, h₄⟩ := isNeutral_ne hb
    rw [if_neg (not_or.mpr ⟨h₁, h₃⟩), if_neg (not_or.mpr ⟨h₂, h₄⟩)]
  openObj := fun d => if_pos (.inl rfl)
  closeObj := by
    intro d hd
    rw [if_neg (by decide), if_pos (.inl rfl), Int.add_sub_cancel, if_neg (by omega)]
  openArr := fun d => if_pos (.inr rfl)
  closeArr := by
    intro d hd
    rw [if_neg (by decide), if_pos (.inr rfl), Int.add_sub_cancel, if_neg (by omega)]

/-- The pointer to a value that was found. -/
def pointer (e : Value × Bytes) : Bytes := e.1.textThen e.2

/-- `member` looks up a member, of any value. -/
theorem member_value {name : Bytes} (hname : IsName name) (v : Value) (rest : Bytes) :
    member name (some (v.textThen rest)) = (v.find name rest).map pointer := by
  rw [member, Option.bind_some]
  by_cases hv : v.isObj = true
  · rw [if_neg (by rw [not_not, Syn.head_textThen]; exact hv)]
    exact (finds_of_walks hname (walks_member name) rfl).run_obj hv rest
  · rw [if_pos (by rw [ne_eq, Syn.head_textThen]; exact hv), Syn.find_eq_none (by simpa using hv)]
    rfl

theorem findPath_concat (v : Value) (path : List Bytes) (name rest : Bytes) :
    v.findPath (path ++ [name]) rest = (v.findPath path rest).bind fun e => e.1.find name e.2 := by
  induction path generalizing v rest with
  | nil =>
    rw [List.nil_append, Syn.findPath, Syn.findPath, Option.bind_some]
    cases v.find name rest <;> rfl
  | cons n path ih =>
    rw [List.cons_append, Syn.findPath, Syn.findPath]
    cases v.find n rest with
    | none => rfl
    | some e => exact ih e.1 e.2

/-- A chain of `member` looks up a path. -/
theorem member_path {name : Bytes} (hname : IsName name) (v : Value) (path : List Bytes) (rest : Bytes) :
    member name ((v.findPath path rest).map pointer) = (v.findPath (path ++ [name]) rest).map pointer := by
  rw [findPath_concat]
  cases v.findPath path rest with
  | none => rfl
  | some e => exact member_value hname e.1 e.2

theorem ne_mark_of_isWs : ∀ b : Byte, isWs b = true → b ≠ 0xEF := by decide +kernel

theorem rootOf_doc (d : Doc) (hroot : d.root.isObj = true) : rootOf d.text = d.root.textThen d.post.1 := by
  have hhead : ∀ b, d.text.head? = some b → b ≠ 0xEF := by
    intro b hb
    obtain ⟨⟨pre, hpre⟩, root, post⟩ := d
    cases pre with
    | nil =>
      have hbrace := (root.head_textThen post.1).mpr hroot
      rw [show Doc.text ⟨⟨[], hpre⟩, root, post⟩ = root.textThen post.1 from rfl, hbrace] at hb
      cases hb
      decide
    | cons c pre =>
      cases hb
      exact ne_mark_of_isWs _ (hpre _ List.mem_cons_self)
  have hmark : d.text.take 3 ≠ [0xEF, 0xBB, 0xBF] := by
    intro h
    cases ht : d.text with
    | nil =>
      rw [ht] at h
      cases h
    | cons b s =>
      rw [ht] at h hhead
      exact hhead b rfl (List.cons.inj h).1
  rw [rootOf, if_neg hmark, Doc.text, List.dropWhile_append_of_pos d.pre.2, Syn.dropWhile_ws]

/-- The lookups are those of the paths. -/
theorem lookups_eq (d : Doc) (hroot : d.root.isObj = true) {iface : Bytes} (hiface : IsName iface) :
    let at' path := (d.root.findPath path d.post.1).map pointer
    lookups d.text iface =
      { mode := at' [iface, ofString "radio", ofString "mode"]
        bw := at' [iface, ofString "radio", ofString "bw"]
        standard := at' [iface, ofString "STANDARD"]
        globalStandard := at' [ofString "global", ofString "STANDARD"] } := by
  have hstart : some (rootOf d.text) = (d.root.findPath [] d.post.1).map pointer := by
    rw [rootOf_doc d hroot]
    rfl
  unfold lookups
  dsimp only
  rw [hstart, member_path hiface, member_path (by decide), member_path (by decide), member_path (by decide),
    member_path (by decide), member_path (by decide), member_path (by decide)]
  rfl

/-- A lookup agrees with the tree: it gives the text from the value at the path on, which ends there, or nothing if
there is none. -/
def Agrees (v : Value) (path : List Bytes) (p : Option Bytes) : Prop :=
  (∀ u, v.At path u → ∃ tail, Delimited tail ∧ p = some (u.textThen tail)) ∧ ((∀ u, ¬ v.At path u) → p = none)

theorem agrees_findPath {v : Value} (hv : v.Unique) {path : List Bytes} (hpath : path ≠ []) (rest : Bytes) :
    Agrees v path ((v.findPath path rest).map pointer) := by
  constructor
  · intro u hu
    obtain ⟨tail, hfind⟩ := (hv.at_iff path u rest).mp hu
    exact ⟨tail, Syn.delimited_of_findPath hpath hfind, by rw [hfind]; rfl⟩
  · intro hno
    cases hfind : v.findPath path rest with
    | none => rfl
    | some e => exact absurd ((hv.at_iff path e.1 rest).mpr ⟨e.2, hfind⟩) (hno e.1)

/-- **The walkers of `wifi_init_conf.json` agree with path lookup**, in every text of an object without two members
of one name. The peer-route switch is that of the value at `.wbridge.peer_route.enabled`, and -1 where there is none.
The lookups of mode and bandwidth give the values at their paths, or nothing where a path does not exist. Names are
compared as they are spelled. -/
theorem json_walkers_agree (d : Doc) (hroot : d.root.isObj = true) (hunique : d.root.Unique) :
    (∀ v, d.root.At [ofString "wbridge", ofString "peer_route", ofString "enabled"] v →
      topologyJsonPeerRoute d.text = boolOf v) ∧
    ((∀ v, ¬ d.root.At [ofString "wbridge", ofString "peer_route", ofString "enabled"] v) →
      topologyJsonPeerRoute d.text = -1) ∧ ∀ iface, IsName iface →
      Agrees d.root [iface, ofString "radio", ofString "mode"] (lookups d.text iface).mode ∧
      Agrees d.root [iface, ofString "radio", ofString "bw"] (lookups d.text iface).bw ∧
      Agrees d.root [iface, ofString "STANDARD"] (lookups d.text iface).standard ∧
      Agrees d.root [ofString "global", ofString "STANDARD"] (lookups d.text iface).globalStandard := by
  refine ⟨fun v hv => ?_, fun hno => ?_, fun iface hiface => ?_⟩
  · obtain ⟨tail, hfind⟩ := (hunique.at_iff _ v d.post.1).mp hv
    rw [peerRoute_eq d hroot, hfind]
    rfl
  · rw [peerRoute_eq d hroot]
    cases hfind : d.root.findPath [ofString "wbridge", ofString "peer_route", ofString "enabled"] d.post.1 with
    | none => rfl
    | some e => exact absurd ((hunique.at_iff _ e.1 d.post.1).mpr ⟨e.2, hfind⟩) (hno e.1)
  · rw [lookups_eq d hroot hiface]
    have hagrees := fun n path => agrees_findPath hunique (List.cons_ne_nil n path) d.post.1
    exact ⟨hagrees _ _, hagrees _ _, hagrees _ _, hagrees _ _⟩

/-- The document `{"wbridge":{"peer_route":{"enabled":true}}}`. -/
def peerRouteOn : Doc :=
  ⟨noWs, .obj (.member noWs (plainStr "wbridge" (by decide)) noWs noWs (.obj (.member noWs
    (plainStr "peer_route" (by decide)) noWs noWs (.obj (.member noWs (plainStr "enabled" (by decide)) noWs noWs
      (.bool true) noWs)) noWs)) noWs), noWs⟩

theorem json_walkers_agree_on :
    topologyJsonPeerRoute (ofString "\x7b\"wbridge\":\x7b\"peer_route\":\x7b\"enabled\":true\x7d\x7d\x7d") = 1 :=
  (json_walkers_agree peerRouteOn rfl
    ⟨List.nodup_singleton _, List.nodup_singleton _, List.nodup_singleton _, trivial⟩).1 (.bool true)
    ⟨_, List.mem_singleton.mpr rfl, _, List.mem_singleton.mpr rfl, _, List.mem_singleton.mpr rfl, rfl⟩

end Opcd.Config
