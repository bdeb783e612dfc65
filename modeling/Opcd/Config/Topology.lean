import Opcd.Lib.JsonScan

/-!
# The peer-route switch

`opcd_topology_json_peer_route` (`topology.c`) walks `wifi_init_conf.json` for `.wbridge.peer_route.enabled`
without parsing it: it counts braces, skips strings, and takes a string at the depth of the members as a name if
its text is the name and a colon follows. A pointer into the text is the rest of the text from there on.

`skip_string` and `at_key` have a copy in `devinfo_cfg.c`.

* `atKey_quoted`: what `at_key` says of a string of a text.
* `finds_findObjectKey`, `finds_enabled`: the two loops look up a member.
* `peerRoute_eq`: the answer is that of the value at the path.
-/

namespace Opcd.Config

open Bytes Json

/-! ## The walkers -/

/-- `skip_string`, after the opening quote. -/
def skipString : Bytes → Option Bytes
  | [] => none
  | [b] => if b = backslash then none else if b = quote then some [] else none
  | b :: c :: s =>
    if b = backslash then skipString s
    else if b = quote then some (c :: s)
    else skipString (c :: s)

/-- `at_key`: the start of the value, if `p` starts with the name and a colon. -/
def atKey (name p : Bytes) : Option Bytes :=
  match p with
  | [] => none
  | b :: s =>
    if b ≠ quote ∨ s.take name.length ≠ name ∨ (s.drop name.length).head? ≠ some quote then none
    else
      let p := (s.drop (name.length + 1)).dropWhile isWs
      if p.head? = some (ch ':') then some ((p.drop 1).dropWhile isWs) else none

/-- `find_object_key`. -/
def findObjectKey (name : Bytes) (wantDepth : Int) (p : Bytes) : Option Bytes :=
  walk (fun depth p => if depth = wantDepth then atKey name p else none) skipString
    (fun depth b =>
      if b = ch '\x7b' then some (depth + 1)
      else if b = ch '\x7d' then if depth - 1 < wantDepth then none else some (depth - 1)
      else some depth)
    p.length 0 p

/-- The loop for `enabled`, which stops where the depth is zero again. -/
def findEnabled (p : Bytes) : Option Bytes :=
  walk (fun depth p => if depth = 1 then atKey (ofString "enabled") p else none) skipString
    (fun depth b =>
      if b = ch '\x7b' then some (depth + 1)
      else if b = ch '\x7d' then if depth - 1 = 0 then none else some (depth - 1)
      else some depth)
    p.length 0 p

/-- `json_bool_at`. -/
def jsonBoolAt (v : Bytes) : Int :=
  let quoted := v.head? = some quote
  let v := if quoted then v.drop 1 else v
  let n := if (ofString "true").isPrefixOf v then 4 else if (ofString "false").isPrefixOf v then 5 else 0
  if n = 0 then -1
  else
    let c := (v.drop n).head?
    if quoted then if c = some quote then (if n = 4 then 1 else 0) else -1
    else if c = none ∨ c = some (ch ',') ∨ c = some (ch '\x7d') ∨ c.any isWs then (if n = 4 then 1 else 0)
    else -1

/-- `opcd_topology_json_peer_route`. -/
def topologyJsonPeerRoute (json : Bytes) : Int :=
  match findObjectKey (ofString "wbridge") 1 json with
  | none => -1
  | some wb =>
    if wb.head? ≠ some (ch '\x7b') then -1
    else
      match findObjectKey (ofString "peer_route") 1 wb with
      | none => -1
      | some pr =>
        if pr.head? ≠ some (ch '\x7b') then -1
        else
          match findEnabled pr with
          | none => -1
          | some val => jsonBoolAt val

-- the name inside a string, in an array and at the wrong depth
example : topologyJsonPeerRoute (ofString
    "\x7b\"enabled\": true, \"x\": [\"wbridge\", \x7b\"wbridge\": 1\x7d], \"wbridge\": \x7b\"peer_route\": \x7b\"enabled\": \"false\"\x7d\x7d\x7d") =
    0 := by decide +kernel

/-! ## Strings -/

theorem skipString_plain {b : Byte} (hb : isPlain b = true) (s : Bytes) : skipString (b :: s) = skipString s := by
  obtain ⟨-, hq, hs⟩ : 0x20 ≤ b ∧ b ≠ quote ∧ b ≠ backslash := of_decide_eq_true hb
  cases s with
  | nil => simp [skipString, hq, hs]
  | cons c s => rw [skipString, if_neg hs, if_neg hq]

theorem skipString_escape (c : Byte) (s : Bytes) : skipString (backslash :: c :: s) = skipString s := by
  rw [skipString, if_pos rfl]

theorem skipString_chars {raw : Bytes} (h : Chars raw) (after : Bytes) :
    skipString (raw ++ quote :: after) = some after := by
  induction h with
  | nil => cases after <;> rfl
  | plain hb _ ih => rw [List.cons_append, skipString_plain hb, ih]
  | escape _ _ ih => rw [List.cons_append, List.cons_append, skipString_escape, ih]
  | unicode hx _ ih =>
    obtain ⟨h₁, h₂, h₃, h₄⟩ := hx
    simp only [List.cons_append]
    rw [skipString_escape, skipString_plain (isPlain_of_isHex _ h₁), skipString_plain (isPlain_of_isHex _ h₂),
      skipString_plain (isPlain_of_isHex _ h₃), skipString_plain (isPlain_of_isHex _ h₄), ih]

theorem skipString_length : ∀ {s s' : Bytes}, skipString s = some s' → s'.length ≤ s.length
  | [], _, h => by cases h
  | [b], s', h => by
    rw [skipString] at h
    split at h
    · cases h
    · split at h
      · cases h
        exact Nat.zero_le _
      · cases h
  | b :: c :: s, s', h => by
    rw [skipString] at h
    split at h
    · have hle := skipString_length h
      simp only [List.length_cons]
      omega
    · split at h
      · cases h
        exact Nat.le_succ _
      · exact (skipString_length h).trans (Nat.le_succ _)

/-- What `at_key` says of a string of a text: it is the name, and the next thing is a colon. -/
theorem atKey_quoted {name raw : Bytes} (hname : IsName name) (hraw : Chars raw) (after : Bytes) :
    atKey name (quoted raw after) =
      if raw = name ∧ (after.dropWhile isWs).head? = some (ch ':') then
        some (((after.dropWhile isWs).drop 1).dropWhile isWs) else none := by
  have hiff := startsWith_iff hname hraw after
  unfold quoted atKey
  by_cases heq : raw = name
  · obtain ⟨htake, hhead⟩ := hiff.mpr heq
    dsimp only
    rw [if_neg (by simp [htake, hhead])]
    subst heq
    have hdrop : (raw ++ quote :: after).drop (raw.length + 1) = after := by
      rw [← List.drop_drop, List.drop_left]
      rfl
    simp only [hdrop, true_and]
  · rw [if_neg fun h : raw = name ∧ _ => heq h.1]
    refine if_pos ?_
    by_contra hno
    simp only [not_or, not_not] at hno
    exact heq (hiff.mp hno.2)

variable {name : Bytes}

theorem atKey_cons {b : Byte} (hb : b ≠ quote) (s : Bytes) : atKey name (b :: s) = none := by
  rw [atKey, if_pos (.inl hb)]

/-! ## The loops -/

/-- The test of the walkers: a name at the depth of the members. -/
def hitAt (name : Bytes) (depth : Int) (p : Bytes) : Option Bytes := if depth = 1 then atKey name p else none

theorem hitAt_cons (name : Bytes) {d : Int} {b : Byte} (s : Bytes) (hb : b ≠ quote) : hitAt name d (b :: s) = none := by
  rw [hitAt, atKey_cons hb, ite_self]

theorem hitAt_name (hname : IsName name) (d : Int) (k : Str) (mid pre : Ws) (v : Value) (tail : Bytes) :
    hitAt name d (quoted k.1 (Tok.name d k mid pre v tail).after) =
      if d = 1 ∧ k.1 = name then some (v.textThen tail) else none := by
  have hafter : ((Tok.name d k mid pre v tail).after).dropWhile isWs = ch ':' :: (pre.1 ++ v.textThen tail) := by
    rw [Tok.after, List.dropWhile_append_of_pos mid.2]
    rfl
  have hval : (pre.1 ++ v.textThen tail).dropWhile isWs = v.textThen tail := by
    rw [List.dropWhile_append_of_pos pre.2, Syn.dropWhile_ws]
  rw [hitAt, atKey_quoted hname k.2, hafter]
  simp only [List.head?_cons, and_true, List.drop_succ_cons, List.drop_zero, hval]
  by_cases hd : d = 1
  · simp [hd]
  · simp [hd]

theorem hitAt_value (hname : IsName name) (d : Int) (s : Str) {tail : Bytes} (h : Ended tail) :
    hitAt name d (quoted s.1 tail) = none := by
  have hno : atKey name (quoted s.1 tail) = none := by
    rw [atKey_quoted hname s.2]
    exact if_neg fun hk => h hk.2
  rw [hitAt, hno, ite_self]

/-- A walker with that test finds members. -/
theorem finds_of_walks (hname : IsName name) {move : Int → Byte → Option Int} {arr : Int}
    (h : Walks (hitAt name) skipString move 1 arr) (hstop : move 1 (ch '\x7d') = none) : Finds h.scanner name where
  lo := rfl
  stop := by
    intro s
    change walk (hitAt name) skipString move (s.length + 1) 1 (ch '\x7d' :: s) = none
    rw [walk, hitAt_cons name s (by decide)]
    dsimp only
    rw [if_neg (by decide), hstop]
  name_eq := fun d k mid pre v tail => hitAt_name hname d k mid pre v tail
  value_eq := fun d s _ hs => hitAt_value hname d s hs

/-- The walker of `find_object_key` at the depth of the members. -/
theorem walks_findObjectKey (name : Bytes) : Walks (hitAt name) skipString
      (fun depth b =>
        if b = ch '\x7b' then some (depth + 1)
        else if b = ch '\x7d' then if depth - 1 < 1 then none else some (depth - 1)
        else some depth) 1 0 :=
  .of_braces (· < 1) (fun h => Int.not_lt.mpr h) (fun after hraw => skipString_chars hraw after) skipString_length
    (hitAt_cons name)

theorem walks_findEnabled :
    Walks (hitAt (ofString "enabled")) skipString
      (fun depth b =>
        if b = ch '\x7b' then some (depth + 1)
        else if b = ch '\x7d' then if depth - 1 = 0 then none else some (depth - 1)
        else some depth) 1 0 :=
  .of_braces (· = 0) (fun h => by omega) (fun after hraw => skipString_chars hraw after) skipString_length
    (hitAt_cons _)

/-- `find_object_key` looks up a member. -/
theorem findObjectKey_obj (hname : IsName name) {v : Value} (hv : v.isObj = true) (rest : Bytes) :
    findObjectKey name 1 (v.textThen rest) = (v.find name rest).map fun e => e.1.textThen e.2 :=
  (finds_of_walks hname (walks_findObjectKey name) rfl).run_obj hv rest

theorem findEnabled_obj {v : Value} (hv : v.isObj = true) (rest : Bytes) :
    findEnabled (v.textThen rest) = (v.find (ofString "enabled") rest).map fun e => e.1.textThen e.2 :=
  (finds_of_walks (by decide) walks_findEnabled rfl).run_obj hv rest

theorem findObjectKey_ws (w : Ws) (s : Bytes) :
    findObjectKey name 1 (w.1 ++ s) = findObjectKey name 1 s :=
  (walks_findObjectKey name).scanner.run_ws 0 w s

/-! ## The value -/

/-- The answer for a value: 1 for true, 0 for false, as a literal or a string, and -1 for anything else. -/
def boolOf : Value → Int
  | .bool true => 1
  | .bool false => 0
  | .str s => if s.1 = ofString "true" then 1 else if s.1 = ofString "false" then 0 else -1
  | _ => -1

/-- A string that starts with a name and is not the name goes on where the quote should be. -/
theorem head_drop_ne (hname : IsName name) {s : Str} (hs : s.1 ≠ name) {tail : Bytes}
    (h : name.isPrefixOf (s.1 ++ quote :: tail) = true) :
    ((s.1 ++ quote :: tail).drop name.length).head? ≠ some quote := by
  intro hhead
  have htake := (List.prefix_iff_eq_take.mp (List.isPrefixOf_iff_prefix.mp h)).symm
  exact hs ((startsWith_iff hname s.2 tail).mp ⟨htake, hhead⟩)

theorem jsonBoolAt_str (s : Str) (tail : Bytes) : jsonBoolAt (quoted s.1 tail) = boolOf (.str s) := by
  rw [boolOf]
  split
  · rename_i htrue
    rw [htrue]
    rfl
  · rename_i htrue
    split
    · rename_i hfalse
      rw [hfalse]
      rfl
    · rename_i hfalse
      have hhead : (quoted s.1 tail).head? = some quote := rfl
      have hdrop : (quoted s.1 tail).drop 1 = s.1 ++ quote :: tail := rfl
      unfold jsonBoolAt
      simp only [hhead, if_true, hdrop]
      by_cases hpt : (ofString "true").isPrefixOf (s.1 ++ quote :: tail) = true
      · have hc := head_drop_ne (by decide) htrue hpt
        simp only [hpt, if_true]
        exact if_neg hc
      · by_cases hpf : (ofString "false").isPrefixOf (s.1 ++ quote :: tail) = true
        · have hc := head_drop_ne (by decide) hfalse hpf
          simp only [hpt, hpf, if_true, if_false, Bool.false_eq_true]
          exact if_neg hc
        · simp only [hpt, hpf, if_true, if_false, Bool.false_eq_true]

theorem number_head_ne : ∀ b : Byte, b = ch '-' ∨ isDigit b = true → b ≠ quote ∧ b ≠ ch 't' ∧ b ≠ ch 'f' := by
  decide +kernel

theorem jsonBoolAt_value (v : Value) {tail : Bytes} (h : Delimited tail) : jsonBoolAt (v.textThen tail) = boolOf v := by
  cases v with
  | null => rfl
  | bool b =>
    obtain ⟨c, rest, rfl, hc⟩ := h
    have hend : some c = none ∨ some c = some (ch ',') ∨ some c = some (ch '\x7d') ∨ (some c).any isWs = true := by
      rcases hc with hc | rfl | rfl
      · exact .inr (.inr (.inr hc))
      · exact .inr (.inl rfl)
      · exact .inr (.inr (.inl rfl))
    cases b with
    | true => exact (if_pos hend).trans rfl
    | false => exact (if_pos hend).trans rfl
  | num n =>
    obtain ⟨b, s, hn, hb⟩ := n.2.head
    obtain ⟨hq, ht, hf⟩ := number_head_ne b hb
    have htrue : (ofString "true").isPrefixOf (b :: (s ++ tail)) = false :=
      Bool.and_eq_false_iff.mpr (.inl (beq_eq_false_iff_ne.mpr ht.symm))
    have hfalse : (ofString "false").isPrefixOf (b :: (s ++ tail)) = false :=
      Bool.and_eq_false_iff.mpr (.inl (beq_eq_false_iff_ne.mpr hf.symm))
    have hhead : (b :: (s ++ tail)).head? ≠ some quote := fun h => hq (Option.some.inj h)
    rw [Syn.textThen, hn, List.cons_append]
    simp only [jsonBoolAt, hhead, if_false, htrue, hfalse, Bool.false_eq_true, if_true]
    rfl
  | str s => exact jsonBoolAt_str s tail
  | emptyArr w => rfl
  | arr es => rfl
  | emptyObj w => rfl
  | obj ms => rfl

/-- **The answer is that of the value at the path.** -/
theorem peerRoute_eq (d : Doc) (hroot : d.root.isObj = true) :
    topologyJsonPeerRoute d.text =
      (d.root.findPath [ofString "wbridge", ofString "peer_route", ofString "enabled"] d.post.1).elim (-1)
        fun e => boolOf e.1 := by
  unfold topologyJsonPeerRoute
  rw [Doc.text, findObjectKey_ws, findObjectKey_obj (by decide) hroot, Syn.findPath]
  cases hwb : d.root.find (ofString "wbridge") d.post.1 with
  | none => rfl
  | some wb =>
    rw [Option.map_some, Option.bind_some, Syn.findPath]
    dsimp only
    by_cases hwbo : wb.1.isObj = true
    · rw [if_neg (by rw [not_not, Syn.head_textThen]; exact hwbo), findObjectKey_obj (by decide) hwbo]
      cases hpr : wb.1.find (ofString "peer_route") wb.2 with
      | none => rfl
      | some pr =>
        rw [Option.map_some, Option.bind_some, Syn.findPath]
        dsimp only
        by_cases hpro : pr.1.isObj = true
        · rw [if_neg (by rw [not_not, Syn.head_textThen]; exact hpro), findEnabled_obj hpro]
          cases hen : pr.1.find (ofString "enabled") pr.2 with
          | none => rfl
          | some en => exact jsonBoolAt_value en.1 (Syn.delimited_of_find hen)
        · rw [if_pos (by rw [ne_eq, Syn.head_textThen]; exact hpro), Syn.find_eq_none (by simpa using hpro)]
          rfl
    · rw [if_pos (by rw [ne_eq, Syn.head_textThen]; exact hwbo), Syn.find_eq_none (by simpa using hwbo)]
      rfl

end Opcd.Config
