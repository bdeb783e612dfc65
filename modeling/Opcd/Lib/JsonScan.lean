import Opcd.Lib.Json

/-!
# Scanners of JSON texts

The walkers of a program do not build a tree: they go over the bytes, count braces and look at the strings. `Scanner`
says what such a walker does at each kind of byte.

* `Syn.tokens`: the strings of a text in its order, with the depth each stands at and what follows it.
* `Scanner.run_syn`: a scanner gets out of a text what it gets out of the first of its strings that yields something,
  and otherwise goes on after it.
* `walk`, `Walks.scanner`: the loop with a depth, and that it is a scanner.
* `Finds.run_obj`: a scanner that takes names at one depth looks up the members of an object.
-/

namespace Json

open Bytes

/-! ## The strings of a text -/

/-- A string of a text, with the depth it stands at: the name of a member, with its value and what follows that, or
a value, with what follows it. -/
inductive Tok
  | name (depth : Int) (k : Str) (mid pre : Ws) (v : Value) (tail : Bytes)
  | value (depth : Int) (s : Str) (tail : Bytes)

namespace Tok

def depth : Tok → Int
  | name d .. => d
  | value d .. => d

def isName : Tok → Bool
  | name .. => true
  | value .. => false

/-- The string as it is spelled. -/
def raw : Tok → Str
  | name _ k .. => k
  | value _ s _ => s

/-- What follows the closing quote. -/
def after : Tok → Bytes
  | name _ _ mid pre v tail => mid.1 ++ ch ':' :: (pre.1 ++ v.textThen tail)
  | value _ _ tail => tail

end Tok

/-- The strings of a tree at a depth, in the order of the text. An object is one deeper than what it stands in, and
an array deeper by `arr`. -/
def Syn.tokens (arr : Int) : {i : Ix} → Syn i → Int → Bytes → List Tok
  | _, .null, _, _ | _, .bool _, _, _ | _, .num _, _, _ | _, .emptyArr _, _, _ | _, .emptyObj _, _, _ => []
  | _, .str s, d, rest => [.value d s rest]
  | _, .arr es, d, rest => es.tokens arr (d + arr) (ch ']' :: rest)
  | _, .obj ms, d, rest => ms.tokens arr (d + 1) (ch '\x7d' :: rest)
  | _, .item _ v post, d, rest => v.tokens arr d (post.1 ++ rest)
  | _, .items _ v post more, d, rest =>
    v.tokens arr d (post.1 ++ ch ',' :: more.textThen rest) ++ more.tokens arr d rest
  | _, .member _ k mid pre' v post, d, rest =>
    .name d k mid pre' v (post.1 ++ rest) :: v.tokens arr d (post.1 ++ rest)
  | _, .members _ k mid pre' v post more, d, rest =>
    let tail := post.1 ++ ch ',' :: more.textThen rest
    .name d k mid pre' v tail :: (v.tokens arr d tail ++ more.tokens arr d rest)

/-! ## Scanners -/

/-- A byte that neither opens nor closes anything. -/
def isNeutral (b : Byte) : Bool :=
  b ≠ quote ∧ b ≠ backslash ∧ b ≠ ch '\x7b' ∧ b ≠ ch '\x7d' ∧ b ≠ ch '[' ∧ b ≠ ch ']'

theorem isNeutral_ne {b : Byte} (hb : isNeutral b = true) :
    b ≠ ch '\x7b' ∧ b ≠ ch '\x7d' ∧ b ≠ ch '[' ∧ b ≠ ch ']' := (of_decide_eq_true hb).2.2

/-- What a walker does at the bytes of a text: it may get something out of a string (`fire`), and goes on behind it
otherwise. Braces and brackets that close are followed down to the depth `lo`. -/
structure Scanner (ρ : Type*) where
  run : Int → Bytes → Option ρ
  fire : Int → Bytes → Bytes → Option ρ
  lo : Int
  arr : Int
  arr_nonneg : 0 ≤ arr
  string : ∀ {raw} (d after), Chars raw → run d (quoted raw after) = (fire d raw after).or (run d after)
  neutral : ∀ {b} (d s), isNeutral b = true → run d (b :: s) = run d s
  openObj : ∀ d s, run d (ch '\x7b' :: s) = run (d + 1) s
  closeObj : ∀ {d} (s), lo ≤ d → run (d + 1) (ch '\x7d' :: s) = run d s
  openArr : ∀ d s, run d (ch '[' :: s) = run (d + arr) s
  closeArr : ∀ {d} (s), lo ≤ d → run (d + arr) (ch ']' :: s) = run d s

theorem isNeutral_of_isWs : ∀ b : Byte, isWs b = true → isNeutral b = true := by decide +kernel

theorem isNeutral_of_isDigit : ∀ b : Byte, isDigit b = true → isNeutral b = true := by decide +kernel

theorem isNeutral_number {t : Bytes} (h : IsNumber t) : ∀ b ∈ t, isNeutral b = true := by
  obtain ⟨sign, int, frac, exp, rfl, hsign, ⟨hint, -⟩, hfrac, hexp⟩ := h.parts
  have hds : ∀ {ds : Bytes}, Digits ds → ∀ b ∈ ds, isNeutral b = true :=
    fun hd b hb => isNeutral_of_isDigit b (hd.2 b hb)
  intro b hb
  simp only [List.mem_append] at hb
  rcases hb with ((hb | hb) | hb) | hb
  · rcases hsign with rfl | rfl
    · cases hb
    · cases List.mem_singleton.mp hb
      decide
  · exact hds hint b hb
  · rcases hfrac with rfl | ⟨ds, hd, rfl⟩
    · cases hb
    · rcases List.mem_cons.mp hb with rfl | hb
      · decide
      · exact hds hd b hb
  · rcases hexp with rfl | ⟨e, sgn, ds, he, hsgn, hd, rfl⟩
    · cases hb
    · rcases List.mem_cons.mp hb with rfl | hb
      · rcases he with rfl | rfl <;> decide
      · rcases List.mem_append.mp hb with hb | hb
        · rcases hsgn with rfl | rfl | rfl
          · cases hb
          · cases List.mem_singleton.mp hb
            decide
          · cases List.mem_singleton.mp hb
            decide
        · exact hds hd b hb

namespace Scanner

variable {ρ : Type*} (sc : Scanner ρ)

def fireTok (t : Tok) : Option ρ := sc.fire t.depth t.raw.1 t.after

/-- Neutral bytes are passed over. -/
theorem run_neutral (d : Int) {t : Bytes} (ht : ∀ b ∈ t, isNeutral b = true) (s : Bytes) :
    sc.run d (t ++ s) = sc.run d s := by
  induction t with
  | nil => rfl
  | cons b t ih =>
    rw [List.cons_append, sc.neutral d _ (ht b List.mem_cons_self)]
    exact ih fun c hc => ht c (List.mem_cons_of_mem _ hc)

theorem run_ws (d : Int) (w : Ws) (s : Bytes) : sc.run d (w.1 ++ s) = sc.run d s :=
  sc.run_neutral d (fun b hb => isNeutral_of_isWs b (w.2 b hb)) s

theorem run_comma (d : Int) (w : Ws) (s : Bytes) : sc.run d (w.1 ++ ch ',' :: s) = sc.run d s := by
  rw [sc.run_ws, sc.neutral d _ (by decide)]

/-- A name is tried, and then its value is walked. -/
theorem run_named (d : Int) (pre : Ws) (k : Str) (mid pre' : Ws) (v : Value) (tail : Bytes) :
    sc.run d (pre.1 ++ named k mid pre' (v.textThen tail)) =
      (sc.fireTok (.name d k mid pre' v tail)).or (sc.run d (v.textThen tail)) := by
  rw [sc.run_ws, named, sc.string d _ k.2, sc.run_ws, sc.neutral d _ (by decide), sc.run_ws]
  rfl

/-- **A scanner walks a text by its strings**: it gets out of it what the first of them that yields something
yields, and goes on after the text otherwise. -/
theorem run_syn {i : Ix} (x : Syn i) {d : Int} (hd : sc.lo ≤ d) (rest : Bytes) :
    sc.run d (x.textThen rest) = ((x.tokens sc.arr d rest).findSome? sc.fireTok).or (sc.run d rest) := by
  have harr := sc.arr_nonneg
  induction x generalizing d rest with
  | null => exact sc.run_neutral d (by decide) rest
  | bool b =>
    cases b with
    | true => exact sc.run_neutral d (by decide) rest
    | false => exact sc.run_neutral d (by decide) rest
  | num n => exact sc.run_neutral d (isNeutral_number n.2) rest
  | str s =>
    rw [Syn.textThen, sc.string d _ s.2, Syn.tokens, List.findSome?_cons, List.findSome?_nil]
    change (sc.fireTok (.value d s rest)).or _ = _
    cases sc.fireTok (.value d s rest) <;> rfl
  | emptyArr w =>
    rw [Syn.textThen, sc.openArr, sc.run_ws, sc.closeArr _ hd]
    rfl
  | emptyObj w =>
    rw [Syn.textThen, sc.openObj, sc.run_ws, sc.closeObj _ hd]
    rfl
  | arr es ih => rw [Syn.textThen, sc.openArr, ih (by omega), sc.closeArr _ hd, Syn.tokens]
  | obj ms ih => rw [Syn.textThen, sc.openObj, ih (by omega), sc.closeObj _ hd, Syn.tokens]
  | item pre v post ih => rw [Syn.textThen, sc.run_ws, ih hd, sc.run_ws, Syn.tokens]
  | items pre v post more ih ih' =>
    rw [Syn.textThen, sc.run_ws, ih hd, sc.run_comma, ih' hd, Syn.tokens, List.findSome?_append, Option.or_assoc]
  | member pre k mid pre' v post ih =>
    rw [Syn.textThen, sc.run_named, ih hd, sc.run_ws, Syn.tokens, List.findSome?_cons]
    cases sc.fireTok (.name d k mid pre' v (post.1 ++ rest)) <;> rfl
  | members pre k mid pre' v post more ih ih' =>
    rw [Syn.textThen, sc.run_named, ih hd, sc.run_comma, ih' hd, Syn.tokens, List.findSome?_cons,
      List.findSome?_append]
    cases sc.fireTok (.name d k mid pre' v (post.1 ++ ch ',' :: more.textThen rest)) with
    | none => rw [Option.none_or, Option.or_assoc]
    | some r => rfl

end Scanner

/-! ## Walkers with a depth -/

section Walk

variable {ρ : Type*} (hit : Int → Bytes → Option ρ) (skip : Bytes → Option Bytes) (move : Int → Byte → Option Int)

/-- The loop of a walker, for a number of turns: something may be found here; a string is skipped, its opening quote
being taken; any other byte moves the depth. A string that is not skipped and a byte that does not move end it. -/
def walk : Nat → Int → Bytes → Option ρ
  | 0, _, _ => none
  | _ + 1, _, [] => none
  | n + 1, d, b :: s =>
    match hit d (b :: s) with
    | some r => some r
    | none =>
      if b = quote then
        match skip s with
        | none => none
        | some s' => walk n d s'
      else
        match move d b with
        | none => none
        | some d' => walk n d' s

variable {hit skip move}

/-- The number of turns does not matter once there is one for each byte. -/
theorem walk_turns (hskip : ∀ {s s'}, skip s = some s' → s'.length ≤ s.length) {n m : Nat} {s : Bytes}
    (hn : s.length ≤ n) (hm : s.length ≤ m) (d : Int) : walk hit skip move n d s = walk hit skip move m d s := by
  induction n generalizing m d s with
  | zero =>
    obtain rfl := List.length_eq_zero_iff.mp (Nat.le_zero.mp hn)
    cases m <;> rfl
  | succ n ih =>
    cases s with
    | nil => cases m <;> rfl
    | cons b s =>
      cases m with
      | zero => exact absurd hm (by simp)
      | succ m =>
        rw [List.length_cons] at hn hm
        rw [walk, walk]
        cases hit d (b :: s) with
        | some r => rfl
        | none =>
          dsimp only
          split
          · cases hs : skip s with
            | none => rfl
            | some s' =>
              have hlen := hskip hs
              exact ih (by omega) (by omega) d
          · cases move d b with
            | none => rfl
            | some d' => exact ih (by omega) (by omega) d'

variable (hit skip move)

/-- What a walker relies on: strings are skipped as a whole, nothing is found but at a quote, and braces and brackets
move the depth. -/
structure Walks (lo arr : Int) : Prop where
  arr_nonneg : 0 ≤ arr
  skip_chars : ∀ {raw} (after), Chars raw → skip (raw ++ quote :: after) = some after
  skip_length : ∀ {s s'}, skip s = some s' → s'.length ≤ s.length
  hit_quote : ∀ {d b} (s), b ≠ quote → hit d (b :: s) = none
  neutral : ∀ {b} (d), isNeutral b = true → move d b = some d
  openObj : ∀ d, move d (ch '\x7b') = some (d + 1)
  closeObj : ∀ {d}, lo ≤ d → move (d + 1) (ch '\x7d') = some d
  openArr : ∀ d, move d (ch '[') = some (d + arr)
  closeArr : ∀ {d}, lo ≤ d → move (d + arr) (ch ']') = some d

variable {hit skip move}

/-- A walker that counts braces, and ends where `low` holds of what is left of the depth. -/
theorem Walks.of_braces (low : Int → Prop) [DecidablePred low] (hlow : ∀ {d}, 1 ≤ d → ¬ low d)
    (skip_chars : ∀ {raw} (after), Chars raw → skip (raw ++ quote :: after) = some after)
    (skip_length : ∀ {s s'}, skip s = some s' → s'.length ≤ s.length)
    (hit_quote : ∀ {d b} (s), b ≠ quote → hit d (b :: s) = none) :
    Walks hit skip (fun depth b =>
      if b = ch '\x7b' then some (depth + 1)
      else if b = ch '\x7d' then if low (depth - 1) then none else some (depth - 1)
      else some depth) 1 0 where
  arr_nonneg := Int.le_refl 0
  skip_chars := skip_chars
  skip_length := skip_length
  hit_quote := hit_quote
  neutral := by
    intro b d hb
    obtain ⟨h₁, h₂, -, -⟩ := isNeutral_ne hb
    rw [if_neg h₁, if_neg h₂]
  openObj := fun d => if_pos rfl
  closeObj := by
    intro d hd
    rw [if_neg (by decide), if_pos rfl, Int.add_sub_cancel, if_neg (hlow hd)]
  openArr := fun d => by rw [if_neg (by decide), if_neg (by decide), Int.add_zero]
  closeArr := fun {d} _ => by rw [if_neg (by decide), if_neg (by decide), Int.add_zero]

theorem walk_move {lo arr : Int} (h : Walks hit skip move lo arr) {b : Byte} (hb : b ≠ quote) {d d' : Int}
    (hm : move d b = some d') (s : Bytes) :
    walk hit skip move (b :: s).length d (b :: s) = walk hit skip move s.length d' s := by
  rw [List.length_cons, walk, h.hit_quote s hb]
  dsimp only
  rw [if_neg hb, hm]

/-- A walker is a scanner. -/
def Walks.scanner {lo arr : Int} (h : Walks hit skip move lo arr) : Scanner ρ where
  run d s := walk hit skip move s.length d s
  fire d raw after := hit d (quoted raw after)
  lo := lo
  arr := arr
  arr_nonneg := h.arr_nonneg
  string := by
    intro raw d after hraw
    rw [quoted, List.length_cons, walk]
    cases hit d (quote :: (raw ++ quote :: after)) with
    | some r => rfl
    | none =>
      dsimp only
      rw [if_pos rfl, h.skip_chars after hraw, Option.none_or]
      exact walk_turns h.skip_length (by simp only [List.length_append, List.length_cons]; omega) (Nat.le_refl _) d
  neutral := by
    intro b d s hb
    have hq : b ≠ quote := (of_decide_eq_true hb).1
    exact walk_move h hq (h.neutral d hb) s
  openObj := fun _ s => walk_move h (by decide) (h.openObj _) s
  closeObj := fun s hd => walk_move h (by decide) (h.closeObj hd) s
  openArr := fun _ s => walk_move h (by decide) (h.openArr _) s
  closeArr := fun s hd => walk_move h (by decide) (h.closeArr hd) s

end Walk

/-! ## Looking up a member -/

/-- What follows is not a colon. -/
def Ended (s : Bytes) : Prop := (s.dropWhile isWs).head? ≠ some (ch ':')

theorem ended_ws (w : Ws) {s : Bytes} (h : Ended s) : Ended (w.1 ++ s) := by
  rwa [Ended, List.dropWhile_append_of_pos w.2]

theorem ended_cons {b : Byte} (hb : isWs b = false ∧ b ≠ ch ':') (s : Bytes) : Ended (b :: s) := by
  rw [Ended, List.dropWhile_cons_of_neg (by rw [hb.1]; decide), List.head?_cons]
  exact fun h => hb.2 (Option.some.inj h)

theorem ended_comma (w : Ws) (s : Bytes) : Ended (w.1 ++ ch ',' :: s) := ended_ws w (ended_cons (by decide) s)

/-- What is known of the place of a string in a tree at depth `d` before `rest`: no colon follows a value; a name stands
deeper than the value it is in, is one of the members in it, and its value ends where it ends. -/
def Placed {i : Ix} (x : Syn i) (d : Int) (rest : Bytes) : Tok → Prop
  | .value _ _ tail => Ended rest → Ended tail
  | .name d' k _ _ v tail => d ≤ d' ∧ (i ≠ .members → d < d') ∧ (k.1, v) ∈ x.within ∧
    ((i = .members → Delimited rest) → Delimited tail)

theorem Placed.mono {i j : Ix} {x : Syn i} {y : Syn j} {d d' : Int} {rest rest' : Bytes} {t : Tok} (h : Placed x d rest t)
    (hd : d' ≤ d) (hlt : j ≠ .members → i ≠ .members ∨ d' < d) (hin : x.within ⊆ y.within) (hend : Ended rest' → Ended rest)
    (hdel : (j = .members → Delimited rest') → i = .members → Delimited rest) : Placed y d' rest' t := by
  cases t with
  | value => exact fun hr => h (hend hr)
  | name d₁ k mid pre v tail =>
    obtain ⟨hle, hdeep, hmem, htail⟩ := h
    exact ⟨hd.trans hle, fun hj => (hlt hj).elim (fun hi => hd.trans_lt (hdeep hi)) fun h => h.trans_le hle, hin hmem,
      fun hr => htail (hdel hr)⟩

/-- **The places of the strings of a tree.** -/
theorem Syn.placed {i : Ix} (x : Syn i) {arr : Int} (harr : 0 ≤ arr) {d : Int} {rest : Bytes} {t : Tok}
    (h : t ∈ x.tokens arr d rest) : Placed x d rest t := by
  induction x generalizing d rest with
  | str s =>
    cases List.mem_singleton.mp h
    exact id
  | arr es ih =>
    exact (ih h).mono (by omega) (fun _ => .inl nofun) (List.Subset.refl _) (fun _ => ended_cons (by decide) _)
      fun _ => nofun
  | obj ms ih =>
    exact (ih h).mono (by omega) (fun _ => .inr (by omega)) (List.Subset.refl _) (fun _ => ended_cons (by decide) _)
      fun _ _ => ⟨_, _, rfl, .inr (.inr rfl)⟩
  | item pre v post ih =>
    exact (ih h).mono le_rfl (fun _ => .inl nofun) (List.Subset.refl _) (ended_ws post) fun _ => nofun
  | items pre v post more ih ih' =>
    rcases List.mem_append.mp h with h | h
    · exact (ih h).mono le_rfl (fun _ => .inl nofun) (List.subset_append_left _ _) (fun _ => ended_comma post _)
        fun _ => nofun
    · exact (ih' h).mono le_rfl (fun _ => .inl nofun) (List.subset_append_right _ _) id fun _ => nofun
  | member pre k mid pre' v post ih =>
    rcases List.mem_cons.mp h with rfl | h
    · exact ⟨le_rfl, fun hne => absurd rfl hne, List.mem_cons_self, fun hr => delimited_ws post (hr rfl)⟩
    · exact (ih h).mono le_rfl (fun hne => absurd rfl hne) (List.subset_cons_self _ _) (ended_ws post) fun _ => nofun
  | members pre k mid pre' v post more ih ih' =>
    rcases List.mem_cons.mp h with rfl | h
    · exact ⟨le_rfl, fun hne => absurd rfl hne, List.mem_cons_self, fun _ => delimited_ws post ⟨_, _, rfl, .inr (.inl rfl)⟩⟩
    · rcases List.mem_append.mp h with h | h
      · exact (ih h).mono le_rfl (fun hne => absurd rfl hne)
          (List.subset_cons_of_subset _ (List.subset_append_left _ _)) (fun _ => ended_comma post _) fun _ => nofun
      · exact (ih' h).mono le_rfl (fun hne => absurd rfl hne)
          (List.subset_cons_of_subset _ (List.subset_append_right _ _)) id id
  | _ => cases h

/-- The names one below the depth of an object are those of its members. -/
theorem Syn.mem_members_of_mem {v : Value} (hv : v.isObj = true) {arr : Int} (harr : 0 ≤ arr) {d : Int} {rest : Bytes}
    {k : Str} {mid pre : Ws} {u : Value} {tail : Bytes} (h : .name (d + 1) k mid pre u tail ∈ v.tokens arr d rest) :
    (k.1, u) ∈ v.members? := by
  have hms : ∀ (ms : Syn .members) {rest : Bytes}, .name (d + 1) k mid pre u tail ∈ ms.tokens arr (d + 1) rest →
      (k.1, u) ∈ (ms.entries rest).map fun e => (e.1.1, e.2.1) := by
    intro ms
    generalize hi : Ix.members = i at ms
    induction ms with
    | member pre k mid pre' v post =>
      intro rest h
      rcases List.mem_cons.mp h with h | h
      · cases h
        exact List.mem_singleton.mpr rfl
      · exact absurd ((v.placed harr h).2.1 nofun) (Int.lt_irrefl _)
    | members pre k mid pre' v post more _ ih =>
      intro rest h
      rw [Syn.entries, List.map_cons, List.mem_cons]
      rcases List.mem_cons.mp h with h | h
      · cases h
        exact .inl rfl
      · rcases List.mem_append.mp h with h | h
        · exact absurd ((v.placed harr h).2.1 nofun) (Int.lt_irrefl _)
        · exact .inr (ih rfl h)
    | _ => cases hi
  cases v with
  | obj ms =>
    rw [Syn.members?, Syn.map_entries _ [] rest]
    exact hms ms h
  | emptyObj w => cases h
  | _ => cases hv

/-- A scanner that looks for a member of an object: it stops where the object ends, takes the name at the depth of the
members, and no value. -/
structure Finds (sc : Scanner Bytes) (name : Bytes) : Prop where
  lo : sc.lo = 1
  stop : ∀ s, sc.run 1 (ch '\x7d' :: s) = none
  name_eq : ∀ d k mid pre v tail, sc.fireTok (.name d k mid pre v tail) =
    if d = 1 ∧ k.1 = name then some (v.textThen tail) else none
  value_eq : ∀ d s {tail}, Ended tail → sc.fireTok (.value d s tail) = none

namespace Finds

variable {sc : Scanner Bytes} {name : Bytes}

/-- Nothing is found inside of a value. -/
theorem findSome_value (h : Finds sc name) (v : Value) {rest : Bytes} (hrest : Ended rest) :
    (v.tokens sc.arr 1 rest).findSome? sc.fireTok = none := by
  refine List.findSome?_eq_none_iff.mpr fun t ht => ?_
  cases t with
  | name d k mid pre u tail =>
    have hd := (v.placed sc.arr_nonneg ht).2.1 nofun
    rw [h.name_eq, if_neg fun hk => absurd hk.1 (by omega)]
  | value d s tail => exact h.value_eq d s (v.placed sc.arr_nonneg ht hrest)

theorem findSome_members (h : Finds sc name) : ∀ (ms : Syn .members) {rest : Bytes}, Ended rest →
    (ms.tokens sc.arr 1 rest).findSome? sc.fireTok = (ms.find name rest).map fun e => e.1.textThen e.2
  | .member pre k mid pre' v post, rest, hrest => by
    rw [Syn.tokens, List.findSome?_cons, h.name_eq, h.findSome_value v (ended_ws post hrest)]
    by_cases hk : k.1 = name
    · simp [hk, Syn.find, Syn.entries]
    · simp [hk, Syn.find, Syn.entries]
  | .members pre k mid pre' v post more, rest, hrest => by
    rw [Syn.tokens, List.findSome?_cons, h.name_eq, List.findSome?_append,
      h.findSome_value v (ended_comma post _), Option.none_or, h.findSome_members more hrest]
    by_cases hk : k.1 = name
    · simp [hk, Syn.find, Syn.entries]
    · simp [hk, Syn.find, Syn.entries]

/-- **The members of an object are found by name**, and nothing else is. -/
theorem run_obj (h : Finds sc name) {v : Value} (hv : v.isObj = true) (rest : Bytes) :
    sc.run 0 (v.textThen rest) = (v.find name rest).map fun e => e.1.textThen e.2 := by
  have hlo : sc.lo ≤ 1 := h.lo.le
  cases v with
  | emptyObj w =>
    rw [Syn.textThen, sc.openObj, sc.run_ws]
    exact h.stop rest
  | obj ms =>
    rw [Syn.textThen, sc.openObj, Int.zero_add, sc.run_syn ms hlo, h.stop, Option.or_none,
      h.findSome_members ms (ended_cons (by decide) _)]
    rfl
  | _ => cases hv

end Finds

end Json
