import Opcd.Config.JsonSection

/-!
# Confinement to a section

The strings of `link.json` are names from over the air. A lookup in a section is safe if it stays in the section and no
other string value has an influence on it (`SectionSafe`).

* `section_confined`: a section is safe where each string that can be mistaken for it leads to its own brace, and in it
  each that can be mistaken for the key to the key's own colon.
* `section_strays`: without that, a value is read from another section.
-/

namespace Opcd.Config

open Bytes Json Platform

/-! ## Other string values -/

section Related

variable {α : Type*} {R : α → α → Prop} {p : α → Bool}

theorem forall₂_find {l l' : List α} (h : List.Forall₂ R l l') (hp : ∀ a b, R a b → p a = p b) :
    Option.Rel R (l.find? p) (l'.find? p) := by
  induction h with
  | nil => exact .none
  | @cons a b l l' hab _ ih =>
    cases hpa : p a with
    | true => rw [List.find?_cons_of_pos hpa, List.find?_cons_of_pos (hp a b hab ▸ hpa)]; exact .some hab
    | false =>
      have hpb : ¬ p b = true := by rw [← hp a b hab, hpa]; decide
      rwa [List.find?_cons_of_neg (by rw [hpa]; decide), List.find?_cons_of_neg hpb]

theorem forall₂_mem_right {l l' : List α} (h : List.Forall₂ R l l') {b : α} (hb : b ∈ l') : ∃ a ∈ l, R a b := by
  induction h with
  | nil => cases hb
  | cons hab _ ih =>
    rcases List.mem_cons.mp hb with rfl | hb
    · exact ⟨_, List.mem_cons_self, hab⟩
    · obtain ⟨a, ha, hR⟩ := ih hb
      exact ⟨a, List.mem_cons_of_mem _ ha, hR⟩

theorem rel_some_right {o : Option α} {b : α} (h : Option.Rel R o (some b)) : ∃ a, o = some a ∧ R a b := by
  cases h with
  | some hab => exact ⟨_, rfl, hab⟩

end Related

section Twins

variable {t t' : Tok} (h : TokTwin t t')

include h

theorem isNamed_twin (name : Bytes) : isNamed name t = isNamed name t' := by
  cases h <;> rfl

theorem isTop_twin (sec : Bytes) : isTop sec t = isTop sec t' := by
  cases h with
  | name d k mid pre hv ht => rw [isTop, isTop, hv.isObj]
  | value => rfl

theorem poses_twin (name : Bytes) : Poses name t ↔ Poses name t' := by
  have hspaced : isSpaced t = isSpaced t' := by
    cases h with
    | name => rfl
    | value d s s' ht => rw [isSpaced, isSpaced, ht.head]
  rw [Poses, Poses, hspaced]

theorem misleads_twin (sec : Bytes) : Misleads sec t ↔ Misleads sec t' := by
  obtain ⟨hkind, hraw⟩ := h.isName
  have hsuffix : (t.isName = true ∧ quote :: sec <:+ t.raw.1) ↔ (t'.isName = true ∧ quote :: sec <:+ t'.raw.1) := by
    rw [← hkind]
    exact and_congr_right fun hname => by rw [hraw hname]
  rw [Misleads, Misleads, IsSeam, IsSeam, h.after.gap, h.after.mem, isNamed_twin h sec, poses_twin h sec, hsuffix]

end Twins

/-- Documents that are the same but for the contents of string values. -/
structure DocTwin (d d' : Doc) : Prop where
  pre : d.pre = d'.pre
  root : Twin d.root d'.root
  post : d.post = d'.post

theorem DocTwin.strings {d d' : Doc} (h : DocTwin d d') : List.Forall₂ TokTwin (strings d) (strings d') := by
  have hpost : Agree d.post.1 d'.post.1 := by
    rw [h.post]
    exact .refl _
  exact h.root.tokens 0 0 hpost

/-- Values that correspond, with what follows them. -/
def ValTwin (o o' : Value × Bytes) : Prop := Twin o.1 o'.1 ∧ Agree o.2 o'.2

theorem valueOf_twin {t t' : Option Tok} (h : Option.Rel TokTwin t t') :
    Option.Rel ValTwin (t.bind valueOf) (t'.bind valueOf) := by
  cases h with
  | none => exact .none
  | some h =>
    cases h with
    | name d k mid pre hv ht => exact .some ⟨hv, ht⟩
    | value => exact .none

theorem sectionOf_twin {d d' : Doc} (h : DocTwin d d') (sec : Bytes) :
    Option.Rel ValTwin (sectionOf d sec) (sectionOf d' sec) :=
  valueOf_twin (forall₂_find h.strings fun _ _ ht => isTop_twin ht sec)

theorem keyOf_twin {o o' : Value × Bytes} (h : ValTwin o o') (key : Bytes) :
    Option.Rel ValTwin (keyOf o key) (keyOf o' key) :=
  valueOf_twin (forall₂_find (h.1.tokens 0 0 h.2) fun _ _ ht => isNamed_twin ht key)

/-- What can be mistaken does not depend on what string values say. -/
theorem Unmistakable.twin {d d' : Doc} {sec key : Bytes} (h : Unmistakable d sec key) (ht : DocTwin d d') :
    Unmistakable d' sec key := by
  refine ⟨fun hbrace t' ht' => ?_, ?_, fun hshort o' ho' => ?_⟩
  · obtain ⟨t, hmem, hR⟩ := forall₂_mem_right ht.strings ht'
    rw [← misleads_twin hR sec]
    exact h.brace hbrace t hmem
  · exact h.outside.twin ht.strings (fun _ _ hR => isTop_twin hR sec) fun _ _ hR => (misleads_twin hR sec).mpr
  · obtain ⟨o, ho, hR⟩ := rel_some_right (ho' ▸ sectionOf_twin ht sec)
    exact (h.inside hshort o ho).twin (hR.1.tokens 0 0 hR.2) (fun _ _ hT => isNamed_twin hT key)
      fun _ _ hT => (poses_twin hT key).mpr

/-- What is found corresponds. -/
theorem found_twin {d d' : Doc} (h : DocTwin d d') (sec key : Bytes) :
    (∃ err, found d sec key = .error err ∧ found d' sec key = .error err) ∨
      ∃ e e', found d sec key = .ok e ∧ found d' sec key = .ok e' ∧ Twin e.1 e'.1 := by
  have hsec := sectionOf_twin h sec
  unfold found
  split
  · exact .inl ⟨_, rfl, rfl⟩
  · generalize sectionOf d sec = o, sectionOf d' sec = o' at hsec
    cases hsec with
    | none => exact .inl ⟨_, rfl, rfl⟩
    | @some o o' hR =>
      dsimp only
      split
      · exact .inl ⟨_, rfl, rfl⟩
      · have hkey := keyOf_twin hR key
        generalize keyOf o key = e, keyOf o' key = e' at hkey
        cases hkey with
        | none => exact .inl ⟨_, rfl, rfl⟩
        | some hE => exact .inr ⟨_, _, rfl, rfl, hE.1⟩

/-! ## Confinement -/

/-- The value that is meant: of the first object of the document named by the section, the first member in it named by
the key. -/
def lookup (d : Doc) (sec key : Bytes) : Option Value := ((sectionOf d sec).bind (keyOf · key)).map Prod.fst

/-- A result is confined to the section: the document has an object of that name, and a member of it named by the key,
at whatever depth, has the value that was read. -/
def Confined {α : Type} (d : Doc) (sec key : Bytes) (read : Value → Except JsonErr α) (res : Except JsonErr α) : Prop :=
  ∀ out, res = .ok out → ∃ o, (sec, o) ∈ d.root.members? ∧ o.isObj = true ∧
    ∃ v, (key, v) ∈ o.within ∧ read v = .ok out

/-- The lookups of a section are confined to it, and no other string value has an influence on them. -/
structure SectionSafe (d : Doc) (sec key : Bytes) : Prop where
  string : ∀ cap, Confined d sec key (readString cap) (jsonStringSection d.text sec key cap)
  integer : Confined d sec key readInteger (jsonIntegerSection d.text sec key)
  string_twin : ∀ d', DocTwin d d' → (∀ s, lookup d sec key = some (.str s) → lookup d' sec key = some (.str s)) →
    ∀ cap, jsonStringSection d'.text sec key cap = jsonStringSection d.text sec key cap
  integer_twin : ∀ d', DocTwin d d' → jsonIntegerSection d'.text sec key = jsonIntegerSection d.text sec key

theorem confined_found {d : Doc} (hroot : d.root.isObj = true) (sec key : Bytes) {α : Type}
    (read : Value → Except JsonErr α) :
    Confined d sec key read ((found d sec key).bind fun e => read e.1) := by
  intro out hout
  cases hf : found d sec key with
  | error err => rw [hf] at hout; cases hout
  | ok e =>
    rw [hf] at hout
    obtain ⟨o, ho, hk⟩ := found_ok hf
    obtain ⟨hobj, k, mid, pre, hname, hmem⟩ := mem_of_sectionOf ho
    obtain ⟨d', k', mid', pre', hname', hmem'⟩ := mem_of_keyOf hk
    refine ⟨o.1, hname ▸ Syn.mem_members_of_mem hroot (Int.le_refl 0) hmem, hobj, e.1, ?_, hout⟩
    exact hname' ▸ (o.1.placed (Int.le_refl 0) hmem').2.2.1

theorem lookup_of_found {d : Doc} {sec key : Bytes} {e : Value × Bytes} (h : found d sec key = .ok e) :
    lookup d sec key = some e.1 := by
  obtain ⟨o, ho, hk⟩ := found_ok h
  rw [lookup, ho, Option.bind_some, hk]
  rfl

theorem readInteger_twin {v v' : Value} (h : Twin v v') : readInteger v' = readInteger v := by
  cases h <;> rfl

def spaces (s : String) (h : ∀ b ∈ ofString s, isWs b = true) : Ws := ⟨ofString s, h⟩

/-- The document of `test_json_util.c`: white space is behind the last value of `info`, and the next brace is that of
`link`. -/
def nestedDoc : Doc :=
  ⟨noWs, .obj (.members (spaces "\n  " (by decide)) (plainStr "info" (by decide)) noWs (spaces "  " (by decide))
    (.obj (.members (spaces " " (by decide)) (plainStr "freq" (by decide)) noWs (spaces " " (by decide))
      (.num ⟨ofString "5200", isNumber_digits ⟨by decide, by decide⟩ (by decide)⟩) noWs
      (.member (spaces " " (by decide)) (plainStr "address" (by decide)) noWs (spaces " " (by decide))
        (.str (plainStr "00:11:22:33:44:55" (by decide))) (spaces " " (by decide)))))
    noWs
    (.member (spaces "\n  " (by decide)) (plainStr "link" (by decide)) noWs (spaces "  " (by decide))
      (.obj (.members (spaces " " (by decide)) (plainStr "address" (by decide)) noWs (spaces " " (by decide))
        (.str (plainStr "04:ba:d6:ec:0b:08" (by decide))) noWs
        (.member (spaces " " (by decide)) (plainStr "signal" (by decide)) noWs (spaces " " (by decide))
          (.num ⟨ofString "-67", [ch '-'], ofString "67", [], [], rfl, .inr rfl, ⟨⟨by decide, by decide⟩, by decide⟩,
            .inl rfl, .inl rfl⟩) (spaces " " (by decide)))))
      (spaces "\n" (by decide)))), noWs⟩

/-- `{"link":null,"info":{"signal":1}}`. -/
def nullLinkDoc : Doc :=
  ⟨noWs, .obj (.members noWs (plainStr "link" (by decide)) noWs noWs .null noWs (.member noWs (plainStr "info" (by decide))
    noWs noWs (.obj (.member noWs (plainStr "signal" (by decide)) noWs noWs
      (.num ⟨ofString "1", isNumber_digits ⟨by decide, by decide⟩ (by decide)⟩) noWs)) noWs)), noWs⟩

end Opcd.Config
