import Opcd.IpList.Grammar
import Opcd.IpList.Stored

/-!
# The customer's file, and loading twice

`opcd_iplist_load` reads up to four files and rewrites three of them. With readable files and no failing call:

* the list in effect is opcd's own, or what the customer's text denotes as a whole (`denotes_of_fromText`);
* what the files then hold settles the next start: a second load leaves the same list in effect
  (`Settled.load`), whichever of the files was rewritten by the first.

The binary list that is left beside a text is not the newer of the two: it was there before, and the text was
read or written since.
-/

namespace Opcd.IpList

open Bytes Protocol Store

/-! ## What a customer's text denotes -/

/-- The text is written as the grammar says, a list that it names has all five keys, and the list holds the
values of the lists whose address is not 0.0.0.0, which pass the check, and nothing else. -/
def Denotes (input : Bytes) (l : IpList) : Prop :=
  ∃ as : List Assignment, Written (skipBom input) as ∧ ∀ i,
    ((∃ k v, ⟨i, k, v⟩ ∈ as) → ∀ k, ∃ v, ⟨i, k, v⟩ ∈ as) ∧
    (l.present i = true ↔ ∃ v, ⟨i, .ip, v⟩ ∈ as ∧ v ≠ ipv4Str 0) ∧
    (l.present i = true → (∀ k v, ⟨i, k, v⟩ ∈ as → Holds (l.slots i) k v) ∧ ipcfgEntryError (l.slots i) true = 0) ∧
    (l.present i = false → l.slots i = Entry.zero)

theorem ipv4Str_injective : Function.Injective ipv4Str := by
  intro a b h
  have ha := parseIpv4_ipv4Str a
  rw [h, parseIpv4_ipv4Str] at ha
  exact (Option.some.inj ha).symm

theorem mem_keys_all (k : Key) : k ∈ Key.all := by
  cases k <;> decide

/-- The value of a key does not depend on the number and the flag of the entry. -/
theorem holds_renumber {e : Entry} {k : Key} {v : Bytes} (flag n : BitVec 16) :
    Holds { e with boundaryFlag := flag, listNumber := n } k v ↔ Holds e k v := by
  cases k <;> rfl

/-- A list that is not refused: not named, or named by all five keys and unset or valid. -/
theorem slotOf_cases {t : Text} {i : SlotIdx} (h : slotOf t i ≠ .refused) :
    (slotOf t i = .unnamed ∧ ∀ k, t.keys i k = false) ∨ (∀ k, t.keys i k = true) ∧
        (slotOf t i = .unset ∧ (t.entry i).ipAddress = 0 ∨
          slotOf t i = .entry { t.entry i with boundaryFlag := 0, listNumber := BitVec.ofNat 16 (i + 1) } ∧
            (t.entry i).ipAddress ≠ 0 ∧ ipcfgEntryError (t.entry i) true = 0) := by
  unfold slotOf at h ⊢
  split_ifs at h ⊢ with hnamed hbad hall hip herr
  · refine .inl ⟨rfl, fun k => ?_⟩
    rw [Bool.and_eq_true, List.all_eq_true] at hnamed
    simpa using hnamed.1 k (mem_keys_all k)
  · exact absurd rfl h
  · exact .inr ⟨fun k => List.all_eq_true.mp hall k (mem_keys_all k), .inl ⟨rfl, hip⟩⟩
  · exact absurd rfl h
  · exact .inr ⟨fun k => List.all_eq_true.mp hall k (mem_keys_all k), .inr ⟨rfl, hip, not_not.mp herr⟩⟩
  · exact absurd rfl h

/-- **A text that is accepted denotes its list.** -/
theorem denotes_of_fromText {input : Bytes} {l : IpList} (h : fromText input true = some l) : Denotes input l := by
  unfold fromText at h
  dsimp only at h
  split at h
  · cases h
  next hok =>
  obtain rfl := Option.some.inj h
  generalize ht : textParse (skipBom input) = t at hok ⊢
  have herr : t.firstError = none := by
    cases he : t.firstError with
    | none => rfl
    | some e => exact absurd ⟨rfl, .inl (by rw [he]; rfl)⟩ hok
  have hslot : ∀ i, slotOf t i ≠ .refused := by
    intro i hi
    exact hok ⟨rfl, .inr (List.any_eq_true.mpr ⟨i, List.mem_finRange i, by rw [hi]⟩)⟩
  have hw : Written (skipBom input) (assigned (lines (skipBom input))) := (written_iff _ _).mpr ⟨ht ▸ herr, rfl⟩
  refine ⟨_, hw, fun i => ?_⟩
  have hkeys : ∀ k, t.keys i k = true ↔ ∃ v, ⟨i, k, v⟩ ∈ assigned (lines (skipBom input)) := fun k => ht ▸ (hw.read i k).1
  have hvals : ∀ k v, ⟨i, k, v⟩ ∈ assigned (lines (skipBom input)) → Holds (t.entry i) k v :=
    fun k => ht ▸ (hw.read i k).2
  generalize assigned (lines (skipBom input)) = as at hkeys hvals ⊢
  rcases slotOf_cases (hslot i) with ⟨hs, hnone⟩ | ⟨hall, ⟨hs, hip⟩ | ⟨hs, hip, hpass⟩⟩
  · have hunnamed : ∀ k v, ⟨i, k, v⟩ ∉ as := by
      intro k v hv
      have := (hkeys k).mpr ⟨v, hv⟩
      rw [hnone] at this
      cases this
    have hpresent : (ofSlots (slotOf t)).present i = false := by simp [ofSlots, hs]
    have hzero : (ofSlots (slotOf t)).slots i = Entry.zero := by simp [ofSlots, hs]
    rw [hpresent]
    refine ⟨?_, ⟨fun h => absurd h (by decide), ?_⟩, fun h => absurd h (by decide), fun _ => hzero⟩
    · rintro ⟨k, v, hv⟩
      exact absurd hv (hunnamed k v)
    · rintro ⟨v, hv, -⟩
      exact absurd hv (hunnamed _ v)
  · have hpresent : (ofSlots (slotOf t)).present i = false := by simp [ofSlots, hs]
    have hzero : (ofSlots (slotOf t)).slots i = Entry.zero := by simp [ofSlots, hs]
    rw [hpresent]
    refine ⟨fun _ k => (hkeys k).mp (hall k), ⟨fun h => absurd h (by decide), ?_⟩, fun h => absurd h (by decide),
      fun _ => hzero⟩
    rintro ⟨v, hv, hne⟩
    have hv := hvals .ip v hv
    rw [Holds, hip] at hv
    exact absurd hv hne
  · have hpresent : (ofSlots (slotOf t)).present i = true := by simp [ofSlots, hs]
    have hentry : (ofSlots (slotOf t)).slots i =
        { t.entry i with boundaryFlag := 0, listNumber := BitVec.ofNat 16 (i + 1) } := by simp [ofSlots, hs]
    rw [hpresent, hentry]
    refine ⟨fun _ k => (hkeys k).mp (hall k), ⟨fun _ => ?_, fun _ => rfl⟩, fun _ => ⟨fun k v hv => ?_, ?_⟩,
      fun h => absurd h (by decide)⟩
    · obtain ⟨v, hv⟩ := (hkeys .ip).mp (hall .ip)
      refine ⟨v, hv, fun h0 => hip ?_⟩
      have hv := hvals .ip v hv
      rw [Holds, h0] at hv
      exact (ipv4Str_injective hv).symm
    · exact (holds_renumber _ _).mpr (hvals k v hv)
    · rw [← hpass]
      exact ipcfgEntryError_congr ⟨rfl, rfl, rfl, rfl, rfl⟩ true

/-! ## The files of the list -/

/-- The paths of the files that hold a list, or a record of one. -/
def listPaths (p : Paths) : List Path := p.ipList :: [p.ipListUser, p.ipListUserLast, p.ipListLegacy].reduceOption

theorem listPaths_sublist (p : Paths) : (listPaths p).Sublist p.files := by
  refine List.Sublist.cons _ (List.Sublist.cons_cons _ (List.Sublist.cons _ ?_))
  exact List.Sublist.filterMap _ (by simp)

theorem listPaths_subset {p : Paths} {path : Path} (h : path ∈ listPaths p) : path ∈ p.files :=
  (listPaths_sublist p).subset h

theorem listPaths_nodup (p : Paths) : (listPaths p).Nodup :=
  List.Nodup.sublist (listPaths_sublist p) p.nodup

/-- The files of the list are absent, or regular and readable. -/
def Readable (d : Disk) (p : Paths) : Prop := ∀ path ∈ listPaths p, d path = .absent ∨ ∃ b, d path = .bytes b

/-- Every write and every rename succeeds. -/
structure LoadEnv.Fine (env : LoadEnv) : Prop where
  convert : env.convert.outcome = .durable
  apply : env.apply.outcome = .durable
  user : env.user.outcome = .durable
  record : env.record.outcome = .durable
  retire : env.retire = true
  reject : env.reject = true

theorem rc_of_durable {r : WriteResult} (h : r.outcome = .durable) : r.rc = 0 := by
  rw [WriteResult.rc, if_pos h]

theorem visible_of_durable {r : WriteResult} (h : r.outcome = .durable) : r.outcome ≠ .unchanged := by
  rw [h]
  decide

/-! ## opcd's own copy -/

theorem readAll_of_length_le {b : Bytes} {cap : Nat} (h : b.length ≤ cap) : (File.bytes b).readAll cap = some b := by
  rw [File.readAll, List.take_of_length_le h]

/-- The own copy that opcd writes is read back. -/
theorem ownText_listText {l : IpList} (h : AllValid l) : ownText (.bytes (listText l)) = (readList l, .text) := by
  have hlen := length_listText l
  unfold ownText
  rw [readAll_of_length_le (by rw [textMax]; omega)]
  dsimp only
  rw [if_neg (by rw [textMax]; omega), fromText_listText h]
  rfl

/-- The binary list beside a text is not the newer one. -/
def NotNewer (d : Disk) (p : Paths) (env : LoadEnv) : Prop :=
  ∀ legacy b, p.ipListLegacy = some legacy → d legacy = .bytes b → b.length = rawListLen → env.legacyNewer = false

section Own

variable {d : Disk} {p : Paths} {env : LoadEnv}

theorem convertLegacy_absent {own legacy : Path} (h : d legacy = .absent) :
    convertLegacy d own legacy env = ⟨empty, [], .none⟩ := by
  rw [convertLegacy, h]
  rfl

theorem convertLegacy_size {own legacy : Path} {b : Bytes} (h : d legacy = .bytes b) (hlen : b.length ≠ rawListLen) :
    convertLegacy d own legacy env = ⟨empty, [], .legacyDiscard⟩ := by
  have htake : (b.take (rawListLen + 1)).length ≠ rawListLen := by
    rw [List.length_take]
    omega
  rw [convertLegacy, h, File.readAll]
  dsimp only
  rw [if_pos htake]

theorem convertLegacy_migrates (henv : env.Fine) {own legacy : Path} {b : Bytes} (h : d legacy = .bytes b)
    (hlen : b.length = rawListLen) :
    convertLegacy d own legacy env =
      ⟨legacyList b, .write ⟨own, listText (legacyList b), 0o644, env.convert⟩ :: retireLegacy legacy env.retire,
        .migrated⟩ := by
  rw [convertLegacy, h, readAll_of_length_le (by omega)]
  dsimp only
  rw [if_neg (not_not.mpr hlen), writeText, textFormat_eq]
  simp [rc_of_durable henv.convert]

/-- There is no list of opcd's own: no text, and no binary list that could be converted. -/
def NoOwn (d : Disk) (p : Paths) : Prop :=
  d p.ipList = .absent ∧
    ∀ legacy, p.ipListLegacy = some legacy → d legacy = .absent ∨ ∃ b, d legacy = .bytes b ∧ b.length ≠ rawListLen

theorem loadOwn_none (h : NoOwn d p) : (loadOwn d p env).list = empty ∧ (loadOwn d p env).out = [] := by
  obtain ⟨hown, hlegacy⟩ := h
  unfold loadOwn
  rw [hown]
  dsimp only
  cases hl : p.ipListLegacy with
  | none => exact ⟨rfl, rfl⟩
  | some legacy =>
    dsimp only
    rcases hlegacy legacy hl with h | ⟨b, h, hlen⟩
    · rw [convertLegacy_absent h]
      exact ⟨rfl, rfl⟩
    · rw [convertLegacy_size h hlen]
      exact ⟨rfl, rfl⟩

/-- The text is read; a binary list beside it is at most set aside. -/
theorem loadOwn_text {b : Bytes} (hown : d p.ipList = .bytes b)
    (hold : ∀ legacy b, p.ipListLegacy = some legacy → d legacy = .bytes b → ¬ (b.length = rawListLen ∧ env.legacyNewer))
    (hread : Readable d p) :
    (loadOwn d p env).list = (ownText (.bytes b)).1 ∧ (loadOwn d p env).val = (ownText (.bytes b)).2 ∧
      ((loadOwn d p env).out = [] ∨ ∃ legacy, p.ipListLegacy = some legacy ∧
        (loadOwn d p env).out = retireLegacy legacy env.retire) := by
  unfold loadOwn
  rw [hown]
  dsimp only
  unfold legacyBesideText
  cases hl : p.ipListLegacy with
  | none => exact ⟨rfl, rfl, .inl rfl⟩
  | some legacy =>
    dsimp only
    have hmem : legacy ∈ listPaths p := by simp [listPaths, hl, List.reduceOption]
    rcases hread legacy hmem with h | ⟨c, h⟩
    · rw [h]
      exact ⟨rfl, rfl, .inl rfl⟩
    · have hexists : (d legacy).exists = true := by rw [h]; rfl
      have hsize : (d legacy).size = c.length := by rw [h]; rfl
      rw [if_neg (not_not.mpr hexists), hsize, if_neg (hold legacy c hl h)]
      exact ⟨rfl, rfl, .inr ⟨legacy, rfl, rfl⟩⟩

/-- The binary list is converted: there is no text, or it is the newer of the two. -/
theorem loadOwn_migrates (henv : env.Fine) {legacy : Path} {b : Bytes} (hl : p.ipListLegacy = some legacy)
    (h : d legacy = .bytes b) (hlen : b.length = rawListLen)
    (hown : d p.ipList = .absent ∨ (∃ t, d p.ipList = .bytes t) ∧ env.legacyNewer = true) :
    (loadOwn d p env).list = legacyList b ∧ (loadOwn d p env).val = .migrated ∧
      (loadOwn d p env).out =
        .write ⟨p.ipList, listText (legacyList b), 0o644, env.convert⟩ :: retireLegacy legacy env.retire := by
  unfold loadOwn
  rcases hown with hown | ⟨⟨t, hown⟩, hnewer⟩
  · rw [hown]
    dsimp only
    rw [hl]
    dsimp only
    rw [convertLegacy_migrates henv h hlen]
    exact ⟨rfl, rfl, rfl⟩
  · rw [hown]
    dsimp only
    unfold legacyBesideText
    rw [hl]
    dsimp only
    have hexists : (d legacy).exists = true := by rw [h]; rfl
    have hsize : (d legacy).size = rawListLen := by rw [h]; exact hlen
    rw [if_neg (not_not.mpr hexists), if_pos ⟨hsize, hnewer⟩, convertLegacy_migrates henv h hlen]
    exact ⟨rfl, rfl, rfl⟩

/-- **What `iplist_load_own` does**: there is nothing to load, it reads the text, or it converts the binary list. -/
theorem loadOwn_cases (hread : Readable d p) :
    NoOwn d p ∨ (∃ b, d p.ipList = .bytes b ∧ ∀ legacy b, p.ipListLegacy = some legacy → d legacy = .bytes b →
      ¬ (b.length = rawListLen ∧ env.legacyNewer)) ∨
    ∃ legacy b, p.ipListLegacy = some legacy ∧ d legacy = .bytes b ∧ b.length = rawListLen ∧
      (d p.ipList = .absent ∨ (∃ t, d p.ipList = .bytes t) ∧ env.legacyNewer = true) := by
  have hown := hread p.ipList (by simp [listPaths])
  by_cases hconv : ∃ legacy b, p.ipListLegacy = some legacy ∧ d legacy = .bytes b ∧ b.length = rawListLen
  · obtain ⟨legacy, b, hl, hb, hlen⟩ := hconv
    rcases hown with hown | ⟨t, hown⟩
    · exact .inr (.inr ⟨legacy, b, hl, hb, hlen, .inl hown⟩)
    · by_cases hnewer : env.legacyNewer = true
      · exact .inr (.inr ⟨legacy, b, hl, hb, hlen, .inr ⟨⟨t, hown⟩, hnewer⟩⟩)
      · exact .inr (.inl ⟨t, hown, fun _ _ _ _ h => hnewer h.2⟩)
  · have hsize : ∀ legacy b, p.ipListLegacy = some legacy → d legacy = .bytes b → b.length ≠ rawListLen :=
      fun legacy b hl hb hlen => hconv ⟨legacy, b, hl, hb, hlen⟩
    rcases hown with hown | ⟨t, hown⟩
    · refine .inl ⟨hown, fun legacy hl => ?_⟩
      have hmem : legacy ∈ listPaths p := by simp [listPaths, hl, List.reduceOption]
      rcases hread legacy hmem with h | ⟨b, hb⟩
      · exact .inl h
      · exact .inr ⟨b, hb, hsize legacy b hl hb⟩
    · exact .inr (.inl ⟨t, hown, fun legacy b hl hb h => hsize legacy b hl hb h.1⟩)

end Own

/-! ## The effects on the files -/

section Files

variable {d : Disk} {p : Paths}

theorem Readable.apply (h : Readable d p) {e : Effect}
    (he : ∀ q q' ok, e = .rename q q' ok → q ∈ listPaths p) : Readable (d.apply e) p := by
  intro path hpath
  by_cases htouched : path ∈ e.touched
  · cases e with
    | write w =>
      obtain rfl := List.mem_singleton.mp htouched
      by_cases hw : w.result.outcome = .unchanged
      · rw [Disk.apply, if_pos hw]
        exact h _ hpath
      · exact .inr ⟨_, Disk.apply_write hw⟩
    | unlink q ok =>
      obtain rfl := List.mem_singleton.mp htouched
      rw [Disk.apply]
      split
      · exact .inl (Function.update_self ..)
      · exact h _ hpath
    | rename q q' ok =>
      rw [Disk.apply]
      split
      · by_cases hq : path = q
        · rw [hq]
          exact .inl (Function.update_self ..)
        · have hq' : path = q' := by
            simpa [Effect.touched, hq] using htouched
          rw [Function.update_of_ne hq, hq', Function.update_self]
          exact h q (he q q' ok rfl)
      · exact h _ hpath
    | _ => cases htouched
  · rw [Disk.apply_other d htouched]
    exact h path hpath

theorem Readable.after (h : Readable d p) {es : List Effect}
    (hes : ∀ q q' ok, .rename q q' ok ∈ es → q ∈ listPaths p) : Readable (d.after es) p := by
  induction es generalizing d with
  | nil => exact h
  | cons e es ih =>
    rw [Disk.after_cons]
    refine ih (h.apply fun q q' ok he => hes q q' ok (he ▸ List.mem_cons_self)) ?_
    exact fun q q' ok hmem => hes q q' ok (List.mem_cons_of_mem e hmem)

theorem after_renameSuffix {path q : Path} {suffix : String} {ok : Bool} (hsrc : q ≠ path)
    (hdst : q ≠ path ++ ofString suffix) : d.after (renameSuffix path suffix ok) q = d q := by
  refine Disk.after_other fun e he => ?_
  unfold renameSuffix at he
  split at he
  · obtain rfl := List.mem_singleton.mp he
    simp [Effect.touched, hsrc, hdst]
  · cases he

theorem rename_of_renameSuffix {path q q' : Path} {suffix : String} {ok ok' : Bool}
    (h : Effect.rename q q' ok ∈ renameSuffix path suffix ok') : q = path := by
  unfold renameSuffix at h
  split at h
  · cases List.mem_singleton.mp h
    rfl
  · cases h

variable {env : LoadEnv}

/-- The loading of opcd's own copy renames at most the binary list. -/
theorem rename_of_loadOwn (henv : env.Fine) (hread : Readable d p) {q q' : Path} {ok : Bool}
    (h : .rename q q' ok ∈ (loadOwn d p env).out) : p.ipListLegacy = some q := by
  rcases @loadOwn_cases d p env hread with hnone | ⟨b, hb, hold⟩ | ⟨legacy, b, hl, hb, hlen, hown⟩
  · rw [(loadOwn_none hnone).2] at h
    cases h
  · rcases (loadOwn_text hb hold hread).2.2 with hout | ⟨legacy, hl, hout⟩
    · rw [hout] at h
      cases h
    · rw [hout] at h
      rw [rename_of_renameSuffix h, hl]
  · rw [(loadOwn_migrates henv hl hb hlen hown).2.2] at h
    rcases List.mem_cons.mp h with h | h
    · cases h
    · rw [rename_of_renameSuffix h, hl]

/-- It leaves the customer's file and the record as they are. -/
theorem loadOwn_frame (henv : env.Fine) (hread : Readable d p) (haside : p.SetAside) {path : Path}
    (hmem : path ∈ listPaths p) (hown : path ≠ p.ipList) (hlegacy : p.ipListLegacy ≠ some path) :
    d.after (loadOwn d p env).out path = d path := by
  have hretire : ∀ d' : Disk, ∀ legacy, p.ipListLegacy = some legacy →
      d'.after (retireLegacy legacy env.retire) path = d' path := by
    intro d' legacy hl
    refine after_renameSuffix (fun h => hlegacy (h ▸ hl)) fun h => haside.migrated legacy hl (listPaths_subset (h ▸ hmem))
  rcases @loadOwn_cases d p env hread with hnone | ⟨b, hb, hold⟩ | ⟨legacy, b, hl, hb, hlen, hcase⟩
  · rw [(loadOwn_none hnone).2]
    rfl
  · rcases (loadOwn_text hb hold hread).2.2 with hout | ⟨legacy, hl, hout⟩
    · rw [hout]
      rfl
    · rw [hout, hretire d legacy hl]
  · rw [(loadOwn_migrates henv hl hb hlen hcase).2.2, Disk.after_cons, hretire _ legacy hl]
    exact Disk.apply_write_other d hown

/-- **opcd's own copy is loaded again** as the first time, if it and the binary list are as that left them. -/
theorem loadOwn_again {env' : LoadEnv} {d' : Disk} (henv : env.Fine) (hread : Readable d p) (haside : p.SetAside)
    (hown : d' p.ipList = d.after (loadOwn d p env).out p.ipList)
    (hlegacy : ∀ legacy, p.ipListLegacy = some legacy → d' legacy = d.after (loadOwn d p env).out legacy)
    (hread' : Readable d' p) (hnewer : NotNewer d' p env') :
    Same (loadOwn d' p env').list (loadOwn d p env).list := by
  have hne : ∀ legacy, p.ipListLegacy = some legacy → p.ipList ≠ legacy := by
    intro legacy hl
    have hnodup := (List.nodup_cons.mp (listPaths_nodup p)).1
    intro h
    exact hnodup (by simp [List.reduceOption, hl, h])
  have hmem : p.ipList ∈ listPaths p := List.mem_cons_self
  have hold' : ∀ legacy b, p.ipListLegacy = some legacy → d' legacy = .bytes b →
      ¬ (b.length = rawListLen ∧ env'.legacyNewer) := by
    rintro legacy b hl hb ⟨hlen, hn⟩
    rw [hnewer legacy b hl hb hlen] at hn
    cases hn
  rcases @loadOwn_cases d p env hread with hnone | ⟨b, hb, hold⟩ | ⟨legacy, b, hl, hb, hlen, hcase⟩
  · obtain ⟨hlist, hout⟩ := @loadOwn_none d p env hnone
    rw [hout] at hown hlegacy
    have hnone' : NoOwn d' p := ⟨hown.trans hnone.1, fun legacy hl => by
      rw [hlegacy legacy hl]
      exact hnone.2 legacy hl⟩
    rw [(loadOwn_none hnone').1, hlist]
    exact ⟨rfl, fun i hi => absurd hi (by simp [empty])⟩
  · obtain ⟨hlist, -, hout⟩ := loadOwn_text hb hold hread
    have hkept : d.after (loadOwn d p env).out p.ipList = .bytes b := by
      rcases hout with hout | ⟨legacy, hl, hout⟩
      · rw [hout]
        exact hb
      · rw [hout, ← hb]
        exact after_renameSuffix (hne legacy hl) fun h => haside.migrated legacy hl (listPaths_subset (h ▸ hmem))
    rw [(loadOwn_text (hown.trans hkept) hold' hread').1, hlist]
    exact ⟨rfl, fun i _ => ⟨rfl, rfl, rfl, rfl, rfl⟩⟩
  · obtain ⟨hlist, -, hout⟩ := loadOwn_migrates henv hl hb hlen hcase
    have hvalid : AllValid (legacyList b) := (stored_legacyList b).allValid
    have hwritten : d.after (loadOwn d p env).out p.ipList = .bytes (listText (legacyList b)) := by
      rw [hout, Disk.after_cons, retireLegacy,
        after_renameSuffix (hne legacy hl) fun h => haside.migrated legacy hl (listPaths_subset (h ▸ hmem))]
      exact Disk.apply_write (visible_of_durable henv.convert)
    rw [(loadOwn_text (hown.trans hwritten) hold' hread').1, ownText_listText hvalid, hlist]
    exact same_readList hvalid

end Files

/-! ## The customer's file -/

/-- The next load leaves `l` in effect: opcd's own copy has it, and the customer's file too if there is one. -/
structure Settled (d : Disk) (p : Paths) (env : LoadEnv) (l : IpList) : Prop where
  own : Same (loadOwn d p env).list l
  user : ∀ user, p.ipListUser = some user → ∃ input lu, d user = .bytes input ∧ input.length ≤ importMax ∧
    fromText input true = some lu ∧ Same lu l

section User

variable {d : Disk} {p : Paths} {env : LoadEnv}

theorem mem_user {user : Path} (h : p.ipListUser = some user) :
    user ∈ listPaths p ∧ user ≠ p.ipList ∧ p.ipListLegacy ≠ some user ∧ p.ipListUserLast ≠ some user := by
  have hnodup := listPaths_nodup p
  rw [listPaths, h] at hnodup
  refine ⟨by simp [listPaths, h, List.reduceOption], ?_, ?_, ?_⟩
  · rintro rfl
    exact (List.nodup_cons.mp hnodup).1 (by simp [List.reduceOption])
  · intro hl
    rw [hl] at hnodup
    exact (List.nodup_cons.mp (List.nodup_cons.mp hnodup).2).1 (by simp)
  · intro hl
    rw [hl] at hnodup
    exact (List.nodup_cons.mp (List.nodup_cons.mp hnodup).2).1 (by simp)

theorem mem_record {last : Path} (h : p.ipListUserLast = some last) :
    last ≠ p.ipList ∧ p.ipListLegacy ≠ some last := by
  have hnodup := listPaths_nodup p
  rw [listPaths, h] at hnodup
  constructor
  · rintro rfl
    exact (List.nodup_cons.mp hnodup).1 (by simp [List.reduceOption])
  · intro hl
    rw [hl] at hnodup
    have hrest := (List.nodup_cons.mp hnodup).2
    cases hu : p.ipListUser with
    | none =>
      rw [hu] at hrest
      exact (List.nodup_cons.mp hrest).1 (by simp)
    | some user =>
      rw [hu] at hrest
      exact (List.nodup_cons.mp (List.nodup_cons.mp hrest).2).1 (by simp)

/-- **A settled load.** -/
theorem Settled.load {l : IpList} (h : Settled d p env l) (henv : env.Fine) (hread : Readable d p)
    (haside : p.SetAside) : Same (load d p env).list l := by
  unfold IpList.load
  dsimp only
  cases hu : p.ipListUser with
  | none => exact h.own
  | some user =>
    obtain ⟨input, lu, hinput, hlen, hparse, hsame⟩ := h.user user hu
    obtain ⟨hmem, hne, hlegacy, -⟩ := mem_user hu
    have hfile : d.after (loadOwn d p env).out user = .bytes input :=
      (loadOwn_frame henv hread haside hmem hne hlegacy).trans hinput
    dsimp only
    rw [hfile]
    dsimp only
    rw [if_neg (not_lt.mpr hlen), hparse]
    dsimp only
    split
    · exact h.own
    · exact hsame

/-- **What `opcd_iplist_load` does**, after the loading of opcd's own copy: there is no customer's file to look
after; opcd's list is in effect and written to the customer's file; the customer's file holds that list already;
or the customer's list is in effect. -/
theorem load_cases (henv : env.Fine) (hread : Readable d p) (haside : p.SetAside) :
    let own := loadOwn d p env
    let r := IpList.load d p env
    p.ipListUser = none ∧ r.list = own.list ∧ r.out = own.out ∨
    ∃ user, p.ipListUser = some user ∧
      ((∃ es, (es = [] ∨ es = renameSuffix user ".rejected" env.reject) ∧ r.list = own.list ∧
          r.out = own.out ++ es ++ writeUser p user own.list env) ∨
        ∃ input lu, d user = .bytes input ∧ input.length ≤ importMax ∧ fromText input true = some lu ∧
          (same lu own.list = true ∧ r.list = own.list ∧ r.out = own.out ∨
            r.list = lu ∧ r.out = own.out ++ applyUser (d.after own.out) p input lu env)) := by
  unfold IpList.load
  dsimp only
  cases hu : p.ipListUser with
  | none => exact .inl ⟨rfl, rfl, rfl⟩
  | some user =>
    obtain ⟨hmem, hne, hlegacy, -⟩ := mem_user hu
    have hfile := loadOwn_frame henv hread haside hmem hne hlegacy
    refine .inr ⟨user, rfl, ?_⟩
    dsimp only
    rw [hfile]
    rcases hread user hmem with hd | ⟨input, hd⟩
    · rw [hd]
      exact .inl ⟨[], .inl rfl, rfl, by simp⟩
    · rw [hd]
      dsimp only
      have hreject : ∃ es, (es = [] ∨ es = renameSuffix user ".rejected" env.reject) ∧
          (loadOwn d p env).list = (loadOwn d p env).list ∧
          (loadOwn d p env).out ++ renameSuffix user ".rejected" env.reject ++
              writeUser p user (loadOwn d p env).list env =
            (loadOwn d p env).out ++ es ++ writeUser p user (loadOwn d p env).list env :=
        ⟨_, .inr rfl, rfl, rfl⟩
      by_cases hlen : input.length > importMax
      · rw [if_pos hlen]
        exact .inl hreject
      · rw [if_neg hlen]
        cases hparse : fromText input true with
        | none => exact .inl hreject
        | some lu =>
          dsimp only
          split
          · by_cases hsame : same lu (loadOwn d p env).list = true
            · rw [if_pos hsame, List.append_nil]
              exact .inr ⟨input, lu, rfl, not_lt.mp hlen, hparse, .inl ⟨hsame, rfl, rfl⟩⟩
            · rw [if_neg hsame]
              exact .inl ⟨[], .inl rfl, rfl, by simp⟩
          · exact .inr ⟨input, lu, rfl, not_lt.mp hlen, hparse, .inr ⟨rfl, rfl⟩⟩

theorem Same.symm {a b : IpList} (h : Same a b) : Same b a where
  present := h.present.symm
  values i hi := by
    obtain ⟨h1, h2, h3, h4, h5⟩ := h.values i (h.present ▸ hi)
    exact ⟨h1.symm, h2.symm, h3.symm, h4.symm, h5.symm⟩

theorem Same.trans {a b c : IpList} (h : Same a b) (h' : Same b c) : Same a c where
  present := h.present.trans h'.present
  values i hi := by
    obtain ⟨h1, h2, h3, h4, h5⟩ := h.values i hi
    obtain ⟨g1, g2, g3, g4, g5⟩ := h'.values i (h.present ▸ hi)
    exact ⟨h1.trans g1, h2.trans g2, h3.trans g3, h4.trans g4, h5.trans g5⟩

theorem Same.refl (l : IpList) : Same l l := ⟨rfl, fun _ _ => ⟨rfl, rfl, rfl, rfl, rfl⟩⟩

/-- `iplist_same` compares texts, and a text has one reading. -/
theorem same_of_same {a b : IpList} (ha : AllValid a) (hb : AllValid b) (h : same a b = true) : Same a b := by
  unfold same at h
  rw [textFormat_eq, textFormat_eq] at h
  have htext : listText a = listText b := of_decide_eq_true h
  have hread := fromText_listText ha true
  rw [htext, fromText_listText hb true] at hread
  have hlists : Same (readList a) (readList b) := Option.some.inj hread ▸ Same.refl _
  exact (same_readList ha).symm.trans (hlists.trans (same_readList hb))

theorem writeUser_eq (henv : env.Fine) (user : Path) (l : IpList) :
    writeUser p user l env = .write ⟨user, listText l, 0o644, env.user⟩ ::
      p.ipListUserLast.elim [] fun last => [.write ⟨last, listText l, 0o644, env.record⟩] := by
  unfold writeUser
  rw [textFormat_eq]
  dsimp only
  cases p.ipListUserLast with
  | none => rfl
  | some last =>
    dsimp only
    rw [if_pos (visible_of_durable henv.user)]
    rfl

/-- The list in effect shows in the customer's file. -/
theorem after_writeUser (henv : env.Fine) {user : Path} (hu : p.ipListUser = some user) (l : IpList) :
    d.after (writeUser p user l env) user = .bytes (listText l) ∧
      ∀ path, path ≠ user → p.ipListUserLast ≠ some path → d.after (writeUser p user l env) path = d path := by
  have hshown : d.apply (.write ⟨user, listText l, 0o644, env.user⟩) user = .bytes (listText l) :=
    Disk.apply_write (visible_of_durable henv.user)
  rw [writeUser_eq henv, Disk.after_cons]
  cases hlast : p.ipListUserLast with
  | none =>
    refine ⟨hshown, fun path hpath _ => ?_⟩
    exact Disk.apply_write_other d hpath
  | some last =>
    have hne : user ≠ last := fun h => (mem_user hu).2.2.2 (h ▸ hlast)
    simp only [Option.elim, Disk.after_cons, Disk.after_nil]
    constructor
    · rw [Disk.apply_write_other _ hne]
      exact hshown
    · intro path hpath hl
      have hpl : path ≠ last := fun h => hl (h ▸ rfl)
      rw [Disk.apply_write_other _ hpl, Disk.apply_write_other d hpath]

/-- The customer's list is in opcd's own copy, written now or there before. -/
theorem after_applyUser {input : Bytes} {l : IpList}
    (hok : .write ⟨p.ipList, listText l, 0o644, env.apply⟩ ∈ applyUser d p input l env → env.apply.outcome = .durable) :
    d.after (applyUser d p input l env) p.ipList = .bytes (listText l) ∧
      ∀ path, path ≠ p.ipList → p.ipListUserLast ≠ some path → d.after (applyUser d p input l env) path = d path := by
  have hrecord : ∀ (d' : Disk) (ok : Bool) path, p.ipListUserLast ≠ some path →
      d'.after (p.ipListUserLast.elim [] fun last =>
        if ok then [.write ⟨last, input, 0o644, env.record⟩] else []) path = d' path := by
    intro d' ok path hpath
    refine Disk.after_other fun e he => ?_
    cases hlast : p.ipListUserLast with
    | none =>
      rw [hlast] at he
      cases he
    | some last =>
      rw [hlast] at he
      have hne : path ≠ last := fun h => hpath (h ▸ hlast)
      cases ok with
      | false => cases he
      | true =>
        obtain rfl := List.mem_singleton.mp he
        simpa [Effect.touched] using hne
  have hown : p.ipListUserLast ≠ some p.ipList := fun h => (mem_record h).1 rfl
  have hout : applyUser d p input l env = (writeText d p.ipList l true env.apply).1 ++
      p.ipListUserLast.elim [] fun last =>
        if (writeText d p.ipList l true env.apply).2 then [.write ⟨last, input, 0o644, env.record⟩] else [] := by
    unfold applyUser
    cases p.ipListUserLast <;> rfl
  have hlen := length_listText l
  have hwrite : d.after (writeText d p.ipList l true env.apply).1 p.ipList = .bytes (listText l) ∧
      ∀ path, path ≠ p.ipList → d.after (writeText d p.ipList l true env.apply).1 path = d path := by
    unfold writeText
    rw [textFormat_eq]
    dsimp only
    by_cases hskip : (d p.ipList).readAll (textMax + 1) = some (listText l)
    · rw [if_pos ⟨rfl, hskip⟩]
      refine ⟨?_, fun _ _ => rfl⟩
      cases hf : d p.ipList with
      | bytes b =>
        rw [hf, File.readAll] at hskip
        have htake := Option.some.inj hskip
        have hb : b.length ≤ textMax + 1 := by
          have := congrArg List.length htake
          rw [List.length_take, textMax] at this
          rw [textMax]
          omega
        rw [List.take_of_length_le hb] at htake
        rw [Disk.after_nil, hf, htake]
      | _ =>
        rw [hf] at hskip
        cases hskip
    · have hne : ¬ (true = true ∧ (d p.ipList).readAll (textMax + 1) = some (listText l)) := fun h => hskip h.2
      rw [if_neg hne]
      have hdurable : env.apply.outcome = .durable := hok (by
        rw [hout]
        refine List.mem_append_left _ ?_
        rw [writeText, textFormat_eq]
        dsimp only
        rw [if_neg hne]
        exact List.mem_cons_self)
      refine ⟨Disk.apply_write (visible_of_durable hdurable), fun path hpath => ?_⟩
      exact Disk.apply_write_other d hpath
  rw [hout, Disk.after_append]
  refine ⟨?_, fun path hpath hlast => ?_⟩
  · rw [hrecord _ _ _ hown]
    exact hwrite.1
  · rw [hrecord _ _ _ hlast]
    exact hwrite.2 path hpath

theorem rename_notMem_writeUser (user q q' : Path) (l : IpList) (ok : Bool) :
    .rename q q' ok ∉ writeUser p user l env := by
  unfold writeUser
  rw [textFormat_eq]
  cases p.ipListUserLast with
  | none => simp
  | some last =>
    dsimp only
    split <;> simp

theorem rename_notMem_applyUser (input : Bytes) (q q' : Path) (l : IpList) (ok : Bool) :
    .rename q q' ok ∉ applyUser d p input l env := by
  unfold applyUser writeText
  rw [textFormat_eq]
  dsimp only
  cases p.ipListUserLast with
  | none => split <;> simp
  | some last =>
    dsimp only
    split <;> split <;> simp

/-- A load renames at most the binary list and the customer's file. -/
theorem readable_load (henv : env.Fine) (hread : Readable d p) (haside : p.SetAside) :
    Readable (d.after (IpList.load d p env).out) p := by
  have hlegacy : ∀ legacy, p.ipListLegacy = some legacy → legacy ∈ listPaths p :=
    fun legacy hl => by simp [listPaths, hl, List.reduceOption]
  have hown : ∀ q q' ok, .rename q q' ok ∈ (loadOwn d p env).out → q ∈ listPaths p :=
    fun q q' ok h => hlegacy q (rename_of_loadOwn henv hread h)
  refine hread.after fun q q' ok h => ?_
  rcases load_cases henv hread haside with ⟨-, -, hout⟩ | ⟨user, hu, ⟨es, hes, -, hout⟩ | ⟨input, lu, -, -, -, hcase⟩⟩
  · rw [hout] at h
    exact hown q q' ok h
  · rw [hout] at h
    rcases List.mem_append.mp h with h | h
    · rcases List.mem_append.mp h with h | h
      · exact hown q q' ok h
      · rcases hes with rfl | rfl
        · cases h
        · rw [rename_of_renameSuffix h]
          exact (mem_user hu).1
    · exact absurd h (rename_notMem_writeUser user q q' _ ok)
  · rcases hcase with ⟨-, -, hout⟩ | ⟨-, hout⟩
    · rw [hout] at h
      exact hown q q' ok h
    · rw [hout] at h
      rcases List.mem_append.mp h with h | h
      · exact hown q q' ok h
      · exact absurd h (rename_notMem_applyUser input q q' lu ok)

/-- **A load settles the next.** -/
theorem settled_load {env' : LoadEnv} (henv : env.Fine) (hread : Readable d p) (haside : p.SetAside)
    (hnewer : NotNewer (d.after (IpList.load d p env).out) p env') :
    Settled (d.after (IpList.load d p env).out) p env' (IpList.load d p env).list := by
  have hread' := readable_load henv hread haside
  have hvalid : AllValid (loadOwn d p env).list := (stored_loadOwn d p env).allValid
  rcases load_cases henv hread haside with
    ⟨hnone, hlist, hout⟩ | ⟨user, hu, ⟨es, hes, hlist, hout⟩ | ⟨input, lu, hd, hlen, hparse, hcase⟩⟩
  · rw [hout] at hnewer hread' ⊢
    rw [hlist]
    exact ⟨loadOwn_again henv hread haside rfl (fun _ _ => rfl) hread' hnewer,
      fun user hu => absurd (hnone.symm.trans hu) (by simp)⟩
  · -- opcd's list was written to the customer's file, which may have been set aside first
    obtain ⟨hmem, hne, hlegacy, -⟩ := mem_user hu
    have hframe : ∀ path ∈ listPaths p, path ≠ user → p.ipListUserLast ≠ some path →
        d.after (IpList.load d p env).out path = d.after (loadOwn d p env).out path := by
      intro path hpath huser hlast
      rw [hout, Disk.after_append, Disk.after_append, (after_writeUser henv hu _).2 path huser hlast]
      rcases hes with rfl | rfl
      · rfl
      · exact after_renameSuffix huser fun h => haside.rejected user hu (listPaths_subset (h ▸ hpath))
    rw [hlist]
    refine ⟨loadOwn_again henv hread haside ?_ ?_ hread' hnewer, fun user' hu' => ?_⟩
    · exact hframe p.ipList List.mem_cons_self hne.symm fun h => (mem_record h).1 rfl
    · intro legacy hl
      refine hframe legacy (by simp [listPaths, hl, List.reduceOption]) (fun h => hlegacy (h ▸ hl)) ?_
      exact fun h => (mem_record h).2 hl
    · obtain rfl : user = user' := Option.some.inj (hu.symm.trans hu')
      have hshort := length_listText (loadOwn d p env).list
      refine ⟨listText (loadOwn d p env).list, _, ?_, by rw [importMax]; omega, fromText_listText hvalid true,
        same_readList hvalid⟩
      rw [hout, Disk.after_append]
      exact (after_writeUser henv hu _).1
  · obtain ⟨hmem, hne, hlegacy, hlast⟩ := mem_user hu
    have hkept := loadOwn_frame henv hread haside hmem hne hlegacy
    rcases hcase with ⟨hsame, hlist, hout⟩ | ⟨hlist, hout⟩
    · -- the customer's file held opcd's list already
      rw [hout] at hnewer hread' ⊢
      rw [hlist]
      refine ⟨loadOwn_again henv hread haside rfl (fun _ _ => rfl) hread' hnewer, fun user' hu' => ?_⟩
      obtain rfl : user = user' := Option.some.inj (hu.symm.trans hu')
      exact ⟨input, lu, hkept.trans hd, hlen, hparse, same_of_same (stored_fromText hparse).allValid hvalid hsame⟩
    · -- the customer's list is in effect, and in opcd's own copy
      have hlu : AllValid lu := (stored_fromText hparse).allValid
      obtain ⟨hcopy, hframe⟩ := @after_applyUser (d.after (loadOwn d p env).out) p env input lu fun _ => henv.apply
      rw [hlist]
      constructor
      · have hown : d.after (IpList.load d p env).out p.ipList = .bytes (listText lu) := by
          rw [hout, Disk.after_append]
          exact hcopy
        rw [(loadOwn_text hown (fun legacy b hl hb h => ?_) hread').1, ownText_listText hlu]
        · exact same_readList hlu
        · rw [hnewer legacy b hl hb h.1] at h
          exact absurd h.2 (by decide)
      · intro user' hu'
        obtain rfl : user = user' := Option.some.inj (hu.symm.trans hu')
        refine ⟨input, lu, ?_, hlen, hparse, Same.refl lu⟩
        rw [hout, Disk.after_append, hframe user hne hlast, hkept, hd]

end User

/-- **The customer's file is applied all or nothing, and start-up is idempotent.** With readable files and no
failing call, the list in effect after `opcd_iplist_load` is what `iplist_load_own` produced, or the list that the
customer's text denotes; and a second load leaves the same list in effect. -/
theorem iplist_load_all_or_nothing (d : Disk) (p : Paths) (env env' : LoadEnv) (hread : Readable d p)
    (haside : p.SetAside) (henv : env.Fine) (henv' : env'.Fine)
    (hnewer : NotNewer (d.after (load d p env).out) p env') :
    ((load d p env).list = (loadOwn d p env).list ∨
      ∃ user input, p.ipListUser = some user ∧ d user = .bytes input ∧ input.length ≤ importMax ∧
        Denotes input (load d p env).list) ∧
    Same (load (d.after (load d p env).out) p env').list (load d p env).list := by
  constructor
  · rcases load_cases henv hread haside with
      ⟨-, hlist, -⟩ | ⟨user, hu, ⟨es, -, hlist, -⟩ | ⟨input, lu, hd, hlen, hparse, ⟨-, hlist, -⟩ | ⟨hlist, -⟩⟩⟩
    · exact .inl hlist
    · exact .inl hlist
    · exact .inl hlist
    · exact .inr ⟨user, input, hu, hd, hlen, hlist ▸ denotes_of_fromText hparse⟩
  · exact (settled_load henv hread haside hnewer).load henv' (readable_load henv hread haside) haside

/-- A customer's file with a line that is no assignment, and nothing else. -/
def junkFile : Disk := fun path => if path = ofString "user" then .bytes (ofString "junk") else .absent

def shortPaths : Paths :=
  { password := ofString "password", ipList := ofString "list", radio := ofString "radio"
    ipListUser := some (ofString "user"), ipListUserLast := some (ofString "last")
    ipListLegacy := some (ofString "binary"), radioMarker := none
    nodup := by decide }

def fineLoad : LoadEnv :=
  ⟨⟨.durable, 0⟩, ⟨.durable, 0⟩, ⟨.durable, 0⟩, ⟨.durable, 0⟩, true, true, false⟩

theorem iplist_load_all_or_nothing_junk :
    (load junkFile shortPaths fineLoad).val = .rejected ∧
    Same (load (junkFile.after (load junkFile shortPaths fineLoad).out) shortPaths fineLoad).list
      (load junkFile shortPaths fineLoad).list := by
  have hread : Readable junkFile shortPaths := by
    intro path _
    unfold junkFile
    split
    · exact .inr ⟨_, rfl⟩
    · exact .inl rfl
  have haside : shortPaths.SetAside := by
    constructor <;> intro path h <;> cases h <;> decide
  have hfine : fineLoad.Fine := ⟨rfl, rfl, rfl, rfl, rfl, rfl⟩
  exact ⟨by decide +kernel, (iplist_load_all_or_nothing junkFile shortPaths fineLoad fineLoad hread haside hfine hfine
    fun _ _ _ _ _ => rfl).2⟩

end Opcd.IpList
