import Opcd.Nl80211.Parse

/-!
# What is decoded from a message

The parsers over any buffer: they read inside it and end, and the event is a fold over the attributes of the
message (`parseEvt_eq`). Each field of the event is then decided by the last attribute that is accepted for it
(`Decoded`).

* `attribute_decoding`: an encoded message is decoded exactly, and no read is outside.
-/

namespace Opcd.Nl80211

open Bytes Attributes

/-! ## One attribute -/

/-- The test that an attribute has to pass. -/
def Field.accepts (kind : Kind) : Field → Bytes → Bool
  | .ifindex, p => 4 ≤ p.length
  | .wiphyFreq, p => 4 ≤ p.length
  | .statusCode, p => 2 ≤ p.length
  | .reasonCode, p => 2 ≤ p.length
  | .mac, p => 6 ≤ p.length
  | .frame, p => (kind = .deauth ∨ kind = .disassoc) ∧ 26 ≤ p.length ∧ sentByAp kind (p.take 22)
  | .disconnectedByAp, _ => true
  | .ssid, p => 0 < p.length ∧ p.length ≤ 32

/-- What an accepted attribute changes. -/
def Evt.store (e : Evt) : Field → Bytes → Evt
  | .ifindex, p => { e with ifindex := le32Read p 0 }
  | .wiphyFreq, p => { e with freqMhz := le32Read p 0, channel := freqToChannel (le32Read p 0) }
  | .statusCode, p => { e with statusCode := le16Read p 0 }
  | .reasonCode, p => { e with reasonCode := le16Read p 0 }
  | .mac, p => { e with mac := Buf.ofBytes 6 (p.take 6), macPresent := true }
  | .frame, p => { e with apFrameMac := Buf.ofBytes 6 ((p.drop 10).take 6) }
  | .disconnectedByAp, _ => { e with byAp := true }
  | .ssid, p => { e with ssid := setSsid e.ssid p, ssidPresent := true }

/-- One attribute of an event, by its payload. -/
def Evt.step (kind : Kind) (e : Evt) (a : Attr) : Evt :=
  match Field.ofType a.type with
  | none => e
  | some fd => if fd.accepts kind a.payload then e.store fd a.payload else e

theorem Field.ofType_eq {type : BitVec 16} {fd : Field} : ofType type = some fd ↔ type = fd.code := by
  constructor
  · intro h
    have hcode := List.find?_some h
    exact (of_decide_eq_true hcode).symm
  · rintro rfl
    cases fd <;> rfl

/-- The handler reads inside the payload, and the payload is all that counts. -/
theorem Evt.attr_eq {b : Bytes} {pl n : Nat} (h : pl + n ≤ b.length) (kind : Kind) (e : Evt)
    (type : BitVec 16) : e.attr b kind type pl n = some (e.step kind ⟨type, (b.drop pl).take n⟩) := by
  have hlen : ((b.drop pl).take n).length = n := by
    rw [List.length_take, List.length_drop]
    omega
  have h32 : n ≥ 4 → b.le32? pl = some (le32Read ((b.drop pl).take n) 0) := by
    intro hn
    rw [le32?_eq (by omega), le32Read_take (by omega), le32Read_take (by omega)]
  have h16 : n ≥ 2 → b.le16? pl = some (le16Read ((b.drop pl).take n) 0) := by
    intro hn
    rw [le16?_eq (by omega), le16Read_take (by omega), le16Read_take (by omega)]
  have hslice : ∀ k ≤ n, b.slice? pl k = some (((b.drop pl).take n).take k) := by
    intro k hk
    rw [slice?_eq (by omega), List.take_take, Nat.min_eq_left hk]
  unfold Evt.attr Evt.step
  dsimp only
  generalize (b.drop pl).take n = p at hlen h32 h16 hslice
  subst hlen
  cases Field.ofType type with
  | none => rfl
  | some fd =>
    cases fd with
    | disconnectedByAp => rfl
    | ifindex =>
      by_cases hn : 4 ≤ p.length
      · simp [hn, h32 hn, Field.accepts, store]
      · simp [hn, Field.accepts]
    | wiphyFreq =>
      by_cases hn : 4 ≤ p.length
      · simp [hn, h32 hn, Field.accepts, store]
      · simp [hn, Field.accepts]
    | statusCode =>
      by_cases hn : 2 ≤ p.length
      · simp [hn, h16 hn, Field.accepts, store]
      · simp [hn, Field.accepts]
    | reasonCode =>
      by_cases hn : 2 ≤ p.length
      · simp [hn, h16 hn, Field.accepts, store]
      · simp [hn, Field.accepts]
    | mac =>
      by_cases hn : 6 ≤ p.length
      · simp [hn, hslice 6 hn, Field.accepts, store]
      · simp [hn, Field.accepts]
    | ssid =>
      by_cases hn : 0 < p.length ∧ p.length ≤ 32
      · simp [hn, hslice p.length le_rfl, Field.accepts, store]
      · simp [hn, Field.accepts]
    | frame =>
      have hsub : ((p.take 22).drop 10).take 6 = (p.drop 10).take 6 := by
        rw [List.drop_take, List.take_take]
        rfl
      by_cases hk : (kind = .deauth ∨ kind = .disassoc) ∧ p.length ≥ 26
      · rw [if_pos hk, hslice 22 (by omega), Option.map_some]
        cases hap : sentByAp kind (p.take 22) with
        | true => simp [Field.accepts, store, hk.1, hk.2, hap, hsub]
        | false => simp [Field.accepts, hap]
      · have hno : Field.accepts kind .frame p = false :=
          decide_eq_false fun hall => hk ⟨hall.1, hall.2.1⟩
        simp [hk, hno]

/-- The attributes of the message of `len` bytes at `base`. -/
def attrsAt (b : Bytes) (base len off : Nat) : List Attr := attrs (((b.drop base).take len).drop off)

/-! ## Every buffer -/

section Bounds

variable {b : Bytes} {base len : Nat}

/-- **The event of a message** that is inside the buffer: the header decides whether there is one, and the
attributes are folded into it. -/
theorem parseEvt_eq (h : base + len ≤ b.length) (family : Int) :
    parseEvt b base len family =
      if len < 20 ∨ (family < 0 ∨ family > 0xffff) ∨ ((le16Read (b.drop base) 4).toNat : Int) ≠ family ∨
          cmdToKind (b.byteAt (base + 16)) = .ignore then some (false, .zero)
      else
        let kind := cmdToKind (b.byteAt (base + 16))
        some (true, (attrsAt b base len 20).foldl (Evt.step kind) { Evt.zero with kind }) := by
  unfold parseEvt
  by_cases hlen : len < 20
  · simp [hlen]
  by_cases hfam : family < 0 ∨ family > 0xffff
  · simp [hlen, hfam]
  have htype : b.le16? (base + 4) = some (le16Read (b.drop base) 4) := by
    rw [le16?_eq (by omega), le16Read_take (by omega), le16Read_drop, le16Read_drop, Nat.add_zero]
  have hcmd : b.slice? (base + 16) 1 = some ((b.drop (base + 16)).take 1) := slice?_eq (by omega)
  have hbyte : byteAt ((b.drop (base + 16)).take 1) 0 = b.byteAt (base + 16) := by
    rw [byteAt_take (by omega), byteAt_drop, Nat.add_zero]
  rw [if_neg hlen, if_neg hfam, htype, hcmd]
  dsimp only
  rw [hbyte]
  generalize cmdToKind (b.byteAt (base + 16)) = kind
  have hwalk := walk_eq
    (f := fun e type pl n => (Evt.attr b kind e type pl n).map (·, false))
    (g := fun e a => (Evt.step kind e a, false)) (by
      intro e type pl n _ hpl
      rw [Evt.attr_eq (by omega)]
      rfl) h 20 { Evt.zero with kind }
  rw [foldUntil_eq_foldl] at hwalk
  rw [hwalk]
  by_cases htyp : ((le16Read (b.drop base) 4).toNat : Int) ≠ family
  · rw [if_pos htyp, if_pos (.inr (.inr (.inl htyp)))]
  by_cases hkind : kind = .ignore
  · rw [if_neg htyp, if_pos hkind, if_pos (.inr (.inr (.inr hkind)))]
  · rw [if_neg htyp, if_neg hkind, if_neg (by tauto)]
    rfl

theorem isSome_parseEvt (h : base + len ≤ b.length) (family : Int) : (parseEvt b base len family).isSome := by
  rw [parseEvt_eq h]
  split <;> rfl

/-- The handler of a group reads inside the payload. -/
theorem isSome_groupAttr {pl n : Nat} (h : pl + n ≤ b.length) (g : Group) (type : BitVec 16) :
    (g.attr b type pl n).isSome := by
  unfold Group.attr
  split_ifs with _ hn _ hn
  · rw [slice?_eq (by omega)]
    rfl
  · rfl
  · rw [le32?_eq (by omega)]
    rfl
  · rfl
  · rfl

theorem isSome_ctrlGrpIsMlme (h : base + len ≤ b.length) : (ctrlGrpIsMlme b base len).isSome := by
  rw [ctrlGrpIsMlme, Option.isSome_map]
  refine isSome_walk ?_ h _ _
  intro g type pl n _ hpl
  rw [Option.isSome_map]
  exact isSome_groupAttr (by omega) g type

/-- The handler of a family, with the walks over its groups. -/
theorem isSome_familyAttr {pl n : Nat} (h : pl + n ≤ b.length) (f : Family) (type : BitVec 16) :
    (f.attr b type pl n).isSome := by
  unfold Family.attr
  split_ifs with _ hn _ hno
  · rw [le16?_eq (by omega)]
    rfl
  · rfl
  · refine isSome_walk ?_ h _ _
    intro f' _ epl m _ hepl
    rw [Option.isSome_map]
    exact isSome_ctrlGrpIsMlme (by omega)
  · rfl
  · rfl

theorem isSome_parseCtrlFamily (h : base + len ≤ b.length) : (parseCtrlFamily b base len).isSome := by
  unfold parseCtrlFamily
  split_ifs with hlen
  · rfl
  · rw [Option.isSome_map]
    refine isSome_walk ?_ h _ _
    intro f type pl n _ hpl
    rw [Option.isSome_map]
    exact isSome_familyAttr (by omega) f type

/-- The walk over the messages of a datagram of `n` bytes. -/
theorem isSome_drainMessages {n : Nat} (h : n ≤ b.length) (family : Int) (off : Nat) :
    (drainMessages b n family off).isSome := by
  induction hm : n - off using Nat.strong_induction_on generalizing off with
  | _ m ih =>
    subst hm
    rw [drainMessages]
    by_cases hoff : off + 16 ≤ n
    · rw [dif_pos hoff, le32?_eq (by omega)]
      dsimp only
      generalize le32Read ((b.drop off).take 4) 0 = w
      by_cases hshort : w.toNat < 16
      · rw [dif_pos hshort]
        rfl
      by_cases hlong : w.toNat > n - off
      · rw [dif_neg hshort, if_pos hlong]
        rfl
      rw [dif_neg hshort, if_neg hlong]
      have hin : off + w.toNat ≤ b.length := by omega
      have hsome := isSome_parseEvt hin family
      obtain ⟨⟨ok, e⟩, hres⟩ := Option.isSome_iff_exists.1 hsome
      have hle := le_align4 w.toNat
      rw [hres, Option.isSome_map]
      exact ih (n - (off + align4 w.toNat)) (by omega) _ rfl
    · rw [dif_neg hoff]
      rfl

end Bounds

/-! ## The fields -/

/-- An attribute is accepted for a field. -/
def Field.takes (kind : Kind) (fd : Field) (a : Attr) : Bool := a.type = fd.code ∧ fd.accepts kind a.payload

/-- The payload of the last attribute that is accepted for a field. -/
def Field.last (kind : Kind) (fd : Field) (as : List Attr) : Option Bytes :=
  Attributes.last (fd.takes kind) as

section Fields

variable {kind : Kind}

/-- What only a field's own attributes set is decided by the last of them. -/
theorem fold_field (fd : Field) {Q : Option Bytes → Evt → Prop}
    (hset : ∀ (e : Evt) p, fd.accepts kind p = true → Q (some p) (e.store fd p))
    (hkeep : ∀ (e : Evt) fd' p o, fd' ≠ fd → Q o e → Q o (e.store fd' p)) {e : Evt} (he : Q none e)
    (as : List Attr) : Q (fd.last kind as) (as.foldl (Evt.step kind) e) := by
  refine foldl_last ?_ ?_ he as
  · intro e a ha
    obtain ⟨htype, hacc⟩ := of_decide_eq_true ha
    rw [Evt.step, Field.ofType_eq.2 htype]
    simp only [hacc, if_true]
    exact hset e _ hacc
  · intro e a o ha hq
    unfold Evt.step
    cases hty : Field.ofType a.type with
    | none => exact hq
    | some fd' =>
      cases hacc : fd'.accepts kind a.payload with
      | false => simpa [hacc] using hq
      | true =>
        have hne : fd' ≠ fd := by
          rintro rfl
          exact of_decide_eq_false ha ⟨Field.ofType_eq.1 hty, hacc⟩
        simpa [hacc] using hkeep e fd' _ o hne hq

/-- A value that each accepted attribute of a field sets anew. -/
theorem fold_value (fd : Field) {α : Type} (get : Evt → α) (dec : Bytes → α)
    (hset : ∀ (e : Evt) p, get (e.store fd p) = dec p)
    (hkeep : ∀ (e : Evt) fd' p, fd' ≠ fd → get (e.store fd' p) = get e) (e : Evt) (as : List Attr) :
    get (as.foldl (Evt.step kind) e) = (fd.last kind as).elim (get e) dec :=
  fold_field fd (Q := fun o e' => get e' = o.elim (get e) dec) (fun e' p _ => hset e' p)
    (fun e' fd' p _ hne hq => (hkeep e' fd' p hne).trans hq) rfl as

/-- A flag that an accepted attribute of a field raises. -/
theorem fold_flag (fd : Field) (get : Evt → Bool) (hset : ∀ (e : Evt) p, get (e.store fd p) = true)
    (hkeep : ∀ (e : Evt) fd' p, fd' ≠ fd → get (e.store fd' p) = get e) {e : Evt} (he : get e = false)
    (as : List Attr) : get (as.foldl (Evt.step kind) e) = (fd.last kind as).isSome := by
  rw [fold_value fd get (fun _ => true) hset hkeep e as, he]
  cases fd.last kind as <;> rfl

/-- No attribute changes the kind. -/
theorem foldl_kind (as : List Attr) (e : Evt) : (as.foldl (Evt.step kind) e).kind = e.kind := by
  induction as generalizing e with
  | nil => rfl
  | cons a as ih =>
    rw [List.foldl_cons, ih, Evt.step]
    cases Field.ofType a.type with
    | none => rfl
    | some fd =>
      dsimp only
      split
      · cases fd <;> simp only [Evt.store]
      · rfl

/-- The SSID and its NUL are at the start of the buffer. -/
theorem terminated_setSsid (old : Buf 33) {p : Bytes} (h : p.length ≤ 32) : p ++ [0] <+: (setSsid old p).toList := by
  rw [List.prefix_iff_eq_take]
  apply List.ext_getElem
  · simp
    omega
  · intro i hi hi'
    simp only [List.length_append, List.length_singleton] at hi
    simp only [setSsid, List.getElem_take, Vector.getElem_toList, Vector.getElem_ofFn]
    by_cases hlt : i < p.length
    · rw [if_pos hlt, List.getElem_append_left hlt]
      simp [byteAt, hlt]
    · have heq : i = p.length := by omega
      rw [if_neg hlt, if_pos heq]
      simp [heq]

/-- What the event of a list of attributes says: each field is decoded from the last attribute that is accepted
for it. The SSID is the string in its buffer; behind the NUL may be the end of a longer one that came
before. -/
structure Decoded (k : Kind) (as : List Attr) (e : Evt) : Prop where
  kind : e.kind = k
  ifindex : e.ifindex = (Field.ifindex.last k as).elim 0 (le32Read · 0)
  freqMhz : e.freqMhz = (Field.wiphyFreq.last k as).elim 0 (le32Read · 0)
  channel : e.channel = (Field.wiphyFreq.last k as).elim 0 fun p => freqToChannel (le32Read p 0)
  statusCode : e.statusCode = (Field.statusCode.last k as).elim 0 (le16Read · 0)
  reasonCode : e.reasonCode = (Field.reasonCode.last k as).elim 0 (le16Read · 0)
  mac : e.mac = (Field.mac.last k as).elim (Buf.zero 6) fun p => Buf.ofBytes 6 (p.take 6)
  macPresent : e.macPresent = (Field.mac.last k as).isSome
  apFrameMac : e.apFrameMac =
    (Field.frame.last k as).elim (Buf.zero 6) fun p => Buf.ofBytes 6 ((p.drop 10).take 6)
  byAp : e.byAp = (Field.disconnectedByAp.last k as).isSome
  ssid : match Field.ssid.last k as with
    | none => e.ssid = Buf.zero 33
    | some p => p ++ [0] <+: e.ssid.toList
  ssidPresent : e.ssidPresent = (Field.ssid.last k as).isSome

/-- **The event of a list of attributes.** -/
theorem decoded_foldl (as : List Attr) :
    Decoded kind as (as.foldl (Evt.step kind) { Evt.zero with kind }) := by
  constructor
  case kind => exact foldl_kind as _
  case ifindex =>
    refine fold_value .ifindex Evt.ifindex _ (fun _ _ => rfl) ?_ _ as
    intro e fd' p hne
    cases fd' <;> first | exact absurd rfl hne | simp only [Evt.store]
  case freqMhz =>
    refine fold_value .wiphyFreq Evt.freqMhz _ (fun _ _ => rfl) ?_ _ as
    intro e fd' p hne
    cases fd' <;> first | exact absurd rfl hne | simp only [Evt.store]
  case channel =>
    refine fold_value .wiphyFreq Evt.channel _ (fun _ _ => rfl) ?_ _ as
    intro e fd' p hne
    cases fd' <;> first | exact absurd rfl hne | simp only [Evt.store]
  case statusCode =>
    refine fold_value .statusCode Evt.statusCode _ (fun _ _ => rfl) ?_ _ as
    intro e fd' p hne
    cases fd' <;> first | exact absurd rfl hne | simp only [Evt.store]
  case reasonCode =>
    refine fold_value .reasonCode Evt.reasonCode _ (fun _ _ => rfl) ?_ _ as
    intro e fd' p hne
    cases fd' <;> first | exact absurd rfl hne | simp only [Evt.store]
  case mac =>
    refine fold_value .mac Evt.mac _ (fun _ _ => rfl) ?_ _ as
    intro e fd' p hne
    cases fd' <;> first | exact absurd rfl hne | simp only [Evt.store]
  case macPresent =>
    refine fold_flag .mac Evt.macPresent (fun _ _ => rfl) ?_ rfl as
    intro e fd' p hne
    cases fd' <;> first | exact absurd rfl hne | simp only [Evt.store]
  case apFrameMac =>
    refine fold_value .frame Evt.apFrameMac _ (fun _ _ => rfl) ?_ _ as
    intro e fd' p hne
    cases fd' <;> first | exact absurd rfl hne | simp only [Evt.store]
  case byAp =>
    refine fold_flag .disconnectedByAp Evt.byAp (fun _ _ => rfl) ?_ rfl as
    intro e fd' p hne
    cases fd' <;> first | exact absurd rfl hne | simp only [Evt.store]
  case ssidPresent =>
    refine fold_flag .ssid Evt.ssidPresent (fun _ _ => rfl) ?_ rfl as
    intro e fd' p hne
    cases fd' <;> first | exact absurd rfl hne | simp only [Evt.store]
  case ssid =>
    refine fold_field .ssid (Q := fun o e => match o with
      | none => e.ssid = Buf.zero 33
      | some p => p ++ [0] <+: e.ssid.toList) ?_ ?_ rfl as
    · intro e p hacc
      exact terminated_setSsid _ (of_decide_eq_true hacc).2
    · intro e fd' p o hne hq
      have hkeep : (e.store fd' p).ssid = e.ssid := by
        cases fd' <;> first | exact absurd rfl hne | simp only [Evt.store]
      rw [hkeep]
      exact hq

end Fields

/-- What `parseEvt` returns is decoded from the attributes of the message. -/
theorem decoded_parseEvt {b : Bytes} {base len : Nat} (h : base + len ≤ b.length) {family : Int} {e : Evt}
    (he : parseEvt b base len family = some (true, e)) : Decoded e.kind (attrsAt b base len 20) e := by
  rw [parseEvt_eq h] at he
  split at he
  · simp at he
  · obtain ⟨-, rfl⟩ := Prod.mk.inj (Option.some.inj he)
    rw [foldl_kind]
    exact decoded_foldl _

/-! ## A message -/

/-- The headers of a message of a family with a command; what is not read of them is any bytes. -/
structure Message where
  family : BitVec 16
  cmd : Byte
  nlLen : Vector Byte 4
  nlRest : Vector Byte 10
  genlRest : Vector Byte 3

def Message.header (m : Message) : Bytes :=
  m.nlLen.toList ++ (le16Write m.family ++ (m.nlRest.toList ++ (m.cmd :: m.genlRest.toList)))

theorem Message.length_header (m : Message) : m.header.length = 20 := by
  simp [header]

/-- The parser on a header and what follows it. -/
theorem Message.parseEvt_header (m : Message) (hcmd : cmdToKind m.cmd ≠ .ignore) (body : Bytes) :
    parseEvt (m.header ++ body) 0 (m.header ++ body).length m.family.toNat =
      some (true, (attrs body).foldl (Evt.step (cmdToKind m.cmd))
        { Evt.zero with kind := cmdToKind m.cmd }) := by
  have hlen := m.length_header
  have htype : le16Read ((m.header ++ body).drop 0) 4 = m.family := by
    rw [List.drop_zero]
    have hdrop : (m.header ++ body).drop 4 =
        le16Write m.family ++ (m.nlRest.toList ++ (m.cmd :: m.genlRest.toList) ++ body) := by
      rw [header, List.append_assoc, List.drop_left' (by simp), List.append_assoc]
    have hread := le16Read_drop (b := m.header ++ body) (i := 0) 4
    rw [hdrop, le16Read_le16Write] at hread
    exact hread.symm
  have hbyte : byteAt (m.header ++ body) (0 + 16) = m.cmd := by
    simp [byteAt, header, le16Write, List.getElem?_append]
  have hattrs : attrsAt (m.header ++ body) 0 (m.header ++ body).length 20 = attrs body := by
    rw [attrsAt, List.drop_zero, List.take_length, ← hlen, List.drop_left]
  have hfam := m.family.isLt
  rw [parseEvt_eq (by omega), htype, hbyte, hattrs, if_neg]
  rintro (h | h | h | h)
  · rw [List.length_append] at h
    omega
  · omega
  · exact h rfl
  · exact hcmd h

/-- **Attribute decoding.** An encoded message is decoded field by field, each from the last attribute that
is accepted for it, whatever follows the attributes without starting one; the padding of the last one may be
missing. And whatever the bytes are, every read of the parsers and of the walk over a datagram is inside the
buffer, and they end. -/
theorem attribute_decoding :
    (∀ (m : Message) (ws : List Wire), cmdToKind m.cmd ≠ .ignore → ∃ e : Evt,
      Decoded (cmdToKind m.cmd) (ws.map Wire.attr) e ∧ ∀ tail : Bytes, ¬ Starts tail →
        let msg := m.header ++ (encode ws ++ tail)
        parseEvt msg 0 msg.length m.family.toNat = some (true, e)) ∧
    (∀ (m : Message) (ws : List Wire) (w : Wire) (pad : Bytes), cmdToKind m.cmd ≠ .ignore →
      pad.length ≤ w.pad.length → ∃ e : Evt,
        Decoded (cmdToKind m.cmd) (ws.map Wire.attr ++ [w.attr]) e ∧
        let msg := m.header ++ (encode ws ++ (w.core ++ pad))
        parseEvt msg 0 msg.length m.family.toNat = some (true, e)) ∧
    (∀ (b : Bytes) (base len : Nat) (family : Int), base + len ≤ b.length →
      (parseEvt b base len family).isSome ∧ (parseCtrlFamily b base len).isSome) ∧
    (∀ (b : Bytes) (n : Nat) (family : Int), n ≤ b.length → (drainMessages b n family 0).isSome) := by
  refine ⟨?_, ?_, ?_, ?_⟩
  · intro m ws hcmd
    refine ⟨_, decoded_foldl (ws.map Wire.attr), ?_⟩
    intro tail htail
    dsimp only
    rw [m.parseEvt_header hcmd, attrs_encode ws htail]
  · intro m ws w pad hcmd hpad
    refine ⟨_, decoded_foldl (ws.map Wire.attr ++ [w.attr]), ?_⟩
    dsimp only
    rw [m.parseEvt_header hcmd, attrs_encode_cut ws w hpad]
  · intro b base len family h
    exact ⟨isSome_parseEvt h family, isSome_parseCtrlFamily h⟩
  · intro b n family h
    exact isSome_drainMessages h family 0

end Opcd.Nl80211
