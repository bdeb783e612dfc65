import Opcd.Disk

/-!
# Loading the IP list

The start-up half of the IP-list file handling in `handler.c`: opcd's own copy (or the binary list
of an older release), then the file the customer may have replaced, with the record of what opcd last
put in it.

The functions read a `Disk`, and the effects of each step are on it before the next one reads.
-/

namespace Opcd.IpList

open Bytes Protocol Store

/-- `OPC_IPLIST_IMPORT_MAX`. -/
def importMax : Nat := 65536

/-- What a step of the loading leaves: a list, its effects and a result. -/
structure Loaded (α : Type) where
  list : IpList
  out : List Effect
  val : α

/-! ## The binary list -/

def le32Read (b : Bytes) (i : Nat) : BitVec 32 :=
  b.byteAt (i + 3) ++ b.byteAt (i + 2) ++ b.byteAt (i + 1) ++ b.byteAt i

/-- An `opc_ipcfg_entry_t` in memory order. -/
def rawEntry (b : Bytes) (i : Nat) : Entry :=
  { boundaryFlag := b.byteAt (i + 1) ++ b.byteAt i
    listNumber := b.byteAt (i + 3) ++ b.byteAt (i + 2)
    ipAddress := le32Read b (i + 4)
    subnetMask := le32Read b (i + 8)
    defaultGateway := le32Read b (i + 12)
    ntpServer := le32Read b (i + 16)
    essid := Vector.ofFn fun k => b.byteAt (i + 20 + k) }

def rawEntryLen : Nat := 52

/-- `sizeof(opcd_ip_list_t)`. -/
def rawListLen : Nat := maxSlots * rawEntryLen + maxSlots

/-- The entry of a binary list that is kept: present, and valid under the current rules. -/
def legacySlot (b : Bytes) (i : SlotIdx) : Option Entry :=
  let e := rawEntry b (rawEntryLen * i)
  if b.byteAt (maxSlots * rawEntryLen + i) = 0 then none
  else if e.ipAddress = 0 then none
  else if ipcfgEntryError e (decide (0#8 ∈ e.essid.toList)) ≠ 0 then none
  else some { e with boundaryFlag := 0, listNumber := BitVec.ofNat 16 (i + 1) }

def legacyList (b : Bytes) : IpList :=
  { slots := fun i => (legacySlot b i).getD Entry.zero
    present := fun i => (legacySlot b i).isSome }

/-! ## opcd's own copy -/

/-- `opcd_iplist_load_t`. -/
inductive Own
  | none | text | migrated | legacyUnsaved | legacyDiscard | tooLarge | error
  deriving DecidableEq, Repr

/-- The environment's answers: the writes of the own copy (when converting and when the customer's
list is applied), of the customer's file and of its record, the two renames, and whether the binary
list was written after the text. -/
structure LoadEnv where
  convert : WriteResult
  apply : WriteResult
  user : WriteResult
  record : WriteResult
  retire : Bool
  reject : Bool
  legacyNewer : Bool

/-- A rename to `path` with a suffix, when that fits a path buffer. -/
def renameSuffix (path : Path) (suffix : String) (ok : Bool) : List Effect :=
  if (path ++ ofString suffix).length < 1024 then [.rename path (path ++ ofString suffix) ok] else []

/-- `iplist_retire_legacy`. -/
def retireLegacy (legacy : Path) (ok : Bool) : List Effect := renameSuffix legacy ".migrated" ok

/-- `iplist_write`: the effects and whether it succeeded. -/
def writeText (d : Disk) (path : Path) (l : IpList) (skipIfSame : Bool) (r : WriteResult) :
    List Effect × Bool :=
  match textFormat l textMax with
  | .none => ([], false)
  | some text =>
    if skipIfSame ∧ (d path).readAll (textMax + 1) = some text then ([], true)
    else ([.write ⟨path, text, 0o644, r⟩], r.rc = 0)

/-- `iplist_convert_legacy`. -/
def convertLegacy (d : Disk) (own legacy : Path) (env : LoadEnv) : Loaded Own :=
  match (d legacy).readAll (rawListLen + 1) with
  | .none => ⟨empty, [], .none⟩
  | some b =>
    if b.length ≠ rawListLen then ⟨empty, [], .legacyDiscard⟩
    else
      let l := legacyList b
      let w := writeText d own l false env.convert
      if w.2 then ⟨l, w.1 ++ retireLegacy legacy env.retire, .migrated⟩
      else ⟨l, w.1, .legacyUnsaved⟩

/-- The text branch of `iplist_load_own`. -/
def ownText (f : File) : IpList × Own :=
  match f.readAll (textMax + 1) with
  | .none => (empty, .error)
  | some text =>
    if text.length > textMax then (empty, .tooLarge)
    else ((fromText text false).getD empty, .text)

/-- A binary list beside the text: converted when it is the newer, else set aside unread. -/
def legacyBesideText (d : Disk) (own : Path) (env : LoadEnv) : Option Path → Loaded (Option Own)
  | .none => ⟨empty, [], .none⟩
  | some legacy =>
    if ¬ (d legacy).exists then ⟨empty, [], .none⟩
    else if (d legacy).size = rawListLen ∧ env.legacyNewer then
      let c := convertLegacy d own legacy env
      match c.val with
      | .migrated => ⟨c.list, c.out, some .migrated⟩
      | .legacyUnsaved => ⟨c.list, c.out, some .legacyUnsaved⟩
      | _ => ⟨empty, c.out, .none⟩
    else ⟨empty, retireLegacy legacy env.retire, .none⟩

/-- `iplist_load_own`. -/
def loadOwn (d : Disk) (p : Paths) (env : LoadEnv) : Loaded Own :=
  match d p.ipList with
  | .absent =>
    match p.ipListLegacy with
    | .none => ⟨empty, [], .none⟩
    | some legacy => convertLegacy d p.ipList legacy env
  | .statFails => ⟨empty, [], .error⟩
  | f =>
    let c := legacyBesideText d p.ipList env p.ipListLegacy
    match c.val with
    | some r => ⟨c.list, c.out, r⟩
    | .none => ⟨(ownText f).1, c.out, (ownText f).2⟩

/-! ## The customer's file -/

/-- `opcd_iplist_user_t`. -/
inductive User
  | unset | created | unusable | kept | applied | rejected
  deriving DecidableEq, Repr

/-- `iplist_user_unreplaced`: the record holds these bytes. -/
def userUnreplaced (d : Disk) (p : Paths) (input : Bytes) : Bool :=
  match p.ipListUserLast with
  | .none => false
  | some last => (d last).readAll (importMax + 1) = some input

/-- `iplist_same`. -/
def same (a b : IpList) : Bool :=
  match textFormat a textMax, textFormat b textMax with
  | some ta, some tb => ta = tb
  | _, _ => false

/-- `iplist_write_user` at start-up. -/
def writeUser (p : Paths) (user : Path) (l : IpList) (env : LoadEnv) : List Effect :=
  match textFormat l textMax with
  | .none => []
  | some text =>
    .write ⟨user, text, 0o644, env.user⟩ ::
      match p.ipListUserLast with
      | .none => []
      | some last =>
        if env.user.outcome ≠ .unchanged then [.write ⟨last, text, 0o644, env.record⟩] else []

/-- The customer's list takes effect: opcd's copy is written and, once it holds the list, the
customer's bytes are recorded. -/
def applyUser (d : Disk) (p : Paths) (input : Bytes) (l : IpList) (env : LoadEnv) : List Effect :=
  let w := writeText d p.ipList l true env.apply
  w.1 ++
    match p.ipListUserLast with
    | .none => []
    | some last => if w.2 then [.write ⟨last, input, 0o644, env.record⟩] else []

/-- `opcd_iplist_load`. -/
def load (d : Disk) (p : Paths) (env : LoadEnv) : Loaded User :=
  let own := loadOwn d p env
  let d := d.after own.out
  match p.ipListUser with
  | .none => ⟨own.list, own.out, .unset⟩
  | some user =>
    let reject : Loaded User :=
      ⟨own.list, own.out ++ renameSuffix user ".rejected" env.reject ++ writeUser p user own.list env,
        .rejected⟩
    match d user with
    | .absent => ⟨own.list, own.out ++ writeUser p user own.list env, .created⟩
    | .statFails => ⟨own.list, own.out, .unusable⟩
    | .unreadable _ => ⟨own.list, own.out, .unusable⟩
    | .bytes input =>
      if input.length > importMax then reject
      else
        match fromText input true with
        | .none => reject
        | some l =>
          if (own.val = .text ∨ own.val = .migrated ∨ own.val = .legacyUnsaved) ∧
              userUnreplaced d p input then
            ⟨own.list, own.out ++ if same l own.list then [] else writeUser p user own.list env,
              .kept⟩
          else ⟨l, own.out ++ applyUser d p input l env, .applied⟩

end Opcd.IpList
