import Opcd.Disk
import Opcd.Lib.Decimal

/-!
# The atomic file writer

`opc_store_write_atomic_ex` call by call: the parent directory is opened, the candidate is created next
to the target, filled, synced, closed and renamed over it, and the directory is synced. The environment
answers each call; a call that fails gives its errno. A failed rename leaves the target alone, an unlink
of the candidate succeeds, and a write takes at least one byte.

* `Replaced`: what the steps up to the rename leave, with the calls they made.
* `writeAtomicEx_returns`: it ends, unless its writes are interrupted for ever.
* `atomic_write_exact`: what the reported outcome says about the files and the descriptors.
* `writeAtomicEx_refines`: the daemon's effect of a write is this call, seen from outside.
-/

namespace Opcd.Store.Atomic

open Bytes

abbrev Errno := Nat

def eintr : Errno := 4
def einval : Errno := 22
def enametoolong : Errno := 36

/-- The descriptors of a call: `dirfd` and `fd`. -/
inductive Fd
  | dir | file
  deriving DecidableEq, Repr

/-- A system call that was made. -/
inductive Call
  | openDir (path : Path) (ok : Bool)
  | unlink (path : Path)
  | openFile (path : Path) (mode : Nat) (ok : Bool)
  | fchown (uid gid : Nat) (ok : Bool)
  /-- the bytes that were taken, `[]` on failure -/
  | write (bytes : Bytes)
  | fsync (fd : Fd) (ok : Bool)
  | close (fd : Fd) (ok : Bool)
  | rename (path dst : Path) (ok : Bool)
  deriving DecidableEq, Repr

/-- The visible files and the calls so far. -/
structure Kernel where
  files : Disk
  log : List Call

/-- The answer to a `write`: it takes `n + 1` bytes, or all that are left; or it fails. -/
inductive WriteAnswer
  | took (n : Nat)
  | failed (e : Errno)
  deriving DecidableEq, Repr

/-- The answers of the environment; `none` is success. -/
structure Answers where
  pid : Nat
  openDir : Option Errno
  openFile : Option Errno
  euid : Nat
  /-- the owner `fstat` gives for the directory, if it succeeds -/
  dirOwner : Option (Nat × Nat)
  fchown : Option Errno
  writes : List WriteAnswer
  fsyncFile : Option Errno
  closeFile : Option Errno
  rename : Option Errno
  fsyncDir : Option Errno
  closeDir : Option Errno

/-- The arguments `data` and `len`: NULL with a length, or a buffer of `len` bytes. -/
inductive Buffer
  | null (len : Nat)
  | bytes (b : Bytes)

/-- The bytes to write, none for an invalid argument. -/
def Buffer.bytes? : Buffer → Option Bytes
  | null len => if len > 0 then none else some []
  | bytes b => some b

/-- What is returned and reported. -/
structure Report where
  rc : Int
  errno : Errno
  outcome : Outcome
  deriving DecidableEq, Repr

/-- A failure before the rename, and whether the candidate's descriptor is still open. -/
structure Failure where
  errno : Errno
  fdOpen : Bool

/-- The name of the candidate. -/
def tmpPath (path : Path) (pid : Nat) : Path := path ++ ofString ".tmp." ++ decimal pid

/-- The directory of the target. -/
def parentOf (path : Path) : Path :=
  if ch '/' ∉ path then ofString "."
  else
    let dir := (path.reverse.dropWhile (· ≠ ch '/')).tail.reverse
    if dir = [] then ofString "/" else dir

namespace Kernel

def call (k : Kernel) (c : Call) : Kernel := { k with log := k.log ++ [c] }

/-- The bytes of a file that is being written. -/
def contents (k : Kernel) (path : Path) : Bytes :=
  match k.files path with
  | .bytes b => b
  | _ => []

def unlink (k : Kernel) (path : Path) : Kernel :=
  { k.call (.unlink path) with files := Function.update k.files path .absent }

/-- `open` with `O_CREAT | O_EXCL`. -/
def create (k : Kernel) (path : Path) (mode : Nat) : Kernel :=
  { k.call (.openFile path mode true) with files := Function.update k.files path (.bytes []) }

def append (k : Kernel) (path : Path) (chunk : Bytes) : Kernel :=
  { k.call (.write chunk) with
    files := Function.update k.files path (.bytes (k.contents path ++ chunk)) }

def rename (k : Kernel) (path dst : Path) : Kernel :=
  { k.call (.rename path dst true) with
    files := Function.update (Function.update k.files dst (k.files path)) path .absent }

end Kernel

/-- The loop around `write`; none while it runs on. -/
def writeAll (tmp : Path) (data : Bytes) :
    List WriteAnswer → Nat → Kernel → Option (Kernel × Option Errno)
  | answers, written, k =>
    if data.length ≤ written then some (k, none)
    else
      match answers with
      | [] => none
      | .failed e :: answers =>
        if e = eintr then writeAll tmp data answers written (k.call (.write []))
        else some (k.call (.write []), some e)
      | .took n :: answers =>
        let chunk := (data.drop written).take (n + 1)
        writeAll tmp data answers (written + chunk.length) (k.append tmp chunk)

/-- The candidate is given to the directory's owner; none if that is not called for. -/
def chownCall (a : Answers) : Option (Call × Option Errno) :=
  if a.euid ≠ 0 then none
  else
    match a.dirOwner with
    | none => none
    | some (uid, gid) => if uid = 0 then none else some (.fchown uid gid a.fchown.isNone, a.fchown)

/-- The candidate is synced, closed and renamed. -/
def install (a : Answers) (tmp path : Path) (k : Kernel) : Kernel × Option Failure :=
  match a.fsyncFile with
  | some e => (k.call (.fsync .file false), some ⟨e, true⟩)
  | none =>
    let k := k.call (.fsync .file true)
    match a.closeFile with
    | some e => (k.call (.close .file false), some ⟨e, false⟩)
    | none =>
      let k := k.call (.close .file true)
      match a.rename with
      | some e => (k.call (.rename tmp path false), some ⟨e, false⟩)
      | none => (k.rename tmp path, none)

/-- From the open candidate to the rename. -/
def replace (a : Answers) (tmp path : Path) (data : Bytes) (k : Kernel) :
    Option (Kernel × Option Failure) :=
  match chownCall a with
  | some (c, some e) => some (k.call c, some ⟨e, true⟩)
  | chown =>
    let k := match chown with
      | some (c, _) => k.call c
      | none => k
    (writeAll tmp data a.writes 0 k).map fun r =>
      match r.2 with
      | some e => (r.1, some ⟨e, true⟩)
      | none => install a tmp path r.1

/-- The label `unchanged_failure`. -/
def unchangedFailure (a : Answers) (tmp : Path) (f : Failure) (k : Kernel) : Kernel × Report :=
  let k := if f.fdOpen then k.call (.close .file a.closeFile.isNone) else k
  ((k.unlink tmp).call (.close .dir a.closeDir.isNone), ⟨-1, f.errno, .unchanged⟩)

/-- After the rename. -/
def confirm (a : Answers) (k : Kernel) : Kernel × Report :=
  match a.fsyncDir with
  | some e =>
    ((k.call (.fsync .dir false)).call (.close .dir a.closeDir.isNone), ⟨-1, e, .replacedUnsynced⟩)
  | none =>
    let k := k.call (.fsync .dir true)
    match a.closeDir with
    | some e => (k.call (.close .dir false), ⟨-1, e, .replacedUnsynced⟩)
    | none => (k.call (.close .dir true), ⟨0, 0, .durable⟩)

/-- `opc_store_write_atomic_ex`; none while its loop runs on. -/
def writeAtomicEx (a : Answers) (path : Option Path) (data : Buffer) (mode : Nat) (k : Kernel) :
    Option (Kernel × Report) :=
  match path, data.bytes? with
  | some path, some data =>
    let mode := if mode = 0 then 0o600 else mode
    let tmp := tmpPath path a.pid
    if 1024 ≤ tmp.length then some (k, ⟨-1, enametoolong, .unchanged⟩)
    else
      match a.openDir with
      | some e => some (k.call (.openDir (parentOf path) false), ⟨-1, e, .unchanged⟩)
      | none =>
        let k := (k.call (.openDir (parentOf path) true)).unlink tmp
        match a.openFile with
        | some e =>
          some ((k.call (.openFile tmp mode false)).call (.close .dir a.closeDir.isNone),
            ⟨-1, e, .unchanged⟩)
        | none =>
          (replace a tmp path data (k.create tmp mode)).map fun r =>
            match r.2 with
            | some f => unchangedFailure a tmp f r.1
            | none => confirm a r.1
  | _, _ => some (k, ⟨-1, einval, .unchanged⟩)

/-! ## The loop -/

section Loop

variable {tmp : Path} {data : Bytes}

theorem length_chunk {written : Nat} (h : written < data.length) (n : Nat) :
    0 < ((data.drop written).take (n + 1)).length ∧
      written + ((data.drop written).take (n + 1)).length ≤ data.length := by
  rw [List.length_take, List.length_drop]
  omega

theorem take_chunk (written n : Nat) :
    data.take (written + ((data.drop written).take n).length) = data.take written ++ (data.drop written).take n := by
  rw [List.take_add, List.length_take, ← List.take_take, List.take_length]

theorem writeAll_done {written : Nat} (h : data.length ≤ written) (answers : List WriteAnswer)
    (k : Kernel) : writeAll tmp data answers written k = some (k, none) := by
  unfold writeAll
  rw [if_pos h]

/-- The loop writes nothing but the candidate, and all of the data if it succeeds. -/
theorem writeAll_spec {answers : List WriteAnswer} {written : Nat} {k k' : Kernel} {r : Option Errno}
    (h : writeAll tmp data answers written k = some (k', r)) (hle : written ≤ data.length)
    (hc : k.files tmp = .bytes (data.take written)) :
    ∃ (ws : List Bytes) (b : Bytes),
      k' = ⟨Function.update k.files tmp (.bytes b), k.log ++ ws.map .write⟩ ∧ (r = none → b = data) := by
  induction answers generalizing written k with
  | nil =>
    by_cases hdone : data.length ≤ written
    · rw [writeAll_done hdone] at h
      obtain ⟨rfl, rfl⟩ := Prod.mk.inj (Option.some.inj h)
      refine ⟨[], data.take written, ?_, fun _ => List.take_of_length_le hdone⟩
      rw [← hc, Function.update_eq_self]
      simp
    · unfold writeAll at h
      rw [if_neg hdone] at h
      cases h
  | cons answer answers ih =>
    by_cases hdone : data.length ≤ written
    · rw [writeAll_done hdone] at h
      obtain ⟨rfl, rfl⟩ := Prod.mk.inj (Option.some.inj h)
      refine ⟨[], data.take written, ?_, fun _ => List.take_of_length_le hdone⟩
      rw [← hc, Function.update_eq_self]
      simp
    · unfold writeAll at h
      rw [if_neg hdone] at h
      cases answer with
      | failed e =>
        dsimp only at h
        split at h
        · -- interrupted: the file is as it was
          obtain ⟨ws, b, rfl, hb⟩ := ih h hle hc
          exact ⟨[] :: ws, b, by simp [Kernel.call], hb⟩
        · obtain ⟨rfl, rfl⟩ := Prod.mk.inj (Option.some.inj h)
          refine ⟨[[]], data.take written, ?_, fun hr => by cases hr⟩
          rw [← hc, Function.update_eq_self]
          rfl
      | took n =>
        obtain ⟨-, hle'⟩ := length_chunk (not_le.mp hdone) n
        have hcontents : k.contents tmp = data.take written := by simp [Kernel.contents, hc]
        have hc' : (k.append tmp ((data.drop written).take (n + 1))).files tmp =
            .bytes (data.take (written + ((data.drop written).take (n + 1)).length)) := by
          rw [take_chunk, Kernel.append, hcontents]
          exact Function.update_self _ _ _
        obtain ⟨ws, b, rfl, hb⟩ := ih h hle' hc'
        refine ⟨(data.drop written).take (n + 1) :: ws, b, ?_, hb⟩
        simp [Kernel.append, Kernel.call]

/-- **The loop ends** once as many writes were answered, other than by an interruption, as there are
bytes. -/
theorem writeAll_isSome {answers : List WriteAnswer} {written : Nat} {k : Kernel}
    (h : data.length ≤ written + (answers.filter (· ≠ .failed eintr)).length) :
    (writeAll tmp data answers written k).isSome := by
  induction answers generalizing written k with
  | nil =>
    unfold writeAll
    simp only [List.filter_nil, List.length_nil, Nat.add_zero] at h
    simp [h]
  | cons answer answers ih =>
    unfold writeAll
    split
    · rfl
    next hmore =>
    cases answer with
    | failed e =>
      dsimp only
      split
      next he =>
        subst he
        exact ih (by simpa using h)
      · rfl
    | took n =>
      obtain ⟨hpos, -⟩ := length_chunk (not_le.mp hmore) n
      refine ih ?_
      simp only [ne_eq, reduceCtorEq, not_false_eq_true, decide_true, List.filter_cons_of_pos,
        List.length_cons] at h ⊢
      omega

end Loop

/-! ## From the open candidate to the rename -/

/-- The descriptor a call opened. -/
def Call.opened? : Call → Option Fd
  | .openDir _ true => some .dir
  | .openFile _ _ true => some .file
  | _ => none

/-- The descriptor a call closed, whatever it reported. -/
def Call.closed? : Call → Option Fd
  | .close fd _ => some fd
  | _ => none

/-- A call that neither opens nor closes. -/
def Call.Plain (c : Call) : Prop := c.opened? = none ∧ c.closed? = none

/-- What `replace` comes to: a failure with the descriptor open or closed, or the rename. -/
inductive Replaced (tmp path : Path) (data : Bytes) (k : Kernel) : Kernel → Option Failure → Prop
  | failedOpen {ws : List Call} {b : Bytes} {e : Errno} (plain : ∀ c ∈ ws, c.Plain) :
      Replaced tmp path data k ⟨Function.update k.files tmp (.bytes b), k.log ++ ws⟩ (some ⟨e, true⟩)
  | failedClosed {ws vs : List Call} {b : Bytes} {e : Errno} {ok : Bool} (plain : ∀ c ∈ ws, c.Plain)
      (plain' : ∀ c ∈ vs, c.Plain) :
      Replaced tmp path data k
        ⟨Function.update k.files tmp (.bytes b), k.log ++ ws ++ .close .file ok :: vs⟩
        (some ⟨e, false⟩)
  | renamed {ws : List Call} (plain : ∀ c ∈ ws, c.Plain) :
      Replaced tmp path data k
        ⟨Function.update (Function.update (Function.update k.files tmp (.bytes data)) path (.bytes data))
            tmp .absent,
          k.log ++ ws ++ [.fsync .file true, .close .file true, .rename tmp path true]⟩
        none

theorem replaced_install (a : Answers) {tmp path : Path} {data : Bytes} {k : Kernel} {ws : List Call}
    (plain : ∀ c ∈ ws, c.Plain) :
    Replaced tmp path data k
      (install a tmp path ⟨Function.update k.files tmp (.bytes data), k.log ++ ws⟩).1
      (install a tmp path ⟨Function.update k.files tmp (.bytes data), k.log ++ ws⟩).2 := by
  have hsync : ∀ ok, ∀ c ∈ ws ++ [Call.fsync .file ok], c.Plain := by
    intro ok c hc
    rcases List.mem_append.mp hc with hc | hc
    · exact plain c hc
    · rw [List.mem_singleton.mp hc]
      exact ⟨rfl, rfl⟩
  unfold install
  cases a.fsyncFile with
  | some e =>
    have h := @Replaced.failedOpen tmp path data k _ data e (hsync false)
    simpa [Kernel.call] using h
  | none =>
    cases a.closeFile with
    | some e =>
      have h := @Replaced.failedClosed tmp path data k _ [] data e false (hsync true) (by simp)
      simpa [Kernel.call] using h
    | none =>
      cases a.rename with
      | some e =>
        have h := @Replaced.failedClosed tmp path data k _ [.rename tmp path false] data e true
          (hsync true) (by simp [Call.Plain, Call.opened?, Call.closed?])
        simpa [Kernel.call] using h
      | none =>
        have h := @Replaced.renamed tmp path data k ws plain
        simpa [Kernel.call, Kernel.rename] using h

/-- **From the open candidate to the rename.** -/
theorem replaced_replace {a : Answers} {tmp path : Path} {data : Bytes} {k k' : Kernel}
    {f : Option Failure} (h : replace a tmp path data k = some (k', f)) (hc : k.files tmp = .bytes []) :
    Replaced tmp path data k k' f := by
  have hown : ∀ {c : Call} {o : Option Errno}, chownCall a = some (c, o) → c.Plain := by
    intro c o hown
    unfold chownCall at hown
    split_ifs at hown
    split at hown
    · cases hown
    · split_ifs at hown
      obtain ⟨rfl, -⟩ := Prod.mk.inj (Option.some.inj hown)
      exact ⟨rfl, rfl⟩
  -- the loop, after a call of fchown that succeeded or none
  have hloop : ∀ ws : List Call, (∀ c ∈ ws, c.Plain) →
      (writeAll tmp data a.writes 0 ⟨k.files, k.log ++ ws⟩).map (fun r =>
        match r.2 with
        | some e => (r.1, some ⟨e, true⟩)
        | none => install a tmp path r.1) = some (k', f) → Replaced tmp path data k k' f := by
    intro ws plain hrun
    obtain ⟨⟨k₁, r⟩, hw, hrest⟩ := Option.map_eq_some_iff.mp hrun
    obtain ⟨vs, b, rfl, hb⟩ := writeAll_spec hw (Nat.zero_le _) (by simpa using hc)
    have plain' : ∀ c ∈ ws ++ vs.map .write, c.Plain := by
      intro c hc
      rcases List.mem_append.mp hc with hc | hc
      · exact plain c hc
      · obtain ⟨b, -, rfl⟩ := List.mem_map.mp hc
        exact ⟨rfl, rfl⟩
    dsimp only at hrest
    rw [List.append_assoc] at hrest
    cases r with
    | some e =>
      obtain ⟨rfl, rfl⟩ := Prod.mk.inj hrest
      exact .failedOpen plain'
    | none =>
      obtain rfl := hb rfl
      dsimp only at hrest
      have hinstall := @replaced_install a tmp path b k _ plain'
      rw [hrest] at hinstall
      exact hinstall
  unfold replace at h
  cases hch : chownCall a with
  | none =>
    rw [hch] at h
    refine hloop [] (by simp) ?_
    simpa using h
  | some p =>
    obtain ⟨c, o⟩ := p
    rw [hch] at h
    cases o with
    | some e =>
      obtain ⟨rfl, rfl⟩ := Prod.mk.inj (Option.some.inj h)
      have h' := @Replaced.failedOpen tmp path data k [c] [] e (by simpa using hown hch)
      rw [← hc, Function.update_eq_self] at h'
      exact h'
    | none => exact hloop [c] (by simpa using hown hch) h

/-! ## The whole call -/

/-- Every descriptor that was opened was closed, once, and no other. -/
def Balanced (log : List Call) : Prop :=
  ∀ fd, (log.filterMap Call.closed?).count fd = (log.filterMap Call.opened?).count fd ∧
    (log.filterMap Call.opened?).count fd ≤ 1

/-- What the reported outcome says, for a call over the files `d`. -/
structure Exact (a : Answers) (path : Option Path) (data : Buffer) (d : Disk) (k : Kernel) (r : Report) :
    Prop where
  code : r.rc = 0 ↔ r.outcome = .durable
  /-- no file beside the target and the candidate changes -/
  others : ∀ q, path ≠ some q → path.map (tmpPath · a.pid) ≠ some q → k.files q = d q
  /-- the target is as it was; the candidate is gone if one was made -/
  unchanged : r.outcome = .unchanged →
    (∀ p, path = some p → k.files p = d p) ∧
    ∀ tmp, path.map (tmpPath · a.pid) = some tmp →
      (∃ mode, .openFile tmp mode true ∈ k.log) ∨ d tmp = .absent → k.files tmp = .absent
  replaced : r.outcome ≠ .unchanged →
    ∃ p b, path = some p ∧ data.bytes? = some b ∧ k.files p = .bytes b
  /-- the candidate is synced before the rename, the directory after it -/
  synced : r.outcome = .durable →
    ∃ p before between between' after, path = some p ∧
      k.log = before ++ .fsync .file true :: between ++ .rename (tmpPath p a.pid) p true :: between' ++
        .fsync .dir true :: after
  closed : Balanced k.log

theorem tmpPath_ne (path : Path) (pid : Nat) : path ≠ tmpPath path pid := by
  intro h
  have hlen := congrArg List.length h
  have hdot : (ofString ".tmp.").length = 5 := rfl
  rw [tmpPath, List.length_append, List.length_append, hdot] at hlen
  omega

section Plain

variable {ws : List Call} (h : ∀ c ∈ ws, c.Plain)
include h

theorem plain_opened : ws.filterMap Call.opened? = [] :=
  List.filterMap_eq_nil_iff.mpr fun c hc => (h c hc).1

theorem plain_closed : ws.filterMap Call.closed? = [] :=
  List.filterMap_eq_nil_iff.mpr fun c hc => (h c hc).2

end Plain

/-- Two descriptors opened, and closed in the other order. -/
theorem balanced_both {log : List Call} (ho : log.filterMap Call.opened? = [.dir, .file])
    (hc : log.filterMap Call.closed? = [.file, .dir]) : Balanced log := by
  intro fd
  rw [ho, hc]
  cases fd <;> decide

/-- Only the directory's descriptor was opened. -/
theorem balanced_dir {log : List Call} (ho : log.filterMap Call.opened? = [.dir])
    (hc : log.filterMap Call.closed? = [.dir]) : Balanced log := by
  intro fd
  rw [ho, hc]
  cases fd <;> decide

/-- A failure that changed nothing. -/
theorem Exact.of_unchanged {a : Answers} {path : Option Path} {data : Buffer} {d : Disk} {k : Kernel}
    {e : Errno} (hfiles : ∀ q, path.map (tmpPath · a.pid) ≠ some q → k.files q = d q)
    (htmp : ∀ tmp, path.map (tmpPath · a.pid) = some tmp →
      (∃ mode, .openFile tmp mode true ∈ k.log) ∨ d tmp = .absent → k.files tmp = .absent)
    (hclosed : Balanced k.log) : Exact a path data d k ⟨-1, e, .unchanged⟩ where
  code := by simp
  others q _ := hfiles q
  unchanged _ := by
    refine ⟨fun p hp => hfiles p ?_, htmp⟩
    rw [hp]
    simpa using (tmpPath_ne p a.pid).symm
  replaced h := absurd rfl h
  synced h := by cases h
  closed := hclosed

/-- A call that failed before it touched anything. -/
theorem Exact.of_untouched {a : Answers} {path : Option Path} {data : Buffer} {d : Disk} {e : Errno}
    {log : List Call} (ho : log.filterMap Call.opened? = []) (hc : log.filterMap Call.closed? = []) :
    Exact a path data d ⟨d, log⟩ ⟨-1, e, .unchanged⟩ := by
  refine .of_unchanged (fun _ _ => rfl) (fun tmp _ h => ?_) fun fd => by simp [ho, hc]
  rcases h with ⟨mode, hm⟩ | h
  · have := List.filterMap_eq_nil_iff.mp ho _ hm
    cases this
  · exact h

section Candidate

variable {a : Answers} {path : Path} {b : Bytes} {data : Buffer} {d : Disk} {k : Kernel}

/-- The kernel once the candidate was created. -/
def created (a : Answers) (path : Path) (mode : Nat) (d : Disk) : Kernel :=
  ((Kernel.mk d [.openDir (parentOf path) true]).unlink (tmpPath path a.pid)).create
    (tmpPath path a.pid) mode

theorem created_files {q : Path} (hq : q ≠ tmpPath path a.pid) (mode : Nat) :
    (created a path mode d).files q = d q := by
  simp [created, Kernel.create, Kernel.unlink, Function.update_of_ne hq]

/-- A failure before the rename: only the candidate was touched, and its descriptor is open or closed as
the failure says. -/
theorem Replaced.failed {mode : Nat} {f : Failure}
    (h : Replaced (tmpPath path a.pid) path b (created a path mode d) k (some f)) :
    (∀ q, q ≠ tmpPath path a.pid → k.files q = d q) ∧ k.log.filterMap Call.opened? = [.dir, .file] ∧
      k.log.filterMap Call.closed? = if f.fdOpen then [] else [.file] := by
  cases h with
  | @failedOpen ws c e plain =>
    refine ⟨fun q hq => ?_, ?_, ?_⟩
    · dsimp only
      rw [Function.update_of_ne hq, created_files hq]
    · rw [List.filterMap_append, plain_opened plain]
      rfl
    · rw [List.filterMap_append, plain_closed plain]
      rfl
  | @failedClosed ws vs c e ok plain plain' =>
    have hopened : (Call.close .file ok :: vs).filterMap Call.opened? = [] := by
      simpa [Call.opened?] using plain_opened plain'
    have hclosed : (Call.close .file ok :: vs).filterMap Call.closed? = [.file] := by
      simpa [Call.closed?] using plain_closed plain'
    refine ⟨fun q hq => ?_, ?_, ?_⟩
    · dsimp only
      rw [Function.update_of_ne hq, created_files hq]
    · rw [List.filterMap_append, List.filterMap_append, plain_opened plain, hopened]
      rfl
    · rw [List.filterMap_append, List.filterMap_append, plain_closed plain, hclosed]
      rfl

/-- The label `unchanged_failure`. -/
theorem exact_unchangedFailure {mode : Nat} {f : Failure}
    (h : Replaced (tmpPath path a.pid) path b (created a path mode d) k (some f)) :
    Exact a (some path) data d (unchangedFailure a (tmpPath path a.pid) f k).1
      (unchangedFailure a (tmpPath path a.pid) f k).2 := by
  obtain ⟨hfiles, hopened, hclosed⟩ := h.failed
  have hlog : (unchangedFailure a (tmpPath path a.pid) f k).1.log =
      k.log ++ (if f.fdOpen then [.close .file a.closeFile.isNone] else []) ++
        [.unlink (tmpPath path a.pid), .close .dir a.closeDir.isNone] := by
    unfold unchangedFailure
    cases f.fdOpen <;> simp [Kernel.call, Kernel.unlink]
  have hleft : (unchangedFailure a (tmpPath path a.pid) f k).1.files =
      Function.update k.files (tmpPath path a.pid) .absent := by
    unfold unchangedFailure
    cases f.fdOpen <;> rfl
  refine .of_unchanged (fun q hq => ?_) (fun tmp htmp _ => ?_) (balanced_both ?_ ?_)
  · have hne : q ≠ tmpPath path a.pid := fun h => hq (by simp [h])
    rw [hleft, Function.update_of_ne hne, hfiles q hne]
  · obtain rfl : tmpPath path a.pid = tmp := by simpa using htmp
    rw [hleft, Function.update_self]
  · rw [hlog, List.filterMap_append, List.filterMap_append, hopened]
    cases f.fdOpen <;> rfl
  · rw [hlog, List.filterMap_append, List.filterMap_append, hclosed]
    cases f.fdOpen <;> rfl

/-- The rename: the target has the data, the candidate is gone, and its descriptor is closed. -/
theorem Replaced.renamed_cases {mode : Nat}
    (h : Replaced (tmpPath path a.pid) path b (created a path mode d) k none) :
    k.files path = .bytes b ∧ (∀ q, path ≠ q → q ≠ tmpPath path a.pid → k.files q = d q) ∧
      k.log.filterMap Call.opened? = [.dir, .file] ∧ k.log.filterMap Call.closed? = [.file] ∧
      ∃ before, k.log = before ++ [.fsync .file true, .close .file true, .rename (tmpPath path a.pid) path true] := by
  cases h with
  | @renamed ws plain =>
    refine ⟨?_, fun q hp hq => ?_, ?_, ?_, _, rfl⟩
    · dsimp only
      rw [Function.update_of_ne (tmpPath_ne path a.pid), Function.update_self]
    · dsimp only
      rw [Function.update_of_ne hq, Function.update_of_ne hp.symm, Function.update_of_ne hq, created_files hq]
    · rw [List.filterMap_append, List.filterMap_append, plain_opened plain]
      rfl
    · rw [List.filterMap_append, List.filterMap_append, plain_closed plain]
      rfl

/-- After the rename. -/
theorem exact_confirm {mode : Nat} (hb : data.bytes? = some b)
    (h : Replaced (tmpPath path a.pid) path b (created a path mode d) k none) :
    Exact a (some path) data d (confirm a k).1 (confirm a k).2 := by
  obtain ⟨hfile, hfiles, hopened, hclosed, before, hlog⟩ := h.renamed_cases
  have hothers : ∀ q, some path ≠ some q → (some path).map (tmpPath · a.pid) ≠ some q →
      k.files q = d q := by
    intro q hp hq
    exact hfiles q (fun h => hp (congrArg some h)) fun h => hq (by simp [h])
  have hbalanced : ∀ ok ok', Balanced (k.log ++ [.fsync .dir ok, .close .dir ok']) := by
    intro ok ok'
    refine balanced_both ?_ ?_
    · rw [List.filterMap_append, hopened]
      rfl
    · rw [List.filterMap_append, hclosed]
      rfl
  have hunsynced : ∀ (e : Errno) (ok ok' : Bool),
      Exact a (some path) data d ((k.call (.fsync .dir ok)).call (.close .dir ok'))
        ⟨-1, e, .replacedUnsynced⟩ := by
    intro e ok ok'
    refine ⟨by simp, hothers, by simp, fun _ => ⟨path, b, rfl, hb, hfile⟩, by simp, ?_⟩
    simpa [Kernel.call] using hbalanced ok ok'
  unfold confirm
  cases a.fsyncDir with
  | some e => exact hunsynced e _ _
  | none =>
    cases a.closeDir with
    | some e => exact hunsynced e _ _
    | none =>
      refine ⟨by simp, hothers, by simp, fun _ => ⟨path, b, rfl, hb, hfile⟩, fun _ => ?_, ?_⟩
      · refine ⟨path, before, [.close .file true], [], [.close .dir true], rfl, ?_⟩
        simp [Kernel.call, hlog]
      · simpa [Kernel.call] using hbalanced true true

end Candidate

/-- **The call ends**, unless its writes are interrupted for ever. -/
theorem writeAtomicEx_returns (a : Answers) (path : Option Path) (data : Buffer) (mode : Nat) (k : Kernel)
    (h : ∀ b, data.bytes? = some b → b.length ≤ (a.writes.filter (· ≠ .failed eintr)).length) :
    (writeAtomicEx a path data mode k).isSome := by
  unfold writeAtomicEx
  split
  next path b hb =>
    dsimp only
    split
    · rfl
    · cases a.openDir with
      | some e => rfl
      | none =>
        cases a.openFile with
        | some e => rfl
        | none =>
          dsimp only
          rw [Option.isSome_map]
          unfold replace
          split
          · rfl
          · dsimp only
            rw [Option.isSome_map]
            exact writeAll_isSome (by simpa using h b hb)
  · rfl

/-- What a call that ended reported holds. -/
theorem exact_writeAtomicEx {a : Answers} {path : Option Path} {data : Buffer} {mode : Nat} {d : Disk}
    {k : Kernel} {r : Report} (h : writeAtomicEx a path data mode ⟨d, []⟩ = some (k, r)) :
    Exact a path data d k r := by
  unfold writeAtomicEx at h
  split at h
  next path b hb =>
    dsimp only at h
    split at h
    · obtain ⟨rfl, rfl⟩ := Prod.mk.inj (Option.some.inj h)
      exact .of_untouched rfl rfl
    · cases hdir : a.openDir with
      | some e =>
        rw [hdir] at h
        obtain ⟨rfl, rfl⟩ := Prod.mk.inj (Option.some.inj h)
        exact .of_untouched rfl rfl
      | none =>
        rw [hdir] at h
        cases hfile : a.openFile with
        | some e =>
          rw [hfile] at h
          obtain ⟨rfl, rfl⟩ := Prod.mk.inj (Option.some.inj h)
          refine .of_unchanged (fun q hq => ?_) (fun tmp htmp _ => ?_) (balanced_dir rfl rfl)
          · have hne : q ≠ tmpPath path a.pid := fun h => hq (by simp [h])
            exact Function.update_of_ne hne _ _
          · obtain rfl : tmpPath path a.pid = tmp := by simpa using htmp
            exact Function.update_self _ _ _
        | none =>
          rw [hfile] at h
          obtain ⟨⟨k₁, f⟩, hrep, hrest⟩ := Option.map_eq_some_iff.mp h
          have hreplaced := replaced_replace hrep (Function.update_self _ _ _)
          cases f with
          | some f =>
            have hexact := @exact_unchangedFailure a path b data d k₁ _ f hreplaced
            dsimp only at hrest
            rw [hrest] at hexact
            exact hexact
          | none =>
            have hexact := @exact_confirm a path b data d k₁ _ hb hreplaced
            dsimp only at hrest
            rw [hrest] at hexact
            exact hexact
  · obtain ⟨rfl, rfl⟩ := Prod.mk.inj (Option.some.inj h)
    exact .of_untouched rfl rfl

/-- **The outcome of an atomic write is exact**: whatever the answers are, unless the writes are interrupted
for ever, the call ends, and what it reports holds of the files and of the calls it made. -/
theorem atomic_write_exact (a : Answers) (path : Option Path) (data : Buffer) (mode : Nat) (d : Disk) :
    ((∀ b, data.bytes? = some b → b.length ≤ (a.writes.filter (· ≠ .failed eintr)).length) →
      (writeAtomicEx a path data mode ⟨d, []⟩).isSome) ∧
    ∀ k r, writeAtomicEx a path data mode ⟨d, []⟩ = some (k, r) → Exact a path data d k r :=
  ⟨writeAtomicEx_returns a path data mode ⟨d, []⟩, fun _ _ => exact_writeAtomicEx⟩

/-- **The call is the write that the daemon's effects speak of**: beside the candidate, it leaves the files
that a write with the reported outcome leaves. -/
theorem writeAtomicEx_refines {a : Answers} {path : Path} {data : Buffer} {b : Bytes} {mode : Nat}
    {d : Disk} {k : Kernel} {r : Report} (hb : data.bytes? = some b)
    (h : writeAtomicEx a (some path) data mode ⟨d, []⟩ = some (k, r)) {q : Path} (hq : q ≠ tmpPath path a.pid) :
    k.files q = d.apply (.write ⟨path, b, mode, ⟨r.outcome, r.errno⟩⟩) q := by
  have hex := exact_writeAtomicEx h
  have hq' : (some path).map (tmpPath · a.pid) ≠ some q := fun h => hq (by simpa using h.symm)
  unfold Disk.apply
  dsimp only
  split
  · rename_i hun
    by_cases hp : q = path
    · rw [hp]
      exact (hex.unchanged hun).1 path rfl
    · exact hex.others q (fun h => hp (Option.some.inj h).symm) hq'
  · rename_i hrep
    obtain ⟨p, b', hp, hb', hfile⟩ := hex.replaced hrep
    obtain rfl : path = p := Option.some.inj hp
    obtain rfl : b = b' := Option.some.inj (hb.symm.trans hb')
    by_cases hqp : q = path
    · rw [hqp, Function.update_self]
      exact hfile
    · rw [Function.update_of_ne hqp]
      exact hex.others q (fun h => hqp (Option.some.inj h).symm) hq'

/-- A write of one byte that is interrupted once, and a failed sync of the directory. -/
def unsyncedAnswers : Answers :=
  ⟨1, none, none, 0, none, none, [.failed eintr, .took 1], none, none, none, some 5, none⟩

theorem writeAtomicEx_refines_unsynced : ∃ k r,
    writeAtomicEx unsyncedAnswers (some [1]) (.bytes [7]) 0o600 ⟨fun _ => .absent, []⟩ = some (k, r) ∧
    k.files [1] = Disk.apply (fun _ => .absent) (.write ⟨[1], [7], 0o600, ⟨r.outcome, r.errno⟩⟩) [1] := by
  obtain ⟨k, r, h⟩ : ∃ k r, writeAtomicEx unsyncedAnswers (some [1]) (.bytes [7]) 0o600 ⟨fun _ => .absent, []⟩ =
      some (k, r) := ⟨_, _, rfl⟩
  exact ⟨k, r, h, writeAtomicEx_refines rfl h (by decide)⟩

end Opcd.Store.Atomic
