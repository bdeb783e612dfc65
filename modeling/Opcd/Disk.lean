import Opcd.State

/-!
# The visible files

What a reader of a path finds, and how the daemon's effects change it. A replacement shows as soon as
the rename was made; whether it survives a crash is not said here.
-/

namespace Opcd

open Bytes Store

/-- What a path holds for the daemon. -/
inductive File
  /-- no such file -/
  | absent
  /-- `stat` fails for another reason -/
  | statFails
  /-- a file of this size that cannot be read, or not a regular one -/
  | unreadable (size : Nat)
  | bytes (b : Bytes)
  deriving DecidableEq, Repr

/-- `access(path, F_OK) == 0`, and `stat` likewise. -/
def File.exists : File → Bool
  | absent => false
  | statFails => false
  | _ => true

/-- `opc_store_read_all` of at most `cap` bytes. -/
def File.readAll (cap : Nat) : File → Option Bytes
  | bytes b => some (b.take cap)
  | _ => none

/-- `st_size`. -/
def File.size : File → Nat
  | unreadable n => n
  | bytes b => b.length
  | _ => 0

/-- The files the daemon keeps. -/
def Paths.files (p : Paths) : List Path :=
  p.password :: p.ipList :: p.radio :: [p.ipListUser, p.ipListUserLast, p.ipListLegacy, p.radioMarker].reduceOption

/-- What a start sets aside is none of the files. -/
structure Paths.SetAside (p : Paths) : Prop where
  migrated : ∀ legacy, p.ipListLegacy = some legacy → legacy ++ ofString ".migrated" ∉ p.files
  rejected : ∀ user, p.ipListUser = some user → user ++ ofString ".rejected" ∉ p.files

/-- The paths an effect may change. -/
def Effect.touched : Effect → List Path
  | .write w => [w.path]
  | .unlink p _ => [p]
  | .rename p q _ => [p, q]
  | _ => []

/-- The visible files. -/
abbrev Disk := Path → File

namespace Disk

/-- An effect on the visible files. -/
def apply (d : Disk) : Effect → Disk
  | .write w => if w.result.outcome = .unchanged then d else Function.update d w.path (.bytes w.bytes)
  | .unlink p ok => if ok then Function.update d p .absent else d
  | .rename p q ok => if ok then Function.update (Function.update d q (d p)) p .absent else d
  | _ => d

/-- A list of effects, in order. -/
def after (d : Disk) (es : List Effect) : Disk := es.foldl apply d

@[simp] theorem after_nil (d : Disk) : d.after [] = d := rfl

@[simp] theorem after_cons (d : Disk) (e : Effect) (es : List Effect) :
    d.after (e :: es) = (d.apply e).after es := rfl

theorem after_append (d : Disk) (es fs : List Effect) :
    d.after (es ++ fs) = (d.after es).after fs := List.foldl_append

theorem apply_other (d : Disk) {e : Effect} {path : Path} (h : path ∉ e.touched) : d.apply e path = d path := by
  cases e with
  | write w =>
    have hne : path ≠ w.path := by simpa [Effect.touched] using h
    rw [apply]
    split
    · rfl
    · exact Function.update_of_ne hne _ d
  | unlink q ok =>
    have hne : path ≠ q := by simpa [Effect.touched] using h
    rw [apply]
    split
    · exact Function.update_of_ne hne _ d
    · rfl
  | rename q q' ok =>
    have hne : path ≠ q ∧ path ≠ q' := by simpa [Effect.touched] using h
    rw [apply]
    split
    · rw [Function.update_of_ne hne.1, Function.update_of_ne hne.2]
    · rfl
  | _ => rfl

theorem apply_write_other (d : Disk) {w : FileWrite} {path : Path} (h : path ≠ w.path) :
    d.apply (.write w) path = d path :=
  apply_other d (by simpa [Effect.touched] using h)

/-- **Frame.** A file that no effect names is as it was. -/
theorem after_other {d : Disk} {es : List Effect} {path : Path} (h : ∀ e ∈ es, path ∉ e.touched) :
    d.after es path = d path := by
  induction es generalizing d with
  | nil => rfl
  | cons e es ih =>
    rw [after_cons, ih fun e' he' => h e' (List.mem_cons_of_mem e he'), apply_other d (h e List.mem_cons_self)]

/-- A visible write shows. -/
theorem apply_write {d : Disk} {w : FileWrite} (h : w.result.outcome ≠ .unchanged) :
    d.apply (.write w) w.path = .bytes w.bytes := by
  rw [apply, if_neg h, Function.update_self]

end Disk

end Opcd
