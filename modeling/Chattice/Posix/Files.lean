import Mathlib.Data.List.Basic
import Mathlib.Logic.Function.Basic

/-!
# Files, paths and descriptors

A host with its files, the files its paths lead to, and the table of descriptors of one process. Other
processes, and the other threads of this one, rename and replace files, write to them and open descriptors of
their own; what a file is does not change while a descriptor is open on it.

* `Host.Opens`, `Host.Reads`, `Host.closed` : what a successful system call does;
* `Host.Changes` : what everybody else does;
* `Host.Keeps` : the descriptors of one owner, and what their files are, are kept.
-/

namespace Posix

/-- What `S_IFMT` tells apart. -/
inductive FileKind where
  | regular | directory | fifo
  | other (format : Nat)
  deriving DecidableEq, Repr

structure File where
  kind : FileKind
  bytes : List UInt8

variable {Path Inode Owner : Type}

structure Description (Inode Owner : Type) where
  inode : Inode
  offset : Nat
  owner : Owner

/-- `paths` follows symbolic links. -/
structure Host (Path Inode Owner : Type) where
  paths : Path → Option Inode
  files : Inode → File
  table : Nat → Option (Description Inode Owner)

namespace Host

/-- `open(path, O_RDONLY | O_NONBLOCK)` by `owner` returns `fd`. -/
def Opens (h : Host Path Inode Owner) (owner : Owner) (path : Path) (fd : Nat)
    (h' : Host Path Inode Owner) : Prop :=
  h.table fd = none ∧ ∃ inode, h.paths path = some inode ∧
    h' = { h with table := Function.update h.table fd (some ⟨inode, 0, owner⟩) }

/-- `fstat(fd)` returns the kind and the size of the file. -/
def Stats (h : Host Path Inode Owner) (fd : Nat) (kind : FileKind) (size : Nat) : Prop :=
  ∃ d, h.table fd = some d ∧ kind = (h.files d.inode).kind ∧ size = (h.files d.inode).bytes.length

/-- What `read` may return of a regular file at an offset: some of what follows it, and nothing only at the
end of the file. -/
def IsChunk (bytes : List UInt8) (offset : Nat) (chunk : List UInt8) : Prop :=
  chunk <+: bytes.drop offset ∧ (chunk = [] → bytes.length ≤ offset)

/-- `read(fd, count)` returns `chunk`; a file that is not regular may return anything. -/
def Reads (h : Host Path Inode Owner) (fd : Nat) (count : Option Nat) (chunk : List UInt8)
    (h' : Host Path Inode Owner) : Prop :=
  ∃ d, h.table fd = some d ∧ (∀ n, count = some n → chunk.length ≤ n) ∧
    ((h.files d.inode).kind = .regular → IsChunk (h.files d.inode).bytes d.offset chunk) ∧
    h' = { h with
      table := Function.update h.table fd (some { d with offset := d.offset + chunk.length }) }

/-- `close(fd)`, which releases the descriptor also where it raises. -/
def closed (h : Host Path Inode Owner) (fd : Nat) : Host Path Inode Owner :=
  { h with table := Function.update h.table fd none }

/-- What everybody but the owners in `mine` does: anything to paths and contents and to their own
descriptors. A file with a descriptor on it stays what it is. -/
structure Changes (mine : Owner → Prop) (h h' : Host Path Inode Owner) : Prop where
  descriptors : ∀ fd d, mine d.owner → (h'.table fd = some d ↔ h.table fd = some d)
  kinds : ∀ fd d, h.table fd = some d → (h'.files d.inode).kind = (h.files d.inode).kind

/-- The descriptors of the owner, and what their files are, are kept. -/
structure Keeps (owner : Owner) (h h' : Host Path Inode Owner) : Prop where
  descriptors : ∀ fd d, d.owner = owner → (h'.table fd = some d ↔ h.table fd = some d)
  kinds : ∀ fd d, d.owner = owner → h.table fd = some d →
    (h'.files d.inode).kind = (h.files d.inode).kind

theorem Changes.keeps {mine : Owner → Prop} {owner : Owner} {h h' : Host Path Inode Owner}
    (hc : h.Changes mine h') (hmine : mine owner) : h.Keeps owner h' where
  descriptors := by
    rintro fd d rfl
    exact hc.descriptors fd d hmine
  kinds := fun fd d _ hd => hc.kinds fd d hd

/-- A change of one entry of the table, from and to what the owner has not opened. -/
theorem keeps_update {owner : Owner} {h : Host Path Inode Owner} {fd : Nat}
    {entry : Option (Description Inode Owner)} (hold : ∀ d, h.table fd = some d → d.owner ≠ owner)
    (hnew : ∀ d, entry = some d → d.owner ≠ owner) :
    h.Keeps owner { h with table := Function.update h.table fd entry } where
  descriptors := by
    intro fd' d howner
    dsimp only
    by_cases heq : fd' = fd
    · rw [heq, Function.update_self]
      constructor
      · intro hd
        exact absurd howner (hnew d hd)
      · intro hd
        exact absurd howner (hold d hd)
    · rw [Function.update_of_ne heq]
  kinds := fun _ _ _ _ => rfl

end Host

end Posix
