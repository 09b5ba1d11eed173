import Mathlib.Data.List.Basic
import Mathlib.Data.List.Infix

/-! Pure paths as `pathlib` has them on POSIX systems, and their resolution in a tree with symbolic
links. A name is a list of letters, 47 the slash and 46 the dot. -/
namespace PosixPaths

abbrev Name := List ℕ

/-- `root` counts the slashes of the root: none for a relative path, and two, not one or three, for
a path that begins with just two. -/
structure PosixPath where
  root : ℕ
  parts : List Name
  deriving DecidableEq

def dotdot : Name := [46, 46]

def parse (t : List ℕ) : PosixPath where
  root := let slashes := (t.takeWhile (· == 47)).length; if 3 ≤ slashes then 1 else slashes
  parts := (t.splitOn 47).filter fun part => part ≠ [] ∧ part ≠ [46]

namespace PosixPath

variable {p q base : PosixPath} {parts : List Name}

def join (p q : PosixPath) : PosixPath := if q.root = 0 then ⟨p.root, p.parts ++ q.parts⟩ else q

def below (p : PosixPath) (parts : List Name) : PosixPath := ⟨p.root, p.parts ++ parts⟩

def name (p : PosixPath) : Name := p.parts.getLast?.getD []

def parent (p : PosixPath) : PosixPath := ⟨p.root, p.parts.dropLast⟩

/-- `os.path.normpath` of the parts of an absolute path. -/
def collapse (parts : List Name) : List Name :=
  parts.foldl (fun done part => if part = dotdot then done.dropLast else done ++ [part]) []

def absolute (cwd p : PosixPath) : PosixPath :=
  ⟨(cwd.join p).root, collapse (cwd.join p).parts⟩

/-- The parts of `p.relative_to(base)`. -/
def relativeTo (p base : PosixPath) : Option (List Name) :=
  if p.root = base.root ∧ base.parts <+: p.parts then some (p.parts.drop base.parts.length)
  else none

theorem relativeTo_eq_some : p.relativeTo base = some parts ↔ p = base.below parts := by
  unfold relativeTo below
  constructor
  · intro h
    split at h
    · next hunder =>
      cases h
      obtain ⟨root, all⟩ := p
      obtain ⟨rfl, more, rfl⟩ := hunder
      rw [List.drop_left]
    · cases h
  · rintro rfl
    rw [if_pos ⟨rfl, List.prefix_append _ _⟩, List.drop_left]

variable {more : List Name}

theorem below_inj : base.below parts = base.below more ↔ parts = more := by
  rw [below, below, mk.injEq, List.append_cancel_left_eq]
  exact and_iff_right rfl

theorem below_nil : base.below [] = base := by
  rw [below, List.append_nil]

theorem below_below : (base.below parts).below more = base.below (parts ++ more) := by
  rw [below, below, below, List.append_assoc]

end PosixPath

end PosixPaths
