import Mathlib.Data.List.Basic

/-!
# FileSystem — files, and the names they have in directories

Paths lead to files, which have numbers.  An open file stays what it is when its path is renamed,
removed or reused, and every writer has an offset of its own.
-/

namespace Toolchain.Lib

structure FileSystem (P α : Type) where
  files : List (List α)
  entries : P → Option Nat

namespace FileSystem

variable {P α : Type}

def empty : FileSystem P α where
  files := []
  entries _ := none

def create [DecidableEq P] (fs : FileSystem P α) (path : P) : Nat × FileSystem P α :=
  match fs.entries path with
  | some file => (file, { fs with files := fs.files.set file [] })
  | none =>
    (fs.files.length,
      { files := fs.files ++ [[]], entries := Function.update fs.entries path (some fs.files.length) })

def splice [Inhabited α] (content : List α) (offset : Nat) (data : List α) : List α :=
  content.take offset ++ List.replicate (offset - content.length) default ++ data ++
    content.drop (offset + data.length)

def writeAt [Inhabited α] (fs : FileSystem P α) (file offset : Nat) (data : List α) :
    FileSystem P α :=
  { fs with files := fs.files.modify file (splice · offset data) }

def rename [DecidableEq P] (fs : FileSystem P α) (source target : P) : Option (FileSystem P α) :=
  (fs.entries source).map fun file =>
    { fs with entries := Function.update (Function.update fs.entries source none) target (some file) }

def remove [DecidableEq P] (fs : FileSystem P α) (path : P) : FileSystem P α :=
  { fs with entries := Function.update fs.entries path none }

/-! ## What the operations do -/

variable {fs : FileSystem P α} {path : P}

lemma create_new [DecidableEq P] (h : fs.entries path = none) : fs.create path = (fs.files.length,
      { files := fs.files ++ [[]]
        entries := Function.update fs.entries path (some fs.files.length) }) := by
  simp [create, h]

end FileSystem
end Toolchain.Lib
