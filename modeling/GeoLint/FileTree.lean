import GeoLint.Text.Blank

/-!
# Paths and file trees

`Path.normal` is how a path is shown: without empty and single-dot parts.  `FileTree` is a tree of
files by path; `FileTree.lookup` follows a path the way a file system does, part by part from the
root, so that a part that is no directory ends the search.
-/

namespace GeoLint

namespace Path

/-- The parts of a path between its slashes. -/
def parts (path : String) : List String :=
  (Text.pieces (· = '/') path.toList).map String.ofList

/-- The parts of a path that count. -/
def steps (path : String) : List String :=
  (parts path).filter fun p => p ≠ "" && p ≠ "."

/-- The path as it is shown.  Two slashes at the start are kept, more or fewer are one. -/
def normal (path : String) : String :=
  let slashes := (path.toList.takeWhile (· = '/')).length
  let root := if slashes = 0 then "" else if slashes = 2 then "//" else "/"
  let shown := root ++ "/".intercalate (steps path)
  if shown.isEmpty then "." else shown

end Path

/-- What there is at a path. -/
inductive Entry where
  /-- Nothing. -/
  | missing
  /-- A directory. -/
  | directory
  /-- A file. -/
  | file (content : ByteArray)

/-- Files by the parts of their paths. -/
structure FileTree where
  /-- The files. -/
  files : List (List String × ByteArray)

namespace FileTree

/-- The tree of files given by their paths. -/
def ofFiles (files : List (String × ByteArray)) : FileTree :=
  ⟨files.map fun f => (Path.steps f.1, f.2)⟩

/-- What there is at the parts of a path without dots. -/
def entry (t : FileTree) (place : List String) : Entry :=
  match t.files.find? fun f => f.1 = place with
  | some f => .file f.2
  | none =>
    if place.isEmpty || t.files.any fun f => place.isPrefixOf f.1 then .directory else .missing

/-- Follow the parts of a path from a place in the tree. -/
def follow (t : FileTree) : List String → List String → Entry
  | place, [] => t.entry place
  | place, p :: ps =>
    match t.entry place with
    | .directory =>
      if p = "" || p = "." then follow t place ps
      else if p = ".." then
        -- nothing is known about what lies above the root
        if place.isEmpty then .missing else follow t place.dropLast ps
      else follow t (place ++ [p]) ps
    | _ => .missing

/-- What there is at a path.  The empty path, and a path from the root of a file system, lead
nowhere. -/
def lookup (t : FileTree) (path : String) : Entry :=
  if path.isEmpty || path.startsWith "/" then .missing else t.follow [] (Path.parts path)

end FileTree

end GeoLint
