import ExprLexer.Cli.Report

namespace ExprLexer.Cli

/-- Inside the tree, the names that lead to a place from the root, innermost first. -/
inductive Place where
  | inside (names : List String)
  | outside
deriving DecidableEq

namespace Place

def root : Place := inside []

def parent : Place → Place
  | inside (_ :: names) => inside names
  | _ => outside

def enter? (place : Place) (name : String) : Option Place :=
  if name = "" || name = "." then some place
  else if name = ".." then some place.parent
  else match place with
    | inside names => some (inside (name :: names))
    | outside => none

def along (place : Place) : List String → List Place
  | [] => [place]
  | name :: names => place :: ((place.enter? name).getD outside).along names

end Place

/-- Later entries stand in front of earlier ones for the same place. -/
structure FileTree where
  files : List (Place × ByteArray)
  directories : List Place

namespace FileTree

def empty : FileTree := ⟨[], [.outside, .root]⟩

def add (t : FileTree) (path : String) (content : Option ByteArray) : FileTree :=
  let places := Place.root.along (path.splitOn "/")
  match content, places.getLast? with
  | some bytes, some place => ⟨(place, bytes) :: t.files, places.dropLast ++ t.directories⟩
  | _, _ => ⟨t.files, places ++ t.directories⟩

def ofPaths (entries : List (String × Option ByteArray)) : FileTree :=
  entries.foldl (fun t entry => t.add entry.1 entry.2) empty

def file? (t : FileTree) (place : Place) : Option ByteArray := t.files.lookup place

def holds (t : FileTree) (place : Place) : Bool :=
  (t.file? place).isSome || place ∈ t.directories

/-- One step along a path. Only a directory can be stepped from. -/
def step (t : FileTree) (place : Place) (name : String) : Except ReadFailure Place :=
  if (t.file? place).isSome then .error .notDirectory
  else match (place.enter? name).filter t.holds with
    | some next => .ok next
    | none => .error .notFound

def resolve (t : FileTree) (path : String) : Except ReadFailure Place :=
  if path.isEmpty then .error .notFound
  else (path.splitOn "/").foldlM t.step (if path.startsWith "/" then .outside else .root)

def read (t : FileTree) (path : String) : Except ReadFailure ByteArray := do
  match t.file? (← t.resolve path) with
  | some bytes => return bytes
  | none => throw .isDirectory

end FileTree
end ExprLexer.Cli
