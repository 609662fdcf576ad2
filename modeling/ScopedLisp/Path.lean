set_option autoImplicit false

namespace ScopedLisp

namespace Path

def names (path : String) : List String :=
  (path.splitOn "/").filter fun name => name ≠ "" && name ≠ "."

/-- The slashes that make a path absolute: one, or two if there are exactly two. -/
def anchor (path : String) : String :=
  let slashes := (path.toList.takeWhile (· = '/')).length
  if slashes = 0 then "" else if slashes = 2 then "//" else "/"

def normalize (path : String) : String :=
  let short := anchor path ++ "/".intercalate (names path)
  if short.isEmpty then "." else short

def longest : Nat := 4095

def longestName : Nat := 255

end Path

inductive FileFault where
  | missing
  | directory
  | notDirectory
  | nameTooLong
  /-- The path has a zero character in it, so that it cannot even be asked for. -/
  | zeroInPath
  | other (reason : String)
  deriving DecidableEq, Repr

def FileFault.text : FileFault → String
  | missing => "No such file or directory"
  | directory => "Is a directory"
  | notDirectory => "Not a directory"
  | nameTooLong => "File name too long"
  | zeroInPath => "embedded null byte"
  | other reason => reason

/-- Files with the names on their paths, below a directory that has no name. -/
structure FileTree where
  files : List (List String × List UInt8)

namespace FileTree

def ofPaths (files : List (String × List UInt8)) : FileTree :=
  ⟨files.map fun (path, bytes) => (Path.names path, bytes)⟩

def file? (tree : FileTree) (place : List String) : Option (List UInt8) :=
  tree.files.lookup place

def isDirectory (tree : FileTree) (place : List String) : Bool :=
  place.isEmpty || tree.files.any fun (path, _) => place.isPrefixOf path && place != path

/-- Follows names from a directory of the tree, or from a directory outside. -/
def follow (tree : FileTree) :
    Option (List String) → List String → Except FileFault (List UInt8)
  | _, [] => .error .directory
  | none, name :: rest =>
    if name = ".." then tree.follow none rest
    else if Path.longestName < name.utf8ByteSize then .error .nameTooLong
    else .error .missing
  | some place, name :: rest =>
    if name = ".." then
      tree.follow (if place.isEmpty then none else some place.dropLast) rest
    else if Path.longestName < name.utf8ByteSize then
      .error .nameTooLong
    else
      let next := place ++ [name]
      match tree.file? next with
      | some bytes => if rest.isEmpty then .ok bytes else .error .notDirectory
      | none => if tree.isDirectory next then tree.follow (some next) rest else .error .missing

def read (tree : FileTree) (path : String) : Except FileFault (List UInt8) :=
  if path.toList.contains '\x00' then
    .error .zeroInPath
  else if Path.longest < (Path.normalize path).utf8ByteSize then
    .error .nameTooLong
  else
    tree.follow (if Path.anchor path = "" then some [] else none) (Path.names path)

end FileTree

end ScopedLisp
