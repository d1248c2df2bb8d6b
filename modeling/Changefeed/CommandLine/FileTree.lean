/-!
# File trees

The files of a system, for running the command without a disk. A place is the way to a file from the
root. A path starts at the root or at the working directory and is followed part by part, so
everything before its last part has to be a directory. Links to directories are followed, and the
directory above the root is the root.
-/

namespace Changefeed.CommandLine

abbrev Place := List String

structure FileTree where
  files : List (Place × String)
  directories : List Place
  /-- Links, each with the directory that it leads to. -/
  links : List (Place × Place)
  working : Place
deriving Repr

namespace FileTree

def parts (path : String) : List String := path.splitOn "/"

/-- The place that a path from the root names, if no link is on the way. -/
def place (path : String) : Place :=
  (parts path).foldl (fun directory part =>
    if part = "" ∨ part = "." then directory
    else if part = ".." then directory.dropLast
    else directory ++ [part]) []

def isDirectory (t : FileTree) (p : Place) : Bool :=
  (t.working :: t.directories).any p.isPrefixOf ||
    t.files.any fun f => p.isPrefixOf f.1 && p.length < f.1.length

def enter (t : FileTree) (directory : Place) (part : String) : Place :=
  let next := directory ++ [part]
  (t.links.lookup next).getD next

def follow? (t : FileTree) (directory : Place) : List String → Option Place
  | [] => some directory
  | part :: rest =>
    if part = "" ∨ part = "." then t.follow? directory rest
    else if part = ".." then t.follow? directory.dropLast rest
    else
      let next := t.enter directory part
      if rest.isEmpty ∨ t.isDirectory next then t.follow? next rest else none

def text? (t : FileTree) (p : Place) : Option String := t.files.lookup p

def pathLimit : Nat := 4096

def read? (t : FileTree) (path : String) : Option String := do
  guard (path.utf8ByteSize < pathLimit)
  let start := if path.startsWith "/" then [] else t.working
  t.text? (← t.follow? start (parts path))

def fullPath (p : Place) : String := "/" ++ "/".intercalate p

def closestFrom? (t : FileTree) (name : String) : Nat → Place → Option (String × String)
  | 0, _ => none
  | n + 1, directory =>
    match t.text? (directory ++ [name]) with
    | some text => some (fullPath (directory ++ [name]), text)
    | none => t.closestFrom? name n directory.dropLast

def closest? (t : FileTree) (name : String) : Option (String × String) :=
  t.closestFrom? name (t.working.length + 1) t.working

end FileTree
end Changefeed.CommandLine
