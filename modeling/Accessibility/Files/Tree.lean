import Accessibility.Files.Basic

/-!
# File trees

A file system held in memory.  A name is followed component by component from the root or from
the working directory.
-/

namespace Accessibility

/-- What a file system holds under a name. -/
inductive FileNode where
  | directory
  /-- A file and its text; there is none if its bytes are no text. -/
  | file (text : Option String)
  deriving DecidableEq, Repr

/-- A file system. -/
structure FileTree where
  /-- The nodes by the components of their full names.  The directories above a node need no
  entry of their own. -/
  nodes : List (List String × FileNode)
  workingDirectory : List String
  deriving Repr

namespace FileTree

/-- The components of a name. -/
def components (name : String) : List String :=
  name.splitOn "/"

/-- The node with a full name. -/
def nodeAt? (tree : FileTree) (full : List String) : Option FileNode :=
  match tree.nodes.lookup full with
  | some node => some node
  | none =>
      if (tree.workingDirectory :: tree.nodes.map (·.1)).any full.isPrefixOf then
        some .directory
      else
        none

/-- Whether a component stands for the directory it is looked up in. -/
def isIdle (component : String) : Bool :=
  component = "" || component = "."

/-- One step along a name, from the node with the full name so far. -/
def follow (tree : FileTree) (full : List String) (component : String) :
    Except FileFault (List String) :=
  match tree.nodeAt? full with
  | none => .error .missing
  | some (.file _) => .error .notDirectory
  | some .directory =>
      if isIdle component then
        .ok full
      else if component = ".." then
        .ok full.dropLast
      else if 255 < component.utf8ByteSize then
        .error .longName
      else
        let next := full ++ [component]
        if (tree.nodeAt? next).isSome then .ok next else .error .missing

/-- The node with a name. -/
def lookup (tree : FileTree) (name : String) : Except FileFault FileNode := do
  if name.contains '\x00' then
    throw .cutName
  if name.isEmpty then
    throw .missing
  if 4096 ≤ name.utf8ByteSize then
    throw .longName
  let start := if name.startsWith "/" then [] else tree.workingDirectory
  let full ← (components name).foldlM tree.follow start
  match tree.nodeAt? full with
  | some node => pure node
  | none => throw .missing

/-- The text of the file with a name. -/
def read (tree : FileTree) : Files := fun name =>
  match tree.lookup name with
  | .error fault => .error fault
  | .ok .directory => .error .directory
  | .ok (.file none) => .error .notText
  | .ok (.file (some text)) => .ok text

end FileTree

end Accessibility
