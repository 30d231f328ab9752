import Accessibility.Element.Basic
import Std.Data.TreeMap

/-!
# Snapshots

A snapshot holds the elements of a tree by their paths.  Ancestry is read off the texts of the
paths: an ancestor's path is a part of the path that ends before a slash.
-/

namespace Accessibility

/-- Elements by path, each with everything below it. -/
abbrev Snapshot :=
  Std.TreeMap String Element

namespace Snapshot

/-- The snapshot with these entries; of several under one path the last one stays. -/
def ofEntries (entries : List (String × Element)) : Snapshot :=
  entries.foldl (fun snapshot entry => snapshot.insert entry.1 entry.2) ∅

/-- The elements of a tree by the paths they carry.  The root of a system-wide tree cannot be
addressed and is left out. -/
def ofTree (root : Element) : Snapshot :=
  ofEntries ((Element.preorderAll root.topLevel).map fun element => (element.path, element))

/-- The parts of a text that end before a slash; `passed` holds the characters before, the last
one first. -/
def cuts (passed : List Char) : List Char → List String
  | [] => []
  | c :: rest =>
      if c = '/' then
        String.ofList passed.reverse :: cuts (c :: passed) rest
      else
        cuts (c :: passed) rest

/-- Whether a part of the path that ends before a slash is a path of the snapshot. -/
def hasAncestor (snapshot : Snapshot) (path : String) : Bool :=
  (cuts [] path.toList).any snapshot.contains

/-- The entries without an ancestor in the snapshot, in the order of paths. -/
def roots (snapshot : Snapshot) : List (String × Element) :=
  snapshot.toList.filter fun entry => !snapshot.hasAncestor entry.1

/-- The element under a path that has no ancestor in the snapshot. -/
def rootAt? (snapshot : Snapshot) (path : String) : Option Element :=
  if snapshot.hasAncestor path then none else snapshot[path]?

end Snapshot

end Accessibility
