import Accessibility.Element.Json
import Accessibility.Json.Layout
import Accessibility.Snapshot

/-!
# Change sets

What has changed between two snapshots of the same scope.  Roots are compared by their paths,
and what is below a changed root child by child.
-/

namespace Accessibility

namespace Element

mutual

/-- Whether two subtrees differ in the properties or the number of children anywhere. -/
def changed : Element → Element → Bool
  | ⟨_, _, properties, children⟩, after =>
      !(properties == after.properties) || children.length != after.children.length ||
        anyChanged children after.children

/-- Whether some of the children that both lists have differ. -/
def anyChanged : List Element → List Element → Bool
  | before :: others, after :: rest => changed before after || anyChanged others rest
  | _, _ => false

end

/-- The element with its parent recorded under the given path. -/
def adopted (parentPath : String) (child : Element) : Element :=
  { child with parentPath := some parentPath }

mutual

/-- The later of two subtrees without the children that are as before. -/
def prune (before : Element) : Element → Element
  | ⟨path, parentPath, properties, children⟩ =>
      ⟨path, parentPath, properties, pruneChildren path before.children children⟩

/-- The children that have changed, pruned, and those that have no counterpart, whole. -/
def pruneChildren (parentPath : String) : List Element → List Element → List Element
  | _, [] => []
  | [], child :: rest => adopted parentPath child :: pruneChildren parentPath [] rest
  | previous :: others, child :: rest =>
      if changed previous child then
        adopted parentPath (prune previous child) :: pruneChildren parentPath others rest
      else
        pruneChildren parentPath others rest

end

end Element

/-- A root that is in both snapshots and has changed. -/
structure Modification where
  before : Element
  after : Element
  deriving Repr, BEq

/-- What has changed. -/
structure ChangeSet where
  /-- New roots, and pruned copies of changed ones. -/
  newElements : List Element := []
  /-- The paths of the roots that are gone. -/
  removedPaths : List String := []
  /-- The changed roots, whole. -/
  modified : List Modification := []
  deriving Repr, BEq

namespace ChangeSet

/-- Whether anything has changed. -/
def hasChanges (changes : ChangeSet) : Bool :=
  !changes.newElements.isEmpty || !changes.removedPaths.isEmpty || !changes.modified.isEmpty

/-- What a root contributes to the new elements. -/
def newElement? (before : Snapshot) (path : String) (current : Element) : Option Element :=
  match before.rootAt? path with
  | none => some current
  | some previous =>
      if previous.changed current then some (previous.prune current) else none

/-- What a root contributes to the modifications. -/
def modification? (before : Snapshot) (path : String) (current : Element) :
    Option Modification :=
  match before.rootAt? path with
  | none => none
  | some previous =>
      if previous.changed current then some ⟨previous, current⟩ else none

/-- The changes from one snapshot to another, in the order of paths. -/
def between (before after : Snapshot) : ChangeSet where
  newElements := after.roots.filterMap fun entry => newElement? before entry.1 entry.2
  removedPaths := (before.roots.map (·.1)).filter fun path => (after.rootAt? path).isNone
  modified := after.roots.filterMap fun entry => modification? before entry.1 entry.2

/-- The changes from one tree to another, by the paths they carry. -/
def betweenTrees (before after : Element) : ChangeSet :=
  between (Snapshot.ofTree before) (Snapshot.ofTree after)

/-- The printed form. -/
def toJson (changes : ChangeSet) : Json :=
  Json.ofFields
    [("new_elements", .array (changes.newElements.map Element.toJson)),
      ("removed_paths", .array (changes.removedPaths.map Json.ofText)),
      ("modified", .array (changes.modified.map fun modification =>
        Json.ofFields [("before", modification.before.toJson),
          ("after", modification.after.toJson)]))]

end ChangeSet

end Accessibility
