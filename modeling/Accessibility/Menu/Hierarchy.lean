import Accessibility.Dictionary
import Accessibility.Json.Fields
import Accessibility.Time

/-!
# Menu hierarchies

The menus of an application as they were captured at one instant, and the paths by which people
name their items.
-/

namespace Accessibility

/-- A menu or a menu item with its submenu. -/
structure MenuItem where
  title : String
  /-- The path of the element behind the item, if it was captured. -/
  elementPath : Option String := none
  /-- Whether the item can be chosen. -/
  enabled : Bool := true
  /-- The keyboard shortcut as it is displayed. -/
  shortcut : Option String := none
  children : List MenuItem := []
  deriving Repr, Inhabited

/-- A full menu path and the path of the element behind it. -/
structure MenuEntry where
  path : String
  elementPath : Option String
  deriving DecidableEq, Repr

namespace MenuItem

/-- What separates the titles of a menu path. -/
def separator : String :=
  " > "

mutual

/-- The number of items in a menu, itself included. -/
def size : MenuItem → Nat
  | { children, .. } => 1 + sizeAll children

/-- The number of items in a list of menus. -/
def sizeAll : List MenuItem → Nat
  | [] => 0
  | item :: rest => size item + sizeAll rest

end

mutual

/-- The number of levels of a menu, its own included. -/
def depth : MenuItem → Nat
  | { children, .. } => 1 + depthAll children

/-- The greatest number of levels of a list of menus. -/
def depthAll : List MenuItem → Nat
  | [] => 0
  | item :: rest => max (depth item) (depthAll rest)

end

mutual

/-- The paths in a menu, each before those below it.  The titles from `leading` on come first. -/
def entries (leading : String) : MenuItem → List MenuEntry
  | ⟨title, elementPath, _, _, children⟩ =>
      ⟨leading ++ title, elementPath⟩ :: entriesAll (leading ++ title ++ separator) children

/-- The paths in a list of menus. -/
def entriesAll (leading : String) : List MenuItem → List MenuEntry
  | [] => []
  | item :: rest => entries leading item ++ entriesAll leading rest

end

/-- Reads a menu item that may open `depth` more containers.  Only the title is required. -/
def ofJson? : Nat → Json → Option MenuItem
  | 0, _ => none
  | depth + 1, json => do
      let fields ← json.fields? ["title", "element_path", "enabled", "shortcut", "children"]
      let title ← fields.read? "title" none Json.text?
      let elementPath ← fields.read? "element_path" (some none) Json.optionalText?
      let enabled ← fields.read? "enabled" (some true) Json.boolean?
      let shortcut ← fields.read? "shortcut" (some none) Json.optionalText?
      let children ← fields.read? "children" (some []) fun children =>
        match depth, children with
        | depth + 1, .array items => items.mapM (ofJson? depth)
        | _, _ => none
      pure { title, elementPath, enabled, shortcut, children }

end MenuItem

/-- The captured menus of an application. -/
structure MenuHierarchy where
  applicationId : String
  menus : List MenuItem
  /-- When the menus were captured. -/
  generatedAt : Instant
  /-- The first instant at which they no longer count. -/
  expiresAt : Instant
  deriving Repr, Inhabited

namespace MenuHierarchy

/-- The menus captured at an instant, which count for a while. -/
def capturedAt (applicationId : String) (menus : List MenuItem) (lifetime : Duration)
    (instant : Instant) : MenuHierarchy where
  applicationId := applicationId
  menus := menus
  generatedAt := instant
  expiresAt := Instant.after instant lifetime

/-- The same menus with another expiry. -/
def withExpiry (expiresAt : Instant) (hierarchy : MenuHierarchy) : MenuHierarchy :=
  { hierarchy with expiresAt }

/-- Whether the menus still count. -/
def isValidAt (hierarchy : MenuHierarchy) (now : Instant) : Bool :=
  now < hierarchy.expiresAt

/-- The titles of the menu bar. -/
def topLevelMenus (hierarchy : MenuHierarchy) : List String :=
  hierarchy.menus.map MenuItem.title

/-- The paths of all items, each before those below it. -/
def entries (hierarchy : MenuHierarchy) : List MenuEntry :=
  MenuItem.entriesAll "" hierarchy.menus

/-- The paths of all items. -/
def paths (hierarchy : MenuHierarchy) : List String :=
  hierarchy.entries.map MenuEntry.path

/-- The number of items. -/
def totalItems (hierarchy : MenuHierarchy) : Nat :=
  MenuItem.sizeAll hierarchy.menus

/-- The number of levels. -/
def exploredDepth (hierarchy : MenuHierarchy) : Nat :=
  MenuItem.depthAll hierarchy.menus

/-- Whether a path names an item. -/
def containsPath (hierarchy : MenuHierarchy) (path : String) : Bool :=
  hierarchy.paths.contains path

/-- The path of the element behind the first item with a menu path. -/
def elementPathFor? (hierarchy : MenuHierarchy) (path : String) : Option String :=
  (hierarchy.entries.find? fun entry => entry.path = path).bind MenuEntry.elementPath

/-- The number of items below every menu of the menu bar, by title.  Of menus with one title
the last counts. -/
def itemCounts (hierarchy : MenuHierarchy) : Dictionary Nat :=
  Dictionary.ofList (hierarchy.menus.map fun menu => (menu.title, menu.size - 1))

end MenuHierarchy

end Accessibility
