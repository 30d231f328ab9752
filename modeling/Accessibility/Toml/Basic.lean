/-!
# TOML values

The values of a TOML document, and the rules by which headers and dotted keys add to its tables.
Nothing is ever defined twice, and a table that was written out is not extended later.
-/

namespace Accessibility

/-- How a table came about, which decides what may still be added to it. -/
inductive Toml.Origin where
  /-- By a header of its own, or as the document. -/
  | header
  /-- As a part of a longer header. -/
  | implied
  /-- By a dotted key. -/
  | dotted
  /-- As a value between braces. -/
  | inline
  deriving DecidableEq, Repr

/-- A value. -/
inductive Toml where
  | boolean (value : Bool)
  | integer (value : Int)
  | float (value : Float)
  /-- An integer of more than 128 bits, or a finite number beyond those of binary64. -/
  | excessive
  | dateTime (text : String)
  | string (text : String)
  | array (items : List Toml)
  | table (origin : Toml.Origin) (entries : List (String × Toml))
  /-- An array of tables with headers, of which the latest is open. -/
  | tables (earlier : List Toml) (latest : List (String × Toml))
  deriving Repr, Inhabited

namespace Toml

/-- What a table holds, in the order of definition. -/
abbrev Entries :=
  List (String × Toml)

mutual

/-- Whether no number in a value is excessive. -/
def isBounded : Toml → Bool
  | .excessive => false
  | .array items => areBounded items
  | .table _ entries => haveBounds entries
  | .tables earlier latest => areBounded earlier && haveBounds latest
  | .boolean _ | .integer _ | .float _ | .dateTime _ | .string _ => true

/-- Whether no number in a list of values is excessive. -/
def areBounded : List Toml → Bool
  | [] => true
  | value :: rest => isBounded value && areBounded rest

/-- Whether no number in the entries of a table is excessive. -/
def haveBounds : List (String × Toml) → Bool
  | [] => true
  | (_, value) :: rest => isBounded value && haveBounds rest

end

/-- A dotted key: the names on the way, and the last one. -/
structure Key where
  path : List String
  name : String
  deriving DecidableEq, Repr

/-- The names of a key from first to last. -/
def Key.names (key : Key) : List String :=
  key.path ++ [key.name]

/-- The entries with a name bound to a value, in place of what it was bound to. -/
def put (name : String) (value : Toml) : Entries → Entries
  | [] => [(name, value)]
  | (other, old) :: rest =>
      if other = name then (name, value) :: rest else (other, old) :: put name value rest

/-- Whether a table may be entered by a header or, if so said, by a dotted key. -/
def Origin.isOpenTo (origin : Origin) (dotted : Bool) : Bool :=
  match origin with
  | .header => !dotted
  | .implied | .dotted => true
  | .inline => false

/-- Changes the table that names lead to.  Tables that are missing on the way are made. -/
def change? (dotted : Bool) (change : Origin → Entries → Option Entries) (origin : Origin) :
    List String → Entries → Option Entries
  | [], entries => change origin entries
  | name :: rest, entries =>
      match entries.lookup name with
      | none =>
          let made := if dotted then Origin.dotted else Origin.implied
          (change? dotted change made rest []).map fun inner =>
            put name (.table made inner) entries
      | some (.table origin inner) =>
          if origin.isOpenTo dotted then
            (change? dotted change origin rest inner).map fun inner =>
              put name (.table origin inner) entries
          else
            none
      | some (.tables earlier latest) =>
          (change? dotted change .header rest latest).map fun latest =>
            put name (.tables earlier latest) entries
      | some _ => none

/-- Binds a dotted key.  The tables on its way are those of dotted keys, and it is new. -/
def bind? (key : Key) (value : Toml) : Origin → Entries → Option Entries :=
  fun origin entries =>
    change? true
      (fun origin entries =>
        if (origin = .dotted) != !key.path.isEmpty || (entries.lookup key.name).isSome then none
        else some (put key.name value entries))
      origin key.path entries

/-- Opens the table of a header.  It is new, or it was implied by a longer header. -/
def openTable? (key : Key) : Entries → Option Entries :=
  change? false
    (fun _ entries =>
      match entries.lookup key.name with
      | none => some (put key.name (.table .header []) entries)
      | some (.table .implied inner) => some (put key.name (.table .header inner) entries)
      | some _ => none)
    .header key.path

/-- Opens another table of an array of tables. -/
def openNext? (key : Key) : Entries → Option Entries :=
  change? false
    (fun _ entries =>
      match entries.lookup key.name with
      | none => some (put key.name (.tables [] []) entries)
      | some (.tables earlier latest) =>
          some (put key.name (.tables (earlier ++ [.table .header latest]) []) entries)
      | some _ => none)
    .header key.path

/-- Binds a key in the table of the latest header. -/
def bindBelow? (header : List String) (key : Key) (value : Toml) : Entries → Option Entries :=
  change? false (bind? key value) .header header

end Toml

end Accessibility
