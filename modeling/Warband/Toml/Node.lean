/-!
# Documents

A TOML document is a tree of tables, arrays and scalars. A table remembers how it
came about, since that decides who may still add to it: a header may complete a
table that only other headers implied, and a dotted key may extend a table that
only dotted keys made.
-/
namespace Warband.Toml

/-- How a table came about. -/
inductive Origin where
  /-- By its own header. -/
  | header
  /-- As a part of another table's header. -/
  | implied
  /-- As a part of a dotted key. -/
  | dotted
  /-- As a value in braces. -/
  | inline
deriving DecidableEq, Repr

inductive Node where
  | string (text : String)
  | integer (value : Int)
  | float (value : Float)
  | boolean (value : Bool)
  /-- A date, a time, or both. -/
  | moment
  | array (items : List Node)
  | table (origin : Origin) (fields : List (String × Node))
  /-- Tables that share one header in double brackets. -/
  | tables (items : List (List (String × Node)))

abbrev Fields := List (String × Node)

namespace Fields

def has (fs : Fields) (key : String) : Bool := (fs.lookup key).isSome

/-- Writes a field in the place of the old one of that name, or at the end. -/
def put (fs : Fields) (key : String) (node : Node) : Fields :=
  if has fs key then fs.map fun f => if f.1 == key then (key, node) else f
  else fs ++ [(key, node)]

/-- Adds a field that is not there yet. -/
def addNew? (fs : Fields) (key : String) (node : Node) : Option Fields :=
  if has fs key then none else some (fs ++ [(key, node)])

/-- Rewrites the last of several tables. -/
def onLast? (f : Fields → Option Fields) : List Fields → Option (List Fields)
  | [] => none
  | [last] => (f last).map ([·])
  | first :: rest => (onLast? f rest).map (first :: ·)

/-- Adds a field under a dotted key. The tables on the way must have been made
by dotted keys, or be implied by headers if a dotted table lies below them. -/
def insert? : List String → String → Node → Fields → Option Fields
  | [], key, node, fs => addNew? fs key node
  | step :: path, key, node, fs =>
    match fs.lookup step with
    | none => (insert? path key node []).map fun sub => put fs step (.table .dotted sub)
    | some (.table .dotted sub) =>
      (insert? path key node sub).map fun sub => put fs step (.table .dotted sub)
    | some (.table .implied sub) =>
      if path.isEmpty then none
      else (insert? path key node sub).map fun sub => put fs step (.table .implied sub)
    | some (.tables items) =>
      if path.isEmpty then none
      else (onLast? (insert? path key node) items).map fun items => put fs step (.tables items)
    | some _ => none

/-- Rewrites the fields that a header path leads to. Missing tables on the way
are implied; a name of several tables means the last of them. -/
def descend? (f : Fields → Option Fields) : List String → Fields → Option Fields
  | [], fs => f fs
  | step :: path, fs =>
    match fs.lookup step with
    | none => (descend? f path []).map fun sub => put fs step (.table .implied sub)
    | some (.table .inline _) => none
    | some (.table origin sub) =>
      (descend? f path sub).map fun sub => put fs step (.table origin sub)
    | some (.tables items) =>
      (onLast? (descend? f path) items).map fun items => put fs step (.tables items)
    | some _ => none

end Fields

/-- A dotted key: the names of the tables on the way and the last name. -/
structure Key where
  path : List String
  last : String
deriving DecidableEq, Repr

/-- The names of a key, without the last one. -/
def Key.ofNames? : List String → Option Key
  | [] => none
  | [last] => some ⟨[], last⟩
  | first :: rest => (ofNames? rest).map fun k => ⟨first :: k.path, k.last⟩

/-- Keys and values in the order they are written. -/
abbrev Entries := List (Key × Node)

/-- Adds entries to fields, each under its dotted key. -/
def Fields.addAll? (fs : Fields) (entries : Entries) : Option Fields :=
  entries.foldlM (fun fs (key, node) => insert? key.path key.last node fs) fs

/-- A header with the entries below it. -/
structure Section where
  key : Key
  /-- In double brackets. -/
  repeated : Bool
  entries : Entries

namespace Section

/-- Completes a table that was at most implied so far. -/
def define? (entries : Entries) (key : String) (fs : Fields) : Option Fields :=
  match fs.lookup key with
  | none => (Fields.addAll? [] entries).map fun sub => Fields.put fs key (.table .header sub)
  | some (.table .implied sub) =>
    (Fields.addAll? sub entries).map fun sub => Fields.put fs key (.table .header sub)
  | some _ => none

/-- Adds one more table to those of the same header. -/
def append? (entries : Entries) (key : String) (fs : Fields) : Option Fields :=
  match fs.lookup key with
  | none => (Fields.addAll? [] entries).map fun sub => Fields.put fs key (.tables [sub])
  | some (.tables items) =>
    (Fields.addAll? [] entries).map fun sub => Fields.put fs key (.tables (items ++ [sub]))
  | some _ => none

def add? (fs : Fields) (s : Section) : Option Fields :=
  fs.descend? (if s.repeated then append? s.entries s.key.last else define? s.entries s.key.last)
    s.key.path

end Section

/-- The document of entries before any header, and of sections in order. -/
def document? (entries : Entries) (sections : List Section) : Option Fields := do
  sections.foldlM Section.add? (← Fields.addAll? [] entries)

end Warband.Toml
