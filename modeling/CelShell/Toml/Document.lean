import CelShell.Toml.Number
import CelShell.Toml.Text

/-!
# Documents of configuration data

A document builds a tree of tables. Tables come about in three ways, by a header, by the dots of a
key or on the way to another header, and that decides who may extend them: a header may complete a
table that only lay on the way, dots may extend what dots made, and nothing is defined twice.
-/

namespace CelShell.Toml

/-- How a table under construction came about. -/
inductive Origin where
  /-- It lies on the way to the table of a header. -/
  | implicit
  /-- It has a header, or is the whole document. -/
  | header
  /-- A key with dots goes through it. -/
  | dotted
  deriving DecidableEq, Repr

/-- A part of a document under construction. -/
inductive Node where
  /-- A value, which nothing extends. -/
  | value (v : Toml)
  /-- A table. -/
  | table (origin : Origin) (entries : List (String × Node))
  /-- An array of tables; the last one is open. -/
  | tables (items : List (List (String × Node)))

namespace Node

/-- The entries of a table under construction. -/
abbrev Entries := List (String × Node)

/-- Changes the table at the end of a path. Tables that are missing on the way are made, by the
dots of a key or as implicit ones; an array of tables is entered at its last table. -/
def alter (dotted : Bool) (change : Origin → Entries → Except Fault Entries) :
    List String → Origin → Entries → Except Fault Entries
  | [], origin, entries => change origin entries
  | key :: path, _, entries =>
    match Table.get? entries key with
    | none => do
      let origin := if dotted then .dotted else .implicit
      let inner ← alter dotted change path origin []
      return Table.insert entries key (.table origin inner)
    | some (.value _) => throw (.notTable key)
    | some (.table origin inner) => do
      -- Dots do not extend what has a header.
      if dotted && origin = .header then throw (.repeated key)
      let inner ← alter dotted change path origin inner
      return Table.insert entries key (.table origin inner)
    | some (.tables items) => do
      -- The open table of the array is the last one.
      let inner ← alter dotted change path .header (items.getLast?.getD [])
      return Table.insert entries key (.tables (items.dropLast ++ [inner]))

/-- Gives a key of a table a value. A key with dots reaches only tables that dots made. -/
def define (path : List String) (v : Toml) (origin : Origin) (entries : Entries) :
    Except Fault Entries :=
  let key := path.getLast?.getD ""
  alter true
    (fun reached inner =>
      -- With dots the table at their end has to be one that dots made, and without them it must not
      -- be one.
      if (reached == .dotted) == path.dropLast.isEmpty || Table.contains inner key then
        throw (.repeated key)
      else return Table.insert inner key (.value v))
    path.dropLast origin entries

/-- Opens the table of a header. -/
def openTable (path : List String) (root : Entries) : Except Fault Entries :=
  let key := path.getLast?.getD ""
  alter false
    (fun _ entries =>
      match Table.get? entries key with
      | none => return Table.insert entries key (.table .header [])
      -- So far the table has only been on the way to others.
      | some (.table .implicit inner) => return Table.insert entries key (.table .header inner)
      | some _ => throw (.repeated key))
    path.dropLast .header root

/-- Opens one more table of an array of tables. -/
def openItem (path : List String) (root : Entries) : Except Fault Entries :=
  let key := path.getLast?.getD ""
  alter false
    (fun _ entries =>
      match Table.get? entries key with
      | none => return Table.insert entries key (.tables [[]])
      | some (.tables items) => return Table.insert entries key (.tables (items ++ [[]]))
      | some _ => throw (.repeated key))
    path.dropLast .header root

mutual

/-- The value of a finished part. -/
def finish : Node → Toml
  | value v => v
  | table _ entries => .table (finishEntries entries)
  | tables items => .array (finishItems items)

/-- The entries of a finished table. -/
def finishEntries : List (String × Node) → List (String × Toml)
  | [] => []
  | (key, node) :: rest => (key, node.finish) :: finishEntries rest

/-- The tables of a finished array. -/
def finishItems : List (List (String × Node)) → List Toml
  | [] => []
  | entries :: rest => .table (finishEntries entries) :: finishItems rest

end

end Node

namespace Reader

/-- The elements of an array after its opening bracket, with a bound on their number. -/
def items (item : Reader Toml) : Nat → Reader (List Toml)
  | 0 => expected "']'"
  | bound + 1 => do
    gap
    if ← accept ']' then return []
    let v ← item
    gap
    if ← accept ',' then return v :: (← items item bound)
    expect ']'
    return [v]

/-- The definitions of a table on one line after its opening brace, with a bound on their
number. -/
def definitions (item : Reader Toml) : Nat → Node.Entries → Reader Node.Entries
  | 0, _ => expected "a closing brace"
  | bound + 1, entries => do
    let path ← key
    expect '='
    blanks
    let v ← item
    blanks
    let entries ← Node.define path v .header entries
    if ← accept ',' then definitions item bound entries
    else
      expect '\x7d'
      return entries

/-- A table on one line after its opening brace. -/
def inlineTable (item : Reader Toml) : Reader Toml := do
  blanks
  if ← accept '\x7d' then return .table []
  return .table (Node.finishEntries (← definitions item (← remaining) []))

/-- A value whose parts are read by a reader; without one it has no parts. -/
def valueOver (item : Option (Reader Toml)) : Reader Toml := do
  match (← get).head?, item with
  | some '"', _ | some '\'', _ => return .string (← text)
  | some '[', some item =>
    expect '['
    return .array (← items item (← remaining))
  | some '\x7b', some item =>
    expect '\x7b'
    inlineTable item
  -- A value with parts takes a level, and none is left.
  | some '[', none | some '\x7b', none => throw .tooDeep
  | _, _ =>
    if ← acceptText "true" then return .boolean true
    else if ← acceptText "false" then return .boolean false
    else numberOrTime

/-- A value with at most a number of levels. -/
def value : Nat → Reader Toml
  | 0 => valueOver none
  | depth + 1 => valueOver (some (value depth))

/-- What has been read of a document. -/
structure Progress where
  /-- The tables. -/
  root : Node.Entries
  /-- Where the open table is. -/
  current : List String

/-- A header, which opens a table. -/
def header (p : Progress) : Reader Progress := do
  expect '['
  let isItem ← accept '['
  let path ← key
  expect ']'
  -- Two brackets open one more table of an array.
  if isItem then expect ']'
  lineEnd
  let root ← if isItem then Node.openItem path p.root else Node.openTable path p.root
  return ⟨root, path⟩

/-- A definition in the open table. -/
def definition (p : Progress) : Reader Progress := do
  let path ← key
  expect '='
  blanks
  let v ← value maxDepth
  lineEnd
  return { p with root := ← Node.alter false (Node.define path v) p.current .header p.root }

/-- The lines of a document, with a bound on their number. -/
def lines : Nat → Progress → Reader Progress
  | 0, _ => expected "the end"
  | bound + 1, p => do
    blanks
    match (← get).head? with
    | none => return p
    | some '[' => lines bound (← header p)
    | some '#' | some '\n' | some '\r' =>
      lineEnd
      lines bound p
    | some _ => lines bound (← definition p)

end Reader

/-- The document of a text; a mark of byte order before it does not count. -/
def parse (content : String) : Except Fault Toml :=
  let cs := match content.toList with
    | '\ufeff' :: rest => rest
    | cs => cs
  (Reader.lines (cs.length + 1) ⟨[], []⟩ cs).map fun (p, _) =>
    .table (Node.finishEntries p.root)

end CelShell.Toml
