import Chomsky.Toml.Scalar

/-!
# Tables under construction

A document defines its tables piece by piece. Each table remembers how it came about, because that
decides what may still be added to it: a table has one header at most, a dotted key adds only to
tables made by dotted keys, and a value is never extended. When the document has ended, its tables
are finished: `Node.finish` gives the value, unless a number in it has none or a table that stands
for a moment holds none.
-/

namespace Chomsky.Toml

/-- How a table came about. -/
inductive Origin where
  /-- By a header of its own. -/
  | header
  /-- By the header of a table inside it. -/
  | implied
  /-- By a dotted key. -/
  | dotted
  /-- As a value in braces. -/
  | closed
  deriving DecidableEq, Repr

/-- What a document has put under a key so far. -/
inductive Node where
  | scalar (s : Scalar)
  | array (items : List Node)
  | table (origin : Origin) (entries : List (Text × Node))
  /-- An array of tables, of which the last is still open. -/
  | tables (earlier : List (List (Text × Node))) (last : List (Text × Node))

abbrev Entries := List (Text × Node)

namespace Entries

/-- Changes the entry of a key where it stands, or adds one at the end; `none` refuses. -/
def alter (key : Text) (f : Option Node → Option Node) : Entries → Option Entries
  | [] => (f none).map fun node => [(key, node)]
  | (k, node) :: rest =>
    if k = key then (f (some node)).map fun node => (k, node) :: rest
    else (alter key f rest).map ((k, node) :: ·)

/-- Changes the entries of the table that a header's path leads to. -/
def within (f : Entries → Option Entries) : List Text → Entries → Option Entries
  | [], entries => f entries
  | key :: path, entries =>
    entries.alter key fun
      | none => (within f path []).map (Node.table .implied)
      | some (.table .closed _) => none
      | some (.table origin inner) => (within f path inner).map (Node.table origin)
      | some (.tables earlier last) => (within f path last).map (Node.tables earlier)
      | some _ => none

/-- Opens the table of a header `[path.key]`. -/
def openTable (path : List Text) (key : Text) : Entries → Option Entries :=
  within (fun entries => entries.alter key fun
    | none => some (.table .header [])
    | some (.table .implied inner) => some (.table .header inner)
    | some _ => none) path

/-- Opens the next table of a header `[[path.key]]`. -/
def openNext (path : List Text) (key : Text) : Entries → Option Entries :=
  within (fun entries => entries.alter key fun
    | none => some (.tables [] [])
    | some (.tables earlier last) => some (.tables (earlier ++ [last]) [])
    | some _ => none) path

/-- Adds a value under a dotted key, given as the path before its last part. -/
def put (key : Text) (v : Node) : List Text → Entries → Option Entries
  | [], entries =>
    entries.alter key fun
      | none => some v
      | some _ => none
  | part :: path, entries =>
    entries.alter part fun
      | none => (put key v path []).map (Node.table .dotted)
      | some (.table .dotted inner) => (put key v path inner).map (Node.table .dotted)
      | some (.table .implied inner) =>
        if path.isEmpty then none else (put key v path inner).map (Node.table .implied)
      | some (.tables earlier last) =>
        if path.isEmpty then none else (put key v path last).map (Node.tables earlier)
      | some _ => none

end Entries

/-! ## Finished values -/

/-- The key of a table that stands for a moment. -/
def momentKey : Text := "$__toml_private_datetime".toList

/-- What stands under the moment's key, if that is the first of the keys in their order. -/
def Entries.momentNode? (entries : Entries) : Option Node :=
  if entries.any fun e => decide (e.1 < momentKey) then none
  else (entries.find? fun e => e.1 == momentKey).map Prod.snd

/-- The moment that a string tells. -/
def Node.moment? : Node → Option Moment
  | .scalar (.value (.string t)) => readMoment t
  | _ => none

/-- The value of a table, given its finished entries. They do not matter if it stands for a
moment. -/
def Entries.toValue? (entries : Entries) (finished : Option (List (Text × Value))) : Option Value :=
  match entries.momentNode? with
  | some node => node.moment?.map Value.moment
  | none => finished.map Value.table

mutual

/-- The finished value. -/
def Node.finish : Node → Option Value
  | .scalar s => s.value?
  | .array items => (finishItems items).map Value.array
  | .table _ entries => Entries.toValue? entries (finishEntries entries)
  | .tables earlier last => do
    let earlier ← finishTables earlier
    let last ← Entries.toValue? last (finishEntries last)
    return .array (earlier ++ [last])

def finishItems : List Node → Option (List Value)
  | [] => some []
  | node :: rest => do return (← node.finish) :: (← finishItems rest)

def finishEntries : List (Text × Node) → Option (List (Text × Value))
  | [] => some []
  | (key, node) :: rest => do return (key, ← node.finish) :: (← finishEntries rest)

def finishTables : List (List (Text × Node)) → Option (List Value)
  | [] => some []
  | entries :: rest => do
    let table ← Entries.toValue? entries (finishEntries entries)
    return table :: (← finishTables rest)

end

end Chomsky.Toml
