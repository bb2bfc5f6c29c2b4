import Chomsky.Settings

/-!
# Launching

A program has one entry routine, known by a symbol. A manifest names the symbol to start; if it is
that of the routine, the routine is called once with the arguments as they are, and otherwise nothing
is called.
-/

namespace Chomsky

/-- What an entry routine is told besides its arguments. -/
structure Environment where
  programName : Text
  settings : Settings
  deriving DecidableEq, Repr

/-- The environment as a value. -/
def Environment.detail (e : Environment) : Text :=
  let s := e.settings
  let entry := match s.entry with
    | none => "None".toList
    | some entry => "Some(".toList ++ Text.quoted entry ++ ")".toList
  "Environment \x7b program_name: ".toList ++ Text.quoted e.programName ++
    ", config: Config \x7b config_dir: ".toList ++ Text.quoted s.folder ++
    ", entry: ".toList ++ entry ++
    ", default_options: ".toList ++ Text.quotedList s.defaultOptions ++
    ", limits: DerivationLimits \x7b max_depth: ".toList ++ Text.ofNat s.limits.maxDepth ++
    ", max_states: ".toList ++ Text.ofNat s.limits.maxStates ++ " \x7d \x7d \x7d".toList

/-- Names the symbol to start. -/
structure Manifest where
  entry : Text
  deriving DecidableEq, Repr

namespace Manifest

/-- The symbol of the program itself. -/
def builtin : Manifest := ⟨"grammar_validator::core::run".toList⟩

/-- The entry of the settings, or the builtin one where it is missing or empty. -/
def ofSettings (s : Settings) : Manifest :=
  match s.entry with
  | some (c :: rest) => ⟨c :: rest⟩
  | _ => builtin

end Manifest

/-- A routine and its symbol. -/
structure Entry (α : Type) where
  symbol : Text
  routine : List Text → Environment → α

/-- The manifest names a symbol that is not provided. -/
structure MissingEntry where
  symbol : Text
  available : Text
  deriving DecidableEq, Repr

def MissingEntry.message (m : MissingEntry) : Text :=
  "entry point not found: ".toList ++ m.symbol ++ " (this package provides ".toList ++
    m.available ++ ")".toList

structure Launcher (α : Type) where
  manifest : Manifest
  entry : Entry α

namespace Launcher

variable {α : Type}

/-- The symbol of the entry routine, if it is the one to start. -/
def resolve (l : Launcher α) : Except MissingEntry Text :=
  if l.manifest.entry = l.entry.symbol then .ok l.entry.symbol
  else .error ⟨l.manifest.entry, l.entry.symbol⟩

def launch (l : Launcher α) (arguments : List Text) (e : Environment) : Except MissingEntry α :=
  l.resolve.map fun _ => l.entry.routine arguments e

end Launcher

end Chomsky
