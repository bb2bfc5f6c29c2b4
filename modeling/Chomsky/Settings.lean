import Chomsky.Derivation.Basic
import Chomsky.Error
import Chomsky.Path
import Chomsky.Text.Bytes
import Chomsky.Toml.Printer
import Chomsky.Toml.Reader

/-!
# Settings

Settings come from a TOML file: the entry symbol to start, options to put before those of the command
line, and limits for searches. A missing file means the standard settings. A file that cannot be read
or holds a bad limit is refused as a whole.
-/

namespace Chomsky

structure Settings where
  /-- The folder of the file. -/
  folder : Text
  entry : Option Text
  defaultOptions : List Text
  limits : Limits
  deriving DecidableEq, Repr

namespace Settings

def standard (folder : Text) : Settings := ⟨folder, none, [], .standard⟩

/-- Why a settings file is refused. -/
inductive Refusal where
  | unreadable (fault : Fault)
  | badToml
  /-- A limit that is no positive integer, with the value as it is printed; a string that holds line
  breaks is printed on several lines. -/
  | badLimit (key printed : Text)
  deriving DecidableEq, Repr

namespace Refusal

/-- What is wrong, without the details of TOML. -/
def summary : Refusal → Text
  | unreadable fault => "Failed to read config: ".toList ++ fault.message
  | badToml => "Invalid config TOML".toList
  | badLimit key printed =>
    "derivation.".toList ++ key ++ " must be a positive integer, got ".toList ++ printed

/-- What is wrong in full. For a document that is no TOML the real text goes on with a description of
several lines, for which `tomlFault` stands. -/
def message (r : Refusal) : Text :=
  "Config error: ".toList ++
    match r with
    | badToml => r.summary ++ ": ".toList ++ tomlFault
    | _ => r.summary

end Refusal

/-- A limit of a section, or the standard one where the section has none. -/
def readLimit (section? : Option Toml.Value) (key : Text) (standard : Nat) : Except Refusal Nat :=
  match section?.bind (·.get? key) with
  | none => .ok standard
  | some v =>
    match v.integer? with
    | some (.ofNat (n + 1)) => .ok (n + 1)
    | _ => .error (.badLimit key v.print)

def readLimits (section? : Option Toml.Value) : Except Refusal Limits := do
  let maxDepth ← readLimit section? "max_depth".toList Limits.standard.maxDepth
  let maxStates ← readLimit section? "max_states".toList Limits.standard.maxStates
  return ⟨maxDepth, maxStates⟩

/-- The settings of a document. Entries of another type than expected count as missing, except for
limits. -/
def ofToml (folder : Text) (root : Toml.Value) : Except Refusal Settings := do
  let entry := (root.get? "launcher".toList).bind (·.get? "entry".toList)
  let options := (root.get? "defaults".toList).bind (·.get? "options".toList)
  let limits ← readLimits (root.get? "derivation".toList)
  return {
    folder
    entry := (entry.bind Toml.Value.string?).map Text.trim
    defaultOptions := ((options.bind Toml.Value.array?).getD []).filterMap Toml.Value.string?
    limits }

/-- The fault of a file that is not there. A file that cannot even be looked up, for whatever reason,
is not there either; its fault is `missing` (`Host.settingsFile`). -/
def isAbsent : Fault → Bool
  | .system .missing | .system .notDirectory => true
  | _ => false

/-- Loads the settings from what reading their file gave. -/
def load (folder : Text) (file : Except Fault Bytes) : Except Refusal Settings :=
  match file with
  | .error fault => if isAbsent fault then .ok (standard folder) else .error (.unreadable fault)
  | .ok bytes =>
    match Text.decode bytes with
    | none => .error (.unreadable .notUtf8)
    | some text =>
      match Toml.read text with
      | none => .error .badToml
      | some root => ofToml folder root

/-- The name of the settings file in its folder. -/
def fileName : Text := "config.toml".toList

/-- The path of the settings file. -/
def path (folder : Text) : Text := Path.join folder fileName

/-- The folder that the environment variables name: one of its own, or the one for all programs. -/
def locate (valueOf : Text → Option Text) : Text :=
  match valueOf "GRAMMAR_VALIDATOR_CONFIG_DIR".toList with
  | some folder => folder
  | none =>
    let shared := (valueOf "XDG_CONFIG_HOME".toList).filter Path.isAbsolute
    let home := (valueOf "HOME".toList).filter fun h => !h.isEmpty
    match shared <|> home.map (Path.join · ".config".toList) with
    | some folder => Path.join folder "grammar-validator".toList
    | none => ".grammar-validator".toList

end Settings

end Chomsky
