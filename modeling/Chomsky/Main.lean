import Chomsky.Program

/-!
# Command line

Reads what a run needs, and prints and exits as it says. Signals are left to the system: a process
that comes to its end was not asked to stop.
-/

open Chomsky

def faultOf : IO.Error → Fault
  | .noFileOrDirectory .. => .system .missing
  | .inappropriateType _ 20 _ => .system .notDirectory
  | .inappropriateType _ 21 _ => .system .isDirectory
  | .permissionDenied .. => .system .accessDenied
  | e => .other (toString e).toList

def readPath (path : Text) : IO (Except Fault Bytes) := do
  try
    return .ok (← IO.FS.readBinFile (String.ofList path)).toList
  catch e => return .error (faultOf e)

/-- A settings file that cannot be looked up counts as missing, whatever keeps it from being found. -/
def readSettings (path : Text) : IO (Except Fault Bytes) := do
  try
    discard <| IO.FS.realPath (String.ofList path)
  catch _ => return .error (.system .missing)
  readPath path

def main (arguments : List String) : IO UInt32 := do
  let program := (← IO.appPath).toString.toList
  let arguments := program :: arguments.map String.toList
  let shared ← IO.getEnv "XDG_CONFIG_HOME"
  let home ← IO.getEnv "HOME"
  let own ← IO.getEnv "GRAMMAR_VALIDATOR_CONFIG_DIR"
  let folder := Settings.locate fun name =>
    if name = "XDG_CONFIG_HOME".toList then shared.map String.toList
    else if name = "HOME".toList then home.map String.toList
    else own.map String.toList
  let settingsFile ← readSettings (Settings.path folder)
  let bare : Host := ⟨folder, settingsFile, fun _ => .error (.system .missing), []⟩
  let host ← match Program.need (Program.settings bare).1 arguments with
    | .nothing => pure bare
    | .file path => do
      let content ← readPath path
      pure { bare with contentOf := fun _ => content }
    | .input => do
      let input ← (← IO.getStdin).readToEnd
      pure { bare with input := input.toUTF8.toList }
  let outcome := Program.process host arguments .quiet
  IO.eprint (String.ofList outcome.err)
  IO.print (String.ofList outcome.out)
  return UInt32.ofNat outcome.status.code
