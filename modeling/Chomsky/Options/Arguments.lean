import Chomsky.Options.Basic
import Chomsky.Text.Plain

/-!
# Arguments

The command line is read from left to right. A value that stands alone after its option is checked
only when the next known option or file name comes, or at the end; an argument that is refused for
itself is reported before it. Main definition: `Options.ofArguments`.
-/

namespace Chomsky

/-- Arguments that have a value. -/
inductive Slot where
  | grammarFile
  | target
  | maxDepth
  | maxStates
  | format
  | completions
  deriving DecidableEq, Repr

/-- Arguments that have none. -/
inductive Switch where
  | checkDerivation
  | traceback
  | debug
  deriving DecidableEq, Repr

def Slot.label : Slot → Text
  | grammarFile => "[GRAMMAR_FILE]".toList
  | target => "--derive <TARGET>".toList
  | maxDepth => "--max-depth <N>".toList
  | maxStates => "--max-states <N>".toList
  | format => "--format <FORMAT>".toList
  | completions => "--generate-completions <SHELL>".toList

def Switch.label : Switch → Text
  | checkDerivation => "--check-derivation".toList
  | traceback => "--traceback".toList
  | debug => "--debug".toList

/-- Why a text is no positive number of 64 bits. -/
inductive NumberFlaw where
  | empty
  | notDigit
  | tooLarge
  | zero
  deriving DecidableEq, Repr

def NumberFlaw.message : NumberFlaw → Text
  | empty => "cannot parse integer from empty string".toList
  | notDigit => "invalid digit found in string".toList
  | tooLarge => "number too large to fit in target type".toList
  | zero => "0 is not in 1..18446744073709551615".toList

inductive UsageError where
  | unexpected (argument : Text)
  | missingValue (slot : Slot)
  | unknownChoice (slot : Slot) (value : Text)
  | badNumber (slot : Slot) (value : Text) (flaw : NumberFlaw)
  | repeatedArgument (label : Text)
  | unneededValue (label value : Text)
  deriving DecidableEq, Repr

/-- What is wrong; the parts that come from the command line are shown plain. -/
def UsageError.message (m : Text.Medium) : UsageError → Text
  | unexpected argument =>
    "error: unexpected argument '".toList ++ Text.plain m argument ++ "' found".toList
  | missingValue slot =>
    "error: a value is required for '".toList ++ slot.label ++ "' but none was supplied".toList
  | unknownChoice slot value =>
    "error: invalid value '".toList ++ Text.plain m value ++ "' for '".toList ++ slot.label ++
      "'".toList
  | badNumber slot value flaw =>
    "error: invalid value '".toList ++ Text.plain m value ++ "' for '".toList ++ slot.label ++
      "': ".toList ++ flaw.message
  | repeatedArgument label =>
    "error: the argument '".toList ++ label ++ "' cannot be used multiple times".toList
  | unneededValue label value =>
    "error: unexpected value '".toList ++ Text.plain m value ++ "' for '".toList ++ label ++
      "' found; no more were expected".toList

/-- The first line of the message by itself. -/
def UsageError.line (e : UsageError) : Text := Text.firstLine (e.message .page)

/-- The message as it is printed, up to and with its first newline. -/
def UsageError.printed (e : UsageError) : Text :=
  (e.message .stream).takeWhile (· != '\n') ++ ['\n']

/-- Why the command line gives no options. -/
inductive Stop where
  | help (long : Bool)
  | version
  | usage (e : UsageError)
  deriving DecidableEq, Repr

/-- Digits in base ten after those of `n`. The first character that is no digit or makes the number
too large is reported. -/
def readDigits (n : Nat) : Text → Except NumberFlaw Nat
  | [] => .ok n
  | c :: rest =>
    if !c.isDigit then .error .notDigit
    else
      let n := 10 * n + (c.toNat - '0'.toNat)
      if UInt64.size ≤ n then .error .tooLarge else readDigits n rest

/-- A number from 1 to 2^64 - 1; a plus sign may stand in front. -/
def readCount (t : Text) : Except NumberFlaw Nat :=
  match t with
  | [] => .error .empty
  | ['+'] => .error .notDigit
  | _ => do
    let n ← readDigits 0 (if t.head? = some '+' then t.tail else t)
    if n = 0 then .error .zero else return n

namespace Options

/-- The argument is given. -/
def has (o : Options) : Slot → Bool
  | .grammarFile => o.grammarFile.isSome
  | .target => o.target.isSome
  | .maxDepth => o.maxDepth.isSome
  | .maxStates => o.maxStates.isSome
  | .format => o.givenFormat.isSome
  | .completions => o.completions.isSome

/-- Reads the value of an argument. -/
def assign (o : Options) (slot : Slot) (value : Text) : Except UsageError Options :=
  match slot with
  | .grammarFile =>
    if value.isEmpty then .error (.missingValue slot) else .ok { o with grammarFile := some value }
  | .target => .ok { o with target := some value }
  | .maxDepth =>
    match readCount value with
    | .ok n => .ok { o with maxDepth := some n }
    | .error flaw => .error (.badNumber slot value flaw)
  | .maxStates =>
    match readCount value with
    | .ok n => .ok { o with maxStates := some n }
    | .error flaw => .error (.badNumber slot value flaw)
  | .format =>
    match Format.ofArgument? value with
    | some f => .ok { o with givenFormat := some f }
    | .none =>
      .error (if value.isEmpty then .missingValue slot else .unknownChoice slot value)
  | .completions =>
    match Shell.ofArgument? value with
    | some s => .ok { o with completions := some s }
    | .none =>
      .error (if value.isEmpty then .missingValue slot else .unknownChoice slot value)

/-- Settles an argument: it needs a value, must not be given yet, and the value must be right. -/
def settle (o : Options) (slot : Slot) (value : Option Text) : Except UsageError Options :=
  match value with
  | .none => .error (.missingValue slot)
  | some v => if o.has slot then .error (.repeatedArgument slot.label) else o.assign slot v

def isOn (o : Options) : Switch → Bool
  | .checkDerivation => o.checkDerivation
  | .traceback => o.traceback
  | .debug => o.debug

def turnOn (o : Options) : Switch → Options
  | .checkDerivation => { o with checkDerivation := true }
  | .traceback => { o with traceback := true }
  | .debug => { o with debug := true }

end Options

/-- The named arguments. -/
inductive Named where
  | slot (s : Slot)
  | switch (s : Switch)
  | help
  | version
  deriving DecidableEq, Repr

namespace Named

def label : Named → Text
  | slot s => s.label
  | switch s => s.label
  | help => "--help".toList
  | version => "--version".toList

/-- The argument of a long name, given without its two dashes. -/
def ofLong? (name : Text) : Option Named :=
  if name = "derive".toList then some (slot .target)
  else if name = "max-depth".toList then some (slot .maxDepth)
  else if name = "max-states".toList then some (slot .maxStates)
  else if name = "format".toList then some (slot .format)
  else if name = "generate-completions".toList then some (slot .completions)
  else if name = "check-derivation".toList then some (switch .checkDerivation)
  else if name = "traceback".toList then some (switch .traceback)
  else if name = "debug".toList then some (switch .debug)
  else if name = "help".toList then some help
  else if name = "version".toList then some version
  else none

/-- The argument of a short name. -/
def ofShort? (c : Char) : Option Named :=
  if c = 'd' then some (slot .target)
  else if c = 'h' then some help
  else if c = 'V' then some version
  else none

end Named

/-- Arguments read so far. -/
structure Scan where
  options : Options
  /-- The last argument with a value, if it is not settled yet. -/
  pending : Option (Slot × Option Text)
  /-- After `--` only file names follow. -/
  onlyFiles : Bool
  deriving DecidableEq, Repr

namespace Scan

def initial : Scan := ⟨.none, none, false⟩

/-- Settles the pending argument. -/
def resolve (s : Scan) : Except Stop Scan :=
  match s.pending with
  | none => .ok s
  | some (slot, value) =>
    match s.options.settle slot value with
    | .ok o => .ok { s with options := o, pending := none }
    | .error e => .error (.usage e)

/-- There is a grammar file, settled or pending. -/
def hasFile (s : Scan) : Bool :=
  s.options.has .grammarFile || s.pending.any fun p => p.1 == .grammarFile

/-- A file name; only the first is expected. -/
def file (s : Scan) (name : Text) : Except Stop Scan :=
  if s.hasFile then .error (.usage (.unexpected name))
  else do
    let s ← s.resolve
    return { s with pending := some (.grammarFile, some name) }

/-- A named argument. A value attached to it is settled at once. -/
def named (s : Scan) (n : Named) (long : Bool) (value : Option Text) : Except Stop Scan :=
  match n, value with
  | .slot slot, none => do
    let s ← s.resolve
    return { s with pending := some (slot, none) }
  | .slot slot, some v => do
    let s ← s.resolve
    ({ s with pending := some (slot, some v) } : Scan).resolve
  | n, some v => .error (.usage (.unneededValue n.label v))
  | .switch switch, none => do
    let s ← s.resolve
    if s.options.isOn switch then .error (.usage (.repeatedArgument switch.label))
    else return { s with options := s.options.turnOn switch }
  | .help, none => do
    let _ ← s.resolve
    .error (.help long)
  | .version, none => do
    let _ ← s.resolve
    .error .version

/-- Splits `name=value` at the first equals sign. -/
def splitValue (t : Text) : Text × Option Text :=
  match t.dropWhile (· != '=') with
  | [] => (t, none)
  | _ :: value => (t.takeWhile (· != '='), some value)

/-- An argument after two dashes. -/
def long (s : Scan) (t : Text) : Except Stop Scan :=
  let (name, value) := splitValue t
  match Named.ofLong? name with
  | some n => s.named n true value
  | none => .error (.usage (.unexpected ('-' :: '-' :: name)))

/-- An argument after one dash. What follows the letter of an option is its value, after an equals
sign if there is one; the other letters end the command line. -/
def short (s : Scan) (c : Char) (rest : Text) : Except Stop Scan :=
  match Named.ofShort? c with
  | some (.slot slot) =>
    match rest with
    | [] => s.named (.slot slot) false none
    | '=' :: value => s.named (.slot slot) false (some value)
    | value => s.named (.slot slot) false (some value)
  | some n => s.named n false none
  | none => .error (.usage (.unexpected ['-', c]))

/-- Reads one argument. A single dash is a value or a file name. -/
def take (s : Scan) (argument : Text) : Except Stop Scan :=
  if s.onlyFiles then s.file argument
  else
    match argument with
    | ['-', '-'] => .ok { s with onlyFiles := true }
    | '-' :: '-' :: t => s.long t
    | '-' :: c :: rest => s.short c rest
    | _ =>
      match s.pending with
      | some (slot, none) => .ok { s with pending := some (slot, some argument) }
      | _ => s.file argument

end Scan

/-- The options of arguments, of which the first is the name of the program. -/
def Options.ofArguments (arguments : List Text) : Except Stop Options := do
  let s ← arguments.tail.foldlM Scan.take Scan.initial
  return (← s.resolve).options

end Chomsky
