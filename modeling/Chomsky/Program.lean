import Chomsky.Declaration.File
import Chomsky.Derivation.Search
import Chomsky.Launch
import Chomsky.Options.Arguments
import Chomsky.Options.Completion
import Chomsky.Options.Help
import Chomsky.Story

/-!
# The program

`Program.run` is a whole run as a function: from arguments, settings, files and standard input to an
exit status and two texts. A run searches at most once. It is defined here for any function that
answers what a search is asked, a `Finder`, and the run of the program is the one in which
`Grammar.derive` answers. So one can ask which queries a run puts: those whose answers make a
difference to it (`Program.Consults`).
-/

namespace Chomsky

/-- What the program meets outside. -/
structure Host where
  /-- The folder of the settings file. -/
  settingsFolder : Text
  /-- What reading the settings file gives. The file is looked up first, and if that fails, for
  whatever reason, the fault is `missing`. -/
  settingsFile : Except Fault Bytes
  /-- What reading the file of a path gives. -/
  contentOf : Text → Except Fault Bytes
  /-- Standard input. -/
  input : Bytes

namespace Program

/-! ## Arguments and settings -/

/-- Default options are flags; others are left out. -/
def isFlag (t : Text) : Bool := t.head? == some '-'

/-- The default options that are flags, put right after the name of the program. -/
def withDefaults (defaults arguments : List Text) : List Text :=
  arguments.take 1 ++ defaults.filter isFlag ++ arguments.drop 1

/-- Warns of default options that are no flags. -/
def defaultsWarning (defaults : List Text) : Text :=
  match defaults.filter fun t => !isFlag t with
  | [] => []
  | positional =>
    Log.warning ("Positional arguments in default_options are ignored: ".toList ++
      Text.quotedList positional ++
      ". Only flags (starting with -) can be used in default_options.".toList)

/-- Some argument asks for errors in detail, whatever its place. -/
def asksForDetail (arguments : List Text) : Bool :=
  arguments.any fun a => a == "--debug".toList || a == "--traceback".toList

/-- The outcome of arguments that give no options. -/
def stopped (arguments : List Text) : Stop → Outcome
  | .help true => ⟨.success, Help.long (Help.shownName arguments), []⟩
  | .help false => ⟨.success, Help.short (Help.shownName arguments), []⟩
  | .version => ⟨.success, Help.version, []⟩
  | .usage e => ⟨.failure, [], e.printed⟩

/-- The outcome of a manifest with another entry. -/
def refused (m : MissingEntry) : Outcome :=
  ⟨.failure, [], "Error: ".toList ++ m.message ++ ['\n']⟩

/-- The settings of a run; settings that are refused are the standard ones, with a warning. -/
def settings (host : Host) : Settings × Text :=
  match Settings.load host.settingsFolder host.settingsFile with
  | .ok s => (s, [])
  | .error r =>
    (.standard host.settingsFolder, Log.warning ("Failed to load config: ".toList ++ r.message))

/-- What a run reads besides its settings. -/
inductive Need where
  | nothing
  | file (path : Text)
  | input
  deriving DecidableEq, Repr

/-- What a run with these settings and arguments reads. -/
def need (s : Settings) (arguments : List Text) : Need :=
  if (Manifest.ofSettings s).entry ≠ Manifest.builtin.entry then .nothing
  else
    match Options.ofArguments (withDefaults s.defaultOptions arguments) with
    | .error _ => .nothing
    | .ok o =>
      match o.completions, o.grammarFile with
      | some _, _ => .nothing
      | none, some path => .file path
      | none, none => .input

end Program

/-! ## Runs with any search -/

/-- What a search is asked. -/
structure Query where
  grammar : Grammar
  target : Word
  limits : Limits
  deriving DecidableEq, Repr

/-- Answers queries. -/
abbrev Finder := Query → Derivation

namespace Finder

/-- The search of the program. -/
def standard : Finder := fun q => q.grammar.derive q.target q.limits

/-- The report on a grammar, after the search for the target if there is one. -/
def report (find : Finder) (g : Grammar) (target : Option Word) (limits : Limits) : Report :=
  ⟨g, g.classify, target.map fun t => (t, find ⟨g, t, limits⟩)⟩

/-- The story of a grammar from a file. -/
def fileStory (find : Finder) (host : Host) (path : Text) (target : Option Word)
    (limits : Limits) : Story :=
  match (Declaration.load path (host.contentOf path)).bind Declaration.toGrammar with
  | .error e => ⟨[], .error e⟩
  | .ok g => ⟨[.classified g g.classify], .ok (find.report g target limits)⟩

/-- The story of a grammar from a dialogue, which also asks for a target if none is given. -/
def dialogueStory (find : Finder) (host : Host) (target : Option Word) (limits : Limits) : Story :=
  let first := Dialogue.readGrammar (Line.ofInput host.input)
  let events := first.said.map Event.remark
  match first.answer with
  | .error e => ⟨events, .error e⟩
  | .ok g =>
    let events := events ++ [.classified g g.classify]
    match target with
    | some t => ⟨events, .ok (find.report g (some t) limits)⟩
    | none =>
      let second := Dialogue.readTarget first.unread
      let events := events ++ second.said.map Event.remark
      match second.answer with
      | .error e => ⟨events, .error e⟩
      | .ok t => ⟨events, .ok (find.report g t limits)⟩

/-- The story that the options ask for. -/
def story (find : Finder) (host : Host) (o : Options) (limits : Limits) : Story :=
  match o.grammarFile with
  | some path => find.fileStory host path o.target limits
  | none => find.dialogueStory host o.target limits

/-- Reports on one grammar. -/
def validate (find : Finder) (host : Host) (o : Options) (detailed : Bool) (base : Limits) :
    Outcome :=
  let outcome := (find.story host o (o.limits base)).tell o.format o.checkDerivation detailed
  if o.debug then outcome.warned ("Debug: ".toList ++ o.detail ++ ['\n']) else outcome

/-- The entry routine. -/
def routine (find : Finder) (host : Host) (arguments : List Text) (e : Environment) : Outcome :=
  let name := (arguments.head?.bind Path.fileStem?).getD e.programName
  let merged := Program.withDefaults e.settings.defaultOptions arguments
  Outcome.warned (Program.defaultsWarning e.settings.defaultOptions)
    (match Options.ofArguments merged with
      | .error stop => Program.stopped merged stop
      | .ok o =>
        match o.completions with
        | some shell => ⟨.success, Completion.script shell name, []⟩
        | none => find.validate host o (Program.asksForDetail merged) e.settings.limits)

def entry (find : Finder) (host : Host) : Entry Outcome :=
  ⟨Manifest.builtin.entry, find.routine host⟩

/-- A whole run. -/
def run (find : Finder) (host : Host) (arguments : List Text) : Outcome :=
  let (s, warning) := Program.settings host
  let launcher : Launcher Outcome := ⟨Manifest.ofSettings s, find.entry host⟩
  Outcome.warned warning
    (match launcher.launch arguments ⟨Help.programName, s⟩ with
      | .ok outcome => outcome
      | .error m => Program.refused m)

end Finder

/-! ## The run of the program

All parts of it are those of any run, with the search of the program. -/

namespace Program

def report (g : Grammar) (target : Option Word) (limits : Limits) : Report :=
  Finder.standard.report g target limits

def fileStory (host : Host) (path : Text) (target : Option Word) (limits : Limits) : Story :=
  Finder.standard.fileStory host path target limits

def dialogueStory (host : Host) (target : Option Word) (limits : Limits) : Story :=
  Finder.standard.dialogueStory host target limits

def story (host : Host) (o : Options) (limits : Limits) : Story :=
  Finder.standard.story host o limits

def validate (host : Host) (o : Options) (detailed : Bool) (base : Limits) : Outcome :=
  Finder.standard.validate host o detailed base

def routine (host : Host) (arguments : List Text) (e : Environment) : Outcome :=
  Finder.standard.routine host arguments e

def run (host : Host) (arguments : List Text) : Outcome := Finder.standard.run host arguments

/-- What a process leaves: its run, with another status if the user asked to stop meanwhile. What is
printed at the moment of asking is left out. -/
def process (host : Host) (arguments : List Text) (i : Interrupt) : Outcome :=
  let outcome := run host arguments
  { outcome with status := i.settle outcome.status }

/-- The run puts the query: with another answer to it, and to it alone, another outcome can come of
the run. -/
def Consults (host : Host) (arguments : List Text) (q : Query) : Prop :=
  ∃ find : Finder, (∀ other, other ≠ q → find other = Finder.standard other) ∧
    find.run host arguments ≠ run host arguments

end Program

end Chomsky
