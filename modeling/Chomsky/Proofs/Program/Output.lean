import Mathlib.Control.Monad.Basic
import Chomsky.Program
import Chomsky.Proofs.Json.RoundTrip

/-!
# What a run reports on

Whatever search answers its query, a run either ends with a report on the grammar that it reads or
reads none and ends with an error (`Program.Reads`, `Finder.exists_story`,
`Finder.reads_or_exists_story`). In JSON the document of that report is all that comes to standard
output, whatever else is said (`Program.run_json`). No run ends as interrupted by itself, only a
process that the user asks to stop (`Program.process_eq`).
-/

namespace Chomsky

theorem Outcome.warned_warned (first second : Text) (o : Outcome) :
    (o.warned second).warned first = o.warned (first ++ second) := by
  simp [warned]

namespace Report

/-- The text is one JSON value and a newline. It is read as that value, and it is all that the
report writes. -/
structure IsDocument (r : Report) (t : Text) : Prop where
  value : t = r.toJson.render ++ ['\n']
  read : Json.read t = some r.toJson
  written : ∃ full, r.writeJson .unlimited = .ok full ∧ full.written = Text.encode t

theorem isDocument_iff (r : Report) (t : Text) : r.IsDocument t ↔ t = r.document := by
  refine ⟨fun document => document.value, ?_⟩
  rintro rfl
  have blank : ∀ c ∈ ['\n'], Json.isSpace c = true := List.forall_mem_singleton.2 rfl
  exact ⟨rfl, r.toJson.read_render_append blank, r.writeJson_of_endless rfl⟩

end Report

namespace Program

variable {host : Host} {arguments : List Text} {o : Options} {limits : Limits} {r : Report}

/-- The grammar and the target that a run with these options reads. Only a dialogue asks for a
target, and only if the options name none. -/
inductive Reads (host : Host) (o : Options) : Grammar → Option Word → Prop
  | file {path : Text} {d : Declaration} {g : Grammar} (named : o.grammarFile = some path)
      (declared : Declaration.load path (host.contentOf path) = .ok d)
      (built : d.toGrammar = .ok g) :
    Reads host o g o.target
  | entered {g : Grammar} {target : Word} (unnamed : o.grammarFile = none)
      (answered : (Dialogue.readGrammar (Line.ofInput host.input)).answer = .ok g)
      (given : o.target = some target) :
    Reads host o g (some target)
  | asked {g : Grammar} {target : Option Word} (unnamed : o.grammarFile = none)
      (answered : (Dialogue.readGrammar (Line.ofInput host.input)).answer = .ok g)
      (missing : o.target = none)
      (named : (Dialogue.readTarget
        (Dialogue.readGrammar (Line.ofInput host.input)).unread).answer = .ok target) :
    Reads host o g target

/-- The settings name the entry of the program. -/
def Starts (host : Host) : Prop :=
  (Manifest.ofSettings (settings host).1).entry = Manifest.builtin.entry

/-- The arguments of a run, after the default options of its settings. -/
def mergedArguments (host : Host) (arguments : List Text) : List Text :=
  withDefaults (settings host).1.defaultOptions arguments

end Program

namespace Finder

variable {host : Host} {o : Options} {g : Grammar} {target : Option Word}

/-- With the grammar and the target that it reads a run ends with the report on them. What it says
before does not depend on the search. -/
theorem exists_story (reads : Program.Reads host o g target) (limits : Limits) :
    ∃ events, ∀ find : Finder,
      find.story host o limits = ⟨events, .ok (find.report g target limits)⟩ := by
  cases reads with
  | file named declared built =>
    refine ⟨[.classified g g.classify], fun find => ?_⟩
    simp [story, named, fileStory, declared, Except.bind, built]
  | entered unnamed answered given =>
    refine ⟨(Dialogue.readGrammar (Line.ofInput host.input)).said.map Event.remark ++
      [.classified g g.classify], fun find => ?_⟩
    simp only [story, unnamed, dialogueStory, answered, given]
  | asked unnamed answered missing named =>
    refine ⟨(Dialogue.readGrammar (Line.ofInput host.input)).said.map Event.remark ++
      [.classified g g.classify] ++
      (Dialogue.readTarget (Dialogue.readGrammar (Line.ofInput host.input)).unread).said.map
        Event.remark, fun find => ?_⟩
    simp only [story, unnamed, dialogueStory, answered, missing, named]

/-- A run that reads no grammar and target ends with an error before any search. -/
theorem reads_or_exists_story (host : Host) (o : Options) (limits : Limits) :
    (∃ g target, Program.Reads host o g target) ∨
      ∃ events e, ∀ find : Finder, find.story host o limits = ⟨events, .error e⟩ := by
  cases named : o.grammarFile with
  | some path =>
    cases declared : Declaration.load path (host.contentOf path) with
    | error e =>
      refine Or.inr ⟨[], e, fun find => ?_⟩
      simp [story, named, fileStory, declared, Except.bind]
    | ok d =>
      cases built : d.toGrammar with
      | error e =>
        refine Or.inr ⟨[], e, fun find => ?_⟩
        simp [story, named, fileStory, declared, Except.bind, built]
      | ok g => exact Or.inl ⟨g, o.target, .file named declared built⟩
  | none =>
    cases answered : (Dialogue.readGrammar (Line.ofInput host.input)).answer with
    | error e =>
      refine Or.inr ⟨(Dialogue.readGrammar (Line.ofInput host.input)).said.map Event.remark, e,
        fun find => ?_⟩
      simp only [story, named, dialogueStory, answered]
    | ok g =>
      cases given : o.target with
      | some target => exact Or.inl ⟨g, some target, .entered named answered given⟩
      | none =>
        cases asked : (Dialogue.readTarget
          (Dialogue.readGrammar (Line.ofInput host.input)).unread).answer with
        | error e =>
          refine Or.inr ⟨(Dialogue.readGrammar (Line.ofInput host.input)).said.map Event.remark ++
            [.classified g g.classify] ++
            (Dialogue.readTarget (Dialogue.readGrammar (Line.ofInput host.input)).unread).said.map
              Event.remark, e, fun find => ?_⟩
          simp only [story, named, dialogueStory, answered, given, asked]
        | ok target => exact Or.inl ⟨g, target, .asked named answered given asked⟩

/-- Reports on one story are alike. -/
theorem validate_congr {first second : Finder} {other : Host} {base : Limits}
    (stories : first.story host o (o.limits base) = second.story other o (o.limits base))
    (detailed : Bool) : first.validate host o detailed base = second.validate other o detailed base := by
  unfold validate
  rw [stories]

theorem routine_of_parsed (find : Finder) (host : Host) {arguments : List Text} {e : Environment}
    (parsed : Options.ofArguments (Program.withDefaults e.settings.defaultOptions arguments) = .ok o)
    (noScript : o.completions = none) :
    find.routine host arguments e =
      (find.validate host o
        (Program.asksForDetail (Program.withDefaults e.settings.defaultOptions arguments))
        e.settings.limits).warned (Program.defaultsWarning e.settings.defaultOptions) := by
  simp only [routine, parsed, noScript]

/-- The entry routine reports on a grammar, or the arguments alone decide what it leaves. -/
theorem routine_cases (arguments : List Text) (e : Environment) :
    (∃ o, Options.ofArguments (Program.withDefaults e.settings.defaultOptions arguments) = .ok o ∧
        o.completions = none) ∨
      ∃ outcome : Outcome, outcome.status ≠ .interrupted ∧
        ∀ (find : Finder) (host : Host), find.routine host arguments e = outcome := by
  cases parsed : Options.ofArguments (Program.withDefaults e.settings.defaultOptions arguments) with
  | error stop =>
    refine Or.inr ⟨(Program.stopped (Program.withDefaults e.settings.defaultOptions arguments)
      stop).warned (Program.defaultsWarning e.settings.defaultOptions), ?_, fun find host => ?_⟩
    · rcases stop with (_ | _) | _ | _ <;> exact nofun
    · simp only [routine, parsed]
  | ok o =>
    cases script : o.completions with
    | none => exact Or.inl ⟨o, rfl, script⟩
    | some shell =>
      refine Or.inr ⟨Outcome.warned (Program.defaultsWarning e.settings.defaultOptions)
        ⟨.success, Completion.script shell
          ((arguments.head?.bind Path.fileStem?).getD e.programName), []⟩, nofun, fun find host => ?_⟩
      simp only [routine, parsed, script]

theorem run_of_starts (find : Finder) (starts : Program.Starts host) (arguments : List Text) :
    find.run host arguments =
      (find.routine host arguments ⟨Help.programName, (Program.settings host).1⟩).warned
        (Program.settings host).2 := by
  have started : (Manifest.ofSettings (Program.settings host).1).entry = (find.entry host).symbol :=
    starts
  simp only [run, Launcher.launch, Launcher.resolve, if_pos started]
  rfl

/-- Under another entry the arguments are not even read. -/
theorem run_of_not_starts (find : Finder) (other : ¬ Program.Starts host) (arguments : List Text) :
    find.run host arguments =
      (Program.refused ⟨(Manifest.ofSettings (Program.settings host).1).entry,
        Manifest.builtin.entry⟩).warned (Program.settings host).2 := by
  have missing : (Manifest.ofSettings (Program.settings host).1).entry ≠ (find.entry host).symbol :=
    other
  simp only [run, Launcher.launch, Launcher.resolve, if_neg missing]
  rfl

end Finder

namespace Program

variable {host : Host} {arguments : List Text} {o : Options} {limits : Limits} {r : Report}

/-- A run has a report exactly on what it reads. -/
theorem ending_story_eq_ok_iff :
    (story host o limits).ending = .ok r ↔
      ∃ g target, Reads host o g target ∧ r = report g target limits := by
  constructor
  · intro ended
    rcases Finder.reads_or_exists_story host o limits with
      ⟨g, target, reads⟩ | ⟨events, e, told⟩
    · obtain ⟨events, told⟩ := Finder.exists_story reads limits
      rw [story, told] at ended
      exact ⟨g, target, reads, (Except.ok.inj ended).symm⟩
    · rw [story, told] at ended
      cases ended
  · rintro ⟨g, target, reads, rfl⟩
    obtain ⟨events, told⟩ := Finder.exists_story reads limits
    rw [story, told]
    rfl

/-! ## Reports in JSON -/

theorem toOutput_json (events : List Event) : events.flatMap (Event.toOutput .json) = [] := by
  rw [List.flatMap_eq_nil_iff]
  intro event _
  cases event <;> rfl

/-- The story in JSON leaves standard output to the document. -/
theorem tell_json_of_ok {s : Story} (ended : s.ending = .ok r) (check detailed : Bool) :
    (s.tell .json check detailed).out = r.document ∧
      (s.tell .json check detailed).status = r.status check := by
  simp [Story.tell, ended, toOutput_json, Report.closing]

theorem tell_json_of_error {s : Story} {e : Error} (ended : s.ending = .error e)
    (check detailed : Bool) :
    (s.tell .json check detailed).out = [] ∧
      (s.tell .json check detailed).status = .failure := by
  simp [Story.tell, ended, toOutput_json]

/-! ## Whole runs -/

theorem run_of_starts (starts : Starts host) (arguments : List Text) :
    run host arguments =
      (routine host arguments ⟨Help.programName, (settings host).1⟩).warned (settings host).2 :=
  Finder.standard.run_of_starts starts arguments

theorem routine_of_parsed (host : Host) {e : Environment}
    (parsed : Options.ofArguments (withDefaults e.settings.defaultOptions arguments) = .ok o)
    (noScript : o.completions = none) :
    routine host arguments e =
      (validate host o (asksForDetail (withDefaults e.settings.defaultOptions arguments))
        e.settings.limits).warned (defaultsWarning e.settings.defaultOptions) :=
  Finder.standard.routine_of_parsed host parsed noScript

theorem validate_eq_ite (host : Host) (o : Options) (detailed : Bool) (base : Limits) :
    validate host o detailed base =
      if o.debug then
        ((story host o (o.limits base)).tell o.format o.checkDerivation detailed).warned
          ("Debug: ".toList ++ o.detail ++ ['\n'])
      else (story host o (o.limits base)).tell o.format o.checkDerivation detailed :=
  rfl

theorem validate_eq_warned (host : Host) (o : Options) (detailed : Bool) (base : Limits) :
    ∃ warning, validate host o detailed base =
      ((story host o (o.limits base)).tell o.format o.checkDerivation detailed).warned warning := by
  rw [validate_eq_ite]
  split
  · exact ⟨_, rfl⟩
  · exact ⟨[], rfl⟩

/-- A run that starts with right arguments tells its story; all warnings go to standard error. -/
theorem run_eq_warned (starts : Starts host)
    (parsed : Options.ofArguments (mergedArguments host arguments) = .ok o)
    (noScript : o.completions = none) :
    ∃ warning, run host arguments =
      ((story host o (o.limits (settings host).1.limits)).tell o.format o.checkDerivation
        (asksForDetail (mergedArguments host arguments))).warned warning := by
  have called := routine_of_parsed host (e := ⟨Help.programName, (settings host).1⟩) parsed noScript
  obtain ⟨warning, validated⟩ := validate_eq_warned host o
    (asksForDetail (mergedArguments host arguments)) (settings host).1.limits
  refine ⟨(settings host).2 ++ (defaultsWarning (settings host).1.defaultOptions ++ warning), ?_⟩
  rw [run_of_starts starts, called, ← Outcome.warned_warned, ← Outcome.warned_warned, ← validated]
  rfl

/-- In JSON standard output holds nothing, and the run failed; or it holds the document on the
grammar that was read, and nothing else. -/
theorem run_json
    (parsed : Options.ofArguments (mergedArguments host arguments) = .ok o)
    (json : o.format = .json) (noScript : o.completions = none) :
    ((¬ Starts host ∨ ∀ g target, ¬ Reads host o g target) ∧
        (run host arguments).out = [] ∧ (run host arguments).status = .failure) ∨
      ∃ g target, Starts host ∧ Reads host o g target ∧
        (report g target (o.limits (settings host).1.limits)).IsDocument
          (run host arguments).out ∧
        (run host arguments).status =
          (report g target (o.limits (settings host).1.limits)).status o.checkDerivation := by
  by_cases starts : Starts host
  · obtain ⟨warning, told⟩ := run_eq_warned starts parsed noScript
    rw [told, json]
    cases ended : (story host o (o.limits (settings host).1.limits)).ending with
    | error e =>
      have silent := tell_json_of_error ended o.checkDerivation
        (asksForDetail (mergedArguments host arguments))
      refine .inl ⟨.inr fun g target reads => ?_, silent⟩
      cases ended.symm.trans (ending_story_eq_ok_iff.2 ⟨g, target, reads, rfl⟩)
    | ok r =>
      obtain ⟨out, status⟩ := tell_json_of_ok ended o.checkDerivation
        (asksForDetail (mergedArguments host arguments))
      obtain ⟨g, target, reads, rfl⟩ := ending_story_eq_ok_iff.1 ended
      refine .inr ⟨g, target, starts, reads, ?_, status⟩
      exact (Report.isDocument_iff _ _).2 out
  · rw [run, Finder.standard.run_of_not_starts starts]
    exact .inl ⟨.inl starts, rfl, rfl⟩

/-- A default option that is no flag, and a line that is no rule. -/
def complaining : Host where
  settingsFolder := "conf".toList
  settingsFile := .ok (Text.encode "[defaults]\noptions = [\"--format=json\", \"x\"]\n".toList)
  contentOf := fun _ => .error (.system .missing)
  input := Text.encode "a b\nS\nS\nS -> aS | b\nS = b\ndone\nab\n".toList

theorem run_json_complaining :
    ∃ g target, Reads complaining ⟨none, none, none, none, some .json, false, false, true, none⟩
        g target ∧
      (report g target .standard).IsDocument (run complaining ["gv".toList, "--debug".toList]).out ∧
      (run complaining ["gv".toList, "--debug".toList]).err ≠ [] := by
  have parsed : Options.ofArguments (mergedArguments complaining ["gv".toList, "--debug".toList]) =
      .ok ⟨none, none, none, none, some .json, false, false, true, none⟩ := by
    decide +kernel
  have succeeded : (run complaining ["gv".toList, "--debug".toList]).status = .success := by
    decide +kernel
  rcases run_json parsed rfl rfl with ⟨_, _, failed⟩ | ⟨g, target, _, reads, document, _⟩
  · cases failed.symm.trans succeeded
  · have limits : (settings complaining).1.limits = .standard := by decide +kernel
    rw [limits] at document
    exact ⟨g, target, reads, document, by decide +kernel⟩

/-! ## Processes -/

theorem status_tell_ne_interrupted (s : Story) (format : Format) (check detailed : Bool) :
    (s.tell format check detailed).status ≠ .interrupted := by
  unfold Story.tell
  cases s.ending with
  | error e => exact nofun
  | ok r =>
    change r.status check ≠ .interrupted
    unfold Report.status Status.ofDerivation
    split
    · exact nofun
    · split <;> exact nofun

theorem status_routine_ne_interrupted (host : Host) (arguments : List Text) (e : Environment) :
    (routine host arguments e).status ≠ .interrupted := by
  rcases Finder.routine_cases arguments e with ⟨o, parsed, noScript⟩ | ⟨outcome, never, left⟩
  · obtain ⟨warning, validated⟩ := validate_eq_warned host o
      (asksForDetail (withDefaults e.settings.defaultOptions arguments)) e.settings.limits
    rw [routine_of_parsed host parsed noScript, validated]
    exact status_tell_ne_interrupted (story host o (o.limits e.settings.limits)) _ _ _
  · rw [routine, left]
    exact never

/-- A process that nobody asks to stop leaves what its run leaves, and does not end as interrupted.
One that is asked does, whatever its run comes to. -/
theorem process_eq (host : Host) (arguments : List Text) :
    process host arguments .quiet = run host arguments ∧
      (run host arguments).status ≠ .interrupted ∧
      ∀ i : Interrupt, (process host arguments i.raise).status = .interrupted := by
  refine ⟨rfl, ?_, fun i => rfl⟩
  by_cases starts : Starts host
  · rw [run_of_starts starts]
    exact status_routine_ne_interrupted host arguments _
  · rw [run, Finder.standard.run_of_not_starts starts]
    exact nofun

end Program

end Chomsky
