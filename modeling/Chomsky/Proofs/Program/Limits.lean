import Chomsky.Proofs.Options.RoundTrip
import Chomsky.Proofs.Program.Output
import Chomsky.Proofs.Program.Settings
import Chomsky.Proofs.Report.Facts

/-!
# Limits of a search

A run puts at most one query, on the grammar and the target that it reads
(`Program.consults_iff`). Each limit of the query comes from the first of three sources that has it,
the options, the settings file and the standard limits, whatever they say about the other limit; and
it is positive (`Program.limits_of_consults`).
-/

namespace Chomsky

/-! ## Where a limit comes from -/

namespace Settings

variable {file : Except Fault Bytes} {given : Option Nat} {key : Text} {standard m n : Nat}

/-- The file loads and sets the limit of the key. -/
inductive SetsLimit (file : Except Fault Bytes) (key : Text) (n : Nat) : Prop
  | declared {text : Text} {root v : Toml.Value} (content : file = .ok (Text.encode text))
      (document : Toml.read text = some root) (accepted : ∀ r, ¬ Refuses file r)
      (entry : (root.get? "derivation".toList).bind (·.get? key) = some v)
      (number : v.integer? = some (n : Int)) (positive : 0 < n)

/-- The first of three sources that has the limit of the key: the options, the settings file, the
standard limits. -/
inductive Resolves (file : Except Fault Bytes) (given : Option Nat) (key : Text) (standard : Nat) :
    Nat → Prop
  | given {n : Nat} (present : given = some n) :
    Resolves file given key standard n
  | file {n : Nat} (absent : given = none) (sets : SetsLimit file key n) :
    Resolves file given key standard n
  | standard (absent : given = none) (unset : ∀ n, ¬ SetsLimit file key n) :
    Resolves file given key standard standard

theorem document_unique {text other : Text} {root root' : Toml.Value}
    (content : file = .ok (Text.encode text)) (document : Toml.read text = some root)
    (content' : file = .ok (Text.encode other)) (document' : Toml.read other = some root') :
    root = root' := by
  obtain rfl := Text.encode_inj.1 (Except.ok.inj (content.symm.trans content'))
  exact Option.some.inj (document.symm.trans document')

theorem SetsLimit.unique (first : SetsLimit file key m) (second : SetsLimit file key n) :
    m = n := by
  obtain ⟨content, document, _, entry, number, _⟩ := first
  obtain ⟨content', document', _, entry', number', _⟩ := second
  obtain rfl := document_unique content document content' document'
  obtain rfl := Option.some.inj (entry.symm.trans entry')
  exact Int.ofNat.inj (Option.some.inj (number.symm.trans number'))

theorem SetsLimit.pos (sets : SetsLimit file key n) : 0 < n := by
  obtain ⟨_, _, _, _, _, positive⟩ := sets
  exact positive

theorem SetsLimit.accepted (sets : SetsLimit file key n) (r : Refusal) : ¬ Refuses file r := by
  obtain ⟨_, _, accepted, _, _, _⟩ := sets
  exact accepted r

theorem Resolves.unique (first : Resolves file given key standard m)
    (second : Resolves file given key standard n) : m = n := by
  cases first with
  | given present =>
    cases second with
    | given present' => exact Option.some.inj (present.symm.trans present')
    | file absent | standard absent => cases present.symm.trans absent
  | file absent sets =>
    cases second with
    | given present => cases absent.symm.trans present
    | file _ sets' => exact sets.unique sets'
    | standard _ unset => exact absurd sets (unset _)
  | standard absent unset =>
    cases second with
    | given present => cases absent.symm.trans present
    | file _ sets => exact absurd sets (unset _)
    | standard => rfl

/-- A limit that is positive where it comes from is positive. -/
theorem Resolves.pos (resolves : Resolves file given key standard n)
    (ofOptions : ∀ m, given = some m → 0 < m) (ofStandard : 0 < standard) : 0 < n := by
  cases resolves with
  | given present => exact ofOptions n present
  | file _ sets => exact sets.pos
  | standard => exact ofStandard

theorem Resolves.getD (resolves : Resolves file none key standard n) :
    Resolves file given key standard (given.getD n) := by
  cases given with
  | some m => exact .given rfl
  | none => exact resolves

theorem resolves_of_readLimit {text : Text} {root : Toml.Value}
    (content : file = .ok (Text.encode text)) (document : Toml.read text = some root)
    (accepted : ∀ r, ¬ Refuses file r)
    (limit : readLimit (root.get? "derivation".toList) key standard = .ok n) :
    Resolves file none key standard n := by
  rcases readLimit_eq_ok_iff.1 limit with ⟨missing, rfl⟩ | ⟨v, entry, number, positive⟩
  · refine .standard rfl fun m sets => ?_
    obtain ⟨content', document', _, entry, _, _⟩ := sets
    obtain rfl := document_unique content document content' document'
    cases missing.symm.trans entry
  · exact .file rfl (.declared content document accepted entry number positive)

end Settings

namespace Program

/-- The limits that a run has from its settings. -/
theorem resolves_settings (host : Host) :
    Settings.Resolves host.settingsFile none "max_depth".toList Limits.standard.maxDepth
        (settings host).1.limits.maxDepth ∧
      Settings.Resolves host.settingsFile none "max_states".toList Limits.standard.maxStates
        (settings host).1.limits.maxStates := by
  cases loaded : Settings.load host.settingsFolder host.settingsFile with
  | error r =>
    have refuses := Settings.load_eq_error_iff.1 loaded
    rw [settings_of_load_eq_error loaded]
    exact ⟨.standard rfl fun _ sets => sets.accepted r refuses,
      .standard rfl fun _ sets => sets.accepted r refuses⟩
  | ok s =>
    have same : (settings host).1 = s := by rw [settings, loaded]
    have accepted (r : Settings.Refusal) : ¬ Settings.Refuses host.settingsFile r := by
      intro refuses
      cases loaded.symm.trans (Settings.load_eq_error_iff.2 refuses)
    rw [same]
    rcases Settings.limits_of_load loaded with
      ⟨⟨fault, absent⟩, limits⟩ | ⟨text, root, content, document, limits⟩
    · have unset (key : Text) (n : Nat) : ¬ Settings.SetsLimit host.settingsFile key n := by
        rintro ⟨content, _⟩
        cases absent.symm.trans content
      rw [limits]
      exact ⟨.standard rfl (unset _), .standard rfl (unset _)⟩
    · obtain ⟨maxDepth, maxStates⟩ := Settings.readLimits_eq_ok_iff.1 limits
      exact ⟨Settings.resolves_of_readLimit content document accepted maxDepth,
        Settings.resolves_of_readLimit content document accepted maxStates⟩

variable {host : Host} {arguments : List Text} {o : Options} {q : Query}

/-- The run comes to a search: it starts, its arguments give options that ask for a report, and it
reads a grammar and a target. -/
inductive Reaches (host : Host) (arguments : List Text) : Query → Prop
  | search {o : Options} {g : Grammar} {target : Word} (starts : Starts host)
      (parsed : Options.ofArguments (mergedArguments host arguments) = .ok o)
      (noScript : o.completions = none) (reads : Reads host o g (some target)) :
    Reaches host arguments ⟨g, target, o.limits (settings host).1.limits⟩

/-! ## Runs with two searches -/

theorem story_congr {first second : Finder} (limits : Limits)
    (same : ∀ g t, Reads host o g (some t) → first ⟨g, t, limits⟩ = second ⟨g, t, limits⟩) :
    first.story host o limits = second.story host o limits := by
  rcases Finder.reads_or_exists_story host o limits with ⟨g, target, reads⟩ | ⟨events, e, told⟩
  · obtain ⟨events, told⟩ := Finder.exists_story reads limits
    have reports : first.report g target limits = second.report g target limits := by
      cases target with
      | none => rfl
      | some t => simp only [Finder.report, Option.map_some, same g t reads]
    rw [told, told, reports]
  · rw [told, told]

theorem routine_congr {first second : Finder} (starts : Starts host)
    (same : ∀ q, Reaches host arguments q → first q = second q) :
    first.routine host arguments ⟨Help.programName, (settings host).1⟩ =
      second.routine host arguments ⟨Help.programName, (settings host).1⟩ := by
  rcases Finder.routine_cases arguments ⟨Help.programName, (settings host).1⟩ with
    ⟨o, parsed, noScript⟩ | ⟨outcome, _, left⟩
  · have stories := story_congr (o.limits (settings host).1.limits) fun g t reads =>
      same _ (.search starts parsed noScript reads)
    rw [first.routine_of_parsed host parsed noScript, second.routine_of_parsed host parsed noScript,
      Finder.validate_congr stories]
  · rw [left, left]

theorem run_congr {first second : Finder}
    (same : ∀ q, Reaches host arguments q → first q = second q) :
    first.run host arguments = second.run host arguments := by
  by_cases starts : Starts host
  · rw [first.run_of_starts starts, second.run_of_starts starts, routine_congr starts same]
  · rw [first.run_of_not_starts starts, second.run_of_not_starts starts]

theorem out_of_reaches (reaches : Reaches host arguments q) :
    ∃ (before : Text) (format : Format), ∀ find : Finder, (find.run host arguments).out =
      before ++ Report.closing ⟨q.grammar, q.grammar.classify, some (q.target, find q)⟩ format := by
  obtain ⟨starts, parsed, noScript, reads⟩ := reaches
  next o g target =>
  have read : Options.ofArguments
      (withDefaults (settings host).1.defaultOptions arguments) = .ok o := parsed
  obtain ⟨events, told⟩ := Finder.exists_story reads (o.limits (settings host).1.limits)
  refine ⟨events.flatMap (Event.toOutput o.format), o.format, fun find => ?_⟩
  have validated (detailed : Bool) :
      (find.validate host o detailed (settings host).1.limits).out =
        events.flatMap (Event.toOutput o.format) ++
          (find.report g (some target) (o.limits (settings host).1.limits)).closing o.format := by
    unfold Finder.validate
    rw [told]
    dsimp only
    split <;> rfl
  rw [find.run_of_starts starts,
    find.routine_of_parsed host (e := ⟨Help.programName, (settings host).1⟩) read noScript]
  exact validated _

/-- The two answers of a search that gives up are told differently. -/
theorem closing_ne (g : Grammar) (l : Level) (target : Word) (format : Format) :
    Report.closing ⟨g, l, some (target, .depthExceeded)⟩ format ≠
      Report.closing ⟨g, l, some (target, .stateLimitReached)⟩ format := by
  cases format with
  | text =>
    have texts : (Report.answer [] .depthExceeded).flatten ≠
        (Report.answer [] .stateLimitReached).flatten := by decide
    exact texts
  | json =>
    intro same
    have documents : Report.document ⟨g, l, some (target, .depthExceeded)⟩ =
        Report.document ⟨g, l, some (target, .stateLimitReached)⟩ := same
    have facts := Report.ofBytes?_encode_document ⟨g, l, some (target, .depthExceeded)⟩
    rw [documents, Report.ofBytes?_encode_document] at facts
    cases facts

/-- A run puts just the query that it comes to. -/
theorem consults_iff : Consults host arguments q ↔ Reaches host arguments q := by
  constructor
  · rintro ⟨find, same, differ⟩
    by_contra unreached
    refine differ (run_congr fun other reaches => same other ?_)
    rintro rfl
    exact unreached reaches
  · intro reaches
    obtain ⟨before, format, out⟩ := out_of_reaches reaches
    -- One of two answers is told otherwise than the answer of the search.
    let told (d : Derivation) : Text :=
      Report.closing ⟨q.grammar, q.grammar.classify, some (q.target, d)⟩ format
    obtain ⟨d, other⟩ : ∃ d, told d ≠ told (Finder.standard q) := by
      by_contra none_differs
      have same (d : Derivation) : told d = told (Finder.standard q) :=
        not_not.1 fun other => none_differs ⟨d, other⟩
      exact closing_ne _ _ _ format
        ((same .depthExceeded).trans (same .stateLimitReached).symm)
    refine ⟨Function.update Finder.standard q d, fun _ different =>
      Function.update_of_ne different _ _, fun same => other ?_⟩
    have outs : (Finder.run _ host arguments).out = (Finder.standard.run host arguments).out :=
      congrArg Outcome.out same
    rw [out, out, Function.update_self] at outs
    exact List.append_cancel_left outs

/-- Each limit of a query is positive and comes from the first source that has it. The other limit
does not count. -/
theorem limits_of_consults (consults : Consults host arguments q) :
    ∃ o, Options.ofArguments (mergedArguments host arguments) = .ok o ∧
      0 < q.limits.maxDepth ∧ 0 < q.limits.maxStates ∧
      (∀ n, Settings.Resolves host.settingsFile o.maxDepth "max_depth".toList
        Limits.standard.maxDepth n ↔ n = q.limits.maxDepth) ∧
      ∀ n, Settings.Resolves host.settingsFile o.maxStates "max_states".toList
        Limits.standard.maxStates n ↔ n = q.limits.maxStates := by
  obtain ⟨_, parsed, _, _⟩ := consults_iff.1 consults
  next o g target _ _ _ =>
  have range := Options.inRange_of_ofArguments parsed
  obtain ⟨depths, states⟩ := resolves_settings host
  have maxDepth : Settings.Resolves host.settingsFile o.maxDepth "max_depth".toList
      Limits.standard.maxDepth (o.limits (settings host).1.limits).maxDepth := depths.getD
  have maxStates : Settings.Resolves host.settingsFile o.maxStates "max_states".toList
      Limits.standard.maxStates (o.limits (settings host).1.limits).maxStates := states.getD
  refine ⟨o, parsed, ?_, ?_, fun n => ?_, fun n => ?_⟩
  · exact maxDepth.pos (fun m given => (range.maxDepth m given).1) (by decide)
  · exact maxStates.pos (fun m given => (range.maxStates m given).1) (by decide)
  · refine ⟨fun resolves => resolves.unique maxDepth, ?_⟩
    rintro rfl
    exact maxDepth
  · refine ⟨fun resolves => resolves.unique maxStates, ?_⟩
    rintro rfl
    exact maxStates

/-- Settings with both limits. -/
def bounded : Host where
  settingsFolder := "conf".toList
  settingsFile := .ok (Text.encode "[derivation]\nmax_depth = 7\nmax_states = 500\n".toList)
  contentOf := fun _ => .error (.system .missing)
  input := Text.encode "a\nS\nS\nS -> a\ndone\n".toList

/-- One limit is given, the other is set. -/
theorem limits_of_consults_bounded :
    ∃ q, Consults bounded ["gv".toList, "--max-depth=3".toList, "--derive=a".toList] q ∧
      q.limits = ⟨3, 500⟩ ∧
      Settings.Resolves bounded.settingsFile (some 3) "max_depth".toList 20 3 ∧
      Settings.Resolves bounded.settingsFile none "max_states".toList 100000 500 := by
  have set : settings bounded = (⟨"conf".toList, none, [], ⟨7, 500⟩⟩, []) := by decide +kernel
  have parsed : Options.ofArguments (mergedArguments bounded
      ["gv".toList, "--max-depth=3".toList, "--derive=a".toList]) =
        .ok { Options.none with maxDepth := some 3, target := some "a".toList } := by
    rw [mergedArguments, set]
    decide +kernel
  have starts : Starts bounded := by
    rw [Starts, set]
    decide +kernel
  have limits : Options.limits { Options.none with maxDepth := some 3, target := some "a".toList }
      (settings bounded).1.limits = ⟨3, 500⟩ := by
    rw [set]
    rfl
  obtain ⟨g, answered⟩ : ∃ g,
      (Dialogue.readGrammar (Line.ofInput bounded.input)).answer = .ok g := ⟨_, rfl⟩
  have consults := consults_iff.2 (.search starts parsed rfl (.entered rfl answered rfl))
  obtain ⟨o, parsed', _, _, depths, states⟩ := limits_of_consults consults
  obtain rfl := Except.ok.inj (parsed.symm.trans parsed')
  exact ⟨_, consults, limits, (depths 3).2 (congrArg Limits.maxDepth limits).symm,
    (states 500).2 (congrArg Limits.maxStates limits).symm⟩

end Program

end Chomsky
