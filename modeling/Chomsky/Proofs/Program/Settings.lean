import Mathlib.Control.Monad.Basic
import Chomsky.Proofs.Program.Output

/-!
# Refused settings

Settings are refused for one of the reasons that `Settings.Refuses` lists
(`Settings.load_eq_error_iff`). A run with refused settings is the run without a settings file, with
one entry of the log before what it says on standard error (`Program.run_of_load_eq_error`): nothing
in the file is used, not even what is right by itself. The entry may have several lines, and a run
that is given the settings file as its grammar misses the file (`Program.run_scattered`).
-/

namespace Chomsky

namespace Settings

/-- A limit of the document that is no positive integer. -/
structure IsBadLimit (root : Toml.Value) (key : Text) (v : Toml.Value) : Prop where
  declared : (root.get? "derivation".toList).bind (·.get? key) = some v
  not_positive : ∀ n : Nat, 0 < n → v.integer? ≠ some (n : Int)

/-- The reason to refuse what a settings file holds. The first limit is looked at first. -/
inductive Refuses : Except Fault Bytes → Refusal → Prop
  | unreadable {fault : Fault} (present : isAbsent fault = false) :
    Refuses (.error fault) (.unreadable fault)
  | notUtf8 {bytes : Bytes} (illFormed : ∀ text, Text.encode text ≠ bytes) :
    Refuses (.ok bytes) (.unreadable .notUtf8)
  | badToml {text : Text} (noDocument : Toml.read text = none) :
    Refuses (.ok (Text.encode text)) .badToml
  | maxDepth {text : Text} {root v : Toml.Value} (document : Toml.read text = some root)
      (bad : IsBadLimit root "max_depth".toList v) :
    Refuses (.ok (Text.encode text)) (.badLimit "max_depth".toList v.print)
  | maxStates {text : Text} {root v : Toml.Value} (document : Toml.read text = some root)
      (right : ∀ v, ¬ IsBadLimit root "max_depth".toList v)
      (bad : IsBadLimit root "max_states".toList v) :
    Refuses (.ok (Text.encode text)) (.badLimit "max_states".toList v.print)

variable {root : Toml.Value} {key : Text} {standard : Nat} {r : Refusal}

theorem readLimit_of_declared {section? : Option Toml.Value} {v : Toml.Value}
    (declared : section?.bind (·.get? key) = some v) :
    readLimit section? key standard = .error r ↔
      (∀ n : Nat, 0 < n → v.integer? ≠ some (n : Int)) ∧ r = .badLimit key v.print := by
  unfold readLimit
  rw [declared]
  dsimp only
  split
  · next n number =>
    refine iff_of_false (by simp) fun bad => ?_
    exact bad.1 (n + 1) (Nat.succ_pos n) number
  · next other =>
    have not_positive : ∀ n : Nat, 0 < n → v.integer? ≠ some (n : Int) := by
      intro n positive number
      obtain ⟨m, rfl⟩ := Nat.exists_eq_succ_of_ne_zero (Nat.ne_of_gt positive)
      exact other m number
    rw [and_iff_right not_positive, Except.error.injEq, eq_comm]

theorem readLimit_eq_error_iff :
    readLimit (root.get? "derivation".toList) key standard = .error r ↔
      ∃ v, IsBadLimit root key v ∧ r = .badLimit key v.print := by
  cases declared : (root.get? "derivation".toList).bind (·.get? key) with
  | none =>
    have accepted : readLimit (root.get? "derivation".toList) key standard = .ok standard := by
      rw [readLimit, declared]
    rw [accepted]
    refine iff_of_false (by simp) ?_
    rintro ⟨v, bad, _⟩
    cases declared.symm.trans bad.declared
  | some v =>
    rw [readLimit_of_declared declared]
    constructor
    · intro bad
      exact ⟨v, ⟨declared, bad.1⟩, bad.2⟩
    · rintro ⟨w, bad, reason⟩
      obtain rfl := Option.some.inj (declared.symm.trans bad.declared)
      exact ⟨bad.not_positive, reason⟩

theorem readLimit_eq_ok_iff {section? : Option Toml.Value} {n : Nat} :
    readLimit section? key standard = .ok n ↔
      (section?.bind (·.get? key) = none ∧ n = standard) ∨
        ∃ v, section?.bind (·.get? key) = some v ∧ v.integer? = some (n : Int) ∧ 0 < n := by
  unfold readLimit
  cases section?.bind (·.get? key) with
  | none => simp [eq_comm]
  | some v =>
    dsimp only
    split
    · next m number =>
      simp only [Except.ok.injEq, number, Option.some.injEq, reduceCtorEq, false_and, false_or,
        exists_eq_left']
      constructor
      · rintro rfl
        exact ⟨rfl, Nat.succ_pos m⟩
      · rintro ⟨same, _⟩
        exact Int.ofNat.inj same
    · next other =>
      refine iff_of_false (by simp) ?_
      rintro (⟨missing, _⟩ | ⟨w, same, number, positive⟩)
      · cases missing
      · obtain rfl := Option.some.inj same
        obtain ⟨m, rfl⟩ := Nat.exists_eq_succ_of_ne_zero (Nat.ne_of_gt positive)
        exact other m number

theorem exists_readLimit_eq_ok_iff (standard : Nat) :
    (∃ n, readLimit (root.get? "derivation".toList) key standard = .ok n) ↔
      ∀ v, ¬ IsBadLimit root key v := by
  constructor
  · rintro ⟨n, accepted⟩ v bad
    cases accepted.symm.trans (readLimit_eq_error_iff.2 ⟨v, bad, rfl⟩)
  · intro right
    cases limit : readLimit (root.get? "derivation".toList) key standard with
    | ok n => exact ⟨n, rfl⟩
    | error r =>
      obtain ⟨v, bad, _⟩ := readLimit_eq_error_iff.1 limit
      exact absurd bad (right v)

theorem bind_eq_error_iff {ε α β : Type} {x : Except ε α} {f : α → Except ε β} {e : ε} :
    (x >>= f) = .error e ↔ x = .error e ∨ ∃ a, x = .ok a ∧ f a = .error e := by
  cases x <;> simp [bind, Except.bind]

theorem readLimits_eq_error_iff :
    readLimits (root.get? "derivation".toList) = .error r ↔
      (∃ v, IsBadLimit root "max_depth".toList v ∧ r = .badLimit "max_depth".toList v.print) ∨
        (∀ v, ¬ IsBadLimit root "max_depth".toList v) ∧
          ∃ v, IsBadLimit root "max_states".toList v ∧
            r = .badLimit "max_states".toList v.print := by
  have states (maxDepth : Nat) :
      (do
        let maxStates ← readLimit (root.get? "derivation".toList) "max_states".toList
          Limits.standard.maxStates
        return (⟨maxDepth, maxStates⟩ : Limits)) = .error r ↔
        ∃ v, IsBadLimit root "max_states".toList v ∧
          r = .badLimit "max_states".toList v.print := by
    rw [bind_eq_error_iff, readLimit_eq_error_iff]
    simp [pure, Except.pure]
  rw [readLimits, bind_eq_error_iff, readLimit_eq_error_iff,
    ← exists_readLimit_eq_ok_iff Limits.standard.maxDepth]
  simp only [states, exists_and_right]

theorem readLimits_eq_ok_iff {section? : Option Toml.Value} {l : Limits} :
    readLimits section? = .ok l ↔
      readLimit section? "max_depth".toList Limits.standard.maxDepth = .ok l.maxDepth ∧
        readLimit section? "max_states".toList Limits.standard.maxStates = .ok l.maxStates := by
  unfold readLimits
  cases readLimit section? "max_depth".toList Limits.standard.maxDepth with
  | error r => simp [bind, Except.bind]
  | ok d =>
    cases readLimit section? "max_states".toList Limits.standard.maxStates with
    | error r => simp [bind, Except.bind]
    | ok n =>
      cases l
      simp [bind, Except.bind, pure, Except.pure]

theorem ofToml_eq_error_iff {folder : Text} :
    ofToml folder root = .error r ↔ readLimits (root.get? "derivation".toList) = .error r := by
  rw [ofToml, bind_eq_error_iff]
  refine or_iff_left ?_
  rintro ⟨limits, _, impossible⟩
  cases impossible

theorem decode_eq_none_iff {bytes : Bytes} :
    Text.decode bytes = none ↔ ∀ text, Text.encode text ≠ bytes := by
  constructor
  · rintro illFormed text rfl
    cases illFormed.symm.trans (Text.decode_encode text)
  · intro none_encodes
    cases decoded : Text.decode bytes with
    | none => rfl
    | some text => exact absurd (Text.encode_of_decode decoded) (none_encodes text)

/-- Settings are refused for the reasons that there are, and for the first of them. -/
theorem load_eq_error_iff {folder : Text} {file : Except Fault Bytes} :
    load folder file = .error r ↔ Refuses file r := by
  unfold load
  constructor
  · intro refused
    split at refused
    · next fault =>
      split at refused
      · cases refused
      · next present =>
        obtain rfl := Except.error.inj refused
        exact .unreadable (by simpa using present)
    · next bytes =>
      split at refused
      · next illFormed =>
        obtain rfl := Except.error.inj refused
        exact .notUtf8 (decode_eq_none_iff.1 illFormed)
      · next text decoded =>
        obtain rfl := Text.encode_of_decode decoded
        split at refused
        · next noDocument =>
          obtain rfl := Except.error.inj refused
          exact .badToml noDocument
        · next root document =>
          rw [ofToml_eq_error_iff, readLimits_eq_error_iff] at refused
          rcases refused with ⟨v, bad, rfl⟩ | ⟨right, v, bad, rfl⟩
          · exact .maxDepth document bad
          · exact .maxStates document right bad
  · intro refuses
    cases refuses with
    | unreadable present => simp [present]
    | notUtf8 illFormed => simp [decode_eq_none_iff.2 illFormed]
    | badToml noDocument => simp [Text.decode_encode, noDocument]
    | maxDepth document bad =>
      simp only [Text.decode_encode, document, ofToml_eq_error_iff, readLimits_eq_error_iff]
      exact .inl ⟨_, bad, rfl⟩
    | maxStates document right bad =>
      simp only [Text.decode_encode, document, ofToml_eq_error_iff, readLimits_eq_error_iff]
      exact .inr ⟨right, _, bad, rfl⟩

/-- The limits of settings that load come from the document, where there is one. -/
theorem limits_of_load {folder : Text} {file : Except Fault Bytes} {s : Settings}
    (loaded : load folder file = .ok s) :
    ((∃ fault, file = .error fault) ∧ s.limits = .standard) ∨
      ∃ text root, file = .ok (Text.encode text) ∧ Toml.read text = some root ∧
        readLimits (root.get? "derivation".toList) = .ok s.limits := by
  unfold load at loaded
  split at loaded
  · next fault =>
    split at loaded
    · obtain rfl := Except.ok.inj loaded
      exact .inl ⟨⟨fault, rfl⟩, rfl⟩
    · cases loaded
  · next bytes =>
    split at loaded
    · cases loaded
    · next text decoded =>
      split at loaded
      · cases loaded
      · next root document =>
        refine .inr ⟨text, root, congrArg _ (Text.encode_of_decode decoded).symm, document, ?_⟩
        unfold ofToml at loaded
        generalize readLimits (root.get? "derivation".toList) = limits at loaded ⊢
        cases limits with
        | error r => cases loaded
        | ok l => rw [← Except.ok.inj loaded]

end Settings

/-! ## What a refusal quotes -/

namespace Settings.Refusal

/-- What a refusal quotes: the fault of the file, the description of the fault in the document, or
the value that is refused. -/
def quotes : Refusal → Text
  | unreadable fault => fault.message
  | badToml => tomlFault
  | badLimit _ printed => printed

/-- All line breaks of a refusal are in what it quotes. -/
theorem count_newline_message {file : Except Fault Bytes} {r : Refusal} (refuses : Refuses file r) :
    r.message.count '\n' = r.quotes.count '\n' := by
  cases refuses with
  | unreadable => rfl
  | notUtf8 => rfl
  | badToml => rfl
  | maxDepth => rfl
  | maxStates => rfl

end Settings.Refusal

/-! ## What a run needs -/

/-- Two hosts have the same of what is needed. -/
structure Host.Agree (n : Program.Need) (first second : Host) : Prop where
  file : ∀ path, n = .file path → first.contentOf path = second.contentOf path
  input : n = .input → first.input = second.input

theorem Program.need_of_parsed {s : Settings} {arguments : List Text} {o : Options}
    (starts : (Manifest.ofSettings s).entry = Manifest.builtin.entry)
    (parsed : Options.ofArguments (withDefaults s.defaultOptions arguments) = .ok o)
    (noScript : o.completions = none) :
    need s arguments = o.grammarFile.elim .input .file := by
  unfold need
  rw [if_neg (not_not.2 starts), parsed]
  dsimp only
  rw [noScript]
  cases o.grammarFile <;> rfl

namespace Finder

variable {first second : Host}

theorem story_of_agree (find : Finder) {o : Options}
    (agree : Host.Agree (o.grammarFile.elim .input .file) first second) (limits : Limits) :
    find.story first o limits = find.story second o limits := by
  unfold story
  cases named : o.grammarFile with
  | some path =>
    have content := agree.file path (by rw [named]; rfl)
    simp only [fileStory, content]
  | none =>
    have input := agree.input (by rw [named]; rfl)
    simp only [dialogueStory, input]

/-- The entry routine reads what the settings and the arguments need, and nothing else. -/
theorem routine_of_agree (find : Finder) {s : Settings} {arguments : List Text}
    (starts : (Manifest.ofSettings s).entry = Manifest.builtin.entry)
    (agree : Host.Agree (Program.need s arguments) first second) (name : Text) :
    find.routine first arguments ⟨name, s⟩ = find.routine second arguments ⟨name, s⟩ := by
  rcases routine_cases arguments ⟨name, s⟩ with ⟨o, parsed, noScript⟩ | ⟨outcome, _, left⟩
  · rw [Program.need_of_parsed starts parsed noScript] at agree
    rw [find.routine_of_parsed first parsed noScript, find.routine_of_parsed second parsed noScript,
      validate_congr (find.story_of_agree agree _)]
  · rw [left, left]

end Finder

/-! ## Hosts without a settings file -/

namespace Host

/-- The path leads to the settings file, or on from there as if it were a folder: it is the path of
that file, or one of the aliases that do. -/
def leadsToSettings (host : Host) (isAlias : Text → Bool) (path : Text) : Bool :=
  path == Settings.path host.settingsFolder || isAlias path

/-- The host without its settings file, to which no path leads any more. -/
def withoutSettings (host : Host) (isAlias : Text → Bool) : Host :=
  { host with
    settingsFile := .error (.system .missing)
    contentOf := fun path =>
      if host.leadsToSettings isAlias path then .error (.system .missing) else host.contentOf path }

theorem agree_withoutSettings {host : Host} {isAlias : Text → Bool} {n : Program.Need}
    (apart : ∀ path, n = .file path → host.leadsToSettings isAlias path = false) :
    Agree n host (host.withoutSettings isAlias) where
  file path needed := by simp only [withoutSettings, apart path needed, Bool.false_eq_true, if_false]
  input _ := rfl

end Host

namespace Program

variable {host : Host} {r : Settings.Refusal}

theorem settings_of_load_eq_error
    (refused : Settings.load host.settingsFolder host.settingsFile = .error r) :
    settings host =
      (.standard host.settingsFolder,
        Log.warning ("Failed to load config: ".toList ++ r.message)) := by
  rw [settings, refused]

theorem settings_withoutSettings (host : Host) (isAlias : Text → Bool) :
    settings (host.withoutSettings isAlias) = (.standard host.settingsFolder, []) :=
  rfl

/-- The whole run is that without the settings file, after one entry of the log. The entry has one
line, and one more for each line break in what the refusal quotes. -/
theorem run_of_load_eq_error
    (refused : Settings.load host.settingsFolder host.settingsFile = .error r)
    (isAlias : Text → Bool) (arguments : List Text)
    (apart : ∀ path, need (.standard host.settingsFolder) arguments = .file path →
      host.leadsToSettings isAlias path = false) :
    Settings.Refuses host.settingsFile r ∧
      run host arguments =
        (run (host.withoutSettings isAlias) arguments).warned
          (Log.warning ("Failed to load config: ".toList ++ r.message)) ∧
      (Log.warning ("Failed to load config: ".toList ++ r.message)).count '\n' =
        r.quotes.count '\n' + 1 := by
  have refuses := Settings.load_eq_error_iff.1 refused
  refine ⟨refuses, ?_, ?_⟩
  · have given := settings_of_load_eq_error refused
    have starts : Starts host := by
      rw [Starts, given]
      rfl
    have without : Starts (host.withoutSettings isAlias) := rfl
    have same := Finder.standard.routine_of_agree (s := .standard host.settingsFolder) rfl
      (Host.agree_withoutSettings apart) Help.programName
    rw [run, run, Finder.standard.run_of_starts starts, Finder.standard.run_of_starts without, given,
      settings_withoutSettings, same]
    rfl
  · have label : "Failed to load config: ".toList.count '\n' = 0 := by decide
    rw [Log.count_newline_warning, List.count_append, label, Nat.zero_add,
      Settings.Refusal.count_newline_message refuses]

/-- An entry and an option that are right by themselves, and a depth of zero. -/
def halfRightSettings : Bytes :=
  Text.encode ("[launcher]\nentry = \"other\"\n".toList ++
    "[defaults]\noptions = [\"--format=json\"]\n".toList ++
    "[derivation]\nmax_depth = 0\n".toList)

/-- Another name of the settings file. -/
def dotted (path : Text) : Bool := path == "./conf/config.toml".toList

/-- A grammar file beside the settings file, which has two names. -/
def halfRight : Host where
  settingsFolder := "conf".toList
  settingsFile := .ok halfRightSettings
  contentOf := fun path =>
    if path = "g.toml".toList then
      .ok (Text.encode ("terminals = [\"a\"]\nnon_terminals = [\"S\"]\n".toList ++
        "start = \"S\"\nrules = [\"S -> a\"]\n".toList))
    else if path = "conf/config.toml".toList ∨ dotted path then .ok halfRightSettings
    else .error (.system .missing)
  input := []

theorem run_halfRight :
    Settings.load halfRight.settingsFolder halfRight.settingsFile =
        .error (.badLimit "max_depth".toList "0".toList) ∧
      need (.standard halfRight.settingsFolder) ["gv".toList, "-d=a".toList, "g.toml".toList] =
        .file "g.toml".toList ∧
      Settings.Refuses halfRight.settingsFile (.badLimit "max_depth".toList "0".toList) ∧
      run halfRight ["gv".toList, "-d=a".toList, "g.toml".toList] =
        (run (halfRight.withoutSettings dotted)
          ["gv".toList, "-d=a".toList, "g.toml".toList]).warned
          ("WARN Failed to load config: Config error: ".toList ++
            "derivation.max_depth must be a positive integer, got 0\n".toList) ∧
      (run (halfRight.withoutSettings dotted)
        ["gv".toList, "-d=a".toList, "g.toml".toList]).status = .success := by
  have refused : Settings.load halfRight.settingsFolder halfRight.settingsFile =
      .error (.badLimit "max_depth".toList "0".toList) := by
    decide +kernel
  have needed : need (.standard halfRight.settingsFolder)
      ["gv".toList, "-d=a".toList, "g.toml".toList] = .file "g.toml".toList := by
    decide +kernel
  have warning : Log.warning ("Failed to load config: ".toList ++
      (Settings.Refusal.badLimit "max_depth".toList "0".toList).message) =
        "WARN Failed to load config: Config error: ".toList ++
          "derivation.max_depth must be a positive integer, got 0\n".toList := by
    decide +kernel
  have apart : ∀ path, need (.standard halfRight.settingsFolder)
      ["gv".toList, "-d=a".toList, "g.toml".toList] = .file path →
        halfRight.leadsToSettings dotted path = false := by
    intro path other
    obtain rfl := Need.file.inj (needed.symm.trans other)
    decide +kernel
  obtain ⟨reason, same, _⟩ := run_of_load_eq_error refused _ _ apart
  rw [warning] at same
  exact ⟨refused, needed, reason, same, by decide +kernel⟩

/-- A depth that is a string of two lines. -/
def scattered : Host where
  settingsFolder := "conf".toList
  settingsFile := .ok (Text.encode "[derivation]\nmax_depth = \"a\\nb\"\n".toList)
  contentOf := fun path =>
    if path = "conf/config.toml".toList then
      .ok (Text.encode "[derivation]\nmax_depth = \"a\\nb\"\n".toList)
    else .error (.system .missing)
  input := Text.encode "a\nS\nS\nS -> a\ndone\na\n".toList

/-- The entry takes up three lines. A run that is given the settings file as its grammar does not
even go on as it does without the file. -/
theorem run_scattered :
    Settings.load scattered.settingsFolder scattered.settingsFile =
        .error (.badLimit "max_depth".toList "\"\"\"\na\nb\"\"\"".toList) ∧
      (∀ line, '\n' ∉ line →
        (run scattered ["gv".toList]).err ≠
          line ++ ['\n'] ++ (run (scattered.withoutSettings fun _ => false) ["gv".toList]).err) ∧
      ∀ before,
        (run scattered ["gv".toList, "conf/config.toml".toList]).err ≠
          before ++ (run (scattered.withoutSettings fun _ => false)
            ["gv".toList, "conf/config.toml".toList]).err := by
  refine ⟨by decide +kernel, fun line unbroken same => ?_, fun before same => ?_⟩
  · have breaks : (run scattered ["gv".toList]).err.count '\n' =
        3 + (run (scattered.withoutSettings fun _ => false) ["gv".toList]).err.count '\n' := by
      decide +kernel
    rw [same, List.count_append, List.count_append, List.count_eq_zero_of_not_mem unbroken] at breaks
    simp at breaks
  · have other : ¬ (run (scattered.withoutSettings fun _ => false)
        ["gv".toList, "conf/config.toml".toList]).err <:+
          (run scattered ["gv".toList, "conf/config.toml".toList]).err := by
      decide +kernel
    exact other ⟨before, same.symm⟩

end Program

end Chomsky
