import Chomsky.Proofs.Options.Defaults
import Chomsky.Proofs.Program.Output

/-!
# Errors in detail

Whether an error is shown in detail is asked of the arguments as they stand, whatever their place,
and not of the options that they give. The two agree but for a program or a grammar file that is
named like one of the flags (`Program.routine_detail`).
-/

namespace Chomsky

/-! ## Flags among arguments -/

theorem splitValue_of_none {t name : Text} (split : Scan.splitValue t = (name, none)) :
    t = name := by
  unfold Scan.splitValue at split
  split at split
  · exact (Prod.mk.inj split).1
  · cases (Prod.mk.inj split).2

theorem Named.of_ofLong? {name : Text} {n : Named} (known : ofLong? name = some n) :
    n ≠ .slot .grammarFile ∧ ∀ s, n = .switch s → '-' :: '-' :: name = s.label := by
  unfold ofLong? at known
  repeat
    rcases ite_eq_iff.1 known with ⟨rfl, ⟨⟩⟩ | ⟨-, known⟩
    · exact ⟨nofun, fun s same => by cases same <;> rfl⟩
  cases known

theorem Named.of_ofShort? {c : Char} {n : Named} (known : ofShort? c = some n) :
    n ≠ .slot .grammarFile ∧ ∀ s, n ≠ .switch s := by
  unfold ofShort? at known
  repeat
    rcases ite_eq_iff.1 known with ⟨rfl, ⟨⟩⟩ | ⟨-, known⟩
    · exact ⟨nofun, nofun⟩
  cases known

/-- A grammar file has no name, and a flag has one form. -/
theorem Shape.of_named {argument : Text} {n : Named} {long : Bool} {value : Option Text}
    (shape : ofArgument argument = .named n long value) :
    n ≠ .slot .grammarFile ∧ ∀ s, n = .switch s → value = none → argument = s.label := by
  unfold ofArgument at shape
  split at shape
  · cases shape
  · next t _ =>
    unfold ofLong at shape
    cases parts : Scan.splitValue t with
    | mk name attached =>
      simp only [parts] at shape
      split at shape
      · next m known =>
        obtain ⟨rfl, -, rfl⟩ := Shape.named.inj shape
        obtain ⟨noFile, label⟩ := Named.of_ofLong? known
        refine ⟨noFile, fun s switch bare => ?_⟩
        subst bare
        rw [splitValue_of_none parts, label s switch]
      · cases shape
  · next c rest _ _ =>
    unfold ofShort at shape
    cases known : Named.ofShort? c with
    | none => simp [known] at shape
    | some m =>
      obtain ⟨noFile, noSwitch⟩ := Named.of_ofShort? known
      have same : m = n := by
        cases m <;> simp_all
      subst same
      exact ⟨noFile, fun s switch => absurd switch (noSwitch s)⟩
  · cases shape

theorem Shape.ofArgument_label (s : Switch) : ofArgument s.label = .named (.switch s) true none := by
  cases s <;> rfl

/-- A flag among the arguments is a flag that they give, or the name of a file. -/
theorem label_mem_iff {files : Bool} {arguments : List Text} {gs : List Given}
    (read : given files arguments = some gs) (s : Switch) :
    s.label ∈ arguments ↔ .switch s ∈ gs ∨ .slot .grammarFile s.label ∈ gs := by
  have other {argument : Text} {shape : Shape} (known : Shape.ofArgument argument = shape)
      (differs : shape ≠ .named (.switch s) true none) : s.label ≠ argument := by
    rintro rfl
    exact differs (known.symm.trans (Shape.ofArgument_label s))
  fun_induction given files arguments generalizing gs with
  | case1 files =>
    obtain rfl := Option.some.inj read
    simp
  | case2 name rest ih =>
    obtain ⟨gs, later, rfl⟩ := Option.map_eq_some_iff.mp read
    simp [ih later, eq_comm, or_left_comm]
  | case3 argument rest shape ih =>
    simp [other shape, ih read]
  | case4 argument rest shape ih =>
    obtain ⟨gs, later, rfl⟩ := Option.map_eq_some_iff.mp read
    simp [other shape, ih later]
  | case5 argument switch long rest shape ih =>
    obtain ⟨gs, later, rfl⟩ := Option.map_eq_some_iff.mp read
    have same : s.label = argument ↔ s = switch := by
      constructor
      · rintro rfl
        rw [Shape.ofArgument_label] at shape
        exact Named.switch.inj (Shape.named.inj shape).1
      · rintro rfl
        exact ((Shape.of_named shape).2 s rfl rfl).symm
    simp [same, ih later, or_assoc]
  | case6 argument slot long value rest shape ih =>
    obtain ⟨gs, later, rfl⟩ := Option.map_eq_some_iff.mp read
    have noFile : slot ≠ .grammarFile := by simpa using (Shape.of_named shape).1
    simp [other shape, ih later, noFile.symm]
  | case7 argument slot long value rest shape word ih =>
    obtain ⟨gs, later, rfl⟩ := Option.map_eq_some_iff.mp read
    have noFile : slot ≠ .grammarFile := by simpa using (Shape.of_named shape).1
    simp [other shape, other word, ih later, noFile.symm]
  | case8 => cases read
  | case9 => cases read

namespace Options

variable {o p : Options} {g : Given} {gs : List Given}

theorem file_of_assign {slot : Slot} {value : Text} (read : o.assign slot value = .ok p)
    (other : slot ≠ .grammarFile) : p.grammarFile = o.grammarFile := by
  cases slot with
  | grammarFile => exact absurd rfl other
  | target =>
    obtain rfl := Except.ok.inj read
    rfl
  | maxDepth | maxStates | format | completions =>
    dsimp only [assign] at read
    split at read
    all_goals cases read
    rfl

theorem file_of_give (added : o.give g = some p) (path : Text) :
    p.grammarFile = some path ↔ o.grammarFile = some path ∨ g = .slot .grammarFile path := by
  cases g with
  | slot slot value =>
    by_cases file : slot = .grammarFile
    · subst file
      obtain ⟨-, missing, rfl⟩ := give_file_eq_some_iff.mp added
      simp [missing]
    · have settled := give_slot_eq_some_iff.mp added
      dsimp only [settle] at settled
      split at settled
      · cases settled
      · rw [file_of_assign settled file]
        simp [file]
  | switch switch =>
    rw [give_switch] at added
    split at added
    · cases added
    · obtain rfl := Option.some.inj added
      cases switch <;> simp [turnOn]

theorem file_of_giveAll (added : o.giveAll gs = some p) (path : Text) :
    p.grammarFile = some path ↔
      o.grammarFile = some path ∨ .slot .grammarFile path ∈ gs := by
  induction gs generalizing o with
  | nil =>
    obtain rfl := Option.some.inj added
    simp
  | cons g gs ih =>
    rw [giveAll_cons] at added
    obtain ⟨next, first, rest⟩ := Option.bind_eq_some_iff.mp added
    rw [ih rest, file_of_give first, List.mem_cons, or_assoc, eq_comm (a := g)]

theorem isOn_of_giveAll (added : o.giveAll gs = some p) (s : Switch) :
    p.isOn s = true ↔ o.isOn s = true ∨ .switch s ∈ gs := by
  induction gs generalizing o with
  | nil =>
    obtain rfl := Option.some.inj added
    simp
  | cons g gs ih =>
    rw [giveAll_cons] at added
    obtain ⟨next, first, rest⟩ := Option.bind_eq_some_iff.mp added
    have step : next.isOn s = (o.isOn s || decide (g.named = .switch s)) :=
      gives_of_give first (.switch s)
    have form : g.named = .switch s ↔ .switch s = g := by
      cases g <;> simp [Given.named, eq_comm]
    rw [ih rest, step, List.mem_cons, Bool.or_eq_true, decide_eq_true_iff, form, or_assoc]

end Options

namespace Program

variable {arguments : List Text} {o : Options}

/-- An argument is the flag if the options have it, or if it names the program or the file. -/
theorem label_mem_iff_isOn (parsed : Options.ofArguments arguments = .ok o) (s : Switch) :
    s.label ∈ arguments ↔
      o.isOn s = true ∨ arguments.head? = some s.label ∨ o.grammarFile = some s.label := by
  cases arguments with
  | nil =>
    obtain rfl := Except.ok.inj parsed
    cases s <;> decide
  | cons name arguments =>
    obtain ⟨gs, read, added⟩ := Options.ofArguments_eq_ok_iff.mp parsed
    have noFlag : Options.none.isOn s = false := Options.gives_none (.switch s)
    have noFile : Options.none.grammarFile = none := rfl
    rw [List.mem_cons, label_mem_iff read, Options.isOn_of_giveAll added,
      Options.file_of_giveAll added]
    simp [noFlag, noFile, eq_comm, or_left_comm]

/-- A flag that asks for detail. -/
def isDetailFlag (t : Text) : Bool := t == Switch.debug.label || t == Switch.traceback.label

theorem any_isDetailFlag (t : Option Text) :
    t.any isDetailFlag = true ↔
      t = some Switch.debug.label ∨ t = some Switch.traceback.label := by
  cases t <;> simp [isDetailFlag]

theorem asksForDetail_eq_true_iff (arguments : List Text) :
    asksForDetail arguments = true ↔
      Switch.debug.label ∈ arguments ∨ Switch.traceback.label ∈ arguments := by
  change arguments.any isDetailFlag = true ↔ _
  simp [isDetailFlag, and_or_left, exists_or]

/-- A run reports its error in detail if the options ask for it, and also if the program or the
grammar file is named like a flag that would. -/
theorem routine_detail {host : Host} {e : Environment}
    (parsed : Options.ofArguments (withDefaults e.settings.defaultOptions arguments) = .ok o) :
    asksForDetail (withDefaults e.settings.defaultOptions arguments) =
        (o.showsDetail ||
          (withDefaults e.settings.defaultOptions arguments).head?.any isDetailFlag ||
          o.grammarFile.any isDetailFlag) ∧
      (o.completions = none → ∀ fault,
        (story host o (o.limits e.settings.limits)).ending = .error fault →
          ∃ before, (routine host arguments e).err = before ++
            fault.line (asksForDetail (withDefaults e.settings.defaultOptions arguments))) := by
  constructor
  · rw [Bool.eq_iff_iff, asksForDetail_eq_true_iff, label_mem_iff_isOn parsed,
      label_mem_iff_isOn parsed]
    simp only [Bool.or_eq_true, any_isDetailFlag, Options.showsDetail, Options.isOn]
    grind
  · intro noScript fault ended
    obtain ⟨warning, validated⟩ := validate_eq_warned host o
      (asksForDetail (withDefaults e.settings.defaultOptions arguments)) e.settings.limits
    rw [routine_of_parsed host parsed noScript, validated, Outcome.warned_warned]
    simp only [Story.tell, ended, Outcome.warned, ← List.append_assoc]
    exact ⟨_, rfl⟩

/-- A host without any file. -/
def fileless : Host where
  settingsFolder := "conf".toList
  settingsFile := .error (.system .missing)
  contentOf := fun _ => .error (.system .missing)
  input := []

/-- An environment whose default options ask for detail. -/
def curious : Environment :=
  ⟨"gv".toList,
    { Settings.standard "conf".toList with defaultOptions := ["--traceback".toList] }⟩

theorem routine_detail_curious :
    ∃ before, (routine fileless ["gv".toList, "--".toList, "g.toml".toList] curious).err =
      before ++ (Error.grammarFile "g.toml".toList (.system .missing)).line true := by
  have parsed : Options.ofArguments (withDefaults curious.settings.defaultOptions
      ["gv".toList, "--".toList, "g.toml".toList]) =
        .ok { Options.none with grammarFile := some "g.toml".toList, traceback := true } := rfl
  have ended : (story fileless
      { Options.none with grammarFile := some "g.toml".toList, traceback := true }
      .standard).ending = .error (.grammarFile "g.toml".toList (.system .missing)) := rfl
  obtain ⟨asked, reported⟩ := routine_detail parsed
  rw [asked] at reported
  exact reported rfl _ ended

/-- The options ask for no detail, but the file that they name is called like the flag. -/
theorem run_detail_unasked :
    Options.ofArguments ["gv".toList, "--".toList, "--debug".toList] =
        .ok { Options.none with grammarFile := some "--debug".toList } ∧
      { Options.none with grammarFile := some "--debug".toList }.showsDetail = false ∧
      (run fileless ["gv".toList, "--".toList, "--debug".toList]).err =
        (Error.grammarFile "--debug".toList (.system .missing)).line true :=
  ⟨rfl, rfl, rfl⟩

end Program

end Chomsky
