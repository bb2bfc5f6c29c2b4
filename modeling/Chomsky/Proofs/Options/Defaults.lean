import Chomsky.Program
import Chomsky.Proofs.Options.Reading

/-!
# Default options

Default options stand before those of the command line, and are read with them as one command line.
Where both are right by themselves and have no argument in common, the whole gives what either
gives; an argument that both give is given twice, and refused
(`Options.ofArguments_withDefaults_iff`). So a default cannot be overridden. Two dashes among the
defaults leave only file names to the command line.
-/

namespace Chomsky

namespace Options

/-- No argument is given by both. -/
def Apart (o p : Options) : Prop := ∀ n, o.gives n = true → p.gives n = false

/-- What either gives, and the value of `o` where both give one. -/
def onto (o base : Options) : Options where
  grammarFile := o.grammarFile <|> base.grammarFile
  target := o.target <|> base.target
  maxDepth := o.maxDepth <|> base.maxDepth
  maxStates := o.maxStates <|> base.maxStates
  givenFormat := o.givenFormat <|> base.givenFormat
  checkDerivation := o.checkDerivation || base.checkDerivation
  traceback := o.traceback || base.traceback
  debug := o.debug || base.debug
  completions := o.completions <|> base.completions

variable {o p base : Options} {g : Given} {gs : List Given}

theorem none_onto (base : Options) : none.onto base = base := by
  simp [onto, none]

theorem gives_none (n : Named) : none.gives n = false := by
  cases n with
  | slot s => cases s <;> rfl
  | switch s => cases s <;> rfl
  | help | version => rfl

theorem has_onto (slot : Slot) : (o.onto base).has slot = (o.has slot || base.has slot) := by
  cases slot <;> simp [onto, has]

theorem isOn_onto (switch : Switch) :
    (o.onto base).isOn switch = (o.isOn switch || base.isOn switch) := by
  cases switch <;> rfl

theorem turnOn_onto (switch : Switch) :
    (o.onto base).turnOn switch = (o.turnOn switch).onto base := by
  cases switch <;> simp [onto, turnOn]

theorem assign_onto (slot : Slot) (value : Text) :
    (o.onto base).assign slot value = (o.assign slot value).map fun p => p.onto base := by
  cases slot
  all_goals
    dsimp only [assign]
    (try split) <;> simp [onto, Except.map]

theorem gives_turnOn (switch : Switch) (n : Named) :
    (o.turnOn switch).gives n = (o.gives n || decide (.switch switch = n)) := by
  cases switch
  all_goals rcases n with (_ | _) | (_ | _) | _ | _ <;> simp [gives, has, isOn, turnOn]

theorem gives_of_give (added : o.give g = some p) (n : Named) :
    p.gives n = (o.gives n || decide (g.named = n)) := by
  cases g with
  | slot slot value => exact gives_of_settle (give_slot_eq_some_iff.mp added) n
  | switch switch =>
    rw [give_switch] at added
    split at added
    · cases added
    · obtain rfl := Option.some.inj added
      exact gives_turnOn switch n

/-- Arguments that were given stay given. -/
theorem gives_of_giveAll (added : o.giveAll gs = some p) {n : Named} (given : o.gives n = true) :
    p.gives n = true := by
  induction gs generalizing o with
  | nil =>
    obtain rfl := Option.some.inj added
    exact given
  | cons g gs ih =>
    rw [giveAll_cons] at added
    obtain ⟨next, first, rest⟩ := Option.bind_eq_some_iff.mp added
    exact ih rest (by rw [gives_of_give first, given, Bool.true_or])

/-- On top of other options an argument gives what it gives alone, unless it is given there. -/
theorem give_onto :
    (o.onto base).give g =
      if base.gives g.named then Option.none else (o.give g).map fun p => p.onto base := by
  cases g with
  | slot slot value =>
    simp only [give_slot, Given.named, gives, settle, has_onto, assign_onto, Bool.or_eq_true]
    by_cases below : base.has slot = true <;> by_cases above : o.has slot = true
    all_goals simp [below, above, Except.toOption]
    cases o.assign slot value <;> rfl
  | switch switch =>
    simp only [give_switch, Given.named, gives, isOn_onto, turnOn_onto, Bool.or_eq_true]
    by_cases below : base.isOn switch = true <;> by_cases above : o.isOn switch = true
    all_goals simp [below, above]

theorem giveAll_onto_iff (apart : base.Apart o) (added : o.giveAll gs = some p) (q : Options) :
    (o.onto base).giveAll gs = some q ↔ base.Apart p ∧ q = p.onto base := by
  induction gs generalizing o with
  | nil =>
    obtain rfl := Option.some.inj added
    simp [giveAll, apart, eq_comm]
  | cons g gs ih =>
    rw [giveAll_cons] at added ⊢
    obtain ⟨next, first, rest⟩ := Option.bind_eq_some_iff.mp added
    rw [give_onto, first]
    split
    · next twice =>
      -- What is given twice is given in the end too, so the two do not become apart again.
      have given : p.gives g.named = true :=
        gives_of_giveAll rest (by simp [gives_of_give first])
      have notApart : ¬ base.Apart p := fun apart => by simp [apart g.named twice] at given
      simp [notApart]
    · next once =>
      refine ih ?_ rest
      intro n given
      have other : g.named ≠ n := by
        rintro rfl
        exact once given
      simp [gives_of_give first, apart n given, other]

theorem giveAll_append (o : Options) (gs hs : List Given) :
    o.giveAll (gs ++ hs) = (o.giveAll gs).bind fun p => p.giveAll hs :=
  List.foldlM_append ..

theorem give_file_eq_some_iff {path : Text} :
    o.give (.slot .grammarFile path) = some p ↔
      path ≠ [] ∧ o.grammarFile = .none ∧ p = { o with grammarFile := some path } := by
  rw [give_slot_eq_some_iff]
  cases path <;> cases file : o.grammarFile <;> simp [settle, has, assign, file, eq_comm]

/-- Of file names only one is taken, and it must not be empty. -/
theorem giveAll_files_iff (names : List Text) (q : Options) :
    o.giveAll (names.map (.slot .grammarFile)) = some q ↔
      names = [] ∧ q = o ∨
        ∃ path, names = [path] ∧ path ≠ [] ∧ o.grammarFile = .none ∧
          q = { o with grammarFile := some path } := by
  match names with
  | [] => simp [giveAll, eq_comm]
  | [path] =>
    rw [List.map_singleton, giveAll_cons, Option.bind_eq_some_iff]
    simp [giveAll, give_file_eq_some_iff]
  | first :: second :: more =>
    simp only [List.map_cons, giveAll_cons, Option.bind_eq_some_iff, give_file_eq_some_iff]
    constructor
    · rintro ⟨_, ⟨-, -, rfl⟩, _, ⟨-, again, -⟩, -⟩
      cases again
    · simp

end Options

theorem Shape.ofArgument_eq_dashes_iff (argument : Text) :
    ofArgument argument = .dashes ↔ argument = "--".toList := by
  refine ⟨fun dashes => ?_, fun dashes => dashes ▸ rfl⟩
  unfold ofArgument at dashes
  split at dashes
  · rfl
  · next t _ =>
    unfold ofLong at dashes
    dsimp only at dashes
    split at dashes <;> cases dashes
  · next c rest _ _ =>
    unfold ofShort at dashes
    split at dashes <;> cases dashes
  · cases dashes

theorem given_true (names : List Text) :
    given true names = some (names.map (.slot .grammarFile)) := by
  induction names with
  | nil => rfl
  | cons name rest ih => simp [given, ih]

theorem mem_cons_of_shape {argument : Text} {shape : Shape}
    (known : Shape.ofArgument argument = shape) (other : shape ≠ .dashes) (rest : List Text) :
    "--".toList ∈ argument :: rest ↔ "--".toList ∈ rest := by
  have different : "--".toList ≠ argument := fun same =>
    other (known ▸ (Shape.ofArgument_eq_dashes_iff argument).mpr same.symm)
  rw [List.mem_cons, or_iff_right different]

/-- What stands behind arguments that are right by themselves is read as if it stood alone, or as
file names behind two dashes. -/
theorem given_append {files : Bool} {arguments : List Text} {gs : List Given}
    (first : given files arguments = some gs) (rest : List Text) :
    given files (arguments ++ rest) =
      (given (files || decide ("--".toList ∈ arguments)) rest).map (gs ++ ·) := by
  -- One thing more in front, whichever kind of argument gives it.
  have step {g : Given} {files b : Bool} {tail : List Text} {gs : List Given}
      (first : (given files tail).map (g :: ·) = some gs)
      (ih : ∀ {gs}, given files tail = some gs →
        given files (tail ++ rest) = (given b rest).map (gs ++ ·)) :
      (given files (tail ++ rest)).map (g :: ·) = (given b rest).map (gs ++ ·) := by
    obtain ⟨gs, read, rfl⟩ := Option.map_eq_some_iff.mp first
    rw [ih read, Option.map_map]
    rfl
  fun_induction given files arguments generalizing gs with
  | case1 files =>
    obtain rfl := Option.some.inj first
    simp
  | case2 name tail ih =>
    exact step first ih
  | case3 argument tail shape ih =>
    have dashes := (Shape.ofArgument_eq_dashes_iff argument).mp shape
    rw [List.cons_append, given_of_dashes shape, ih first]
    simp [dashes]
  | case4 argument tail shape ih =>
    rw [List.cons_append, given_of_word shape, step first ih]
    simp only [mem_cons_of_shape shape (by simp)]
  | case5 argument switch long tail shape ih =>
    rw [List.cons_append, given_of_switch shape, step first ih]
    simp only [mem_cons_of_shape shape (by simp)]
  | case6 argument slot long value tail shape ih =>
    rw [List.cons_append, given_of_attached shape, step first ih]
    simp only [mem_cons_of_shape shape (by simp)]
  | case7 argument slot long value tail shape word ih =>
    rw [List.cons_append, List.cons_append, given_of_value shape word, step first ih]
    simp only [mem_cons_of_shape shape (by simp), mem_cons_of_shape word (by simp)]
  | case8 => cases first
  | case9 => cases first

namespace Options

/-- A command line behind default options; both are right by themselves. -/
theorem ofArguments_withDefaults_iff {defaults : List Text} {name : Text} {rest : List Text}
    {base own o : Options}
    (defaultsRead : ofArguments (name :: defaults.filter Program.isFlag) = .ok base)
    (ownRead : ofArguments (name :: rest) = .ok own) :
    ofArguments (Program.withDefaults defaults (name :: rest)) = .ok o ↔
      if "--".toList ∈ defaults then
        rest = [] ∧ o = base ∨
          ∃ path, rest = [path] ∧ path ≠ [] ∧ base.grammarFile = .none ∧
            o = { base with grammarFile := some path }
      else base.Apart own ∧ o = own.onto base := by
  obtain ⟨first, firstGiven, firstAdded⟩ := ofArguments_eq_ok_iff.mp defaultsRead
  obtain ⟨second, secondGiven, secondAdded⟩ := ofArguments_eq_ok_iff.mp ownRead
  have merged : Program.withDefaults defaults (name :: rest) =
      name :: (defaults.filter Program.isFlag ++ rest) := rfl
  have dashes : "--".toList ∈ defaults.filter Program.isFlag ↔ "--".toList ∈ defaults := by
    simp [Program.isFlag]
  rw [merged, ofArguments_eq_ok_iff, given_append firstGiven]
  by_cases hidden : "--".toList ∈ defaults
  · simp only [dashes, hidden, decide_true, Bool.false_or, given_true, Option.map_some,
      Option.some.injEq, exists_eq_left', giveAll_append, firstAdded, Option.bind_some, if_true,
      giveAll_files_iff]
  · have apart : base.Apart none := fun n _ => gives_none n
    rw [if_neg hidden, ← giveAll_onto_iff apart secondAdded, none_onto]
    simp only [dashes, hidden, decide_false, Bool.false_or, secondGiven, Option.map_some,
      Option.some.injEq, exists_eq_left', giveAll_append, firstAdded, Option.bind_some]

theorem ofArguments_withDefaults_apart :
    ofArguments (Program.withDefaults ["--max-depth=1".toList, "g.toml".toList]
        ["gv".toList, "-d".toList, "ab".toList]) =
      .ok { none with maxDepth := some 1, target := some "ab".toList } := by
  have defaultsRead : ofArguments ("gv".toList ::
      ["--max-depth=1".toList, "g.toml".toList].filter Program.isFlag) =
        .ok { none with maxDepth := some 1 } := rfl
  have ownRead : ofArguments ["gv".toList, "-d".toList, "ab".toList] =
      .ok { none with target := some "ab".toList } := rfl
  refine (ofArguments_withDefaults_iff defaultsRead ownRead).mpr ⟨?_, rfl⟩
  intro n
  rcases n with (_ | _) | (_ | _) | _ | _ <;> decide

/-- The depth that the command line asks for does not replace that of the defaults. -/
theorem ofArguments_withDefaults_repeated :
    ofArguments ["gv".toList, "--max-depth=1".toList] = .ok { none with maxDepth := some 1 } ∧
      ofArguments ["gv".toList, "--max-depth=5".toList, "g.toml".toList] =
        .ok { none with maxDepth := some 5, grammarFile := some "g.toml".toList } ∧
      ofArguments (Program.withDefaults ["--max-depth=1".toList]
          ["gv".toList, "--max-depth=5".toList, "g.toml".toList]) =
        .error (.usage (.repeatedArgument Slot.maxDepth.label)) :=
  ⟨rfl, rfl, rfl⟩

end Options

end Chomsky
