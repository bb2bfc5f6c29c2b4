import Chomsky.Proofs.Options.Reading

/-!
# Options written as arguments

Options are written with their values attached, in any order, and the grammar file behind two dashes.
Such a command line gives the options back (`Options.ofArguments_parts`) if the limits are in range
and the file has a name, as they are whenever a command line gives them
(`Options.inRange_of_ofArguments`).
-/

namespace Chomsky

/-! ## Numbers -/

theorem le_ofDigitChars (n : Nat) (t : Text) : n ≤ Nat.ofDigitChars 10 t n := by
  induction t generalizing n with
  | nil => exact Nat.le_refl n
  | cons c t ih =>
    have rest := ih (10 * n + (c.toNat - '0'.toNat))
    rw [Nat.ofDigitChars_cons]
    omega

theorem readDigits_of_lt {n : Nat} {t : Text} (digits : ∀ c ∈ t, c.isDigit = true)
    (small : Nat.ofDigitChars 10 t n < UInt64.size) :
    readDigits n t = .ok (Nat.ofDigitChars 10 t n) := by
  induction t generalizing n with
  | nil => rfl
  | cons c t ih =>
    obtain ⟨first, others⟩ := List.forall_mem_cons.1 digits
    rw [Nat.ofDigitChars_cons] at small ⊢
    -- A prefix of the digits has a smaller value, so no digit makes the number too large.
    have fits := le_ofDigitChars (10 * n + (c.toNat - '0'.toNat)) t
    rw [readDigits, first]
    simp only [Bool.not_true, Bool.false_eq_true, if_false]
    rw [if_neg (by omega), ih others small]

theorem readCount_ofNat {n : Nat} (positive : 0 < n) (small : n < UInt64.size) :
    readCount (Text.ofNat n) = .ok n := by
  obtain ⟨c, rest, digits, digit⟩ := Text.exists_cons_ofNat n
  have noSign : c ≠ '+' := by
    rintro rfl
    cases digit
  have value : Nat.ofDigitChars 10 (c :: rest) 0 = n := by
    rw [← digits]
    exact Nat.ofDigitChars_ten_toDigits
  have read : readDigits 0 (c :: rest) = .ok n := by
    have all : ∀ d ∈ c :: rest, d.isDigit = true := fun d member =>
      Text.isDigit_of_mem_ofNat (digits ▸ member)
    rw [readDigits_of_lt all (by rw [value]; exact small), value]
  rw [digits, readCount]
  · simp only [List.head?_cons, Option.some.injEq, noSign, if_false, read]
    exact if_neg (Nat.ne_of_gt positive)
  · simp
  · simp [noSign]

theorem lt_of_readDigits {n m : Nat} {t : Text} (small : n < UInt64.size)
    (read : readDigits n t = .ok m) : m < UInt64.size := by
  induction t generalizing n with
  | nil => exact Except.ok.inj read ▸ small
  | cons c t ih =>
    rw [readDigits] at read
    dsimp only at read
    split at read
    · cases read
    · split at read
      · cases read
      · next fits => exact ih (Nat.not_le.1 fits) read

theorem range_of_readCount {t : Text} {n : Nat} (read : readCount t = .ok n) :
    0 < n ∧ n < UInt64.size := by
  unfold readCount at read
  split at read
  · cases read
  · cases read
  · cases value : readDigits 0 (if t.head? = some '+' then t.tail else t) with
    | error flaw => rw [value] at read; cases read
    | ok m =>
      rw [value] at read
      change (if m = 0 then Except.error _ else Except.ok m) = _ at read
      split at read
      · cases read
      · next positive =>
        obtain rfl := Except.ok.inj read
        exact ⟨Nat.pos_of_ne_zero positive, lt_of_readDigits (by decide) value⟩

/-! ## Parts of options -/

/-- The argument that gives it: an option with its value attached, a flag, or a file name. -/
def Given.argument : Given → Text
  | slot .grammarFile path => path
  | slot .target value => "--derive=".toList ++ value
  | slot .maxDepth value => "--max-depth=".toList ++ value
  | slot .maxStates value => "--max-states=".toList ++ value
  | slot .format value => "--format=".toList ++ value
  | slot .completions value => "--generate-completions=".toList ++ value
  | switch s => s.label

namespace Options

/-- What the limits have to be, and that a grammar file has a name. -/
structure InRange (o : Options) : Prop where
  maxDepth : ∀ n, o.maxDepth = some n → 0 < n ∧ n < UInt64.size
  maxStates : ∀ n, o.maxStates = some n → 0 < n ∧ n < UInt64.size
  grammarFile : o.grammarFile ≠ some []

/-- The value of an argument, as it is written. -/
def value? (o : Options) : Slot → Option Text
  | .grammarFile => o.grammarFile
  | .target => o.target
  | .maxDepth => o.maxDepth.map Text.ofNat
  | .maxStates => o.maxStates.map Text.ofNat
  | .format => o.givenFormat.map Format.argument
  | .completions => o.completions.map Shell.argument

/-- What the options give under a name. -/
def part? (o : Options) : Named → Option Given
  | .slot s => (o.value? s).map (.slot s)
  | .switch s => if o.isOn s then some (.switch s) else .none
  | .help | .version => .none

/-- What is written by name, which a grammar file is not. -/
def written : List Named :=
  [.slot .target, .slot .maxDepth, .slot .maxStates, .slot .format, .slot .completions,
    .switch .checkDerivation, .switch .traceback, .switch .debug]

/-- What the options give, a grammar file apart. -/
def parts (o : Options) : List Given := written.filterMap o.part?

/-- The ways in which a command line with these options may end. -/
def endings (o : Options) : List (List Text) :=
  match o.grammarFile with
  | .none => [[], ["--".toList]]
  | some path => [["--".toList, path]]

/-- What the options give under these names. -/
def only (o : Options) (names : List Named) : Options where
  grammarFile := if .slot .grammarFile ∈ names then o.grammarFile else .none
  target := if .slot .target ∈ names then o.target else .none
  maxDepth := if .slot .maxDepth ∈ names then o.maxDepth else .none
  maxStates := if .slot .maxStates ∈ names then o.maxStates else .none
  givenFormat := if .slot .format ∈ names then o.givenFormat else .none
  checkDerivation := if .switch .checkDerivation ∈ names then o.checkDerivation else false
  traceback := if .switch .traceback ∈ names then o.traceback else false
  debug := if .switch .debug ∈ names then o.debug else false
  completions := if .slot .completions ∈ names then o.completions else .none

variable {o : Options} {names : List Named} {g : Given} {gs : List Given}

theorem only_nil (o : Options) : o.only [] = none := by
  simp [only, none]

theorem has_only {slot : Slot} (fresh : .slot slot ∉ names) : (o.only names).has slot = false := by
  cases slot <;> simp [has, only, fresh]

theorem isOn_only {switch : Switch} (fresh : .switch switch ∉ names) :
    (o.only names).isOn switch = false := by
  cases switch <;> simp [isOn, only, fresh]

/-- A written value is read back. -/
theorem assign_only (range : o.InRange) {slot : Slot} {value : Text}
    (part : o.value? slot = some value) :
    (o.only names).assign slot value = .ok (o.only (.slot slot :: names)) := by
  cases slot with
  | grammarFile =>
    have noEmpty : value ≠ [] := by
      rintro rfl
      exact range.grammarFile part
    have same : o.grammarFile = some value := part
    simp [assign, only, same, noEmpty]
  | target =>
    have same : o.target = some value := part
    simp [assign, only, same]
  | maxDepth =>
    obtain ⟨n, same, rfl⟩ := Option.map_eq_some_iff.1 part
    obtain ⟨positive, small⟩ := range.maxDepth n same
    simp [assign, only, same, readCount_ofNat positive small]
  | maxStates =>
    obtain ⟨n, same, rfl⟩ := Option.map_eq_some_iff.1 part
    obtain ⟨positive, small⟩ := range.maxStates n same
    simp [assign, only, same, readCount_ofNat positive small]
  | format =>
    obtain ⟨f, same, rfl⟩ := Option.map_eq_some_iff.1 part
    have read : Format.ofArgument? f.argument = some f := by cases f <;> rfl
    simp [assign, only, same, read]
  | completions =>
    obtain ⟨s, same, rfl⟩ := Option.map_eq_some_iff.1 part
    have read : Shell.ofArgument? s.argument = some s := by cases s <;> rfl
    simp [assign, only, same, read]

theorem turnOn_only {switch : Switch} (on : o.isOn switch = true) :
    (o.only names).turnOn switch = o.only (.switch switch :: names) := by
  cases switch
  all_goals
    simp only [isOn] at on
    simp [turnOn, only, on]

theorem isSome_value? (o : Options) (slot : Slot) : (o.value? slot).isSome = o.has slot := by
  cases slot <;> simp [value?, has]

theorem named_of_part? {n : Named} (part : o.part? n = some g) : g.named = n := by
  cases n with
  | slot s =>
    obtain ⟨value, _, rfl⟩ := Option.map_eq_some_iff.1 part
    rfl
  | switch s =>
    simp only [part?] at part
    split at part
    · obtain rfl := Option.some.inj part
      rfl
    · cases part
  | help | version => cases part

/-- One thing more, in whatever order they come. -/
theorem give_only (range : o.InRange) (part : o.part? g.named = some g) (fresh : g.named ∉ names) :
    (o.only names).give g = some (o.only (g.named :: names)) := by
  cases g with
  | slot slot value =>
    have written : o.value? slot = some value := by
      obtain ⟨v, written, same⟩ := Option.map_eq_some_iff.1 part
      obtain ⟨-, rfl⟩ := Given.slot.inj same
      exact written
    rw [give_slot, settle, has_only fresh, assign_only range written]
    rfl
  | switch switch =>
    have on : o.isOn switch = true := by
      cases state : o.isOn switch with
      | true => rfl
      | false => simp [part?, Given.named, state] at part
    rw [give_switch, isOn_only fresh, turnOn_only on]
    rfl

theorem giveAll_only (range : o.InRange) (parts : ∀ g ∈ gs, o.part? g.named = some g)
    (once : (names ++ gs.map Given.named).Nodup) :
    (o.only names).giveAll gs = some (o.only ((gs.map Given.named).reverse ++ names)) := by
  induction gs generalizing names with
  | nil => rfl
  | cons g gs ih =>
    obtain ⟨first, others⟩ := List.forall_mem_cons.1 parts
    have moved : (g.named :: names ++ gs.map Given.named).Nodup :=
      (List.perm_middle.nodup_iff).1 once
    have fresh : g.named ∉ names := fun member =>
      (List.nodup_cons.1 moved).1 (List.mem_append_left _ member)
    rw [giveAll_cons, give_only range first fresh, Option.bind_some, ih others moved]
    simp

/-- Nothing is lost where all that is given is named. -/
theorem only_eq_self (all : ∀ n, o.gives n = true → n ∈ names) : o.only names = o := by
  have absent {slot : Slot} (out : .slot slot ∉ names) : ¬ o.has slot = true :=
    fun given => out (all (.slot slot) given)
  have off {switch : Switch} (out : .switch switch ∉ names) : false = o.isOn switch :=
    (Bool.eq_false_iff.2 fun on => out (all (.switch switch) on)).symm
  obtain ⟨file, target, depth, states, format, check, traceback, debug, completions⟩ := o
  simp only [only, mk.injEq, ite_eq_left_iff]
  refine ⟨fun out => ?_, fun out => ?_, fun out => ?_, fun out => ?_, fun out => ?_, off, off, off,
    fun out => ?_⟩
  all_goals exact (Option.not_isSome_iff_eq_none.1 (absent out)).symm

theorem exists_part? {n : Named} (given : o.gives n = true) : ∃ g, o.part? n = some g := by
  cases n with
  | slot s =>
    obtain ⟨value, written⟩ := Option.isSome_iff_exists.1 ((o.isSome_value? s).trans given)
    exact ⟨_, by rw [part?, written]; rfl⟩
  | switch s => exact ⟨_, if_pos given⟩
  | help | version => cases given

/-- What is given under all names, in any order, is the whole. -/
theorem giveAll_of_perm (range : o.InRange) (once : names.Nodup)
    (all : ∀ n, o.gives n = true → n ∈ names) (order : gs.Perm (names.filterMap o.part?)) :
    none.giveAll gs = some o := by
  have parts : ∀ g ∈ gs, o.part? g.named = some g := by
    intro g member
    obtain ⟨n, _, part⟩ := List.mem_filterMap.1 (order.mem_iff.1 member)
    rw [named_of_part? part, part]
  have apart : (gs.map Given.named).Nodup := by
    refine ((order.map _).nodup_iff).2 ?_
    refine List.pairwise_map.2 (List.pairwise_filterMap.2 (once.imp ?_))
    intro n m other g part h otherPart same
    exact other ((named_of_part? part).symm.trans (same.trans (named_of_part? otherPart)))
  have whole : ∀ n, o.gives n = true → n ∈ (gs.map Given.named).reverse ++ [] := by
    intro n given
    obtain ⟨g, part⟩ := exists_part? given
    have member := order.mem_iff.2 (List.mem_filterMap.2 ⟨n, all n given, part⟩)
    simpa using ⟨g, member, named_of_part? part⟩
  rw [← only_nil o, giveAll_only range parts apart, only_eq_self whole]

end Options

/-! ## Whole command lines -/

theorem Shape.ofArgument_argument (g : Given) (noFile : g.named ≠ .slot .grammarFile) :
    ofArgument g.argument =
      match g with
      | .slot s value => .named (.slot s) true (some value)
      | .switch s => .named (.switch s) true none := by
  cases g with
  | slot s value =>
    cases s with
    | grammarFile => exact absurd rfl noFile
    | target | maxDepth | maxStates | format | completions => rfl
  | switch s => cases s <;> rfl

theorem given_arguments {gs : List Given} (noFile : ∀ g ∈ gs, g.named ≠ .slot .grammarFile)
    (rest : List Text) :
    given false (gs.map Given.argument ++ rest) = (given false rest).map (gs ++ ·) := by
  induction gs with
  | nil => simp
  | cons g gs ih =>
    obtain ⟨first, others⟩ := List.forall_mem_cons.1 noFile
    have shape := Shape.ofArgument_argument g first
    cases g with
    | slot s value =>
      rw [List.map_cons, List.cons_append, given_of_attached shape, ih others, Option.map_map]
      rfl
    | switch s =>
      rw [List.map_cons, List.cons_append, given_of_switch shape, ih others, Option.map_map]
      rfl

namespace Options

variable {o : Options} {gs : List Given}

theorem given_ending {ending : List Text} (ends : ending ∈ o.endings) :
    given false ending = some (o.part? (.slot .grammarFile)).toList := by
  unfold endings at ends
  split at ends
  · next noFile =>
    have nothing : o.part? (.slot .grammarFile) = .none := by rw [part?, value?, noFile]; rfl
    rw [nothing]
    rcases List.mem_cons.1 ends with rfl | ends
    · rfl
    · obtain rfl := List.mem_singleton.1 ends
      rfl
  · next path file =>
    have last : o.part? (.slot .grammarFile) = some (.slot .grammarFile path) := by
      rw [part?, value?, file]
      rfl
    obtain rfl := List.mem_singleton.1 ends
    rw [last]
    rfl

/-- Options are read back from arguments that give them. -/
theorem ofArguments_parts (range : o.InRange) (order : gs.Perm o.parts) {ending : List Text}
    (ends : ending ∈ o.endings) (name : Text) :
    ofArguments (name :: (gs.map Given.argument ++ ending)) = .ok o := by
  have noFile : ∀ g ∈ gs, g.named ≠ .slot .grammarFile := by
    intro g member
    obtain ⟨n, known, part⟩ := List.mem_filterMap.1 (order.mem_iff.1 member)
    rw [named_of_part? part]
    rintro rfl
    exact absurd known (by decide)
  have all : ∀ n, o.gives n = true → n ∈ written ++ [.slot .grammarFile] := by
    intro n given
    cases n with
    | slot s => cases s <;> decide
    | switch s => cases s <;> decide
    | help | version => cases given
  have whole : (gs ++ (o.part? (.slot .grammarFile)).toList).Perm
      ((written ++ [Named.slot .grammarFile]).filterMap o.part?) := by
    have last : [Named.slot .grammarFile].filterMap o.part? =
        (o.part? (.slot .grammarFile)).toList := by
      cases part : o.part? (.slot .grammarFile) <;> simp [part]
    rw [List.filterMap_append, last]
    exact order.append_right _
  refine ofArguments_eq_ok_iff.2 ⟨_, ?_, giveAll_of_perm range (by decide) all whole⟩
  rw [given_arguments noFile, given_ending ends]
  rfl

/-- A target and a file that look like options, and the largest depth. -/
def lookalike : Options where
  grammarFile := some "--max-depth=0".toList
  target := some "--debug=".toList
  maxDepth := some 18446744073709551615
  maxStates := .none
  givenFormat := some .json
  checkDerivation := false
  traceback := true
  debug := false
  completions := .none

theorem ofArguments_parts_lookalike :
    ofArguments ["gv".toList, "--traceback".toList, "--max-depth=18446744073709551615".toList,
        "--derive=--debug=".toList, "--format=json".toList, "--".toList, "--max-depth=0".toList] =
      .ok lookalike := by
  have range : lookalike.InRange := by
    refine ⟨fun n same => ?_, fun n same => ?_, by decide⟩
    · obtain rfl := Option.some.inj same
      decide
    · cases same
  have order : [Given.switch .traceback, .slot .maxDepth "18446744073709551615".toList,
      .slot .target "--debug=".toList, .slot .format "json".toList].Perm lookalike.parts := by
    decide +kernel
  exact ofArguments_parts range order List.mem_cons_self "gv".toList

/-! ## Options in range -/

theorem inRange_none : none.InRange := by
  constructor <;> simp [none]

theorem InRange.assign {p : Options} (range : o.InRange) {slot : Slot} {value : Text}
    (read : o.assign slot value = .ok p) : p.InRange := by
  cases slot with
  | grammarFile =>
    dsimp only [Options.assign] at read
    split at read
    · cases read
    · next filled =>
      obtain rfl := Except.ok.inj read
      refine { range with grammarFile := fun empty => filled ?_ }
      rw [Option.some.inj empty]
      rfl
  | target =>
    obtain rfl := Except.ok.inj read
    exact { range with }
  | maxDepth =>
    dsimp only [Options.assign] at read
    split at read
    · next n count =>
      obtain rfl := Except.ok.inj read
      refine { range with maxDepth := fun m same => ?_ }
      obtain rfl := Option.some.inj same
      exact range_of_readCount count
    · cases read
  | maxStates =>
    dsimp only [Options.assign] at read
    split at read
    · next n count =>
      obtain rfl := Except.ok.inj read
      refine { range with maxStates := fun m same => ?_ }
      obtain rfl := Option.some.inj same
      exact range_of_readCount count
    · cases read
  | format | completions =>
    dsimp only [Options.assign] at read
    split at read
    · obtain rfl := Except.ok.inj read
      exact { range with }
    · cases read

theorem InRange.give {p : Options} (range : o.InRange) {g : Given} (added : o.give g = some p) :
    p.InRange := by
  cases g with
  | slot slot value =>
    have settled := give_slot_eq_some_iff.1 added
    dsimp only [settle] at settled
    split at settled
    · cases settled
    · exact range.assign settled
  | switch switch =>
    rw [give_switch] at added
    split at added
    · cases added
    · obtain rfl := Option.some.inj added
      cases switch <;> exact { range with }

theorem inRange_of_ofArguments {arguments : List Text} (parsed : ofArguments arguments = .ok o) :
    o.InRange := by
  cases arguments with
  | nil =>
    obtain rfl := Except.ok.inj parsed
    exact inRange_none
  | cons name arguments =>
    obtain ⟨gs, _, added⟩ := ofArguments_eq_ok_iff.1 parsed
    exact foldlM_induction added inRange_none fun g _ p q given range => range.give given

end Options

end Chomsky
