import Chomsky.Options.Arguments

/-!
# What a command line gives

The command line is read with one argument pending and checks between the arguments. Which options
it gives in the end can be said without either: each argument has a shape of its own, the shapes
tell what the arguments give (`given`), and what is given is added to the options one after the
other, none of it twice (`Options.give`). Main statement: `Options.ofArguments_eq_ok_iff`.
-/

namespace Chomsky

/-- What an argument is by itself. -/
inductive Shape where
  /-- Two dashes alone. -/
  | dashes
  | named (n : Named) (long : Bool) (value : Option Text)
  | unknown (argument : Text)
  /-- A value or a file name. -/
  | word
  deriving DecidableEq, Repr

namespace Shape

def ofLong (t : Text) : Shape :=
  let (name, value) := Scan.splitValue t
  match Named.ofLong? name with
  | some n => named n true value
  | none => unknown ('-' :: '-' :: name)

/-- The value that is attached to a letter. -/
def attached : Text → Option Text
  | [] => none
  | '=' :: value => some value
  | value => some value

def ofShort (c : Char) (rest : Text) : Shape :=
  match Named.ofShort? c with
  | some (.slot slot) => named (.slot slot) false (attached rest)
  | some n => named n false none
  | none => unknown ['-', c]

def ofArgument : Text → Shape
  | ['-', '-'] => dashes
  | '-' :: '-' :: t => ofLong t
  | '-' :: c :: rest => ofShort c rest
  | _ => word

end Shape

/-- What arguments give. -/
inductive Given where
  | slot (s : Slot) (value : Text)
  | switch (s : Switch)
  deriving DecidableEq, Repr

def Given.named : Given → Named
  | slot s _ => .slot s
  | switch s => .switch s

/-- What arguments give, if each of them is known, asks for no help, and has a value exactly when it
needs one. Behind two dashes there are only file names. -/
def given : (onlyFiles : Bool) → List Text → Option (List Given)
  | _, [] => some []
  | true, name :: rest => (given true rest).map (.slot .grammarFile name :: ·)
  | false, argument :: rest =>
    match Shape.ofArgument argument, rest with
    | .dashes, rest => given true rest
    | .word, rest => (given false rest).map (.slot .grammarFile argument :: ·)
    | .named (.switch switch) _ none, rest => (given false rest).map (.switch switch :: ·)
    | .named (.slot slot) _ (some value), rest => (given false rest).map (.slot slot value :: ·)
    | .named (.slot slot) _ none, value :: rest =>
      if Shape.ofArgument value = .word then (given false rest).map (.slot slot value :: ·)
      else none
    | _, _ => none

section

variable {argument value : Text} {rest : List Text} {slot : Slot} {switch : Switch} {long : Bool}

theorem given_of_dashes (shape : Shape.ofArgument argument = .dashes) :
    given false (argument :: rest) = given true rest := by
  rw [given.eq_def]
  simp only [shape]

theorem given_of_word (shape : Shape.ofArgument argument = .word) :
    given false (argument :: rest) =
      (given false rest).map (.slot .grammarFile argument :: ·) := by
  rw [given.eq_def]
  simp only [shape]

theorem given_of_switch (shape : Shape.ofArgument argument = .named (.switch switch) long none) :
    given false (argument :: rest) = (given false rest).map (.switch switch :: ·) := by
  rw [given.eq_def]
  simp only [shape]

theorem given_of_attached
    (shape : Shape.ofArgument argument = .named (.slot slot) long (some value)) :
    given false (argument :: rest) = (given false rest).map (.slot slot value :: ·) := by
  rw [given.eq_def]
  simp only [shape]

theorem given_of_value (shape : Shape.ofArgument argument = .named (.slot slot) long none)
    (word : Shape.ofArgument value = .word) :
    given false (argument :: value :: rest) = (given false rest).map (.slot slot value :: ·) := by
  rw [given.eq_def]
  simp only [shape, if_pos word]

end

namespace Options

/-- The options with one thing more, which must not be given yet. -/
def give (o : Options) : Given → Option Options
  | .slot slot value => (o.settle slot (some value)).toOption
  | .switch switch => if o.isOn switch then .none else some (o.turnOn switch)

theorem give_slot (o : Options) (slot : Slot) (value : Text) :
    o.give (.slot slot value) = (o.settle slot (some value)).toOption :=
  rfl

theorem give_slot_eq_some_iff {o p : Options} {slot : Slot} {value : Text} :
    o.give (.slot slot value) = some p ↔ o.settle slot (some value) = .ok p := by
  rw [give_slot]
  cases o.settle slot (some value) <;> simp [Except.toOption]

theorem give_switch (o : Options) (switch : Switch) :
    o.give (.switch switch) = if o.isOn switch then .none else some (o.turnOn switch) :=
  rfl

def giveAll (o : Options) (gs : List Given) : Option Options := gs.foldlM give o

theorem giveAll_cons (o : Options) (g : Given) (gs : List Given) :
    o.giveAll (g :: gs) = (o.give g).bind fun p => p.giveAll gs :=
  List.foldlM_cons ..

/-- The argument is given; help and version give nothing. -/
def gives (o : Options) : Named → Bool
  | .slot slot => o.has slot
  | .switch switch => o.isOn switch
  | .help | .version => false

theorem gives_of_settle {o p : Options} {slot : Slot} {value : Option Text}
    (settled : o.settle slot value = .ok p) (n : Named) :
    p.gives n = (o.gives n || decide (.slot slot = n)) := by
  unfold settle at settled
  split at settled
  · cases settled
  · next v =>
    split at settled
    · cases settled
    · cases slot
      all_goals
        dsimp only [assign] at settled
        (try split at settled) <;> cases settled
        rcases n with (_ | _) | (_ | _) | _ | _ <;> simp [gives, has, isOn]

end Options

theorem toOption_bind {ε α β : Type} (x : Except ε α) (f : α → Except ε β) :
    (x >>= f).toOption = x.toOption.bind fun a => (f a).toOption := by
  cases x <;> rfl

namespace Scan

/-- Reads an argument of a shape. -/
def read (s : Scan) (argument : Text) : Shape → Except Stop Scan
  | .dashes => .ok { s with onlyFiles := true }
  | .named n long value => s.named n long value
  | .unknown shown => .error (.usage (.unexpected shown))
  | .word =>
    match s.pending with
    | some (slot, none) => .ok { s with pending := some (slot, some argument) }
    | _ => s.file argument

theorem take_eq_read (s : Scan) (argument : Text) :
    s.take argument =
      if s.onlyFiles then s.file argument else s.read argument (.ofArgument argument) := by
  unfold take
  split
  · rfl
  · fun_cases Shape.ofArgument argument with
    | case1 => rfl
    | case2 t =>
      unfold long Shape.ofLong
      cases known : Named.ofLong? (splitValue t).1 <;> simp [known, read]
    | case3 c rest noDashes noLong =>
      simp only
      unfold short Shape.ofShort
      fun_cases Named.ofShort? c with
      | case1 =>
        cases rest with
        | nil => rfl
        | cons d rest => by_cases equals : d = '=' <;> simp [equals, Shape.attached, read]
      | case2 => rfl
      | case3 => rfl
      | case4 => rfl
    | case4 noDashes noLong noShort =>
      cases waiting : s.pending with
      | none => simp only [read, waiting]
      | some p =>
        obtain ⟨slot, value⟩ := p
        cases value <;> simp only [read, waiting]

/-- What a scan comes to when these arguments follow. -/
def finish (s : Scan) (arguments : List Text) : Option Options :=
  (arguments.foldlM take s >>= fun s => s.resolve.map Scan.options).toOption

variable {s t : Scan} {slot : Slot}

theorem finish_nil (s : Scan) : s.finish [] = s.resolve.toOption.map Scan.options := by
  change (s.resolve.map Scan.options).toOption = _
  cases s.resolve <;> rfl

theorem finish_cons (s : Scan) (argument : Text) (rest : List Text) :
    s.finish (argument :: rest) = (s.take argument).toOption.bind fun s => s.finish rest := by
  rw [finish, List.foldlM_cons, bind_assoc, toOption_bind]
  rfl

theorem resolve_of_pending_none (idle : s.pending = none) : s.resolve = .ok s := by
  rw [resolve, idle]

/-- Settling an argument changes the options and nothing else that matters later. -/
theorem eq_of_resolve (resolved : s.resolve = .ok t) :
    t.pending = none ∧ t.onlyFiles = s.onlyFiles ∧ t.hasFile = s.hasFile := by
  unfold resolve at resolved
  split at resolved
  · next idle =>
    obtain rfl := Except.ok.inj resolved
    exact ⟨idle, rfl, rfl⟩
  · next slot value waiting =>
    split at resolved
    · next o settled =>
      obtain rfl := Except.ok.inj resolved
      refine ⟨rfl, rfl, ?_⟩
      have gives := Options.gives_of_settle settled (.slot .grammarFile)
      simp only [Options.gives, Named.slot.injEq] at gives
      rw [hasFile, hasFile, waiting, gives]
      exact Bool.or_false _
    · cases resolved

/-- A file name settles what is pending first. -/
theorem toOption_file (s : Scan) (name : Text) :
    (s.file name).toOption = s.resolve.toOption.bind fun t => (t.file name).toOption := by
  cases resolved : s.resolve with
  | error e =>
    unfold file
    rw [resolved]
    split <;> rfl
  | ok t =>
    obtain ⟨idle, _, sameFile⟩ := eq_of_resolve resolved
    change (s.file name).toOption = (t.file name).toOption
    unfold file
    rw [resolved, resolve_of_pending_none idle, sameFile]

/-- So does a named argument. -/
theorem toOption_named (s : Scan) (n : Named) (long : Bool) (value : Option Text) :
    (s.named n long value).toOption =
      s.resolve.toOption.bind fun t => (t.named n long value).toOption := by
  unfold named
  cases resolved : s.resolve with
  | error e => cases n <;> cases value <;> rfl
  | ok t =>
    rw [Except.toOption, Option.bind_some, resolve_of_pending_none (eq_of_resolve resolved).1]

/-- A word is a file name where no value is awaited. -/
theorem read_word (ready : ∀ slot, s.pending ≠ some (slot, none)) (argument : Text) :
    s.read argument .word = s.file argument := by
  cases waiting : s.pending with
  | none => simp only [read, waiting]
  | some p =>
    obtain ⟨slot, value⟩ := p
    cases value with
    | none => exact absurd waiting (ready slot)
    | some v => simp only [read, waiting]

theorem toOption_read (ready : ∀ slot, s.pending ≠ some (slot, none)) (argument : Text)
    {shape : Shape} (other : shape ≠ .dashes) :
    (s.read argument shape).toOption =
      s.resolve.toOption.bind fun t => (t.read argument shape).toOption := by
  cases shape with
  | dashes => exact absurd rfl other
  | named n long value => exact toOption_named s n long value
  | unknown shown => cases s.resolve <;> rfl
  | word =>
    rw [read_word ready, toOption_file]
    cases resolved : s.resolve with
    | error e => rfl
    | ok t =>
      have idle := (eq_of_resolve resolved).1
      change (t.file argument).toOption = (t.read argument .word).toOption
      rw [read_word (by simp [idle])]

/-- Two dashes leave alone what is pending. -/
theorem resolve_onlyFiles (s : Scan) :
    ({ s with onlyFiles := true } : Scan).resolve =
      s.resolve.map fun t => { t with onlyFiles := true } := by
  obtain ⟨o, pending, files⟩ := s
  cases pending with
  | none => rfl
  | some p =>
    simp only [resolve]
    cases o.settle p.1 p.2 <;> rfl

theorem ready_of_resolve (resolved : s.resolve = .ok t) (slot : Slot) :
    s.pending ≠ some (slot, none) := by
  intro waiting
  unfold resolve at resolved
  rw [waiting] at resolved
  cases resolved

/-- It makes no difference when an argument is settled. -/
theorem finish_of_resolve (resolved : s.resolve = .ok t) (arguments : List Text) :
    s.finish arguments = t.finish arguments := by
  induction arguments generalizing s t with
  | nil =>
    have settled := resolve_of_pending_none (eq_of_resolve resolved).1
    rw [finish_nil, finish_nil, resolved, settled]
  | cons argument rest ih =>
    have read {shape : Shape} (other : shape ≠ .dashes) :=
      toOption_read (ready_of_resolve resolved) argument other
    rw [finish_cons, finish_cons, take_eq_read, take_eq_read, (eq_of_resolve resolved).2.1]
    split
    · rw [toOption_file s, resolved]
      rfl
    · cases Shape.ofArgument argument with
      | dashes => exact ih (by rw [resolve_onlyFiles, resolved]; rfl)
      | named n long value => rw [read (by simp), resolved]; rfl
      | unknown shown => rfl
      | word => rw [read (by simp), resolved]; rfl

/-- What cannot be settled now cannot be settled later, unless it is still to get its value. -/
theorem finish_of_refused {e : Stop} (refused : s.resolve = .error e)
    (ready : s.onlyFiles = true ∨ ∀ slot, s.pending ≠ some (slot, none)) (arguments : List Text) :
    s.finish arguments = none := by
  induction arguments generalizing s e with
  | nil => rw [finish_nil, refused]; rfl
  | cons argument rest ih =>
    rw [finish_cons, take_eq_read]
    split
    · rw [toOption_file, refused]
      rfl
    · next shapes =>
      have read {shape : Shape} (other : shape ≠ .dashes) :=
        toOption_read (ready.resolve_left shapes) argument other
      cases Shape.ofArgument argument with
      | dashes =>
        have refused : ({ s with onlyFiles := true } : Scan).resolve = .error e := by
          rw [resolve_onlyFiles, refused]
          rfl
        exact ih refused (.inl rfl)
      | named n long value => rw [read (by simp), refused]; rfl
      | unknown shown => rfl
      | word => rw [read (by simp), refused]; rfl

/-! ## Scans where nothing is pending -/

/-- Nothing is pending. -/
def idle (o : Options) (onlyFiles : Bool) : Scan := ⟨o, none, onlyFiles⟩

variable {o : Options} {onlyFiles : Bool} {rest : List Text}

/-- A value that is pending counts as given. -/
theorem finish_pending (slot : Slot) (value : Text) :
    finish ⟨o, some (slot, some value), onlyFiles⟩ rest =
      (o.give (.slot slot value)).bind fun p => (idle p onlyFiles).finish rest := by
  rw [Options.give_slot]
  cases settled : o.settle slot (some value) with
  | error e =>
    have refused : resolve ⟨o, some (slot, some value), onlyFiles⟩ = .error (.usage e) := by
      simp only [resolve, settled]
    exact finish_of_refused refused (.inr (by simp)) rest
  | ok p =>
    have resolved : resolve ⟨o, some (slot, some value), onlyFiles⟩ = .ok (idle p onlyFiles) := by
      simp only [resolve, settled, idle]
    exact finish_of_resolve resolved rest

theorem finish_file (name : Text) :
    ((idle o onlyFiles).file name).toOption.bind (fun s => s.finish rest) =
      (o.give (.slot .grammarFile name)).bind fun p => (idle p onlyFiles).finish rest := by
  rw [← finish_pending]
  by_cases taken : o.has .grammarFile = true
  · have refused : (idle o onlyFiles).file name = .error (.usage (.unexpected name)) := by
      simp [file, hasFile, idle, taken]
    have twice : o.settle .grammarFile (some name) =
        .error (.repeatedArgument Slot.grammarFile.label) := by
      simp [Options.settle, taken]
    rw [refused, finish_pending, Options.give_slot, twice]
    rfl
  · have noFile : ¬ (idle o onlyFiles).hasFile = true := by
      simp [hasFile, idle, taken]
    have accepted : (idle o onlyFiles).file name =
        .ok ⟨o, some (.grammarFile, some name), onlyFiles⟩ := by
      rw [file, if_neg noFile]
      rfl
    rw [accepted]
    rfl

theorem finish_switch (switch : Switch) (long : Bool) :
    ((idle o onlyFiles).named (.switch switch) long none).toOption.bind (fun s => s.finish rest) =
      (o.give (.switch switch)).bind fun p => (idle p onlyFiles).finish rest := by
  rw [Options.give_switch]
  change Option.bind (Except.toOption (if o.isOn switch then _ else _)) _ = _
  split <;> rfl

theorem finish_attached (slot : Slot) (long : Bool) (value : Text) :
    ((idle o onlyFiles).named (.slot slot) long (some value)).toOption.bind
        (fun s => s.finish rest) =
      (o.give (.slot slot value)).bind fun p => (idle p onlyFiles).finish rest := by
  rw [Options.give_slot]
  change (resolve ⟨o, some (slot, some value), onlyFiles⟩).toOption.bind _ = _
  unfold resolve
  dsimp only
  cases o.settle slot (some value) <;> rfl

/-- A value that stands by itself has to be a word. -/
theorem finish_awaiting (slot : Slot) (arguments : List Text) :
    finish ⟨o, some (slot, none), false⟩ arguments =
      match arguments with
      | [] => none
      | value :: rest =>
        if Shape.ofArgument value = .word then
          (o.give (.slot slot value)).bind fun p => (idle p false).finish rest
        else none := by
  cases arguments with
  | nil => rfl
  | cons value rest =>
    simp only [← finish_pending]
    rw [finish_cons, take_eq_read]
    cases Shape.ofArgument value with
    | dashes => exact finish_of_refused (e := .usage (.missingValue slot)) rfl (.inl rfl) rest
    | named n long attached =>
      change Option.bind (Except.toOption (named _ n long attached)) _ = none
      rw [toOption_named]
      rfl
    | unknown shown => rfl
    | word => rfl

theorem bind_giveAll_cons (o : Options) (g : Given) (gs : Option (List Given)) :
    (gs.map (g :: ·)).bind o.giveAll = (o.give g).bind fun p => gs.bind p.giveAll := by
  cases gs with
  | none => cases o.give g <;> rfl
  | some gs => exact o.giveAll_cons g gs

/-- A scan comes to its options and all that the arguments give besides. -/
theorem finish_idle (o : Options) (onlyFiles : Bool) (arguments : List Text) :
    (idle o onlyFiles).finish arguments = (given onlyFiles arguments).bind o.giveAll := by
  have step (o : Options) (argument : Text) (rest : List Text) :
      (idle o false).finish (argument :: rest) =
        ((idle o false).read argument (.ofArgument argument)).toOption.bind
          fun s => s.finish rest := by
    rw [finish_cons, take_eq_read]
    rfl
  fun_induction given onlyFiles arguments generalizing o with
  | case1 => rfl
  | case2 name rest ih =>
    rw [bind_giveAll_cons, finish_cons, take_eq_read]
    simp only [← ih]
    exact finish_file name
  | case3 argument rest shape ih =>
    rw [step, shape, ← ih]
    rfl
  | case4 argument rest shape ih =>
    rw [bind_giveAll_cons, step, shape]
    simp only [← ih]
    exact finish_file argument
  | case5 argument switch long rest shape ih =>
    rw [bind_giveAll_cons, step, shape]
    simp only [← ih]
    exact finish_switch switch long
  | case6 argument slot long value rest shape ih =>
    rw [bind_giveAll_cons, step, shape]
    simp only [← ih]
    exact finish_attached slot long value
  | case7 argument slot long value rest shape word ih =>
    rw [bind_giveAll_cons, step, shape]
    simp only [← ih]
    exact (finish_awaiting slot (value :: rest)).trans (if_pos word)
  | case8 argument slot long value rest shape noWord =>
    rw [step, shape]
    exact (finish_awaiting slot (value :: rest)).trans (if_neg noWord)
  | case9 argument rest noDashes noWord noSwitch noAttached noValue =>
    rw [step]
    cases shape : Shape.ofArgument argument with
    | dashes => exact absurd shape noDashes
    | word => exact absurd shape noWord
    | unknown shown => rfl
    | named n long value =>
      cases value with
      | some v =>
        cases n with
        | slot slot => exact absurd shape (noAttached slot long v)
        | switch | help | version => rfl
      | none =>
        cases n with
        | switch switch => exact absurd shape (noSwitch switch long)
        | help | version => rfl
        | slot slot =>
          cases rest with
          | nil => rfl
          | cons value rest => exact (noValue slot long value rest shape rfl).elim

end Scan

/-- A command line gives options exactly when each of its arguments gives something, and each
thing once. -/
theorem Options.ofArguments_eq_ok_iff {name : Text} {arguments : List Text} {o : Options} :
    ofArguments (name :: arguments) = .ok o ↔
      ∃ gs, given false arguments = some gs ∧ none.giveAll gs = some o := by
  have read : (ofArguments (name :: arguments)).toOption =
      (given false arguments).bind none.giveAll := by
    rw [← Scan.finish_idle]
    rfl
  rw [← Option.bind_eq_some_iff, ← read]
  cases ofArguments (name :: arguments) <;> simp [Except.toOption]

end Chomsky
