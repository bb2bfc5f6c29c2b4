import Chomsky.Dialogue.Basic
import Chomsky.Options.Basic
import Chomsky.Report.Basic
import Chomsky.Status

/-!
# Stories

What happens in a run is a story, which does not depend on the format. The format then decides what
of it goes to standard output and what to standard error (`Story.tell`).
-/

namespace Chomsky

/-- What a run leaves: an exit status, standard output and standard error. -/
structure Outcome where
  status : Status
  out : Text
  err : Text
  deriving DecidableEq, Repr

/-- The outcome with a text before what it says on standard error. -/
def Outcome.warned (warning : Text) (o : Outcome) : Outcome := { o with err := warning ++ o.err }

/-! ## Log lines -/

namespace Log

/-- Characters that a terminal would act on are shown by their codes. -/
def showControl (c : Char) : Text :=
  if c ∈ ['\x07', '\x08', '\x0c', '\x1b', '\x7f'] then
    "\\x".toList ++ (Nat.toDigits 16 (c.toNat + 0x100)).drop 1
  else if 0x80 ≤ c.toNat ∧ c.toNat ≤ 0x9f then
    "\\u\x7b".toList ++ Text.hexadecimal c ++ "\x7d".toList
  else [c]

/-- The entry of a warning in the log, without its time. The filter is the standard one, which lets
through warnings and nothing below them; one that `GRAMMAR_VALIDATOR_LOG` names is left out. -/
def warning (t : Text) : Text := "WARN ".toList ++ t.flatMap showControl ++ ['\n']

theorem count_newline_showControl (c : Char) : (showControl c).count '\n' = [c].count '\n' := by
  unfold showControl
  split
  · next control =>
    simp only [List.mem_cons, List.not_mem_nil, or_false] at control
    rcases control with rfl | rfl | rfl | rfl | rfl <;> decide
  · split
    · next _ range =>
      have other : c ≠ '\n' := by
        rintro rfl
        exact absurd range.1 (by decide)
      have digits : ∀ n < 0xa0, '\n' ∉ Nat.toDigits 16 n := by decide +kernel
      have shown : '\n' ∉ Text.hexadecimal c := digits c.toNat (by omega)
      simp [List.count_eq_zero_of_not_mem shown, other]
    · rfl

/-- An entry has one line more than there are line breaks in its text. -/
theorem count_newline_warning (t : Text) : (warning t).count '\n' = t.count '\n' + 1 := by
  have shown : (t.flatMap showControl).count '\n' = t.count '\n' := by
    induction t with
    | nil => rfl
    | cons c t ih =>
      rw [List.flatMap_cons, List.count_append, ih, count_newline_showControl,
        ← List.count_append, List.singleton_append]
  have parts : warning t = "WARN ".toList ++ t.flatMap showControl ++ ['\n'] := rfl
  have label : "WARN ".toList.count '\n' = 0 := by decide
  rw [parts, List.count_append, List.count_append, shown, label, Nat.zero_add,
    List.count_singleton_self]

end Log

/-! ## Stories -/

/-- What happens in a run, as long as it goes well. -/
inductive Event where
  | remark (r : Remark)
  | classified (g : Grammar) (l : Level)
  deriving DecidableEq, Repr

/-- The events of a run and how it ends. -/
structure Story where
  events : List Event
  ending : Except Error Report

namespace Event

/-- What an event adds to standard output. A JSON report has standard output to itself. -/
def toOutput : Format → Event → Text
  | .text, remark r => r.prompted
  | .text, classified g l => (Report.classification g l).flatten
  | .json, _ => []

/-- What an event adds to standard error. -/
def toError : Format → Event → Text
  | .text, remark r => r.complained
  | .json, remark r => r.text
  | _, classified _ _ => []

end Event

/-- The last part of a report. -/
def Report.closing (r : Report) : Format → Text
  | .text =>
    match r.search with
    | none => []
    | some (target, d) => (Report.answer target d).flatten
  | .json => r.document

/-- The status of a run that ended with a report. -/
def Report.status (r : Report) (check : Bool) : Status :=
  match r.search with
  | none => .success
  | some (_, d) => .ofDerivation d check

/-- The line that reports an error, as a sentence or in detail. -/
def Error.line (detailed : Bool) (e : Error) : Text :=
  "Error: ".toList ++ (if detailed then e.detail else e.message) ++ ['\n']

/-- The outcome of a story in a format. -/
def Story.tell (format : Format) (check detailed : Bool) (s : Story) : Outcome :=
  let out := s.events.flatMap (Event.toOutput format)
  let err := s.events.flatMap (Event.toError format)
  match s.ending with
  | .ok r => ⟨r.status check, out ++ r.closing format, err⟩
  | .error e => ⟨.failure, out, err ++ e.line detailed⟩

end Chomsky
