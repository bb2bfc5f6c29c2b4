import Chomsky.Declaration.Basic
import Chomsky.Dialogue.Basic
import Chomsky.Proofs.Dialogue.Lines

/-!
# Entered and declared grammars

Lines entered in a dialogue give the grammar that they declare when those that are no rules are left
out (`Dialogue.readGrammar_eq_toGrammar`). The two readers treat the ends of lines, blank lines and
lines that are no rules differently, so each is first brought to one form: the rules of the
`Dialogue.ruleLines`, added in order (`Dialogue.readRules_map_ofText`,
`Declaration.readRules_filter_isOk`).
-/

namespace Chomsky

/-- The rules among the lines. -/
def Production.ofLines (lines : List Text) : List Production :=
  lines.filterMap fun line => (read line).toOption

theorem Production.read_of_blank {line : Text} (blank : Text.trim line = []) :
    read line = .error ⟨line, .noArrow⟩ := by
  rw [read, ← readSides_trim, blank]
  rfl

/-- A message shows the trimmed line. -/
theorem Error.message_parse_trim (position : Option Nat) (line : Text) (flaw : Production.Flaw) :
    (parse position ⟨Text.trim line, flaw⟩).message = (parse position ⟨line, flaw⟩).message := by
  have same : Production.Unreadable.message ⟨Text.trim line, flaw⟩ =
      Production.Unreadable.message ⟨line, flaw⟩ := by
    unfold Production.Unreadable.message
    rw [Text.trim_trim]
  rw [message_parse, message_parse]
  unfold parseMessage
  rw [same]

theorem Grammar.build_trim (terminals nonTerminals : List Word) (start : Word)
    (productions : Productions) :
    build terminals nonTerminals (Text.trim start) productions =
      build terminals nonTerminals start productions := by
  unfold build
  rw [Text.trim_trim]

theorem Production.map_read_filter_isOk (lines : List Text) :
    (lines.filter fun line => (read line).isOk).map read = (ofLines lines).map .ok := by
  induction lines with
  | nil => rfl
  | cons line rest ih =>
    cases taken : read line with
    | error cause => simpa [ofLines, taken, Except.isOk, Except.toBool, Except.toOption] using ih
    | ok p => simpa [ofLines, taken, Except.isOk, Except.toBool, Except.toOption] using ih

theorem Declaration.readRules_filter_isOk (position : Nat) (ps : Productions) (lines : List Text) :
    readRules position ps (lines.filter fun line => (Production.read line).isOk) =
      .ok ((Production.ofLines lines).foldl .add ps) :=
  readRules_of_map_eq (Production.map_read_filter_isOk lines) position ps

namespace Dialogue

/-- The lines before the first `done`. -/
def ruleLines (lines : List Text) : List Text :=
  lines.takeWhile fun line => !isDone (Text.trim line)

/-- What is wrong with a line that is no rule; blank lines are passed over without remark. -/
def complaint (line : Text) : Option Text :=
  match Production.read line with
  | .ok _ => none
  | .error cause => if (Text.trim line).isEmpty then none else some (Error.parse none cause).message

/-- What is said about a line before `done`. -/
def remarks (line : Text) : List Remark :=
  rulePrompt :: (complaint line).toList.map fun message => .complaint (message ++ ['\n'])

theorem complained_remarks (lines : List Text) :
    (lines.flatMap remarks).flatMap Remark.complained =
      (lines.filterMap complaint).flatMap (· ++ ['\n']) := by
  induction lines with
  | nil => rfl
  | cons line rest ih =>
    rw [List.flatMap_cons, List.flatMap_append, ih]
    cases remarked : complaint line <;> simp [remarks, remarked, rulePrompt, Remark.complained]

variable {ps : Productions} {line : Text} {rest : List Line}

theorem readRules_ofText_of_done (finished : isDone (Text.trim line) = true) :
    readRules ps (Line.ofText line :: rest) = ⟨.ok ps, [rulePrompt], rest⟩ := by
  rw [Line.ofText, readRules]
  dsimp only
  rw [Line.trim_dropTerminators, if_pos finished]

/-- A line before `done` adds its rule or is remarked on, whatever ends it. -/
theorem readRules_ofText (more : isDone (Text.trim line) = false) :
    readRules ps (Line.ofText line :: rest) =
      preceded (remarks line) (readRules ((Production.ofLines [line]).foldl .add ps) rest) := by
  rw [Line.ofText, readRules]
  dsimp only
  rw [Line.trim_dropTerminators, more]
  by_cases blank : Text.trim line = []
  · have refused := Production.read_of_blank blank
    simp [blank, Production.ofLines, remarks, complaint, refused, Except.toOption]
  · have filled : (Text.trim line).isEmpty = false := List.isEmpty_eq_false_iff.2 blank
    cases sides : Production.readSides line with
    | ok p =>
      have taken : Production.read line = .ok p := Production.read_eq_ok_iff.2 sides
      have trimmed : Production.read (Text.trim line) = .ok p := by
        rw [Production.read_eq_ok_iff, Production.readSides_trim, sides]
      simp [trimmed, filled, Production.ofLines, remarks, complaint, taken, Except.toOption]
    | error flaw =>
      have refused : Production.read line = .error ⟨line, flaw⟩ := by
        rw [Production.read, sides]
        rfl
      have trimmed : Production.read (Text.trim line) = .error ⟨Text.trim line, flaw⟩ := by
        rw [Production.read, Production.readSides_trim, sides]
        rfl
      have same := Error.message_parse_trim none line flaw
      have remarked : complaint line = some (Error.parse none ⟨line, flaw⟩).message := by
        rw [complaint, refused]
        dsimp only
        rw [filled]
        rfl
      simp [trimmed, filled, Production.ofLines, remarks, remarked, refused, Except.toOption, same]

/-- The rules before `done` are added in order, and reading stops behind it. -/
theorem readRules_map_ofText (ps : Productions) (lines : List Text) :
    readRules ps (lines.map Line.ofText) =
      ⟨.ok ((Production.ofLines (ruleLines lines)).foldl .add ps),
        (ruleLines lines).flatMap remarks ++ [rulePrompt],
        (lines.drop ((ruleLines lines).length + 1)).map Line.ofText⟩ := by
  induction lines generalizing ps with
  | nil => rfl
  | cons line rest ih =>
    rw [List.map_cons]
    cases finished : isDone (Text.trim line) with
    | true =>
      have none_before : ruleLines (line :: rest) = [] := by simp [ruleLines, finished]
      rw [readRules_ofText_of_done finished, none_before]
      rfl
    | false =>
      have before : ruleLines (line :: rest) = line :: ruleLines rest := by
        simp [ruleLines, finished]
      have added : Production.ofLines (line :: ruleLines rest) =
          Production.ofLines [line] ++ Production.ofLines (ruleLines rest) :=
        List.filterMap_append (l := [line]) ..
      rw [readRules_ofText finished, ih, before, added, List.foldl_append, List.flatMap_cons,
        List.append_assoc]
      rfl

theorem askPart_ofText (part : Part) (line : Text) (rest : List Line) :
    askPart part (Line.ofText line :: rest) =
      ⟨.ok (Line.dropTerminators line), [.prompt (partPrompt part)], rest⟩ :=
  rfl

theorem readGrammar_map_ofText (terminals nonTerminals start : Text) (following : List Text) :
    readGrammar ((terminals :: nonTerminals :: start :: following).map Line.ofText) =
      ⟨(Grammar.build (readSymbols terminals) (readSymbols nonTerminals) start
          (.ofList (Production.ofLines (ruleLines following)))).mapError .invalidGrammar,
        .prompt (partPrompt .terminals) :: .prompt (partPrompt .nonTerminals) ::
          .prompt (partPrompt .start) :: .notice rulesNotice ::
          ((ruleLines following).flatMap remarks ++ [rulePrompt]),
        (following.drop ((ruleLines following).length + 1)).map Line.ofText⟩ := by
  have symbols : ∀ line, readSymbols (Line.dropTerminators line) = readSymbols line := by
    intro line
    rw [readSymbols, ← Text.words_trim, Line.trim_dropTerminators, Text.words_trim, readSymbols]
  have same : ∀ productions,
      Grammar.build (readSymbols (Line.dropTerminators terminals))
          (readSymbols (Line.dropTerminators nonTerminals)) (Line.dropTerminators start)
          productions =
        Grammar.build (readSymbols terminals) (readSymbols nonTerminals) start productions := by
    intro productions
    rw [symbols, symbols, ← Grammar.build_trim, Line.trim_dropTerminators, Grammar.build_trim]
  have notice : ∀ lines,
      say (.notice rulesNotice) lines = ⟨.ok (), [.notice rulesNotice], lines⟩ := fun _ => rfl
  rw [readGrammar, List.map_cons, List.map_cons, List.map_cons,
    bind_of_ok (askPart_ofText _ _ _), bind_of_ok (askPart_ofText _ _ _),
    bind_of_ok (askPart_ofText _ _ _), bind_of_ok (notice _),
    bind_of_ok (readRules_map_ofText _ _), same, Productions.ofList]
  cases Grammar.build (readSymbols terminals) (readSymbols nonTerminals) start
      ((Production.ofLines (ruleLines following)).foldl .add .empty) with
  | ok g =>
    simp only [preceded, pure, List.append_nil]
    rfl
  | error defect =>
    simp only [preceded, fail, List.append_nil]
    rfl

/-- The dialogue answers what the declaration of the same lines gives, complains of the lines that
are left out of it, and leaves the input behind the line `done`. -/
theorem readGrammar_eq_toGrammar {bytes : Bytes} {input terminals nonTerminals start : Text}
    {following : List Text} (utf8 : Text.decode bytes = some input)
    (entered : Text.lines input = terminals :: nonTerminals :: start :: following) :
    let rules := ruleLines following
    let exchange := readGrammar (Line.ofInput bytes)
    exchange.answer =
        Declaration.toGrammar {
          terminals := [terminals]
          nonTerminals := [nonTerminals]
          start
          rules := rules.filter fun line => (Production.read line).isOk } ∧
      exchange.said.flatMap Remark.complained =
        (rules.filterMap complaint).flatMap (· ++ ['\n']) ∧
      exchange.unread = Line.ofInput (Text.encode (Text.afterLines (rules.length + 4) input)) := by
  intro rules exchange
  have whole : exchange = readGrammar ((Text.lines input).map Line.ofText) := by
    rw [← Line.ofInput_encode, Text.encode_of_decode utf8]
  rw [entered, readGrammar_map_ofText] at whole
  rw [whole]
  refine ⟨?_, ?_, ?_⟩
  · simp only [Declaration.toGrammar, Declaration.readRules_filter_isOk, List.flatMap_singleton]
    rfl
  · simp only [List.flatMap_cons, List.flatMap_append, complained_remarks]
    simp [Remark.complained, rulePrompt, rules]
  · rw [Line.ofInput_encode_afterLines, Line.ofInput_encode, entered, ← List.map_drop]
    rfl

/-- An input with returns before its newlines, a blank line, a line that is no rule and a line after
the rules. -/
def transcript : Text :=
  "a b\r\nS A\r\n S\r\nS -> aA\r\n\r\nS a\r\nA -> b | $\r\nDoNe\r\nab".toList

theorem readGrammar_eq_toGrammar_transcript :
    let exchange := readGrammar (Line.ofInput (Text.encode transcript))
    exchange.answer =
        Declaration.toGrammar {
          terminals := ["a b\r".toList]
          nonTerminals := ["S A\r".toList]
          start := " S\r".toList
          rules := ["S -> aA\r".toList, "A -> b | $\r".toList] } ∧
      exchange.said.flatMap Remark.complained =
        "Parse error: invalid rule 'S a': expected the form 'A -> aA'\n".toList ∧
      exchange.unread = [.text "ab".toList] := by
  have entered : Text.lines transcript =
      "a b\r".toList :: "S A\r".toList :: " S\r".toList ::
        ["S -> aA\r".toList, "\r".toList, "S a\r".toList, "A -> b | $\r".toList, "DoNe\r".toList,
          "ab".toList] := by
    decide +kernel
  obtain ⟨answer, complained, unread⟩ :=
    readGrammar_eq_toGrammar (Text.decode_encode transcript) entered
  refine ⟨answer.trans ?_, complained.trans ?_, unread.trans ?_⟩
  · rfl
  · decide +kernel
  · decide +kernel

end Dialogue

end Chomsky
