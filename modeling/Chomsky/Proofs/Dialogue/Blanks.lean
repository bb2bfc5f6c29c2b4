import Mathlib.Data.List.Forall2
import Chomsky.Proofs.Dialogue.Accounting
import Chomsky.Proofs.Dialogue.Agreement

/-!
# Blanks around lines

A session does not depend on the blanks at the ends of its lines (`session_of_reframed`). Two runs
are compared: parts of a dialogue that meet alike lines say the same and leave alike lines
(`Dialogue.Agree`), though their answers may differ as long as what comes next trims them. The
answer of a whole call is trimmed.
-/

namespace Chomsky

namespace Text

/-- The line is the core between blanks. -/
def Frames (core line : Text) : Prop :=
  ∃ front back, (∀ c ∈ front, isBlank c = true) ∧ (∀ c ∈ back, isBlank c = true) ∧
    line = front ++ core ++ back

/-- One line is made from the other by adding and removing blanks at its ends. -/
structure Reframed (line other : Text) : Prop where
  single : '\n' ∉ line ∧ '\n' ∉ other
  frames : ∃ core, Frames core line ∧ Frames core other

theorem reframed_iff {line other : Text} :
    Reframed line other ↔ ('\n' ∉ line ∧ '\n' ∉ other) ∧ trim line = trim other := by
  constructor
  · rintro ⟨single, core, ⟨front, back, front_blank, back_blank, rfl⟩,
      ⟨front', back', front_blank', back_blank', rfl⟩⟩
    refine ⟨single, ?_⟩
    rw [trim_append_of_blank front_blank core back_blank,
      trim_append_of_blank front_blank' core back_blank']
  · rintro ⟨single, same⟩
    exact ⟨single, trim line, exists_trim line, same ▸ exists_trim other⟩

instance : DecidableRel Reframed := fun _ _ => decidable_of_iff' _ reframed_iff

end Text

/-! ## Two dialogues -/

/-- The lines differ at most in the blanks at their ends. -/
inductive Line.Alike : Line → Line → Prop
  | text {t u : Text} (same : Text.trim t = Text.trim u) : Alike (.text t) (.text u)
  | illFormed : Alike .illFormed .illFormed

/-- The same error on both sides, or related answers. -/
inductive AnswersAgree {α β : Type} (R : α → β → Prop) : Except Error α → Except Error β → Prop
  | ok {a : α} {b : β} (related : R a b) : AnswersAgree R (.ok a) (.ok b)
  | error (e : Error) : AnswersAgree R (.error e) (.error e)

theorem AnswersAgree.eq {α : Type} {x y : Except Error α} (agree : AnswersAgree Eq x y) :
    x = y := by
  cases agree with
  | ok same => rw [same]
  | error e => rfl

/-- The exchanges say the same, and what they answer and leave agrees. -/
structure Exchange.Agree {α β : Type} (R : α → β → Prop) (e : Exchange α) (f : Exchange β) :
    Prop where
  answer : AnswersAgree R e.answer f.answer
  said : e.said = f.said
  unread : List.Forall₂ Line.Alike e.unread f.unread

namespace Dialogue

variable {α β γ δ : Type} {R : α → β → Prop} {S : γ → δ → Prop}

/-- On alike lines the dialogues agree. -/
def Agree (R : α → β → Prop) (d : Dialogue α) (e : Dialogue β) : Prop :=
  ∀ lines others, List.Forall₂ Line.Alike lines others → (d lines).Agree R (e others)

theorem agree_pure {a : α} {b : β} (related : R a b) : Agree R (pure a) (pure b) :=
  fun _ _ alike => ⟨.ok related, rfl, alike⟩

theorem agree_fail (e : Error) : Agree R (fail e) (fail e) :=
  fun _ _ alike => ⟨.error e, rfl, alike⟩

theorem agree_say (r : Remark) : Agree Eq (say r) (say r) :=
  fun _ _ alike => ⟨.ok rfl, rfl, alike⟩

theorem agree_preceded {e : Exchange α} {f : Exchange β} (remarks : List Remark)
    (agree : e.Agree R f) : (preceded remarks e).Agree R (preceded remarks f) :=
  ⟨agree.answer, congrArg (remarks ++ ·) agree.said, agree.unread⟩

theorem Agree.bind {d : Dialogue α} {e : Dialogue β} {f : α → Dialogue γ} {g : β → Dialogue δ}
    (first : Agree R d e) (second : ∀ a b, R a b → Agree S (f a) (g b)) :
    Agree S (d >>= f) (e >>= g) := by
  intro lines others alike
  obtain ⟨answer, said, unread⟩ := first lines others alike
  generalize one : d lines = x at answer said unread
  generalize other : e others = y at answer said unread
  obtain ⟨_, remarks, left⟩ := x
  obtain ⟨_, _, left'⟩ := y
  obtain rfl : remarks = _ := said
  cases answer with
  | error err =>
    rw [bind_of_error one, bind_of_error other]
    exact ⟨.error err, rfl, unread⟩
  | ok related =>
    rw [bind_of_ok one, bind_of_ok other]
    exact agree_preceded _ (second _ _ related _ _ unread)

theorem agree_nextLine :
    Agree (Option.Rel fun t u => Text.trim t = Text.trim u) nextLine nextLine := by
  intro lines others alike
  cases alike with
  | nil => exact ⟨.ok .none, rfl, .nil⟩
  | cons here later =>
    cases here with
    | text same => exact ⟨.ok (.some same), rfl, later⟩
    | illFormed => exact ⟨.error _, rfl, later⟩

theorem agree_ask (prompt : Text) :
    Agree (Option.Rel fun t u => Text.trim t = Text.trim u) (ask prompt) (ask prompt) :=
  (agree_say _).bind fun _ _ _ => agree_nextLine

theorem agree_askPart (part : Part) :
    Agree (fun t u => Text.trim t = Text.trim u) (askPart part) (askPart part) := by
  refine (agree_ask _).bind fun answer other related => ?_
  cases related with
  | none => exact agree_fail _
  | some same => exact agree_pure same

/-- A line is trimmed before anything is made of it, and what is said of a refused line is said of
the trimmed one. -/
theorem agree_readRules (ps : Productions) : Agree Eq (readRules ps) (readRules ps) := by
  intro lines others alike
  induction alike generalizing ps with
  | nil => exact ⟨.ok rfl, rfl, .nil⟩
  | cons here later ih =>
    cases here with
    | illFormed => exact ⟨.error _, rfl, later⟩
    | text same =>
      rw [readRules, readRules]
      dsimp only
      rw [same]
      split
      · exact ⟨.ok rfl, rfl, later⟩
      · split
        · exact agree_preceded _ (ih ps)
        · split
          · next p _ => exact agree_preceded _ (ih (ps.add p))
          · exact agree_preceded _ (ih ps)

theorem agree_readGrammar : Agree Eq readGrammar readGrammar := by
  refine (agree_askPart .terminals).bind fun terminals terminals' terminals_same => ?_
  refine (agree_askPart .nonTerminals).bind fun nonTerminals nonTerminals' nonTerminals_same => ?_
  refine (agree_askPart .start).bind fun start start' start_same => ?_
  refine (agree_say _).bind fun _ _ _ => ?_
  refine (agree_readRules .empty).bind fun productions _ same => ?_
  obtain rfl := same
  have symbols : ∀ {t u}, Text.trim t = Text.trim u → readSymbols t = readSymbols u := by
    intro t u same
    rw [readSymbols, readSymbols, ← Text.words_trim, same, Text.words_trim]
  rw [symbols terminals_same, symbols nonTerminals_same, ← Grammar.build_trim, start_same,
    Grammar.build_trim]
  split
  · exact agree_pure rfl
  · exact agree_fail _

theorem agree_readTarget : Agree Eq readTarget readTarget := by
  refine (agree_ask _).bind fun answer other related => agree_pure ?_
  cases related with
  | none => rfl
  | some same => rw [Option.map_some, Option.map_some, same]

end Dialogue

/-! ## Two sessions -/

theorem Call.agree_dialogue (call : Call) : Dialogue.Agree Eq call.dialogue call.dialogue := by
  cases call with
  | grammar =>
    exact Dialogue.agree_readGrammar.bind fun _ _ same => Dialogue.agree_pure (congrArg _ same)
  | target =>
    exact Dialogue.agree_readTarget.bind fun _ _ same => Dialogue.agree_pure (congrArg _ same)

/-- What was said in a call, prompts, notices and complaints in their order. -/
def Visit.remarks (v : Visit) : List Remark := v.deeds.filterMap Deed.remark?

/-- What shows of a call: its answer and what it said. -/
def Visit.shown (v : Visit) : Except Error Reply × List Remark := (v.answer, v.remarks)

theorem session_of_alike (calls : List Call) {input other : Bytes}
    (alike : List.Forall₂ Line.Alike (Line.ofInput input) (Line.ofInput other)) :
    (session calls input).map Visit.shown = (session calls other).map Visit.shown := by
  induction calls generalizing input other with
  | nil => rfl
  | cons call calls ih =>
    have agree := call.agree_dialogue _ _ alike
    have exchange : ∀ bytes, call.dialogue (Line.ofInput bytes) =
        ⟨(call.visit bytes).answer, (call.visit bytes).remarks,
          Line.ofInput (call.visit bytes).after⟩ :=
      fun bytes => (call.isAccounted_visit bytes).exchange
    rw [exchange, exchange] at agree
    have shown : (call.visit input).shown = (call.visit other).shown :=
      Prod.ext agree.answer.eq agree.said
    rw [session, session, List.map_cons, List.map_cons, shown, ih agree.unread]

theorem Text.alike_of_reframed {lines others : List Text}
    (reframed : List.Forall₂ Reframed lines others) :
    List.Forall₂ Line.Alike (Line.ofInput (encode (ofLines lines)))
      (Line.ofInput (encode (ofLines others))) := by
  rw [Line.ofInput_encode, Line.ofInput_encode]
  induction reframed with
  | nil => exact .nil
  | @cons line other _ _ here later ih =>
    have trimmed : trim (Line.dropTerminators line) = trim (Line.dropTerminators other) := by
      rw [Line.trim_dropTerminators, Line.trim_dropTerminators, (reframed_iff.1 here).2]
    rw [ofLines_cons, ofLines_cons, lines_append_newline here.single.1,
      lines_append_newline here.single.2]
    exact .cons (.text trimmed) ih

/-- Blanks that are added or removed at the ends of lines change neither what the calls answer nor
what they say. -/
theorem session_of_reframed (calls : List Call) (lines others : List Text)
    (reframed : List.Forall₂ Text.Reframed lines others) :
    (session calls (Text.encode (Text.ofLines lines))).map Visit.shown =
      (session calls (Text.encode (Text.ofLines others))).map Visit.shown :=
  session_of_alike calls (Text.alike_of_reframed reframed)

/-- The second input has returns before its newlines, wide blanks, blank lines that are not empty,
and blanks around a line that is no rule. -/
theorem session_of_reframed_returns :
    let lines := ["a b".toList, "S".toList, "S".toList, "S -> a S | b".toList, [],
      "b".toList, "done".toList, "ab".toList]
    let others := [" a b\r".toList, "\tS\r".toList, "S \u3000\r".toList,
      "S -> a S | b\r".toList, " \r".toList, "\u00A0b\r".toList, " done\r".toList,
      "ab\u2028".toList]
    List.Forall₂ Text.Reframed lines others ∧
      (session [.grammar, .target] (Text.encode (Text.ofLines lines))).map Visit.shown =
        (session [.grammar, .target] (Text.encode (Text.ofLines others))).map Visit.shown := by
  intro lines others
  have reframed : List.Forall₂ Text.Reframed lines others := by decide +kernel
  exact ⟨reframed, session_of_reframed _ lines others reframed⟩

end Chomsky
