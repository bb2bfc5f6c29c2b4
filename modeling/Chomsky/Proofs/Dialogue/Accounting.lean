import Chomsky.Dialogue.Console
import Chomsky.Proofs.Dialogue.Lines

/-!
# Input accounting

At a console each prompt is answered by one line, and each line that is taken answers one prompt
(`Accounts`). An interaction performs a dialogue (`Interaction.Performs`) if it answers and says
what the dialogue does with the lines of the input, and its journal accounts for the bytes that it
takes; the parts of a dialogue are performed one by one (`Interaction.performs_readGrammar`,
`Interaction.performs_readTarget`). Main statement: the lines that the calls of a session take
follow each other from the first line of the input on (`session_accounts`).
-/

namespace Chomsky

/-! ## Lines with their newlines -/

/-- A newline is a character of its own, so bytes with one more newline are as well-formed as
without it. -/
theorem Text.decode_append_newline (bs : Bytes) :
    decode (bs ++ [10]) = (decode bs).map (· ++ ['\n']) := by
  have newline : encode ['\n'] = [10] := by decide
  cases read : decode bs with
  | some t =>
    rw [← encode_of_decode read, ← newline, ← encode_append, decode_encode, Option.map_some]
  | none =>
    cases whole : decode (bs ++ [10]) with
    | none => rfl
    | some u =>
      have bytes := encode_of_decode whole
      rcases List.eq_nil_or_concat u with rfl | ⟨v, c, rfl⟩
      · exact absurd bytes (by simp [encode])
      · have filled : encode [c] ≠ [] := by simp [encode]
        rw [List.concat_eq_append, encode_append] at bytes
        have ends := congrArg List.getLast? bytes
        rw [List.getLast?_append, List.getLast?_concat, List.getLast?_eq_some_getLast filled,
          Option.some_or] at ends
        have member := List.getLast_mem filled
        rw [Option.some.inj ends] at member
        replace member : 10 ∈ String.utf8EncodeChar c := by simpa [encode] using member
        obtain rfl := eq_newline_of_mem_utf8EncodeChar member
        rw [newline] at bytes
        rw [← List.append_cancel_right bytes, decode_encode] at read
        cases read

namespace Line

theorem ofBytes_append_newline (bs : Bytes) : ofBytes (bs ++ [10]) = ofBytes bs := by
  rw [ofBytes, ofBytes, Text.decode_append_newline]
  cases Text.decode bs with
  | none => rfl
  | some t => simp [dropTerminators, isTerminator]

theorem ofInput_of_ne_nil {bs : Bytes} (filled : bs ≠ []) :
    ofInput bs = ofBytes (first bs) :: ofInput (afterFirst bs) := by
  have solid : ∀ b ∈ bs.takeWhile (· != 10), (b == 10) = false := by
    intro b member
    simpa using List.all_eq_true.1 List.all_takeWhile b member
  have whole := List.takeWhile_append_dropWhile (p := (· != 10)) (l := bs)
  have cut := Text.pieces_append solid (bs.dropWhile (· != 10))
  rw [whole] at cut
  cases rest : bs.dropWhile (· != 10) with
  | nil =>
    rw [rest, List.append_nil] at whole
    have front : first bs = bs := by rw [first, rest, whole]; simp
    have back : afterFirst bs = [] := by rw [afterFirst, rest, List.tail_nil]
    rw [rest, whole] at cut
    simp [ofInput, cut, Text.pieces, front, back, filled]
  | cons b tail =>
    have newline : b = 10 := by
      have stop := List.head?_dropWhile_not (· != 10) bs
      rw [rest] at stop
      simpa using stop
    have front : first bs = bs.takeWhile (· != 10) ++ [10] := by
      rw [first, rest, newline]
      rfl
    have back : afterFirst bs = tail := by rw [afterFirst, rest, List.tail_cons]
    obtain ⟨line, others, parts⟩ := List.exists_cons_of_ne_nil (Text.pieces_ne_nil (· == 10) tail)
    rw [rest, newline, Text.pieces, parts] at cut
    rw [front, back, ofBytes_append_newline, ofInput, ofInput, cut, parts]
    by_cases empty : (line :: others).getLast? = some [] <;> simp_all

end Line

/-! ## Deeds -/

namespace Deed

/-- The remark that is made. -/
def remark? : Deed → Option Remark
  | say r => some r
  | _ => none

/-- The line that is taken. -/
def line? : Deed → Option Bytes
  | take (b :: line) => some (b :: line)
  | _ => none

def lines (deeds : List Deed) : List Bytes := deeds.filterMap line?

theorem lines_say (r : Remark) (deeds : List Deed) : lines (.say r :: deeds) = lines deeds := rfl

theorem lines_take_first {bytes : Bytes} (filled : bytes ≠ []) (deeds : List Deed) :
    lines (.take (Line.first bytes) :: deeds) = Line.first bytes :: lines deeds := by
  obtain ⟨b, line, first⟩ := List.exists_cons_of_ne_nil (mt Line.first_eq_nil_iff.1 filled)
  rw [first]
  rfl

/-- Asks for a line. -/
def isPrompt : Deed → Bool
  | say (.prompt _) => true
  | _ => false

/-- Takes nothing, because the input is at its end. -/
def meetsEnd : Deed → Bool
  | take [] => true
  | _ => false

end Deed

/-- What is done to an input and what is left of it: each prompt is answered at once by the next
line with its newline, or by nothing at the end of the input, and no line is taken without one. -/
inductive Accounts : Bytes → List Deed → Bytes → Prop
  | nothing {bytes : Bytes} : Accounts bytes [] bytes
  | ask {bytes left : Bytes} {deeds : List Deed} (prompt : Text)
      (rest : Accounts (Line.afterFirst bytes) deeds left) :
    Accounts bytes (.say (.prompt prompt) :: .take (Line.first bytes) :: deeds) left
  | say {bytes left : Bytes} {deeds : List Deed} {r : Remark} (other : ∀ t, r ≠ .prompt t)
      (rest : Accounts bytes deeds left) :
    Accounts bytes (.say r :: deeds) left

namespace Accounts

variable {bytes middle left : Bytes} {deeds more : List Deed}

theorem append (first : Accounts bytes deeds middle) (second : Accounts middle more left) :
    Accounts bytes (deeds ++ more) left := by
  induction first with
  | nothing => exact second
  | ask prompt _ ih => exact .ask prompt (ih second)
  | say other _ ih => exact .say other (ih second)

/-- The bytes that are taken and those that are left are the input. -/
theorem flatten_lines (accounts : Accounts bytes deeds left) :
    (Deed.lines deeds).flatten ++ left = bytes := by
  induction accounts with
  | nothing => rfl
  | @ask bytes left deeds prompt _ ih =>
    rw [Deed.lines_say]
    by_cases empty : bytes = []
    · subst empty
      exact ih
    · rw [Deed.lines_take_first empty, List.flatten_cons, List.append_assoc, ih,
        Line.first_append_afterFirst]
  | say _ _ ih => exact ih

/-- The lines that are taken and those that are left are the lines of the input. -/
theorem map_ofBytes_lines (accounts : Accounts bytes deeds left) :
    (Deed.lines deeds).map Line.ofBytes ++ Line.ofInput left = Line.ofInput bytes := by
  induction accounts with
  | nothing => rfl
  | @ask bytes left deeds prompt _ ih =>
    rw [Deed.lines_say]
    by_cases empty : bytes = []
    · subst empty
      exact ih
    · rw [Deed.lines_take_first empty, List.map_cons, List.cons_append, ih,
        Line.ofInput_of_ne_nil empty]
  | say _ _ ih => exact ih

/-- Each prompt takes a line or meets the end of the input. -/
theorem countP_isPrompt (accounts : Accounts bytes deeds left) :
    deeds.countP Deed.isPrompt = (Deed.lines deeds).length + deeds.countP Deed.meetsEnd := by
  induction accounts with
  | nothing => rfl
  | @ask bytes left deeds prompt _ ih =>
    have no_end : ¬ Deed.meetsEnd (.say (.prompt prompt)) := Bool.false_ne_true
    rw [List.countP_cons_of_pos rfl, List.countP_cons_of_neg Bool.false_ne_true, ih,
      Deed.lines_say, List.countP_cons_of_neg no_end]
    by_cases empty : bytes = []
    · subst empty
      have met : Deed.meetsEnd (.take (Line.first [])) := rfl
      rw [List.countP_cons_of_pos met]
      rfl
    · have not_met : ¬ Deed.meetsEnd (.take (Line.first bytes)) := by
        obtain ⟨b, line, first⟩ := List.exists_cons_of_ne_nil (mt Line.first_eq_nil_iff.1 empty)
        rw [first]
        exact Bool.false_ne_true
      rw [Deed.lines_take_first empty, List.countP_cons_of_neg not_met, List.length_cons]
      omega
  | @say bytes left deeds r other _ ih =>
    have no_prompt : ¬ Deed.isPrompt (.say r) := by
      cases r with
      | prompt t => exact absurd rfl (other t)
      | notice t => exact Bool.false_ne_true
      | complaint t => exact Bool.false_ne_true
    have no_end : ¬ Deed.meetsEnd (.say r) := Bool.false_ne_true
    rw [List.countP_cons_of_neg no_prompt, List.countP_cons_of_neg no_end, ih, Deed.lines_say]

end Accounts

/-! ## Performing a dialogue -/

/-- The input gives these deeds and leaves that of the input, as the exchange tells. -/
structure Exchange.IsRecorded {α : Type} (e : Exchange α) (bytes : Bytes) (deeds : List Deed)
    (left : Bytes) : Prop where
  said : deeds.filterMap Deed.remark? = e.said
  unread : Line.ofInput left = e.unread
  accounts : Accounts bytes deeds left
  /-- A line that is not UTF-8 is the only reason for this fault. -/
  illFormed : e.answer = .error (.io .notUtf8) ↔
    ∃ line ∈ Deed.lines deeds, Text.decode line = none

namespace Interaction

variable {α β : Type} {x : Interaction α} {f : α → Interaction β} {d : Dialogue α}
  {next : α → Dialogue β} {bytes : Bytes}

/-- At this input the interaction does what the dialogue does with its lines, whatever stands in
the journal. -/
def PerformsAt (bytes : Bytes) (x : Interaction α) (d : Dialogue α) : Prop :=
  ∃ deeds left, (d (Line.ofInput bytes)).IsRecorded bytes deeds left ∧
    ∀ journal, x.runOn ⟨bytes, journal⟩ =
      ((d (Line.ofInput bytes)).answer, ⟨left, journal ++ deeds⟩)

def Performs (x : Interaction α) (d : Dialogue α) : Prop := ∀ bytes, PerformsAt bytes x d

theorem performs_pure (a : α) : Performs (pure a) (Dialogue.pure a) := by
  intro bytes
  refine ⟨[], bytes, ⟨rfl, rfl, .nothing, by simp [Dialogue.pure, Deed.lines]⟩, fun journal => ?_⟩
  rw [runOn_pure, List.append_nil]
  rfl

theorem performs_throw {e : Error} (other : e ≠ .io .notUtf8) :
    Performs (throw e : Interaction α) (Dialogue.fail e) := by
  intro bytes
  refine ⟨[], bytes, ⟨rfl, rfl, .nothing, by simp [Dialogue.fail, Deed.lines, other]⟩,
    fun journal => ?_⟩
  rw [runOn_throw, List.append_nil]
  rfl

theorem performs_enter {r : Remark} (other : ∀ t, r ≠ .prompt t) :
    Performs (enter (.say r)) (Dialogue.say r) := by
  intro bytes
  have no_line : Deed.lines [.say r] = [] := rfl
  exact ⟨[.say r], bytes,
    ⟨rfl, rfl, .say other .nothing, by simp [Dialogue.say, no_line]⟩, fun journal => rfl⟩

theorem PerformsAt.bind (first : PerformsAt bytes x d)
    (second : ∀ deeds middle a, x.runOn ⟨bytes, []⟩ = (.ok a, ⟨middle, deeds⟩) →
      PerformsAt middle (f a) (next a)) :
    PerformsAt bytes (x >>= f) (d >>= next) := by
  obtain ⟨deeds, middle, recorded, ran⟩ := first
  generalize exchange : d (Line.ofInput bytes) = e at recorded ran
  obtain ⟨answer, said, unread⟩ := e
  cases answer with
  | error e =>
    rw [PerformsAt, Dialogue.bind_of_error exchange]
    have illFormed := recorded.illFormed
    simp only [Except.error.injEq] at illFormed
    exact ⟨deeds, middle, ⟨recorded.said, recorded.unread, recorded.accounts, by simpa⟩,
      fun journal => runOn_bind_of_error (ran journal)⟩
  | ok a =>
    obtain ⟨more, left, later, went⟩ := second _ _ a (ran [])
    obtain rfl : Line.ofInput middle = unread := recorded.unread
    rw [PerformsAt, Dialogue.bind_of_ok exchange]
    have accounts := recorded.accounts.append later.accounts
    refine ⟨deeds ++ more, left, ⟨?_, later.unread, accounts, ?_⟩, ?_⟩
    · rw [List.filterMap_append, recorded.said, later.said]
      rfl
    · have lines : Deed.lines (deeds ++ more) = Deed.lines deeds ++ Deed.lines more :=
        List.filterMap_append
      have fine : ¬ ∃ line ∈ Deed.lines deeds, Text.decode line = none :=
        mt recorded.illFormed.2 (by simp)
      rw [lines]
      simp only [List.mem_append, or_and_right, exists_or, fine, false_or]
      exact later.illFormed
    · intro journal
      rw [runOn_bind_of_ok (ran journal), went, List.append_assoc]
      rfl

theorem Performs.bind (first : Performs x d) (second : ∀ a, Performs (f a) (next a)) :
    Performs (x >>= f) (d >>= next) :=
  fun bytes => (first bytes).bind fun _ middle a _ => second a middle

/-! ## The parts of a dialogue -/

theorem answerOf_eq_error_iff {line : Bytes} :
    answerOf line = .error (.io .notUtf8) ↔ Text.decode line = none := by
  unfold answerOf Line.ofBytes
  split
  · next empty =>
    have read : Text.decode [] = some [] := Text.decode_encode []
    simp [empty, read]
  · cases Text.decode line <;> simp

theorem performs_ask (prompt : Text) : Performs (ask prompt) (Dialogue.ask prompt) := by
  intro bytes
  have exchange : Dialogue.ask prompt (Line.ofInput bytes) =
      ⟨answerOf (Line.first bytes), [.prompt prompt], Line.ofInput (Line.afterFirst bytes)⟩ := by
    by_cases empty : bytes = []
    · subst empty
      rfl
    · rw [Line.ofInput_of_ne_nil empty, answerOf, if_neg (mt Line.first_eq_nil_iff.1 empty)]
      cases Line.ofBytes (Line.first bytes) <;> rfl
  rw [PerformsAt, exchange]
  refine ⟨_, _, ⟨rfl, rfl, .ask prompt .nothing, ?_⟩, fun journal => runOn_ask prompt _⟩
  rw [answerOf_eq_error_iff, Deed.lines_say]
  by_cases empty : bytes = []
  · subst empty
    have read : Text.decode [] = some [] := Text.decode_encode []
    have no_line : Deed.lines [.take (Line.first [])] = [] := rfl
    rw [no_line, Line.first_eq_nil_iff.2 rfl, read]
    simp
  · have single : Deed.lines [.take (Line.first bytes)] = [Line.first bytes] :=
      Deed.lines_take_first empty []
    simp [single]

theorem performs_askPart (part : Part) : Performs (askPart part) (Dialogue.askPart part) := by
  refine (performs_ask _).bind fun answer => ?_
  cases answer with
  | some t => exact performs_pure t
  | none => exact performs_throw (by simp)

end Interaction

namespace Dialogue

/-- Adds the rule on a line to those that were read, as far as the line has one. -/
def enterRule (ps : Productions) (line : Text) : Dialogue (ForInStep Productions) :=
  if isDone line then pure (.done ps)
  else if line.isEmpty then pure (.yield ps)
  else
    match Production.read line with
    | .ok p => pure (.yield (ps.add p))
    | .error cause => do
      say (.complaint ((Error.parse none cause).message ++ ['\n']))
      pure (.yield ps)

def askRule (ps : Productions) : Dialogue (ForInStep Productions) := do
  match ← ask rulePrompt.text with
  | some t => enterRule ps (Text.trim t)
  | none => pure (.done ps)

def moreRules : ForInStep Productions → Dialogue Productions
  | .done all => pure all
  | .yield more => readRules more

/-- Rules are read one by one. -/
theorem readRules_eq_bind (ps : Productions) (lines : List Line) :
    readRules ps lines = (askRule ps >>= moreRules) lines := by
  cases lines with
  | nil => rfl
  | cons line rest =>
    cases line with
    | illFormed => rfl
    | text t =>
      have asked : ask rulePrompt.text (.text t :: rest) = ⟨.ok (some t), [rulePrompt], rest⟩ := rfl
      have entered : askRule ps (.text t :: rest) =
          preceded [rulePrompt] (enterRule ps (Text.trim t) rest) := bind_of_ok asked
      rw [readRules]
      rw [enterRule] at entered
      by_cases last : isDone (Text.trim t) = true
      · rw [if_pos last] at entered ⊢
        rw [bind_of_ok entered]
        rfl
      rw [if_neg last] at entered ⊢
      by_cases blank : (Text.trim t).isEmpty = true
      · rw [if_pos blank] at entered ⊢
        rw [bind_of_ok entered]
        rfl
      rw [if_neg blank] at entered ⊢
      cases read : Production.read (Text.trim t) with
      | ok p =>
        rw [read] at entered
        rw [bind_of_ok entered]
        rfl
      | error cause =>
        rw [read] at entered
        rw [bind_of_ok entered]
        rfl

end Dialogue

namespace Interaction

theorem performs_enterRule (ps : Productions) (line : Text) :
    Performs (enterRule ps line) (Dialogue.enterRule ps line) := by
  unfold enterRule Dialogue.enterRule
  split
  · exact performs_pure _
  · split
    · exact performs_pure _
    · cases Production.read line with
      | ok p => exact performs_pure _
      | error cause =>
        -- Only here something is said, and it is no prompt.
        have spoken := performs_enter (r := .complaint ((Error.parse none cause).message ++ ['\n']))
          fun t => Remark.noConfusion
        exact spoken.bind fun _ => performs_pure _

theorem performs_askRule (ps : Productions) : Performs (askRule ps) (Dialogue.askRule ps) := by
  refine (performs_ask _).bind fun answer => ?_
  cases answer with
  | some t => exact performs_enterRule ps (Text.trim t)
  | none => exact performs_pure _

theorem performs_readRules (ps : Productions) :
    Performs (readRules ps) (Dialogue.readRules ps) := by
  intro bytes
  -- The rules go on only after a line was taken, so fewer bytes are left for the rest of them.
  induction length : bytes.length using Nat.strongRecOn generalizing bytes ps with
  | ind n ih =>
    have turn : PerformsAt bytes (askRule ps >>= moreRules)
        (Dialogue.askRule ps >>= Dialogue.moreRules) := by
      refine (performs_askRule ps bytes).bind fun deeds middle step asked => ?_
      cases step with
      | done all => exact performs_pure all middle
      | yield more => exact ih _ (length ▸ unread_lt_of_askRule asked) more middle rfl
    simpa only [PerformsAt, runOn_readRules, Dialogue.readRules_eq_bind] using turn

theorem performs_readGrammar : Performs readGrammar Dialogue.readGrammar := by
  refine (performs_askPart .terminals).bind fun terminals => ?_
  refine (performs_askPart .nonTerminals).bind fun nonTerminals => ?_
  refine (performs_askPart .start).bind fun start => ?_
  refine (performs_enter (by simp)).bind fun _ => ?_
  refine (performs_readRules .empty).bind fun productions => ?_
  cases Grammar.build (readSymbols terminals) (readSymbols nonTerminals) start productions with
  | ok g => exact performs_pure g
  | error defect => exact performs_throw (by simp)

theorem performs_readTarget : Performs readTarget Dialogue.readTarget :=
  (performs_ask _).bind fun _ => performs_pure _

end Interaction

/-! ## Sessions -/

namespace Call

def dialogue : Call → Dialogue Reply
  | grammar => do return .grammar (← Dialogue.readGrammar)
  | target => do return .target (← Dialogue.readTarget)

theorem performs_dialogue (call : Call) : Interaction.Performs call.interaction call.dialogue := by
  cases call with
  | grammar => exact Interaction.performs_readGrammar.bind fun _ => Interaction.performs_pure _
  | target => exact Interaction.performs_readTarget.bind fun _ => Interaction.performs_pure _

/-- The answer of a call that finds the input at its end. -/
def ended : Call → Except Error Reply
  | grammar => .error (.unexpectedEnd .terminals)
  | target => .ok (.target none)

theorem answer_dialogue_nil (call : Call) : (call.dialogue []).answer = call.ended := by
  cases call <;> rfl

end Call

namespace Visit

/-- The lines that a call took, with their newlines. -/
def lines (v : Visit) : List Bytes := Deed.lines v.deeds

/-- The books of one call agree with its dialogue and with its input. -/
structure IsAccounted (v : Visit) : Prop where
  exchange : v.call.dialogue (Line.ofInput v.before) =
    ⟨v.answer, v.deeds.filterMap Deed.remark?, Line.ofInput v.after⟩
  accounts : Accounts v.before v.deeds v.after
  prompts : v.deeds.countP Deed.isPrompt = v.lines.length + v.deeds.countP Deed.meetsEnd
  /-- A line that is not UTF-8 is taken, and it alone is an error of reading. -/
  illFormed : v.answer = .error (.io .notUtf8) ↔ ∃ line ∈ v.lines, Text.decode line = none

end Visit

theorem Call.isAccounted_visit (call : Call) (bytes : Bytes) : (call.visit bytes).IsAccounted := by
  obtain ⟨deeds, left, recorded, ran⟩ := call.performs_dialogue bytes
  have visited : call.visit bytes =
      ⟨call, bytes, (call.dialogue (Line.ofInput bytes)).answer, deeds, left⟩ := by
    rw [Call.visit, ran, List.nil_append]
  rw [visited]
  exact
    { exchange := by rw [recorded.said, recorded.unread]
      accounts := recorded.accounts
      prompts := recorded.accounts.countP_isPrompt
      illFormed := recorded.illFormed }

/-- A later part of a session is a session by itself, on what the calls before it left. -/
theorem exists_session_of_append {calls : List Call} {input : Bytes} {earlier later : List Visit}
    (cut : session calls input = earlier ++ later) :
    ∃ rest left, later = session rest left ∧
      (earlier.flatMap Visit.lines).flatten ++ left = input ∧
      (earlier.flatMap Visit.lines).map Line.ofBytes ++ Line.ofInput left = Line.ofInput input := by
  induction earlier generalizing calls input with
  | nil => exact ⟨calls, input, cut.symm, rfl, rfl⟩
  | cons v earlier ih =>
    cases calls with
    | nil => cases cut
    | cons call calls =>
      obtain ⟨rfl, behind⟩ := List.cons.inj cut
      obtain ⟨rest, left, suffix, bytes, lines⟩ := ih behind
      have accounts := (call.isAccounted_visit input).accounts
      refine ⟨rest, left, suffix, ?_, ?_⟩
      · rw [List.flatMap_cons, List.flatten_append, List.append_assoc, bytes]
        exact accounts.flatten_lines
      · rw [List.flatMap_cons, List.map_append, List.append_assoc, lines]
        exact accounts.map_ofBytes_lines

/-- At the end of the input a call takes nothing more. -/
theorem Call.visit_nil (call : Call) :
    (call.visit []).answer = call.ended ∧ (call.visit []).after = [] := by
  have accounted := call.isAccounted_visit []
  have left := accounted.accounts.flatten_lines
  refine ⟨?_, (List.append_eq_nil_iff.1 left).2⟩
  rw [← call.answer_dialogue_nil]
  exact (congrArg Exchange.answer accounted.exchange).symm

/-- An error does not end a session: each of its calls is made. -/
theorem map_call_session (calls : List Call) (input : Bytes) :
    (session calls input).map Visit.call = calls := by
  induction calls generalizing input with
  | nil => rfl
  | cons call calls ih => rw [session, List.map_cons, ih]; rfl

theorem answer_of_mem_session_nil {calls : List Call} {v : Visit} (made : v ∈ session calls []) :
    v.answer = v.call.ended := by
  induction calls with
  | nil => cases made
  | cons call calls ih =>
    rcases List.mem_cons.1 made with rfl | later
    · exact call.visit_nil.1
    · rw [call.visit_nil.2] at later
      exact ih later

/-- Whatever is called and whatever the input, the lines that are taken follow each other from the
first line of the input on, through calls that end in errors too. Each of them answers one prompt;
the other prompts meet the end of the input, and from there on every call answers so. -/
theorem session_accounts (calls : List Call) (input : Bytes) (earlier later : List Visit)
    (v : Visit) (made : session calls input = earlier ++ v :: later) :
    earlier.map Visit.call ++ v.call :: later.map Visit.call = calls ∧
      v.IsAccounted ∧
      (earlier.flatMap Visit.lines).flatten ++ (v.lines.flatten ++ v.after) = input ∧
      (earlier.flatMap Visit.lines).map Line.ofBytes ++
        (v.lines.map Line.ofBytes ++ Line.ofInput v.after) = Line.ofInput input ∧
      (v.before = [] → ∀ w ∈ v :: later, w.answer = w.call.ended) := by
  obtain ⟨rest, left, suffix, bytes, lines⟩ := exists_session_of_append made
  cases rest with
  | nil => cases suffix
  | cons call rest =>
    obtain ⟨rfl, rfl⟩ := List.cons.inj suffix
    have accounted := call.isAccounted_visit left
    have called := map_call_session calls input
    rw [made, List.map_append, List.map_cons] at called
    refine ⟨called, accounted, ?_, ?_, ?_⟩
    · rw [← bytes]
      exact congrArg _ accounted.accounts.flatten_lines
    · rw [← lines]
      exact congrArg _ accounted.accounts.map_ofBytes_lines
    · rintro (rfl : left = []) w later
      have made : w ∈ session (call :: rest) [] := later
      exact answer_of_mem_session_nil made

/-- A line that is not UTF-8, then a target without a newline, then the end of the input. -/
theorem session_accounts_ill_formed :
    let input : Bytes := [0xff, 10, 97]
    let earlier := [Call.target.visit input, Call.target.visit [97]]
    let v := Call.grammar.visit []
    earlier.map Visit.answer = [.error (.io .notUtf8), .ok (.target (some ['a']))] ∧
      session [.target, .target, .grammar] input = earlier ++ [v] ∧
      (earlier.flatMap Visit.lines).flatten ++ (v.lines.flatten ++ v.after) = input ∧
      (v.before = [] → ∀ w ∈ [v], w.answer = w.call.ended) := by
  have second : (Call.target.visit [0xff, 10, 97]).after = [97] := rfl
  have third : (Call.target.visit [97]).after = [] := rfl
  have made : session [.target, .target, .grammar] [0xff, 10, 97] =
      [Call.target.visit [0xff, 10, 97], Call.target.visit [97]] ++ [Call.grammar.visit []] := by
    simp only [session, second, third, List.cons_append, List.nil_append]
  obtain ⟨-, -, bytes, -, ended⟩ := session_accounts _ _ _ [] _ made
  exact ⟨rfl, made, bytes, ended⟩

end Chomsky
