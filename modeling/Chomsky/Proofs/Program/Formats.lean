import Chomsky.Performance
import Chomsky.Proofs.Dialogue.Accounting
import Chomsky.Proofs.Program.Output
import Chomsky.Proofs.Report.Facts

/-!
# The two formats

A run follows its story in both formats, and leaves the same input (`Program.follows_proceed`). What
`Program.validate` tells of a run is what happens at the console (`Program.validate_eq_outcomeOf`).
The text report can be written from the facts alone (`Report.Facts.told`). Main statement: both
formats give the same answer and leave the same input, and the text report tells the facts that can
be read from the JSON document (`Program.formats_agree`).
-/

namespace Chomsky

/-! ## Text reports of facts -/

namespace Report

namespace Facts

/-- The lines of a search: its steps with a marker for the empty form, or why there are none. -/
def searchLines : Option (Word × Derivation) → List Text
  | none => []
  | some (_, .found steps) =>
    "Derivation steps:".toList :: steps.map fun form => if form = [] then emptyMarker else form
  | some (_, .depthExceeded) => ["Max depth reached. Derivation stopped.".toList]
  | some (_, .stateLimitReached) => ["State limit reached. Derivation stopped.".toList]
  | some (target, .notFound) => ["No valid derivation found for: ".toList ++ target]

/-- The lines that tell the facts: the rules, the level and its name, then the search. -/
def lines (f : Facts) : List Text :=
  (f.rules.map fun rule => rule.left ++ " -> ".toList ++ rule.right) ++
    [if f.level = .regular then "It's type 3".toList else "It's not type 3".toList,
      "Grammar type: ".toList ++
        (Text.ofNat f.level.number ++ " (".toList ++ f.level.name ++ ")".toList)] ++
    searchLines f.search

/-- The facts as a text report tells them. -/
def told (f : Facts) : Text := (f.lines.map line).flatten

end Facts

theorem closing_text (r : Report) :
    r.closing .text = ((Facts.searchLines r.search).map line).flatten := by
  rw [closing]
  cases r.search with
  | none => rfl
  | some found =>
    obtain ⟨target, d⟩ := found
    cases d with
    | found steps =>
      have marked : ∀ form : Word, (if form = [] then emptyMarker else form) = shown form := by
        intro form
        simp [shown]
      simp only [answer, Facts.searchLines, marked, List.map_cons, List.map_map]
      rfl
    | depthExceeded => rfl
    | stateLimitReached => rfl
    | notFound => rfl

/-- The two parts of a text report tell its facts. -/
theorem told_facts (r : Report) :
    r.facts.told = (classification r.grammar r.level).flatten ++ r.closing .text := by
  rw [closing_text, Facts.told, Facts.lines, List.map_append, List.flatten_append,
    List.map_append]
  rfl

end Report

/-! ## Journals -/

namespace Deed

/-- Takes a line or meets the end of the input. -/
def takes : Deed → Bool
  | take _ => true
  | _ => false

theorem toOutput_take (format : Format) (line : Bytes) : toOutput format (.take line) = [] := by
  cases format <;> rfl

theorem toError_take (format : Format) (line : Bytes) : toError format (.take line) = [] := by
  cases format <;> rfl

/-- What is done besides taking lines. -/
def besidesLines (deeds : List Deed) : List Deed := deeds.filter fun deed => !deed.takes

theorem besidesLines_append (deeds more : List Deed) :
    besidesLines (deeds ++ more) = besidesLines deeds ++ besidesLines more :=
  List.filter_append ..

/-- Where taking a line is not told, nothing is lost without the lines. -/
theorem flatMap_besidesLines {tell : Deed → Text} (silent : ∀ line, tell (.take line) = [])
    (deeds : List Deed) : (besidesLines deeds).flatMap tell = deeds.flatMap tell := by
  induction deeds with
  | nil => rfl
  | cons deed deeds ih =>
    rw [List.flatMap_cons, ← ih]
    cases deed with
    | take line => rw [silent]; rfl
    | say r => rfl
    | report t => rfl
    | note t => rfl

/-- What is done besides making remarks. -/
def besidesRemarks (deeds : List Deed) : List Deed := deeds.filter fun deed => deed.remark?.isNone

theorem flatMap_besidesRemarks (deeds : List Deed) :
    (besidesRemarks deeds).flatMap (toOutput .text) = deeds.flatMap reported := by
  induction deeds with
  | nil => rfl
  | cons deed deeds ih =>
    rw [List.flatMap_cons, ← ih]
    cases deed <;> rfl

end Deed

/-- Besides taking lines a dialogue makes its remarks. -/
theorem Accounts.besidesLines_eq {bytes left : Bytes} {deeds : List Deed}
    (accounts : Accounts bytes deeds left) :
    Deed.besidesLines deeds = (deeds.filterMap Deed.remark?).map Deed.say := by
  induction accounts with
  | nothing => rfl
  | ask prompt _ ih => exact congrArg (Deed.say (.prompt prompt) :: ·) ih
  | @say _ _ _ r _ _ ih => exact congrArg (Deed.say r :: ·) ih

/-- What an event of a story does at a console. -/
def Event.deeds : Format → Event → List Deed
  | _, remark r => [.say r]
  | .text, classified g l => [.report (Report.classification g l).flatten]
  | .json, classified _ _ => []

/-- What is done in a story, but for the lines that are taken. -/
def Story.deeds (format : Format) (s : Story) : List Deed :=
  s.events.flatMap (Event.deeds format) ++
    match s.ending with
    | .ok r => [.report (r.closing format)]
    | .error _ => []

/-- The story after other events. -/
def Story.after (events : List Event) (s : Story) : Story := { s with events := events ++ s.events }

/-- The story of a part of a dialogue, and of what follows an answer. -/
def Story.ofExchange {α : Type} (e : Exchange α) (next : α → List Line → Story) : Story :=
  match e.answer with
  | .error fault => ⟨e.said.map Event.remark, .error fault⟩
  | .ok a => (next a e.unread).after (e.said.map Event.remark)

theorem Story.deeds_after (format : Format) (events : List Event) (s : Story) :
    (s.after events).deeds format = events.flatMap (Event.deeds format) ++ s.deeds format := by
  rw [after, deeds, deeds, List.flatMap_append, List.append_assoc]

theorem Event.flatMap_deeds_remark (format : Format) (said : List Remark) :
    (said.map Event.remark).flatMap (Event.deeds format) = said.map Deed.say := by
  induction said with
  | nil => rfl
  | cons r said ih => exact congrArg (Deed.say r :: ·) ih

theorem Event.flatMap_toOutput_deeds (format : Format) (e : Event) :
    (e.deeds format).flatMap (Deed.toOutput format) = e.toOutput format := by
  cases e <;> cases format <;> simp [deeds, toOutput, Deed.toOutput, Deed.reported]

theorem Event.flatMap_toError_deeds (format : Format) (e : Event) :
    (e.deeds format).flatMap (Deed.toError format) = e.toError format := by
  cases e <;> cases format <;> simp [deeds, toError, Deed.toError]

/-- What an event reports in text. -/
def Event.reported : Event → Text
  | remark _ => []
  | classified g l => (Report.classification g l).flatten

theorem Event.flatMap_reported_deeds (e : Event) :
    (e.deeds .text).flatMap Deed.reported = e.reported := by
  cases e <;> simp [deeds, reported, Deed.reported]

theorem Event.flatMap_reported_remark (said : List Remark) :
    (said.map Event.remark).flatMap reported = [] := by
  induction said with
  | nil => rfl
  | cons r said ih => exact ih

theorem Event.besidesLines_deeds (format : Format) (e : Event) :
    Deed.besidesLines (e.deeds format) = e.deeds format := by
  cases e <;> cases format <;> rfl

/-- A story is told by telling its events, and its report if it has one. -/
theorem Story.flatMap_deeds {format : Format} {tell : Deed → Text} {tellEvent : Event → Text}
    (each : ∀ e : Event, (e.deeds format).flatMap tell = tellEvent e) (s : Story) :
    (s.deeds format).flatMap tell =
      s.events.flatMap tellEvent ++
        match s.ending with
        | .ok r => tell (.report (r.closing format))
        | .error _ => [] := by
  rw [deeds, List.flatMap_append, List.flatMap_assoc]
  simp only [each]
  cases s.ending with
  | ok r => rw [List.flatMap_singleton]
  | error e => rfl

/-- The options with this format. -/
def Options.inFormat (o : Options) (format : Format) : Options :=
  { o with givenFormat := some format }

namespace Program

variable {host : Host} {limits : Limits} {format : Format} {check : Bool} {target : Option Word}

/-! ## Steps of a run -/

/-- From this input the run ends as the story does. What it leaves of the input does not depend on
the format, and besides taking lines it does what the story says. -/
def Follows (bytes : Bytes) (check : Bool) (run : Format → Interaction Status) (s : Story) : Prop :=
  ∃ left, ∀ format, ∃ deeds, Deed.besidesLines deeds = s.deeds format ∧
    ∀ journal, (run format).runOn ⟨bytes, journal⟩ =
      (s.ending.map fun r => r.status check, ⟨left, journal ++ deeds⟩)

theorem follows_throw (bytes : Bytes) (e : Error) :
    Follows bytes check (fun _ => throw e) ⟨[], .error e⟩ := by
  refine ⟨bytes, fun format => ⟨[], rfl, fun journal => ?_⟩⟩
  rw [Interaction.runOn_throw, List.append_nil]
  rfl

theorem follows_finish (bytes : Bytes) (g : Grammar) :
    Follows bytes check (finish g target limits check) ⟨[], .ok (report g target limits)⟩ :=
  ⟨bytes, fun format =>
    ⟨[.report ((report g target limits).closing format)], rfl, fun _ => rfl⟩⟩

theorem runOn_announce (g : Grammar) (c : Console) :
    (announce g format).runOn c =
      (.ok (), ⟨c.unread, c.journal ++ Event.deeds format (.classified g g.classify)⟩) := by
  cases format with
  | text => rfl
  | json => rw [Event.deeds, List.append_nil]; rfl

theorem Follows.after_announce {bytes : Bytes} {run : Format → Interaction Status} {s : Story}
    (follows : Follows bytes check run s) (g : Grammar) :
    Follows bytes check (fun format => announce g format >>= fun _ => run format)
      (s.after [.classified g g.classify]) := by
  obtain ⟨left, follows⟩ := follows
  refine ⟨left, fun format => ?_⟩
  obtain ⟨deeds, besides, ran⟩ := follows format
  refine ⟨Event.deeds format (.classified g g.classify) ++ deeds, ?_, fun journal => ?_⟩
  · rw [Deed.besidesLines_append, Event.besidesLines_deeds, besides, Story.deeds_after,
      List.flatMap_singleton]
  · rw [Interaction.runOn_bind_of_ok (runOn_announce g _), ran, List.append_assoc]
    rfl

/-- A part of a dialogue ends the run with its error, or the run goes on where the part stopped. -/
theorem follows_ofExchange {α : Type} {x : Interaction α} {d : Dialogue α} {bytes : Bytes}
    {run : α → Format → Interaction Status} {next : α → List Line → Story}
    (performs : Interaction.Performs x d)
    (follows : ∀ a middle, Follows middle check (run a) (next a (Line.ofInput middle))) :
    Follows bytes check (fun format => x >>= fun a => run a format)
      (Story.ofExchange (d (Line.ofInput bytes)) next) := by
  obtain ⟨asked, middle, recorded, ran⟩ := performs bytes
  generalize d (Line.ofInput bytes) = e at recorded ran
  have remarks : Deed.besidesLines asked = e.said.map Deed.say := by
    rw [recorded.accounts.besidesLines_eq, recorded.said]
  unfold Story.ofExchange
  cases answered : e.answer with
  | error fault =>
    rw [answered] at ran
    refine ⟨middle, fun format => ⟨asked, ?_, fun journal => ?_⟩⟩
    · rw [remarks, Story.deeds, Event.flatMap_deeds_remark, List.append_nil]
    · exact Interaction.runOn_bind_of_error (ran journal)
  | ok a =>
    rw [answered] at ran
    obtain ⟨left, further⟩ := recorded.unread ▸ follows a middle
    refine ⟨left, fun format => ?_⟩
    obtain ⟨deeds, besides, went⟩ := further format
    refine ⟨asked ++ deeds, ?_, fun journal => ?_⟩
    · rw [Deed.besidesLines_append, remarks, besides, Story.deeds_after,
        Event.flatMap_deeds_remark]
    · rw [Interaction.runOn_bind_of_ok (ran journal), went, List.append_assoc]
      rfl

/-! ## Stories of a run -/

theorem follows_performFile (path : Text) :
    Follows host.input check (performFile host path target limits check)
      (fileStory host path target limits) := by
  unfold performFile fileStory Finder.fileStory
  cases (Declaration.load path (host.contentOf path)).bind Declaration.toGrammar with
  | error e => exact follows_throw host.input e
  | ok g => exact (follows_finish host.input g).after_announce g

/-- The target that is given, or else the one that is asked for. -/
def askedTarget : Option Word → Dialogue (Option Word)
  | some t => Dialogue.pure (some t)
  | none => Dialogue.readTarget

theorem performs_targetFor (target : Option Word) :
    Interaction.Performs (targetFor target) (askedTarget target) := by
  cases target with
  | some t => exact Interaction.performs_pure (some t)
  | none => exact Interaction.performs_readTarget

/-- A dialogue has a part for the grammar and, after the classification, one for the target. -/
theorem dialogueStory_eq (host : Host) (target : Option Word) (limits : Limits) :
    dialogueStory host target limits =
      Story.ofExchange (Dialogue.readGrammar (Line.ofInput host.input)) fun g unread =>
        (Story.ofExchange (askedTarget target unread) fun t _ =>
          ⟨[], .ok (report g t limits)⟩).after [.classified g g.classify] := by
  unfold dialogueStory Finder.dialogueStory Story.ofExchange
  obtain ⟨answer, said, unread⟩ := Dialogue.readGrammar (Line.ofInput host.input)
  cases answer with
  | error e => rfl
  | ok g =>
    cases target with
    | some t => simp [askedTarget, Dialogue.pure, Story.after, report]
    | none =>
      simp only [askedTarget]
      obtain ⟨named, further, left⟩ := Dialogue.readTarget unread
      cases named <;> simp [Story.after, report]

theorem follows_performDialogue :
    Follows host.input check (performDialogue target limits check)
      (dialogueStory host target limits) := by
  rw [dialogueStory_eq]
  refine follows_ofExchange Interaction.performs_readGrammar fun g middle => ?_
  refine Follows.after_announce ?_ g
  exact follows_ofExchange (performs_targetFor target) fun t left => follows_finish left g

theorem follows_proceed (host : Host) (o : Options) (limits : Limits) :
    Follows host.input o.checkDerivation (proceed host o limits) (story host o limits) := by
  unfold Follows proceed story Finder.story
  cases o.grammarFile with
  | some path => exact follows_performFile path
  | none => exact follows_performDialogue

/-! ## Runs -/

/-- The note on the options, if they ask for it. -/
def notes (o : Options) : List Deed :=
  if o.debug then [.note ("Debug: ".toList ++ o.detail ++ ['\n'])] else []

theorem runOn_perform (host : Host) (o : Options) (base : Limits) (c : Console) :
    (perform host o base).runOn c =
      (proceed host o (o.limits base) o.format).runOn ⟨c.unread, c.journal ++ notes o⟩ := by
  unfold perform notes
  cases o.debug with
  | true => exact Interaction.runOn_bind_of_ok (Interaction.runOn_enter _ c)
  | false => simp

theorem flatMap_reported_notes (o : Options) : (notes o).flatMap Deed.reported = [] := by
  unfold notes
  cases o.debug <;> rfl

theorem enact_eq (host : Host) (o : Options) (base : Limits) {left : Bytes} {deeds : List Deed}
    {answer : Except Error Status}
    (ran : ∀ journal, (proceed host o (o.limits base) o.format).runOn ⟨host.input, journal⟩ =
      (answer, ⟨left, journal ++ deeds⟩)) :
    enact host o base = (answer, ⟨left, notes o ++ deeds⟩) := by
  rw [enact, runOn_perform, ran, List.nil_append]

theorem outcomeOf_eq_tell {s : Story} {deeds : List Deed}
    (besides : Deed.besidesLines deeds = s.deeds format) (check detailed : Bool) (left : Bytes) :
    outcomeOf format detailed (s.ending.map fun r => r.status check, ⟨left, deeds⟩) =
      s.tell format check detailed := by
  have out := s.flatMap_deeds (Event.flatMap_toOutput_deeds format)
  have err := s.flatMap_deeds (Event.flatMap_toError_deeds format)
  rw [← besides, Deed.flatMap_besidesLines (Deed.toOutput_take format)] at out
  rw [← besides, Deed.flatMap_besidesLines (Deed.toError_take format)] at err
  dsimp only [outcomeOf, Story.tell]
  rw [out, err]
  cases s.ending with
  | ok r => cases format <;> simp [Except.map, Deed.toOutput, Deed.toError, Deed.reported]
  | error e => simp [Except.map]

theorem outcomeOf_note (detailed : Bool) (note : Text) (answer : Except Error Status) (left : Bytes)
    (deeds : List Deed) :
    outcomeOf format detailed (answer, ⟨left, .note note :: deeds⟩) =
      (outcomeOf format detailed (answer, ⟨left, deeds⟩)).warned note := by
  cases answer <;> cases format <;>
    simp [outcomeOf, Outcome.warned, Deed.toOutput, Deed.toError, Deed.reported]

/-- What is told of a run is what happens at the console. -/
theorem validate_eq_outcomeOf (host : Host) (o : Options) (detailed : Bool) (base : Limits) :
    validate host o detailed base = outcomeOf o.format detailed (enact host o base) := by
  obtain ⟨left, follows⟩ := follows_proceed host o (o.limits base)
  obtain ⟨deeds, besides, ran⟩ := follows o.format
  have told := outcomeOf_eq_tell besides o.checkDerivation detailed left
  rw [enact_eq host o base ran, validate_eq_ite, notes]
  cases o.debug with
  | true => rw [if_pos rfl, if_pos rfl, List.singleton_append, outcomeOf_note, told]
  | false => rw [if_neg Bool.false_ne_true, if_neg Bool.false_ne_true, List.nil_append, told]

/-! ## Agreement -/

/-- With a report a story has one classification, and it is that of the report. -/
def IsClassified (s : Story) : Prop :=
  ∀ r, s.ending = .ok r →
    s.events.flatMap Event.reported = (Report.classification r.grammar r.level).flatten

theorem isClassified_fileStory (path : Text) :
    IsClassified (fileStory host path target limits) := by
  unfold IsClassified fileStory Finder.fileStory
  cases (Declaration.load path (host.contentOf path)).bind Declaration.toGrammar with
  | error e => exact fun r ended => nomatch ended
  | ok g =>
    intro r ended
    obtain rfl := Except.ok.inj ended
    exact List.flatMap_singleton ..

theorem isClassified_dialogueStory : IsClassified (dialogueStory host target limits) := by
  rw [dialogueStory_eq]
  unfold IsClassified Story.ofExchange
  obtain ⟨answer, said, unread⟩ := Dialogue.readGrammar (Line.ofInput host.input)
  cases answer with
  | error e => exact fun r ended => nomatch ended
  | ok g =>
    dsimp only
    obtain ⟨named, further, left⟩ := askedTarget target unread
    cases named with
    | error e => exact fun r ended => nomatch ended
    | ok t =>
      intro r ended
      obtain rfl := Except.ok.inj ended
      simp [Story.after, Event.flatMap_reported_remark, Event.reported, report, Finder.report]

theorem isClassified_story (host : Host) (o : Options) (limits : Limits) :
    IsClassified (story host o limits) := by
  unfold story Finder.story
  cases o.grammarFile with
  | some path => exact isClassified_fileStory path
  | none => exact isClassified_dialogueStory

/-- The text report of a run that ends well tells the facts of the report that it ends with. -/
theorem flatMap_reported {o : Options} {r : Report} {deeds : List Deed}
    (ended : (story host o limits).ending = .ok r)
    (besides : Deed.besidesLines deeds = (story host o limits).deeds .text) :
    deeds.flatMap Deed.reported = r.facts.told := by
  rw [← Deed.flatMap_besidesLines fun line => rfl, besides,
    Story.flatMap_deeds Event.flatMap_reported_deeds, isClassified_story host o limits r ended,
    ended, Report.told_facts]
  rfl

/-- As text and in JSON a run gives the same status or fails with the same error, and leaves the
same input. If it does not fail, the document in JSON can be read, and the text without its prompts
tells the facts that are read from it. -/
theorem formats_agree (host : Host) (o : Options) (detailed : Bool) (base : Limits) :
    ∃ answer left text json,
      enact host (o.inFormat .text) base = (answer, ⟨left, text⟩) ∧
        enact host (o.inFormat .json) base = (answer, ⟨left, json⟩) ∧
        validate host (o.inFormat .text) detailed base =
          outcomeOf .text detailed (answer, ⟨left, text⟩) ∧
        validate host (o.inFormat .json) detailed base =
          outcomeOf .json detailed (answer, ⟨left, json⟩) ∧
        ∀ status, answer = .ok status →
          ∃ facts,
            Report.Facts.ofBytes?
              (Text.encode (validate host (o.inFormat .json) detailed base).out) = some facts ∧
            (Deed.besidesRemarks text).flatMap (Deed.toOutput .text) = facts.told := by
  obtain ⟨left, follows⟩ := follows_proceed host o (o.limits base)
  obtain ⟨text, besides, ranText⟩ := follows .text
  obtain ⟨json, -, ranJson⟩ := follows .json
  have inText := enact_eq host (o.inFormat .text) base ranText
  have inJson := enact_eq host (o.inFormat .json) base ranJson
  refine ⟨_, left, _, _, inText, inJson, ?_, ?_, fun status succeeded => ?_⟩
  · rw [validate_eq_outcomeOf, inText]; rfl
  · rw [validate_eq_outcomeOf, inJson]; rfl
  · cases ended : (story host o (o.limits base)).ending with
    | error e => rw [ended] at succeeded; cases succeeded
    | ok r =>
      have document : (validate host (o.inFormat .json) detailed base).out = r.document := by
        obtain ⟨warning, told⟩ := validate_eq_warned host (o.inFormat .json) detailed base
        rw [told]
        exact (tell_json_of_ok ended o.checkDerivation detailed).1
      refine ⟨r.facts, by rw [document, Report.ofBytes?_encode_document], ?_⟩
      rw [Deed.flatMap_besidesRemarks, List.flatMap_append, flatMap_reported_notes, List.nil_append,
        flatMap_reported ended besides]

end Program

end Chomsky
