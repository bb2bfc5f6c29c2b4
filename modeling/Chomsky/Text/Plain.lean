import Chomsky.Text.Basic

/-!
# Plain text

A terminal acts on control characters and escape sequences instead of showing them. The plain form
of a text is what is left without them. White space within a sequence is shown, and the medium
decides what becomes of the sequence.
-/

namespace Chomsky.Text

/-- What a text is made plain for. -/
inductive Medium where
  /-- A text by itself: a sequence ends where something is shown within it. -/
  | page
  /-- Characters on their way out: a sequence waits while something is shown within it. -/
  | stream
  deriving DecidableEq, Repr

/-- How far a sequence that is no string has come. -/
inductive Sequence where
  /-- After the escape character. -/
  | started
  /-- In a short sequence, before its final character. -/
  | short
  /-- In a control sequence, before its final character. -/
  | control
  deriving DecidableEq, Repr

/-- How far the head of a device string has come. -/
inductive DeviceHead where
  | empty
  | parameters
  | intermediates
  deriving DecidableEq, Repr

/-- Where a character stands in an escape sequence. -/
inductive Escape where
  | outside
  | within (s : Sequence)
  /-- Among characters that are shown while a sequence waits. -/
  | waiting (s : Sequence)
  /-- In a device string, before its content. -/
  | device (head : DeviceHead)
  /-- In a command to the terminal as a whole, which a bell ends. -/
  | command
  /-- In the content of any other string, which the byte `stringEnd` ends. -/
  | content
  deriving DecidableEq, Repr

namespace Escape

def isControl (c : Char) : Bool := c.toNat < 0x20 || c.toNat == 0x7F

/-- Control characters that are shown, as blanks. -/
def isLayout (c : Char) : Bool := c ∈ ['\t', '\n', '\x0c', '\r']

def isBetween (first last : Nat) (c : Char) : Bool := first ≤ c.toNat && c.toNat ≤ last

/-- A character that may come before the final character of a sequence. -/
def isIntermediate (c : Char) : Bool := isBetween 0x20 0x2F c

/-- The end of a string, which counts also among the bytes of a character. -/
def stringEnd : UInt8 := 0x9C

/-- The place after a character that is no control character. A character outside ASCII ends no
sequence and is part of it, save that one of its bytes may end the content of a string. -/
def follow (c : Char) : Escape → Escape
  | outside => outside
  | within .started =>
    if c = '[' then within .control
    else if c = ']' then command
    else if c = 'P' then device .empty
    else if c = 'X' ∨ c = '^' ∨ c = '_' then content
    else if isIntermediate c then within .short
    else if isBetween 0x30 0x7E c then outside
    else within .started
  | within .short => if isBetween 0x30 0x7E c then outside else within .short
  | within .control => if isBetween 0x40 0x7E c then outside else within .control
  | waiting s => if isBetween 0x20 0x7E c then waiting s else outside
  | device .empty =>
    if isIntermediate c then device .intermediates
    else if isBetween 0x30 0x3F c then device .parameters
    else if isBetween 0x40 0x7E c then content
    else device .empty
  | device .parameters =>
    if isIntermediate c then device .intermediates
    else if isBetween 0x3C 0x7E c then content
    else device .parameters
  | device .intermediates => if isBetween 0x30 0x7E c then content else device .intermediates
  | command => command
  | content => if (String.utf8EncodeChar c).any (· == stringEnd) then outside else content

/-- Characters at this place are shown. -/
def isShowing : Escape → Bool
  | outside | waiting _ => true
  | _ => false

/-- The place after a layout character that is shown; in a string it is part of the string. -/
def layout? (m : Medium) : Escape → Option Escape
  | outside => some outside
  | within s => some (match m with
    | .page => outside
    | .stream => waiting s)
  | waiting s => some (waiting s)
  | _ => none

/-- The place after a control character that is not shown: a sequence that waits goes on. -/
def resume (c : Char) : Escape → Escape
  | waiting s => within s
  | command => if c = '\x07' then outside else command
  | e => e

/-- The place after a character, and whether the character is shown. An escape character starts a
sequence at any place, and two other control characters cancel any sequence. -/
def step (m : Medium) (e : Escape) (c : Char) : Escape × Bool :=
  if c = '\x1b' then (within .started, false)
  else if c = '\x18' ∨ c = '\x1a' then (outside, false)
  else if isControl c then
    match if isLayout c then e.layout? m else none with
    | some next => (next, true)
    | none => (e.resume c, false)
  else (e.follow c, e.isShowing)

end Escape

/-- The shown characters of a text that starts at a place. -/
def plainFrom (m : Medium) (e : Escape) : Text → Text
  | [] => []
  | c :: rest =>
    let (next, shown) := e.step m c
    if shown then c :: plainFrom m next rest else plainFrom m next rest

def plain (m : Medium) (t : Text) : Text := plainFrom m .outside t

/-- The first line of a text, without the newline or the carriage return and newline that end it. -/
def firstLine : Text → Text
  | [] => []
  | '\n' :: _ => []
  | '\r' :: '\n' :: _ => []
  | c :: rest => c :: firstLine rest

end Chomsky.Text
