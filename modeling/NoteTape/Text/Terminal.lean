/-
  NoteTape.Text.Terminal

  A text with control sequences, which set colours and the like, as it is shown
  where no terminal reads it: the sequences are left out, and with them all
  control characters that are not white space.

    * `Mode` — how far a control sequence is read.
    * `Mode.next` — the mode behind one more character.
    * `shown` — what is left of a text.

  A sequence that the text breaks off swallows what follows it, up to the first
  character that can end it. White space inside a sequence is shown and text
  behind it too; the sequence goes on with the next control character that is not
  shown.
-/

import NoteTape.Text.Range

namespace NoteTape.Text.Terminal

/-- How far a control sequence is read. -/
inductive Mode where
  /-- No sequence is open. -/
  | text
  /-- Behind the escape character. -/
  | escape
  | escapeIntermediate
  /-- Behind what introduces a control sequence: its parameters, if it has some,
      then intermediate characters, then the one that ends it. -/
  | control
  | controlParameter
  | controlIntermediate
  /-- A control sequence out of order, of which only the end is looked for. -/
  | controlIgnored
  /-- Behind what introduces a device control string, which begins alike. -/
  | device
  | deviceParameter
  | deviceIntermediate
  /-- Inside the data of a device control string. -/
  | deviceData
  /-- Inside a string of no meaning. -/
  | message
  /-- Inside an operating system command, which a bell ends. -/
  | command
  deriving DecidableEq, Repr, Inhabited

/-- Whether a character ends every sequence. -/
def cancels (c : Char) : Bool := c = '\x18' || c = '\x1a'

/-- Whether a character ends a string: the encoding of it holds the byte of the
    string terminator. -/
def terminates (c : Char) : Bool := (String.utf8EncodeChar c).contains 0x9c

/-- Whether a control character is white space. -/
def isWhite (c : Char) : Bool := c = '\t' || c = '\n' || c = '\x0c' || c = '\r'

/-- Whether a character is shown where no sequence is open. -/
def isShown (c : Char) : Bool := within 0x20 0x7e c || 0x80 ≤ c.toNat || isWhite c

namespace Mode

/-- The mode behind one more character. -/
def next (m : Mode) (c : Char) : Mode :=
  if cancels c then .text
  else if c = '\x1b' then .escape
  else match m with
    | .text => .text
    | .escape =>
      if within 0x20 0x2f c then .escapeIntermediate
      else if c = '[' then .control
      else if c = ']' then .command
      else if c = 'P' then .device
      else if c = 'X' || c = '^' || c = '_' then .message
      else if within 0x30 0x7e c then .text
      else .escape
    | .escapeIntermediate => if within 0x30 0x7e c then .text else .escapeIntermediate
    | .control =>
      if within 0x20 0x2f c then .controlIntermediate
      else if within 0x30 0x3f c then .controlParameter
      else if within 0x40 0x7e c then .text
      else .control
    | .controlParameter =>
      if within 0x20 0x2f c then .controlIntermediate
      else if within 0x3c 0x3f c then .controlIgnored
      else if within 0x40 0x7e c then .text
      else .controlParameter
    | .controlIntermediate =>
      if within 0x30 0x3f c then .controlIgnored
      else if within 0x40 0x7e c then .text
      else .controlIntermediate
    | .controlIgnored => if within 0x40 0x7e c then .text else .controlIgnored
    | .device =>
      if within 0x20 0x2f c then .deviceIntermediate
      else if within 0x30 0x3f c then .deviceParameter
      else if within 0x40 0x7e c then .deviceData
      else .device
    | .deviceParameter =>
      if within 0x20 0x2f c then .deviceIntermediate
      else if within 0x3c 0x7e c then .deviceData
      else .deviceParameter
    | .deviceIntermediate =>
      if within 0x30 0x7e c then .deviceData else .deviceIntermediate
    | .deviceData => if terminates c then .text else .deviceData
    | .message => if terminates c then .text else .message
    | .command => if c = '\x07' then .text else .command

/-- Whether a character is shown where a sequence is read so far. -/
def shows (m : Mode) (c : Char) : Bool :=
  match m with
  | .text => isShown c
  | .escape | .escapeIntermediate | .control | .controlParameter | .controlIntermediate
  | .controlIgnored => isWhite c
  | .device | .deviceParameter | .deviceIntermediate | .deviceData | .message
  | .command => false

/-- The mode behind a character that is read as text although a sequence may be
    open: only the characters that end or begin one change it, and those outside
    ASCII, which end it. -/
def nextInText (m : Mode) (c : Char) : Mode :=
  if cancels c || c = '\x1b' then Mode.text.next c
  else if 0x80 ≤ c.toNat then .text
  else m

end Mode

/-- What is shown of a text so far. -/
structure Display where
  mode : Mode := .text
  /-- Whether characters are read as text until one is not shown. -/
  inText : Bool := false
  /-- What is shown, the last character first. -/
  reversed : List Char := []
  deriving DecidableEq, Repr, Inhabited

/-- The display behind one more character. -/
def Display.put (d : Display) (c : Char) : Display :=
  if d.inText then
    let mode := d.mode.nextInText c
    if isShown c then { d with mode, reversed := c :: d.reversed }
    else { d with mode := mode.next c, inText := false }
  else if d.mode.shows c then
    { mode := d.mode.next c, inText := true, reversed := c :: d.reversed }
  else { d with mode := d.mode.next c }

/-- What is left of a text where no terminal reads it. -/
def shown (text : String) : String :=
  String.ofList (text.toList.foldl Display.put {}).reversed.reverse

end NoteTape.Text.Terminal
