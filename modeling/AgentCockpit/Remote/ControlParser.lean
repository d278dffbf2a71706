import Mathlib.Data.List.Infix

/-!
# The tmux control-mode parser

A streaming parser of the line protocol tmux speaks on a control client's stdout: `%`
notifications, and reply blocks between `%begin` and `%end` or `%error`. The parser holds
the unterminated rest of a line and the open reply block. Of a notification other than a
reply and `%exit` only its line is kept.
-/

namespace AgentCockpit.Remote

/-- Text as the parser sees it, one character for each byte. -/
abbrev Text := List Char

/-- A reply block; a number tmux did not write is `-1`. -/
structure CommandReply where
  num : ℤ
  error : Bool
  lines : List Text
  deriving DecidableEq, Repr

inductive TmuxNotification
  | reply (reply : CommandReply)
  | exit (reason : Option Text)
  | other (line : Text)
  deriving DecidableEq, Repr

structure OpenReply where
  num : ℤ
  lines : List Text := []
  deriving DecidableEq, Repr

structure TmuxControlParser where
  /-- Text received but not yet terminated by a newline. -/
  buffer : Text := []
  openReply : Option OpenReply := none
  deriving DecidableEq, Repr

/-- Remove the occurrences of `pattern`, from left to right; the first `skip` characters
belong to one already found. -/
def eraseAll (pattern : Text) : ℕ → Text → Text
  | _, [] => []
  | skip + 1, _ :: rest => eraseAll pattern skip rest
  | 0, c :: rest =>
    if pattern.isPrefixOf (c :: rest) then eraseAll pattern (pattern.length - 1) rest
    else c :: eraseAll pattern 0 rest

/-- The control-mode wrapper: its introducer on attach, its terminator on detach. -/
def stripDcsWrapper (text : Text) : Text :=
  eraseAll "\x1b\\".toList 0 (eraseAll "\x1bP1000p".toList 0 text)

/-- Drop the carriage return of a line. -/
def dropCarriageReturn (line : Text) : Text :=
  if line.getLast? = some '\r' then line.dropLast else line

/-- The second token of a block header, as a number. -/
def replyNumber (rest : Text) : ℤ :=
  (((rest.splitOn ' ')[1]?).bind fun token => (String.ofList token).toInt?).getD (-1)

namespace TmuxControlParser

/-- A line outside a reply block. -/
def handleNotification (parser : TmuxControlParser) (line : Text) :
    TmuxControlParser × List TmuxNotification :=
  if line.head? = some '%' then
    let tag := line.takeWhile (· ≠ ' ')
    let rest := (line.dropWhile (· ≠ ' ')).drop 1
    if tag = "%begin".toList then ({ parser with openReply := some { num := replyNumber rest } },
      [])
    else if tag = "%exit".toList then
      (parser, [.exit (if 0 < rest.length then some rest else none)])
    else (parser, [.other line])
  else (parser, [])

/-- One complete line. An `%exit` within a block closes the block as an error. -/
def handleLine (parser : TmuxControlParser) (line : Text) :
    TmuxControlParser × List TmuxNotification :=
  match parser.openReply with
  | none => parser.handleNotification line
  | some reply =>
    if "%end ".toList.isPrefixOf line ∨ "%error ".toList.isPrefixOf line then
      ({ parser with openReply := none },
        [.reply ⟨reply.num, "%error ".toList.isPrefixOf line, reply.lines⟩])
    else if line = "%exit".toList ∨ "%exit ".toList.isPrefixOf line then
      let (parser, notifications) :=
        { parser with openReply := none : TmuxControlParser }.handleNotification line
      (parser, .reply ⟨reply.num, true, reply.lines⟩ :: notifications)
    else
      ({ parser with openReply := some { reply with lines := reply.lines ++ [line] } }, [])

/-- Complete lines in order. -/
def handleLines (parser : TmuxControlParser) : List Text →
    TmuxControlParser × List TmuxNotification
  | [] => (parser, [])
  | line :: lines =>
    let (parser, first) := parser.handleLine (dropCarriageReturn line)
    let (parser, rest) := handleLines parser lines
    (parser, first ++ rest)

/-- The notifications that a chunk completes; a partial last line is retained. -/
def feed (parser : TmuxControlParser) (chunk : Text) :
    TmuxControlParser × List TmuxNotification :=
  let pieces := (stripDcsWrapper (parser.buffer ++ chunk)).splitOn '\n'
  { parser with buffer := pieces.getLast?.getD [] }.handleLines pieces.dropLast

/-- Chunks in order. -/
def read (parser : TmuxControlParser) : List Text → TmuxControlParser × List TmuxNotification
  | [] => (parser, [])
  | chunk :: chunks =>
    let (parser, first) := parser.feed chunk
    let (parser, rest) := read parser chunks
    (parser, first ++ rest)

theorem read_append (parser : TmuxControlParser) (chunks more : List Text) :
    parser.read (chunks ++ more) =
      (((parser.read chunks).1.read more).1,
        (parser.read chunks).2 ++ ((parser.read chunks).1.read more).2) := by
  induction chunks generalizing parser with
  | nil => rfl
  | cons chunk chunks ih =>
    simp only [List.cons_append, read, ih, List.append_assoc]

theorem read_concat (parser : TmuxControlParser) (chunks : List Text) (chunk : Text) :
    parser.read (chunks ++ [chunk]) =
      (((parser.read chunks).1.feed chunk).1,
        (parser.read chunks).2 ++ ((parser.read chunks).1.feed chunk).2) := by
  rw [read_append]
  simp [read]

end TmuxControlParser

/-- The reply of a notification, if it is one. -/
def TmuxNotification.reply? : TmuxNotification → Option CommandReply
  | .reply answer => some answer
  | _ => none

/-- The replies that a fresh parser reads off a list of chunks. -/
def repliesOf (chunks : List Text) : List CommandReply :=
  (({} : TmuxControlParser).read chunks).2.filterMap (·.reply?)

/-- The replies of more chunks begin with the replies of fewer. -/
theorem repliesOf_append (chunks more : List Text) :
    repliesOf chunks <+: repliesOf (chunks ++ more) := by
  rw [repliesOf, repliesOf, TmuxControlParser.read_append, List.filterMap_append]
  exact List.prefix_append _ _

end AgentCockpit.Remote
