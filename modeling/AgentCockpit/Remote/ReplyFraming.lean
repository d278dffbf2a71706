import Mathlib
import AgentCockpit.Core.Joined
import AgentCockpit.Remote.ControlParser

/-!
# Reply blocks of the control-mode stream

What the parser makes of one reply block: a `%begin` line, the body and a closing line with the
same time, number and flags. The stream may be cut into chunks anywhere. A body line that looks
like a closing line, or that contains a piece of the control-mode wrapper, is not told apart from
one; a body line that is `%exit` ends the block, because a server that is torn down sends no
closing line.
-/

namespace AgentCockpit.Remote

open AgentCockpit.Core

/-! ### Text -/

/-- Removing a pattern that does not occur changes nothing. -/
theorem eraseAll_eq_self {pattern text : Text} (h : ¬ pattern <:+: text) :
    eraseAll pattern 0 text = text := by
  induction text with
  | nil => rfl
  | cons c rest ih =>
    have hpre : pattern.isPrefixOf (c :: rest) = false := by
      by_contra hnot
      have hpre := List.isPrefixOf_iff_prefix.mp (Bool.eq_true_of_not_eq_false hnot)
      exact h hpre.isInfix
    rw [eraseAll, hpre, if_neg Bool.false_ne_true,
      ih fun hmatch => h (hmatch.trans (List.suffix_cons c rest).isInfix)]

/-- The text has no piece of the control-mode wrapper. -/
def Bare (text : Text) : Prop :=
  ¬ "\x1bP1000p".toList <:+: text ∧ ¬ "\x1b\\".toList <:+: text

theorem Bare.strip {text : Text} (h : Bare text) : stripDcsWrapper text = text := by
  rw [stripDcsWrapper, eraseAll_eq_self h.1, eraseAll_eq_self h.2]

theorem Bare.of_infix {text piece : Text} (h : Bare text) (hpiece : piece <:+: text) : Bare piece :=
  ⟨fun hmatch => h.1 (hmatch.trans hpiece), fun hmatch => h.2 (hmatch.trans hpiece)⟩

/-! ### The parser reads line by line -/

namespace TmuxControlParser

variable {parser : TmuxControlParser}

theorem handleNotification_buffer (parser : TmuxControlParser) (line buffer : Text) :
    { parser with buffer }.handleNotification line =
      ({ (parser.handleNotification line).1 with buffer }, (parser.handleNotification line).2) := by
  unfold handleNotification
  split
  · dsimp only
    split
    · rfl
    · split <;> rfl
  · rfl

/-- A line does not touch the unterminated rest. -/
theorem handleLine_buffer (parser : TmuxControlParser) (line buffer : Text) :
    { parser with buffer }.handleLine line =
      ({ (parser.handleLine line).1 with buffer }, (parser.handleLine line).2) := by
  obtain ⟨retained, openReply⟩ := parser
  cases openReply with
  | none => exact handleNotification_buffer ⟨retained, none⟩ line buffer
  | some reply =>
    unfold handleLine
    dsimp only
    split
    · rfl
    · split
      · rw [handleNotification_buffer ⟨retained, none⟩]
      · rfl

theorem handleLines_buffer (parser : TmuxControlParser) (lines : List Text) (buffer : Text) :
    { parser with buffer }.handleLines lines =
      ({ (parser.handleLines lines).1 with buffer }, (parser.handleLines lines).2) := by
  induction lines generalizing parser with
  | nil => rfl
  | cons line lines ih => simp only [handleLines, handleLine_buffer, ih]

/-- More lines are read after fewer. -/
theorem handleLines_append (parser : TmuxControlParser) (lines more : List Text) :
    parser.handleLines (lines ++ more) =
      (((parser.handleLines lines).1.handleLines more).1,
        (parser.handleLines lines).2 ++ ((parser.handleLines lines).1.handleLines more).2) := by
  induction lines generalizing parser with
  | nil => rfl
  | cons line lines ih => simp only [List.cons_append, handleLines, ih, List.append_assoc]

/-- Text without a piece of the wrapper may be cut in two. -/
theorem feed_append (first rest : Text) (hbare : Bare (parser.buffer ++ (first ++ rest))) :
    parser.feed (first ++ rest) =
      (((parser.feed first).1.feed rest).1,
        (parser.feed first).2 ++ ((parser.feed first).1.feed rest).2) := by
  rw [← List.append_assoc] at hbare
  simp only [feed, ← List.append_assoc]
  generalize parser.buffer ++ first = text at hbare
  have hfirst : Bare text := hbare.of_infix (List.prefix_append _ _).isInfix
  have hrest : Bare ((text.splitOn '\n').getLast?.getD [] ++ rest) := by
    obtain ⟨front, hfront⟩ := getLast_splitOn_suffix '\n' text
    refine hbare.of_infix (List.IsSuffix.isInfix ⟨front, ?_⟩)
    rw [← List.append_assoc, hfront]
  have hne := List.splitOn_ne_nil '\n' ((text.splitOn '\n').getLast?.getD [] ++ rest)
  rw [hbare.strip, hfirst.strip, splitOn_append, List.dropLast_append_of_ne_nil hne,
    List.getLast?_append_of_ne_nil _ hne, handleLines_append]
  simp only [handleLines_buffer, hrest.strip]

/-- What a chunk leaves unterminated is the end of the text so far. -/
theorem feed_buffer (chunk : Text) (hbare : Bare (parser.buffer ++ chunk)) :
    (parser.feed chunk).1.buffer <:+ parser.buffer ++ chunk := by
  simp only [feed, handleLines_buffer, hbare.strip]
  exact getLast_splitOn_suffix '\n' _

/-- Text without a piece of the wrapper may come in any chunks. -/
theorem read_flatten {chunks : List Text} (hbare : Bare (parser.buffer ++ chunks.flatten))
    (hchunks : chunks ≠ []) : parser.read chunks = parser.feed chunks.flatten := by
  induction chunks generalizing parser with
  | nil => exact absurd rfl hchunks
  | cons chunk chunks ih =>
    rw [List.flatten_cons] at hbare ⊢
    by_cases hlast : chunks = []
    · subst hlast
      simp [read]
    · have hrest : Bare ((parser.feed chunk).1.buffer ++ chunks.flatten) := by
        rw [← List.append_assoc] at hbare
        obtain ⟨front, hfront⟩ := feed_buffer chunk
          (hbare.of_infix (List.prefix_append _ _).isInfix)
        refine hbare.of_infix (List.IsSuffix.isInfix ⟨front, ?_⟩)
        rw [← List.append_assoc, hfront]
      simp only [feed_append _ _ hbare, read, ih hrest hlast]

end TmuxControlParser

/-! ### Blocks -/

/-- The time, the number and the flags of a block. -/
structure ReplyHeader where
  time : ℕ
  num : ℕ
  flags : ℕ
  deriving DecidableEq, Repr

def ReplyHeader.text (header : ReplyHeader) : Text :=
  (Nat.repr header.time).toList ++ ' ' ::
    ((Nat.repr header.num).toList ++ ' ' :: (Nat.repr header.flags).toList)

inductive LineEnding
  | lf
  | crlf
  deriving DecidableEq, Repr

/-- What stands before the newline. -/
def LineEnding.carriageReturn : LineEnding → Text
  | .lf => []
  | .crlf => ['\r']

def closingText (error : Bool) : Text := if error then "%error ".toList else "%end ".toList

/-- The lines of a reply block. -/
def blockLines (header : ReplyHeader) (error : Bool) (body : List Text) : List Text :=
  ("%begin ".toList ++ header.text) :: (body ++ [closingText error ++ header.text])

/-- Lines as tmux writes them. -/
def linesText (ending : LineEnding) (lines : List Text) : Text :=
  lines.flatMap fun line => line ++ (ending.carriageReturn ++ ['\n'])

/-- A line that the parser takes for the end of the client. -/
def IsExit (line : Text) : Prop := line = "%exit".toList ∨ "%exit ".toList <+: line

/-- A body line that does not look like a closing line, contains no piece of the wrapper, and
does not end in a carriage return that could be taken for a part of the line ending. -/
structure Framed (ending : LineEnding) (line : Text) : Prop where
  newline : '\n' ∉ line
  not_end : ¬ "%end ".toList <+: line
  not_error : ¬ "%error ".toList <+: line
  bare : Bare line
  return_ : ending = .lf → line.getLast? ≠ some '\r'

section Blocks

variable {ending : LineEnding} {header : ReplyHeader} {error : Bool}

/-- A pattern without the separator lies on one side of it. -/
theorem infix_append_cons {pattern front rest : Text} {sep : Char} (hsep : sep ∉ pattern)
    (h : pattern <:+: front ++ sep :: rest) : pattern <:+: front ∨ pattern <:+: rest := by
  obtain ⟨before, after, heq⟩ := h
  rcases List.append_eq_append_iff.mp heq with ⟨more, hfront, -⟩ | ⟨more, hpattern, hrest⟩
  · exact .inl ⟨before, more, hfront.symm⟩
  · cases more with
    | nil => exact .inl ⟨before, [], by simpa using hpattern⟩
    | cons c more =>
      obtain ⟨rfl, rfl⟩ := List.cons.inj hrest
      rcases List.append_eq_append_iff.mp hpattern with ⟨inner, hfront, hinner⟩ | ⟨inner, -, hinner⟩
      · exact absurd (hinner ▸ by simp) hsep
      · cases inner with
        | nil => exact absurd (by rw [← List.nil_append pattern, ← hinner]; simp) hsep
        | cons d inner =>
          obtain ⟨rfl, rfl⟩ := List.cons.inj hinner
          exact .inr ⟨inner, after, rfl⟩

theorem not_infix_linesText {pattern : Text} {lines : List Text} (hnewline : '\n' ∉ pattern)
    (hreturn : '\r' ∉ pattern) (hne : pattern ≠ [])
    (hlines : ∀ line ∈ lines, ¬ pattern <:+: line) : ¬ pattern <:+: linesText ending lines := by
  induction lines with
  | nil => exact fun h => hne (List.eq_nil_of_infix_nil h)
  | cons line lines ih =>
    have hline := hlines line List.mem_cons_self
    have hrest := ih fun later hlater => hlines later (List.mem_cons_of_mem _ hlater)
    intro h
    have hcons : linesText ending (line :: lines) =
        (line ++ ending.carriageReturn) ++ '\n' :: linesText ending lines := by
      simp [linesText]
    rw [hcons] at h
    rcases infix_append_cons hnewline h with hfirst | hlater
    · cases ending with
      | lf => exact hline (by simpa [LineEnding.carriageReturn] using hfirst)
      | crlf =>
        rcases infix_append_cons hreturn hfirst with hfirst | hnil
        · exact hline hfirst
        · exact hne (List.eq_nil_of_infix_nil hnil)
    · exact hrest hlater

/-- Lines without a piece of the wrapper make a text without one. -/
theorem bare_linesText {lines : List Text} (hlines : ∀ line ∈ lines, Bare line) :
    Bare (linesText ending lines) :=
  ⟨not_infix_linesText (by decide) (by decide) (by decide) fun line hline => (hlines line hline).1,
    not_infix_linesText (by decide) (by decide) (by decide) fun line hline => (hlines line hline).2⟩

theorem splitOn_linesText {lines : List Text} (hlines : ∀ line ∈ lines, '\n' ∉ line) :
    (linesText ending lines).splitOn '\n' =
      lines.map (· ++ ending.carriageReturn) ++ [[]] := by
  have htext : linesText ending lines =
      (lines.map (· ++ ending.carriageReturn)).flatMap (· ++ ['\n']) := by
    simp [linesText, List.flatMap_map]
  have hreturn : '\n' ∉ ending.carriageReturn := by cases ending <;> decide
  rw [htext, splitOn_flatMap_append]
  intro line hline
  obtain ⟨bare, hbare, rfl⟩ := List.mem_map.mp hline
  simp [hlines bare hbare, hreturn]

/-- Only the carriage return of the line ending is dropped. -/
theorem dropCarriageReturn_line {line : Text}
    (hline : ending = .lf → line.getLast? ≠ some '\r') :
    dropCarriageReturn (line ++ ending.carriageReturn) = line := by
  cases ending with
  | lf => simp [dropCarriageReturn, LineEnding.carriageReturn, hline rfl]
  | crlf => simp [dropCarriageReturn, LineEnding.carriageReturn]

/-- A fresh parser reads a text line by line, however it is cut. -/
theorem read_linesText {lines chunks : List Text} (hbare : ∀ line ∈ lines, Bare line)
    (hnewline : ∀ line ∈ lines, '\n' ∉ line) (hchunks : chunks.flatten = linesText ending lines)
    (hne : lines ≠ []) :
    ({} : TmuxControlParser).read chunks =
      ({} : TmuxControlParser).handleLines (lines.map (· ++ ending.carriageReturn)) := by
  have hsome : chunks ≠ [] := by
    rintro rfl
    obtain ⟨line, rest, rfl⟩ := List.exists_cons_of_ne_nil hne
    exact absurd hchunks (by simp [linesText])
  have htext : Bare (linesText ending lines) := bare_linesText hbare
  rw [TmuxControlParser.read_flatten (by rw [hchunks]; exact htext) hsome, hchunks]
  simp only [TmuxControlParser.feed, List.nil_append, htext.strip, splitOn_linesText hnewline,
    List.dropLast_concat, List.getLast?_concat, Option.getD_some]

/-! ### The header -/

theorem isDigit_of_mem_repr {n : ℕ} {c : Char} (h : c ∈ (Nat.repr n).toList) :
    c.isDigit = true := by
  rw [Nat.toList_repr] at h
  exact Nat.isDigit_of_mem_toDigits (by decide) (by decide) h

theorem mem_header {c : Char} (h : c ∈ header.text) : c.isDigit = true ∨ c = ' ' := by
  simp only [ReplyHeader.text, List.mem_append, List.mem_cons] at h
  rcases h with h | h | h | h | h
  · exact .inl (isDigit_of_mem_repr h)
  · exact .inr h
  · exact .inl (isDigit_of_mem_repr h)
  · exact .inr h
  · exact .inl (isDigit_of_mem_repr h)

/-- The parser reads the number of the header. -/
theorem replyNumber_header (header : ReplyHeader) : replyNumber header.text = header.num := by
  have hspace : ∀ n : ℕ, ' ' ∉ (Nat.repr n).toList := fun n h => nomatch isDigit_of_mem_repr h
  rw [replyNumber, ReplyHeader.text, List.splitOn_append_cons_self_of_not_mem (hspace _),
    List.splitOn_append_cons_self_of_not_mem (hspace _)]
  simp only [List.getElem?_cons_succ, List.getElem?_cons_zero, Option.bind_some,
    String.ofList_toList, Nat.toInt?_repr, Option.getD_some]

theorem bare_of_not_mem {text : Text} (h : '\x1b' ∉ text) : Bare text :=
  ⟨fun hmatch => h (hmatch.subset (by decide)), fun hmatch => h (hmatch.subset (by decide))⟩

/-- The first and the last line of a block are text as the parser expects it. -/
theorem framed_header {word : Text} (hescape : '\x1b' ∉ word) (hnewline : '\n' ∉ word) :
    Bare (word ++ header.text) ∧ '\n' ∉ word ++ header.text ∧
      (word ++ header.text).getLast? ≠ some '\r' := by
  have hheader : ∀ c, c ∈ header.text → c ≠ '\x1b' ∧ c ≠ '\n' ∧ c ≠ '\r' := fun c hc => by
    rcases mem_header hc with hdigit | rfl
    · refine ⟨?_, ?_, ?_⟩ <;> rintro rfl <;> exact nomatch hdigit
    · decide
  have hne : header.text ≠ [] := by simp [ReplyHeader.text]
  refine ⟨bare_of_not_mem fun h => ?_, fun h => ?_, fun h => ?_⟩
  · rcases List.mem_append.mp h with h | h
    · exact hescape h
    · exact (hheader _ h).1 rfl
  · rcases List.mem_append.mp h with h | h
    · exact hnewline h
    · exact (hheader _ h).2.1 rfl
  · rw [List.getLast?_append_of_ne_nil _ hne] at h
    exact (hheader _ (List.mem_of_getLast? h)).2.2 rfl

/-- The first line of a block is text as the parser expects it. -/
theorem framed_begin (header : ReplyHeader) :
    Bare ("%begin ".toList ++ header.text) ∧ '\n' ∉ "%begin ".toList ++ header.text ∧
      ("%begin ".toList ++ header.text).getLast? ≠ some '\r' :=
  framed_header (by decide) (by decide)

/-! ### The lines of a block -/

namespace TmuxControlParser

/-- The block that the parser is in. -/
def within (num : ℤ) (lines : List Text) : TmuxControlParser :=
  { openReply := some { num, lines } }

theorem handleLine_begin (header : ReplyHeader) :
    ({} : TmuxControlParser).handleLine ("%begin ".toList ++ header.text) =
      (within header.num [], []) := by
  have htext : "%begin ".toList ++ header.text =
      '%' :: 'b' :: 'e' :: 'g' :: 'i' :: 'n' :: ' ' :: header.text := rfl
  have htag : "%begin".toList = ['%', 'b', 'e', 'g', 'i', 'n'] := rfl
  rw [htext]
  simp [handleLine, handleNotification, htag, replyNumber_header, within]

theorem handleLine_body {num : ℤ} {lines : List Text} {line : Text} (hline : Framed ending line)
    (hexit : ¬ IsExit line) :
    (within num lines).handleLine line = (within num (lines ++ [line]), []) := by
  have hopen : ¬ ("%end ".toList.isPrefixOf line = true ∨
    "%error ".toList.isPrefixOf line = true) := by
    rw [List.isPrefixOf_iff_prefix, List.isPrefixOf_iff_prefix]
    rintro (h | h)
    · exact hline.not_end h
    · exact hline.not_error h
  have hstays : ¬ (line = "%exit".toList ∨ "%exit ".toList.isPrefixOf line = true) := by
    rw [List.isPrefixOf_iff_prefix]
    exact hexit
  simp only [handleLine, within, if_neg hopen, if_neg hstays]

theorem handleLine_closing (num : ℤ) (lines : List Text) (error : Bool) (text : Text) :
    (within num lines).handleLine (closingText error ++ text) =
      ({}, [.reply ⟨num, error, lines⟩]) := by
  cases error <;> rfl

/-- The lines of a body are kept in order. -/
theorem handleLines_body (num : ℤ) (lines : List Text) {body : List Text}
    (hbody : ∀ line ∈ body, Framed ending line) (hexit : ∀ line ∈ body, ¬ IsExit line) :
    (within num lines).handleLines (body.map (· ++ ending.carriageReturn)) =
      (within num (lines ++ body), []) := by
  induction body generalizing lines with
  | nil => simp [handleLines]
  | cons line body ih =>
    have hline := hbody line List.mem_cons_self
    have hrest := ih (lines ++ [line]) (fun later hlater =>
      hbody later (List.mem_cons_of_mem _ hlater))
      fun later hlater => hexit later (List.mem_cons_of_mem _ hlater)
    simp only [List.map_cons, handleLines, dropCarriageReturn_line hline.return_,
      handleLine_body hline (hexit line List.mem_cons_self), hrest, List.append_assoc,
      List.singleton_append, List.nil_append]

/-- A line that ends the client ends the block as an error. -/
theorem handleLine_exit (num : ℤ) (lines : List Text) {line : Text} (hexit : IsExit line) :
    ∃ reason, (within num lines).handleLine line =
      ({}, [.reply ⟨num, true, lines⟩, .exit reason]) := by
  rcases hexit with rfl | ⟨rest, rfl⟩
  · exact ⟨none, rfl⟩
  · have htext : "%exit ".toList ++ rest = '%' :: 'e' :: 'x' :: 'i' :: 't' :: ' ' :: rest := rfl
    have hbegin : "%begin".toList = ['%', 'b', 'e', 'g', 'i', 'n'] := rfl
    have htag : "%exit".toList = ['%', 'e', 'x', 'i', 't'] := rfl
    have hspace : "%exit ".toList = ['%', 'e', 'x', 'i', 't', ' '] := rfl
    have hend : "%end ".toList = ['%', 'e', 'n', 'd', ' '] := rfl
    have herror : "%error ".toList = ['%', 'e', 'r', 'r', 'o', 'r', ' '] := rfl
    rw [htext]
    exact ⟨if 0 < rest.length then some rest else none, by
      simp [handleLine, handleNotification, within, hbegin, htag, hspace, hend, herror]⟩

/-- The lines before the closing line of a block. -/
theorem handleLines_block (header : ReplyHeader) {body : List Text}
    (hbody : ∀ line ∈ body, Framed ending line) (hexit : ∀ line ∈ body, ¬ IsExit line) :
    ({} : TmuxControlParser).handleLines
        ((("%begin ".toList ++ header.text) :: body).map (· ++ ending.carriageReturn)) =
      (within header.num body, []) := by
  have hbegin := (framed_begin header).2.2
  simp only [List.map_cons, handleLines, dropCarriageReturn_line fun _ => hbegin,
    handleLine_begin, handleLines_body _ _ hbody hexit, List.nil_append]

end TmuxControlParser

/-- A closing line is text as the parser expects it. -/
theorem framed_closing (header : ReplyHeader) (error : Bool) :
    Bare (closingText error ++ header.text) ∧ '\n' ∉ closingText error ++ header.text ∧
      (closingText error ++ header.text).getLast? ≠ some '\r' := by
  cases error
  · exact framed_header (by decide) (by decide)
  · exact framed_header (by decide) (by decide)

/-- Every line of a block with a framed body is bare and free of newlines. -/
theorem bare_blockLines {body : List Text} (hbody : ∀ line ∈ body, Framed ending line) :
    ∀ line ∈ blockLines header error body, Bare line ∧ '\n' ∉ line := by
  intro line hline
  rcases List.mem_cons.mp hline with rfl | hline
  · exact ⟨(framed_begin header).1, (framed_begin header).2.1⟩
  · rcases List.mem_append.mp hline with hline | hline
    · exact ⟨(hbody line hline).bare, (hbody line hline).newline⟩
    · obtain rfl := List.mem_singleton.mp hline
      exact ⟨(framed_closing header error).1, (framed_closing header error).2.1⟩

/-- A block that comes in any chunks is read line by line. -/
theorem read_block {body chunks : List Text} (hbody : ∀ line ∈ body, Framed ending line)
    (hchunks : chunks.flatten = linesText ending (blockLines header error body)) :
    ({} : TmuxControlParser).read chunks =
      ({} : TmuxControlParser).handleLines
        ((blockLines header error body).map (· ++ ending.carriageReturn)) :=
  read_linesText (fun line hline => (bare_blockLines hbody line hline).1)
    (fun line hline => (bare_blockLines hbody line hline).2) hchunks (List.cons_ne_nil _ _)

end Blocks

/-- A block whose body has no line like a closing line and no piece of the wrapper is one reply
with exactly that body, however it is cut; a body line that ends the client closes the block as
an error with the lines before it. -/
theorem reply_framing (header : ReplyHeader) (error : Bool) (ending : LineEnding)
    (body chunks : List Text) (hbody : ∀ line ∈ body, Framed ending line)
    (hchunks : chunks.flatten = linesText ending (blockLines header error body)) :
    ((∀ line ∈ body, ¬ IsExit line) →
      ({} : TmuxControlParser).read chunks = ({}, [.reply ⟨header.num, error, body⟩])) ∧
    (∀ before line after, body = before ++ line :: after → (∀ kept ∈ before, ¬ IsExit kept) →
      IsExit line → ∃ reason rest, (({} : TmuxControlParser).read chunks).2 =
        .reply ⟨header.num, true, before⟩ :: .exit reason :: rest) := by
  rw [read_block hbody hchunks]
  constructor
  · intro hexit
    have hlast : dropCarriageReturn
        (closingText error ++ header.text ++ ending.carriageReturn) =
          closingText error ++ header.text :=
      dropCarriageReturn_line fun _ => (framed_closing header error).2.2
    rw [blockLines, ← List.cons_append, List.map_append,
      TmuxControlParser.handleLines_append, TmuxControlParser.handleLines_block header hbody hexit]
    simp only [List.map_cons, List.map_nil, TmuxControlParser.handleLines, hlast,
      TmuxControlParser.handleLine_closing, List.append_nil, List.nil_append]
  · rintro before line after rfl hbefore hexit
    have hline := hbody line (by simp)
    have hfront : ∀ kept ∈ before, Framed ending kept := fun kept hkept =>
      hbody kept (List.mem_append_left _ hkept)
    obtain ⟨reason, hreason⟩ := TmuxControlParser.handleLine_exit header.num before hexit
    rw [blockLines, List.append_assoc, ← List.cons_append, List.map_append,
      TmuxControlParser.handleLines_append,
      TmuxControlParser.handleLines_block header hfront hbefore]
    simp only [List.cons_append, List.map_cons, TmuxControlParser.handleLines,
      dropCarriageReturn_line hline.return_, hreason, List.nil_append]
    exact ⟨reason, _, rfl⟩

/-- A reply with two lines, cut in the middle of the first, and one that an exit line ends. -/
theorem reply_framing_two_lines :
    ({} : TmuxControlParser).read
        ["%begin 1 7 0\n%out".toList, "put %1\nbye\n%end 1 7 0\n".toList] =
      ({}, [.reply ⟨7, false, ["%output %1".toList, "bye".toList]⟩]) ∧
    ∃ reason rest, (({} : TmuxControlParser).read
        ["%begin 1 7 0\nbye\n%exit".toList, "\n%end 1 7 0\n".toList]).2 =
      .reply ⟨7, true, ["bye".toList]⟩ :: .exit reason :: rest := by
  have hframed : ∀ line ∈ ["%output %1".toList, "bye".toList, "%exit".toList],
      Framed .lf line := by
    intro line hline
    fin_cases hline
    all_goals exact ⟨by decide, by decide, by decide,
      bare_of_not_mem (by decide), fun _ => by decide⟩
  refine ⟨(reply_framing ⟨1, 7, 0⟩ false .lf ["%output %1".toList, "bye".toList] _
    (fun line hline => hframed line ?_) (by decide)).1 ?_,
    (reply_framing ⟨1, 7, 0⟩ false .lf ["bye".toList, "%exit".toList] _
      (fun line hline => hframed line ?_) (by decide)).2 ["bye".toList] "%exit".toList [] rfl ?_ ?_⟩
  · simp only [List.mem_cons] at hline ⊢
    tauto
  · intro line hline
    fin_cases hline
    all_goals simp [IsExit]
  · simp only [List.mem_cons] at hline ⊢
    tauto
  · intro line hline
    fin_cases hline
    simp [IsExit]
  · exact .inl rfl

/-- A body line `%exit` ends the block early. -/
theorem not_reply_framing :
    ¬ ∀ (header : ReplyHeader) (error : Bool) (ending : LineEnding) (body : List Text),
      (∀ line ∈ body, '\n' ∉ line) →
      ({} : TmuxControlParser).read [linesText ending (blockLines header error body)] =
        ({}, [.reply ⟨header.num, error, body⟩]) := by
  intro hframing
  have hread := hframing ⟨1, 7, 0⟩ false .lf ["%exit".toList] (by decide)
  have hlength := congrArg (·.2.length) hread
  exact absurd hlength (by decide)

end AgentCockpit.Remote
