import AgentCockpit.Remote.ReplyFraming

/-!
# Chunk boundaries of the control-mode stream

The parser removes the control-mode wrapper from the retained text and the new chunk together, so
that a wrapper cut in two is still seen. Removing text brings its neighbours together, and these
could form another wrapper, which one pass over the whole stream leaves alone and a later chunk
removes. Nothing of the kind happens when wrappers stand at the start of a line only, where tmux
writes them.
-/

namespace AgentCockpit.Remote

/-! ### Removing a pattern -/

section EraseAll

variable {pattern first rest : Text} {c : Char}

theorem eraseAll_skip (pattern : Text) (found rest : Text) :
    eraseAll pattern found.length (found ++ rest) = eraseAll pattern 0 rest := by
  induction found with
  | nil => rfl
  | cons c found ih => exact ih

/-- An occurrence at the front is removed. -/
theorem eraseAll_append_self (hne : pattern ≠ []) (rest : Text) :
    eraseAll pattern 0 (pattern ++ rest) = eraseAll pattern 0 rest := by
  obtain ⟨head, tail, rfl⟩ := List.exists_cons_of_ne_nil hne
  have hfound : (head :: tail).isPrefixOf (head :: (tail ++ rest)) = true :=
    List.isPrefixOf_iff_prefix.mpr ⟨rest, rfl⟩
  rw [List.cons_append, eraseAll, if_pos hfound]
  exact eraseAll_skip _ tail rest

/-- Two texts of which no occurrence has a part each are erased on their own. -/
theorem eraseAll_append_of_whole (hne : pattern ≠ [])
    (hwhole : ∀ piece, piece ≠ [] → piece <:+ first → pattern <+: piece ++ rest →
      pattern <+: piece) :
    eraseAll pattern 0 (first ++ rest) = eraseAll pattern 0 first ++ eraseAll pattern 0 rest := by
  induction hlength : first.length using Nat.strong_induction_on generalizing first with
  | _ length ih =>
    cases first with
    | nil => rfl
    | cons c first =>
      by_cases hfound : pattern <+: c :: first
      · -- the occurrence lies within the first part, which goes on behind it
        obtain ⟨later, hlater⟩ := hfound
        have hshort : later.length < length := by
          have := congrArg List.length hlater
          have := List.length_pos_of_ne_nil hne
          simp only [List.length_append] at *
          omega
        rw [← hlater, List.append_assoc, eraseAll_append_self hne, eraseAll_append_self hne]
        refine ih _ hshort (fun piece hpiece hsuffix => hwhole piece hpiece ?_) rfl
        exact hsuffix.trans ⟨pattern, hlater⟩
      · have hnot : ¬ pattern <+: c :: (first ++ rest) := fun hlong =>
          hfound (hwhole _ (List.cons_ne_nil _ _) List.suffix_rfl hlong)
        rw [← List.isPrefixOf_iff_prefix] at hfound hnot
        rw [List.cons_append, eraseAll, if_neg hnot, eraseAll, if_neg hfound, List.cons_append]
        refine congrArg (c :: ·) (ih first.length (by simp [← hlength])
          (fun piece hpiece hsuffix => hwhole piece hpiece ?_) rfl)
        exact hsuffix.trans (List.suffix_cons c first)

/-- A text that does not end inside an occurrence is cut off cleanly. -/
theorem eraseAll_append (hne : pattern ≠ [])
    (hend : ∀ partial_, partial_ <+: pattern → partial_ ≠ pattern → partial_ <:+ first →
      partial_ = []) :
    eraseAll pattern 0 (first ++ rest) = eraseAll pattern 0 first ++ eraseAll pattern 0 rest := by
  refine eraseAll_append_of_whole hne fun piece hpiece hsuffix hlong => ?_
  rcases List.prefix_or_prefix_of_prefix hlong (List.prefix_append piece rest) with hshort | hcut
  · exact hshort
  · by_contra hnot
    refine hpiece (hend piece hcut ?_ hsuffix)
    rintro rfl
    exact hnot List.prefix_rfl

/-- A character that is not of the pattern separates its occurrences. -/
theorem eraseAll_append_cons (hne : pattern ≠ []) (hc : c ∉ pattern) :
    eraseAll pattern 0 (first ++ c :: rest) =
      eraseAll pattern 0 first ++ c :: eraseAll pattern 0 rest := by
  have hseparates (piece : Text) (hlong : pattern <+: piece ++ c :: rest) : pattern <+: piece := by
    rcases List.prefix_or_prefix_of_prefix hlong (List.prefix_append piece _) with h | ⟨more, rfl⟩
    · exact h
    · rw [List.prefix_append_right_inj] at hlong
      cases more with
      | nil => simp
      | cons d more =>
        obtain ⟨rfl, -⟩ := List.cons_prefix_cons.mp hlong
        simp at hc
  have hnot : ¬ pattern.isPrefixOf (c :: rest) = true := fun hfound =>
    hne (List.prefix_nil.mp (hseparates [] (List.isPrefixOf_iff_prefix.mp hfound)))
  have hcons : eraseAll pattern 0 (c :: rest) = c :: eraseAll pattern 0 rest := by
    rw [eraseAll, if_neg hnot]
  rw [eraseAll_append_of_whole hne fun piece _ _ => hseparates piece, hcons]

end EraseAll

/-! ### Line starts -/

/-- What `ESC P 1000 p` and `ESC \` are made of. -/
abbrev dcsIntroducer : Text := "\x1bP1000p".toList

abbrev dcsTerminator : Text := "\x1b\\".toList

/-- The text ends at the start of a line: of the stream, after a newline, or behind wrappers that
stand at one. -/
inductive LineStart : Text → Prop
  | start : LineStart []
  | newline (before : Text) : LineStart (before ++ ['\n'])
  | introducer {before : Text} (h : LineStart before) : LineStart (before ++ dcsIntroducer)
  | terminator {before : Text} (h : LineStart before) : LineStart (before ++ dcsTerminator)

/-- Every wrapper of the text stands at the start of a line. -/
def WrappersAtLineStarts (text : Text) : Prop :=
  ∀ before wrapper after, wrapper = dcsIntroducer ∨ wrapper = dcsTerminator →
    text = before ++ wrapper ++ after → LineStart before

theorem WrappersAtLineStarts.of_append {text rest : Text}
    (h : WrappersAtLineStarts (text ++ rest)) : WrappersAtLineStarts text := by
  intro before wrapper after hwrapper htext
  exact h before wrapper (after ++ rest) hwrapper (by rw [htext, List.append_assoc])

/-- A stream as tmux writes it: the introducer on attach, lines without an escape character, the
terminator on detach. -/
theorem wrappersAtLineStarts_wrapped {body : Text} (hbody : '\x1b' ∉ body)
    (hlines : body.getLast? = some '\n') :
    WrappersAtLineStarts (dcsIntroducer ++ body ++ dcsTerminator) := by
  obtain ⟨lines, rfl⟩ := List.getLast?_eq_some_iff.mp hlines
  intro before wrapper after hwrapper htext
  obtain ⟨tail, rfl⟩ : ∃ tail, wrapper = '\x1b' :: tail := by
    rcases hwrapper with rfl | rfl <;> exact ⟨_, rfl⟩
  cases before with
  | nil => exact .start
  | cons c before =>
    have hrest : "P1000p".toList ++ (lines ++ ['\n']) ++ '\x1b' :: ['\\'] =
        before ++ '\x1b' :: (tail ++ after) := by
      have hcons : '\x1b' :: ("P1000p".toList ++ (lines ++ ['\n']) ++ '\x1b' :: ['\\']) =
          c :: (before ++ '\x1b' :: (tail ++ after)) :=
        htext.trans (List.append_assoc (c :: before) ('\x1b' :: tail) after)
      exact (List.cons.inj hcons).2
    obtain ⟨rfl, -, -⟩ := (List.append_cons_inj_of_notMem (by
      rw [List.mem_append, not_or]
      exact ⟨by decide, hbody⟩) (by decide)).mp hrest
    rw [← List.cons_append, ← List.append_assoc]
    exact .newline _

namespace LineStart

variable {before : Text}

theorem getLast? (h : LineStart before) :
    before = [] ∨ before.getLast? ∈ [some '\n', some 'p', some '\\'] := by
  cases h with
  | start => exact .inl rfl
  | newline before => simp
  | introducer => exact .inr (by rw [List.getLast?_append_of_ne_nil _ (by decide)]; decide)
  | terminator => exact .inr (by rw [List.getLast?_append_of_ne_nil _ (by decide)]; decide)

/-- No wrapper that begins before a line start reaches beyond it. -/
theorem not_inside (h : LineStart before) {pattern piece : Text}
    (hpattern : pattern = dcsIntroducer ∨ pattern = dcsTerminator) (hpiece : piece <+: pattern)
    (hproper : piece ≠ pattern) (hsuffix : piece <:+ before) : piece = [] := by
  -- a wrapper that is not complete does not end in the last character of a line or a wrapper
  have hends : ∀ piece ∈ pattern.inits, piece ≠ pattern →
      piece.getLast? ∉ [some '\n', some 'p', some '\\'] := by
    rcases hpattern with rfl | rfl <;> decide
  have hlast := hends piece ((List.mem_inits piece pattern).mpr hpiece) hproper
  rcases h.getLast? with rfl | hchar
  · exact List.suffix_nil.mp hsuffix
  · obtain ⟨front, rfl⟩ := hsuffix
    by_contra hne
    rw [List.getLast?_append_of_ne_nil _ hne] at hchar
    exact hlast hchar

theorem eraseAll_append (h : LineStart before) {pattern : Text}
    (hpattern : pattern = dcsIntroducer ∨ pattern = dcsTerminator) (rest : Text) :
    eraseAll pattern 0 (before ++ rest) =
      eraseAll pattern 0 before ++ eraseAll pattern 0 rest := by
  have hne : pattern ≠ [] := by rcases hpattern with rfl | rfl <;> decide
  exact Remote.eraseAll_append hne fun _ hpiece hproper hsuffix =>
    h.not_inside hpattern hpiece hproper hsuffix

/-- Without the introducers it is a line start still. -/
theorem eraseIntroducer (h : LineStart before) : LineStart (eraseAll dcsIntroducer 0 before) := by
  induction h with
  | start => exact .start
  | newline before =>
    rw [eraseAll_append_cons (by decide) (by decide)]
    exact .newline _
  | introducer h ih =>
    rw [h.eraseAll_append (.inl rfl), show eraseAll dcsIntroducer 0 dcsIntroducer = [] by decide,
      List.append_nil]
    exact ih
  | terminator h ih =>
    rw [h.eraseAll_append (.inl rfl),
      show eraseAll dcsIntroducer 0 dcsTerminator = dcsTerminator by decide]
    exact ih.terminator

/-- The wrapper is removed on both sides of a line start. -/
theorem stripDcsWrapper_append (h : LineStart before) (rest : Text) :
    stripDcsWrapper (before ++ rest) = stripDcsWrapper before ++ stripDcsWrapper rest := by
  simp only [stripDcsWrapper]
  rw [h.eraseAll_append (.inl rfl), h.eraseIntroducer.eraseAll_append (.inr rfl)]

/-- What the parser keeps of a text up to a line start is complete lines. -/
theorem stripDcsWrapper_ends (h : LineStart before) :
    stripDcsWrapper before = [] ∨ (stripDcsWrapper before).getLast? = some '\n' := by
  induction h with
  | start => exact .inl rfl
  | newline before =>
    simp only [stripDcsWrapper]
    rw [eraseAll_append_cons (by decide) (by decide), eraseAll_append_cons (by decide) (by decide)]
    exact .inr (List.getLast?_concat ..)
  | introducer h ih =>
    rw [h.stripDcsWrapper_append, show stripDcsWrapper dcsIntroducer = [] by decide,
      List.append_nil]
    exact ih
  | terminator h ih =>
    rw [h.stripDcsWrapper_append, show stripDcsWrapper dcsTerminator = [] by decide,
      List.append_nil]
    exact ih

end LineStart

/-- A text ends in a piece of a line that has no wrapper in it. -/
theorem WrappersAtLineStarts.exists_lineStart {text : Text} (h : WrappersAtLineStarts text) :
    ∃ before line, text = before ++ line ∧ LineStart before ∧ Bare line ∧ '\n' ∉ line := by
  induction text using List.reverseRecOn with
  | nil => exact ⟨[], [], rfl, .start, ⟨by decide, by decide⟩, by simp⟩
  | append_singleton text c ih =>
    obtain ⟨before, line, rfl, hbefore, hbare, hline⟩ := ih h.of_append
    by_cases hc : c = '\n'
    · subst hc
      exact ⟨_, [], (List.append_nil _).symm, .newline _, ⟨by decide, by decide⟩, by simp⟩
    by_cases hwrapper : dcsIntroducer <:+ line ++ [c] ∨ dcsTerminator <:+ line ++ [c]
    · -- the character completes a wrapper, and the line begins anew behind it
      refine ⟨before ++ line ++ [c], [], (List.append_nil _).symm, ?_,
        ⟨by decide, by decide⟩, by simp⟩
      rw [List.append_assoc]
      rcases hwrapper with ⟨front, hfront⟩ | ⟨front, hfront⟩
      · rw [← hfront, ← List.append_assoc]
        refine .introducer (h _ dcsIntroducer [] (.inl rfl) ?_)
        rw [List.append_assoc, ← hfront, List.append_nil, List.append_assoc]
      · rw [← hfront, ← List.append_assoc]
        refine .terminator (h _ dcsTerminator [] (.inr rfl) ?_)
        rw [List.append_assoc, ← hfront, List.append_nil, List.append_assoc]
    · obtain ⟨hintroducer, hterminator⟩ := not_or.mp hwrapper
      refine ⟨before, line ++ [c], List.append_assoc .., hbefore, ⟨?_, ?_⟩, ?_⟩
      · rw [List.infix_concat_iff]
        exact not_or.mpr ⟨hintroducer, hbare.1⟩
      · rw [List.infix_concat_iff]
        exact not_or.mpr ⟨hterminator, hbare.2⟩
      · simp [hline, Ne.symm hc]

/-! ### Chunks -/

/-- Complete lines are split off in front of the rest. -/
theorem splitOn_complete {complete : Text}
    (h : complete = [] ∨ complete.getLast? = some '\n') (rest : Text) :
    (complete ++ rest).splitOn '\n' =
      (complete.splitOn '\n').dropLast ++ rest.splitOn '\n' := by
  rcases h with rfl | h
  · simp
  · obtain ⟨front, rfl⟩ := List.getLast?_eq_some_iff.mp h
    rw [List.append_assoc, List.singleton_append, List.splitOn_append_cons_self,
      List.splitOn_append_cons_self, List.splitOn_nil, List.dropLast_concat]

/-- The complete lines of a text that ends at the start of a line. -/
def completeLines (before : Text) : List Text := ((stripDcsWrapper before).splitOn '\n').dropLast

namespace TmuxControlParser

variable {parser : TmuxControlParser} {before : Text}

/-- A chunk is handled as the lines up to a line start and what comes behind. -/
theorem feed_of_lineStart (h : LineStart before) {chunk rest : Text}
    (htext : parser.buffer ++ chunk = before ++ rest) :
    parser.feed chunk =
      ((({ parser with buffer := [] }.handleLines (completeLines before)).1.feed rest).1,
        ({ parser with buffer := [] }.handleLines (completeLines before)).2 ++
          (({ parser with buffer := [] }.handleLines (completeLines before)).1.feed rest).2) := by
  have hne := List.splitOn_ne_nil '\n' (stripDcsWrapper rest)
  simp only [feed, htext, h.stripDcsWrapper_append, splitOn_complete h.stripDcsWrapper_ends,
    List.dropLast_append_of_ne_nil hne, List.getLast?_append_of_ne_nil _ hne, handleLines_append,
    handleLines_buffer, List.nil_append, completeLines]

/-- A piece of a line is only retained. -/
theorem feed_piece (parser : TmuxControlParser) {piece : Text} (hbuffer : parser.buffer = [])
    (hbare : Bare piece) (hpiece : '\n' ∉ piece) :
    parser.feed piece = ({ parser with buffer := piece }, []) := by
  simp only [feed, hbuffer, List.nil_append, hbare.strip,
    List.splitOn_eq_singleton hpiece]
  rfl

/-- A chunk may be cut in two where no line before the cut has a wrapper in its midst. -/
theorem feed_append_of_wrappersAtLineStarts {first : Text}
    (h : WrappersAtLineStarts (parser.buffer ++ first)) (rest : Text) :
    parser.feed (first ++ rest) =
      (((parser.feed first).1.feed rest).1,
        (parser.feed first).2 ++ ((parser.feed first).1.feed rest).2) := by
  obtain ⟨before, line, htext, hbefore, hbare, hline⟩ := h.exists_lineStart
  have hfirst := feed_of_lineStart hbefore htext
  have hwhole : parser.buffer ++ (first ++ rest) = before ++ (line ++ rest) := by
    rw [← List.append_assoc, htext, List.append_assoc]
  have hnil : ({ parser with buffer := [] }.handleLines (completeLines before)).1.buffer = [] := by
    rw [handleLines_buffer]
  rw [feed_piece _ hnil hbare hline] at hfirst
  rw [hfirst, feed_of_lineStart hbefore hwhole]
  generalize ({ parser with buffer := [] }.handleLines (completeLines before)).1 = reader at hnil
  simp only [feed, hnil, List.nil_append, List.append_nil]

end TmuxControlParser

/-- Wherever the wrapper stands at the start of a line only, a stream that comes in chunks yields
the notifications, the retained text and the open reply that it yields in one piece. -/
theorem read_chunk_boundaries (chunks : List Text) (h : WrappersAtLineStarts chunks.flatten) :
    ({} : TmuxControlParser).read chunks = ({} : TmuxControlParser).feed chunks.flatten := by
  induction chunks using List.reverseRecOn with
  | nil => decide
  | append_singleton chunks chunk ih =>
    rw [List.flatten_append, List.flatten_singleton] at h ⊢
    rw [TmuxControlParser.read_concat, ih h.of_append,
      TmuxControlParser.feed_append_of_wrappersAtLineStarts h.of_append]

/-- A session with one reply, cut within both wrappers and between the two characters that end a
line. -/
theorem read_chunk_boundaries_session :
    ({} : TmuxControlParser).read
        ["\x1bP10".toList, "00p%begin 1 7 0\r".toList, "\nhi\r\n%e".toList,
          "nd 1 7 0\r\n\x1b".toList, "\\".toList] =
      ({} : TmuxControlParser).feed
        ["\x1bP10".toList, "00p%begin 1 7 0\r".toList, "\nhi\r\n%e".toList,
          "nd 1 7 0\r\n\x1b".toList, "\\".toList].flatten :=
  read_chunk_boundaries _ (@wrappersAtLineStarts_wrapped
    "%begin 1 7 0\r\nhi\r\n%end 1 7 0\r\n".toList (by decide) (by decide))

/-- In the midst of a line the boundaries do matter: here the first removal makes a terminator of
its neighbours, which only a parser that is called again removes. -/
example :
    ({} : TmuxControlParser).read ["%\x1b\x1b\\".toList, "\\\n".toList] =
        ({}, [.other ['%']]) ∧
      ({} : TmuxControlParser).feed "%\x1b\x1b\\\\\n".toList =
        ({}, [.other "%\x1b\\".toList]) := by
  decide

end AgentCockpit.Remote
