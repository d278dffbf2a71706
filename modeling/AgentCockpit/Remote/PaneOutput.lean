import AgentCockpit.Remote.ChunkBoundaries

/-!
# Pane output on the control-mode stream

tmux sends the bytes of a pane in `%output` lines, or in `%extended-output` lines when the client
may pause a pane. Control bytes and the backslash are written as octal escapes, so that a payload
has no newline, no carriage return and no escape character, and neither the line framing nor the
removal of the wrapper touches it.
-/

namespace AgentCockpit.Remote

/-! ### Octal escapes -/

def isOctalDigit (c : Char) : Bool := '0' ≤ c && c ≤ '7'

/-- The value of a run of octal digits. -/
def octalValue (digits : Text) : ℕ :=
  digits.foldl (fun value digit => value * 8 + (digit.toNat - '0'.toNat)) 0

/-- Decode a payload; its first `skip` characters belong to an escape that was decoded. One to
three octal digits are an escape, and a backslash before anything else stands for itself. -/
def decodeFrom : ℕ → Text → List UInt8
  | _, [] => []
  | skip + 1, _ :: rest => decodeFrom skip rest
  | 0, c :: rest =>
    if c ≠ '\\' then .ofNat c.toNat :: decodeFrom 0 rest
    else if rest.head? = some '\\' then 0x5c :: decodeFrom 1 rest
    else
      let digits := (rest.take 3).takeWhile isOctalDigit
      if digits ≠ [] then .ofNat (octalValue digits) :: decodeFrom digits.length rest
      else 0x5c :: decodeFrom 0 rest

def decodeOutput (payload : Text) : List UInt8 := decodeFrom 0 payload

/-- A byte as tmux writes it. -/
def encodeByte (byte : UInt8) : Text :=
  if byte < 32 ∨ byte = 0x5c then
    ['\\', Nat.digitChar (byte.toNat / 64), Nat.digitChar (byte.toNat / 8 % 8),
      Nat.digitChar (byte.toNat % 8)]
  else [Char.ofNat byte.toNat]

def encodeOutput (bytes : List UInt8) : Text := bytes.flatMap encodeByte

theorem isOctalDigit_digitChar : ∀ {n : ℕ}, n < 8 → isOctalDigit (Nat.digitChar n) = true := by
  decide

theorem value_digitChar : ∀ {n : ℕ}, n < 8 → (Nat.digitChar n).toNat - '0'.toNat = n := by
  decide

theorem octalDigit_ne_backslash : ∀ {n : ℕ}, n < 8 → Nat.digitChar n ≠ '\\' := by
  decide

theorem toNat_latin1 (byte : UInt8) : (Char.ofNat byte.toNat).toNat = byte.toNat := by
  have hvalid : byte.toNat.isValidChar := .inl (by have := byte.toNat_lt; omega)
  rw [Char.ofNat, dif_pos hvalid]
  rfl

/-- One byte is decoded, whatever follows it. -/
theorem decodeFrom_encodeByte (byte : UInt8) (rest : Text) :
    decodeFrom 0 (encodeByte byte ++ rest) = byte :: decodeFrom 0 rest := by
  unfold encodeByte
  split
  next hescaped =>
    have hlt := byte.toNat_lt
    have hfirst : byte.toNat / 64 < 8 := by omega
    have hsecond : byte.toNat / 8 % 8 < 8 := by omega
    have hthird : byte.toNat % 8 < 8 := by omega
    have hvalue : ((0 * 8 + byte.toNat / 64) * 8 + byte.toNat / 8 % 8) * 8 + byte.toNat % 8 =
        byte.toNat := by omega
    simp only [List.cons_append, List.nil_append, decodeFrom, ne_eq, not_true_eq_false, if_false,
      List.head?_cons, Option.some.injEq, octalDigit_ne_backslash hfirst, List.take_succ_cons,
      List.take_zero, List.takeWhile_cons, isOctalDigit_digitChar hfirst,
      isOctalDigit_digitChar hsecond, isOctalDigit_digitChar hthird, List.takeWhile_nil, if_true,
      reduceCtorEq, not_false_eq_true, List.length_cons, List.length_nil, octalValue,
      List.foldl_cons, List.foldl_nil, value_digitChar hfirst, value_digitChar hsecond,
      value_digitChar hthird, hvalue, UInt8.ofNat_toNat]
  next hplain =>
    have hne : Char.ofNat byte.toNat ≠ '\\' := by
      intro heq
      have hcode : byte.toNat = 92 := by rw [← toNat_latin1 byte, heq]; rfl
      exact hplain (.inr (UInt8.toNat_inj.mp hcode))
    rw [List.singleton_append, decodeFrom, if_pos hne, toNat_latin1, UInt8.ofNat_toNat]

theorem decodeOutput_encodeOutput (bytes : List UInt8) :
    decodeOutput (encodeOutput bytes) = bytes := by
  unfold decodeOutput encodeOutput
  induction bytes with
  | nil => rfl
  | cons byte bytes ih => rw [List.flatMap_cons, decodeFrom_encodeByte, ih]

/-- A payload has no control characters. -/
theorem le_of_mem_encodeOutput {bytes : List UInt8} {c : Char} (h : c ∈ encodeOutput bytes) :
    32 ≤ c.toNat := by
  obtain ⟨byte, -, hc⟩ := List.mem_flatMap.mp h
  unfold encodeByte at hc
  split at hc
  next =>
    have hlt := byte.toNat_lt
    have hdigit : ∀ n < 8, 32 ≤ (Nat.digitChar n).toNat := by decide
    simp only [List.mem_cons, List.not_mem_nil, or_false] at hc
    rcases hc with rfl | rfl | rfl | rfl
    · decide
    · exact hdigit _ (by omega)
    · exact hdigit _ (by omega)
    · exact hdigit _ (by omega)
  next hplain =>
    rw [List.mem_singleton.mp hc, toNat_latin1]
    by_contra hlow
    refine hplain (.inl (UInt8.lt_iff_toNat_lt.mpr ?_))
    change byte.toNat < 32
    omega

/-! ### Output lines -/

/-- Where a pattern stands first. -/
def indexOf (pattern : Text) : Text → Option ℕ
  | [] => none
  | c :: rest =>
    if pattern.isPrefixOf (c :: rest) then some 0 else (indexOf pattern rest).map (· + 1)

/-- A pattern that does not begin earlier is found where it stands. -/
theorem indexOf_append {pattern front : Text} (hne : pattern ≠ [])
    (h : ¬ pattern <:+: front ++ pattern.dropLast) (rest : Text) :
    indexOf pattern (front ++ (pattern ++ rest)) = some front.length := by
  induction front with
  | nil =>
    obtain ⟨head, tail, rfl⟩ := List.exists_cons_of_ne_nil hne
    have hfound : (head :: tail).isPrefixOf (head :: (tail ++ rest)) = true :=
      List.isPrefixOf_iff_prefix.mpr ⟨rest, rfl⟩
    rw [List.nil_append, List.cons_append, indexOf, if_pos hfound]
    rfl
  | cons c front ih =>
    have hnot : ¬ pattern.isPrefixOf (c :: (front ++ (pattern ++ rest))) = true := by
      intro hfound
      have hlong : pattern <+:
          (c :: front ++ pattern.dropLast) ++ ([pattern.getLast hne] ++ rest) := by
        rw [List.append_assoc, ← List.append_assoc pattern.dropLast, List.dropLast_concat_getLast]
        exact List.isPrefixOf_iff_prefix.mp hfound
      refine h (List.prefix_of_prefix_length_le hlong (List.prefix_append _ _) ?_).isInfix
      simp only [List.length_append, List.length_cons, List.length_dropLast]
      omega
    rw [List.cons_append, indexOf, if_neg hnot,
      ih fun hlater => h (hlater.trans (List.suffix_cons c _).isInfix)]
    rfl

/-- The bytes of a pane. -/
structure PaneOutput where
  paneId : Text
  bytes : List UInt8
  deriving DecidableEq, Repr

/-- `%output %<pane> <payload>`. -/
def parseOutput (rest : Text) : PaneOutput where
  paneId := rest.takeWhile (· ≠ ' ')
  bytes := decodeOutput ((rest.dropWhile (· ≠ ' ')).drop 1)

/-- `%extended-output %<pane> <age>[ <flags>] : <payload>`; the first ` : ` is the delimiter. -/
def parseExtendedOutput (rest : Text) : PaneOutput :=
  let afterPane := (rest.dropWhile (· ≠ ' ')).drop 1
  { paneId := rest.takeWhile (· ≠ ' ')
    bytes := decodeOutput
      (((indexOf " : ".toList afterPane).map fun delim => afterPane.drop (delim + 3)).getD []) }

/-- The output of a notification, if it is one. -/
def TmuxNotification.output? : TmuxNotification → Option PaneOutput
  | .other line =>
    let tag := line.takeWhile (· ≠ ' ')
    let rest := (line.dropWhile (· ≠ ' ')).drop 1
    if tag = "%output".toList then some (parseOutput rest)
    else if tag = "%extended-output".toList then some (parseExtendedOutput rest)
    else none
  | _ => none

/-- A pane id is a word of the line. -/
structure PaneId where
  text : Text
  space : ' ' ∉ text
  newline : '\n' ∉ text
  bare : Bare text

/-- What stands before the delimiter of an `%extended-output` line: it is the first one. -/
structure OutputMetadata where
  text : Text
  newline : '\n' ∉ text
  bare : Bare text
  delimiter : ¬ " : ".toList <:+: text ++ " :".toList

/-- A line with the bytes of a pane, an `%extended-output` line if there is metadata. -/
structure PaneLine where
  pane : PaneId
  metadata : Option OutputMetadata
  bytes : List UInt8

namespace PaneLine

def tag (line : PaneLine) : Text :=
  if line.metadata.isSome then "%extended-output".toList else "%output".toList

/-- What follows the pane. -/
def payload (line : PaneLine) : Text :=
  match line.metadata with
  | none => encodeOutput line.bytes
  | some metadata => metadata.text ++ " : ".toList ++ encodeOutput line.bytes

def text (line : PaneLine) : Text := line.tag ++ ' ' :: (line.pane.text ++ ' ' :: line.payload)

end PaneLine

/-! ### A line is read back -/

/-- A character of neither wrapper keeps the two sides apart. -/
theorem Bare.append_cons {front rest : Text} {sep : Char} (hfront : Bare front) (hrest : Bare rest)
    (hsep : sep ∉ dcsIntroducer ∧ sep ∉ dcsTerminator) : Bare (front ++ sep :: rest) :=
  ⟨fun h => (infix_append_cons hsep.1 h).elim hfront.1 hrest.1,
    fun h => (infix_append_cons hsep.2 h).elim hfront.2 hrest.2⟩

theorem takeWhile_ne_append_cons {front rest : Text} {sep : Char} (h : sep ∉ front) :
    (front ++ sep :: rest).takeWhile (· ≠ sep) = front := by
  rw [List.takeWhile_append_of_pos fun c hc => by
    rw [decide_eq_true_eq]
    rintro rfl
    exact h hc]
  simp

theorem drop_dropWhile_ne_append_cons {front rest : Text} {sep : Char} (h : sep ∉ front) :
    ((front ++ sep :: rest).dropWhile (· ≠ sep)).drop 1 = rest := by
  rw [List.dropWhile_append_of_pos fun c hc => by
    rw [decide_eq_true_eq]
    rintro rfl
    exact h hc]
  simp

namespace PaneLine

variable (line : PaneLine)

theorem bare_encodeOutput (bytes : List UInt8) : Bare (encodeOutput bytes) :=
  bare_of_not_mem fun h => absurd (le_of_mem_encodeOutput h) (by decide)

theorem bare_payload : Bare line.payload := by
  unfold payload
  split
  · exact bare_encodeOutput _
  next metadata _ =>
    have hsep : ' ' ∉ dcsIntroducer ∧ ' ' ∉ dcsTerminator := by decide
    rw [List.append_assoc]
    refine metadata.bare.append_cons ?_ hsep
    exact (bare_of_not_mem (show '\x1b' ∉ [':'] by decide)).append_cons (bare_encodeOutput _) hsep

theorem bare_text : Bare line.text := by
  have hsep : ' ' ∉ dcsIntroducer ∧ ' ' ∉ dcsTerminator := by decide
  refine Bare.append_cons ?_ (line.pane.bare.append_cons line.bare_payload hsep) hsep
  unfold tag
  split <;> exact bare_of_not_mem (by decide)

theorem newline_not_mem_payload : '\n' ∉ line.payload := by
  have hbytes : '\n' ∉ encodeOutput line.bytes := fun h =>
    absurd (le_of_mem_encodeOutput h) (by decide)
  unfold payload
  split
  · exact hbytes
  next metadata _ => simp [metadata.newline, hbytes]

theorem newline_not_mem_text : '\n' ∉ line.text := by
  have htag : '\n' ∉ line.tag := by
    unfold tag
    split <;> decide
  simp [text, htag, line.pane.newline, line.newline_not_mem_payload]

/-- The last character of a line is its last blank or of the payload. -/
theorem getLast?_text_ne : line.text.getLast? ≠ some '\r' := by
  have hpayload : ∀ front : Text,
      (front ++ ' ' :: encodeOutput line.bytes).getLast? ≠ some '\r' := by
    intro front hlast
    rw [List.getLast?_append_of_ne_nil _ (List.cons_ne_nil _ _)] at hlast
    rcases List.mem_cons.mp (List.mem_of_getLast? hlast) with hblank | hbyte
    · exact absurd hblank (by decide)
    · exact absurd (le_of_mem_encodeOutput hbyte) (by decide)
  obtain ⟨pane, metadata, bytes⟩ := line
  cases metadata with
  | none =>
    have h := hpayload ("%output ".toList ++ pane.text)
    rwa [List.append_assoc] at h
  | some metadata =>
    have h := hpayload
      ("%extended-output ".toList ++ (pane.text ++ ' ' :: (metadata.text ++ " :".toList)))
    simpa [text, tag, payload] using h

theorem takeWhile_text : line.text.takeWhile (· ≠ ' ') = line.tag := by
  refine takeWhile_ne_append_cons ?_
  unfold tag
  split <;> decide

theorem drop_text :
    (line.text.dropWhile (· ≠ ' ')).drop 1 = line.pane.text ++ ' ' :: line.payload := by
  refine drop_dropWhile_ne_append_cons ?_
  unfold tag
  split <;> decide

theorem parseOutput_line {pane : PaneId} (bytes : List UInt8) :
    parseOutput (pane.text ++ ' ' :: encodeOutput bytes) = ⟨pane.text, bytes⟩ := by
  simp only [parseOutput, takeWhile_ne_append_cons pane.space,
    drop_dropWhile_ne_append_cons pane.space, decodeOutput_encodeOutput]

theorem parseExtendedOutput_line {pane : PaneId} {metadata : OutputMetadata} (bytes : List UInt8) :
    parseExtendedOutput
        (pane.text ++ ' ' :: (metadata.text ++ " : ".toList ++ encodeOutput bytes)) =
      ⟨pane.text, bytes⟩ := by
  have hindex := indexOf_append (by decide) metadata.delimiter (encodeOutput bytes)
  have hdrop : (metadata.text ++ (" : ".toList ++ encodeOutput bytes)).drop
      (metadata.text.length + 3) = encodeOutput bytes := by
    rw [← List.append_assoc]
    exact List.drop_left' (by simp)
  simp only [parseExtendedOutput, takeWhile_ne_append_cons pane.space,
    drop_dropWhile_ne_append_cons pane.space, List.append_assoc]
  rw [hindex, Option.map_some, Option.getD_some, hdrop, decodeOutput_encodeOutput]

/-- The notification of a line has the pane and the bytes that were sent. -/
theorem output?_text :
    (TmuxNotification.other line.text).output? = some ⟨line.pane.text, line.bytes⟩ := by
  have htag := line.takeWhile_text
  have hrest := line.drop_text
  simp only [TmuxNotification.output?, htag, hrest]
  obtain ⟨pane, metadata, bytes⟩ := line
  cases metadata with
  | none => exact congrArg some (parseOutput_line bytes)
  | some metadata => exact congrArg some (parseExtendedOutput_line bytes)

/-- Outside a reply block a line is a notification. -/
theorem handleLine_text {parser : TmuxControlParser} (hopen : parser.openReply = none) :
    parser.handleLine line.text = (parser, [.other line.text]) := by
  have hhead : line.text.head? = some '%' := by
    unfold text tag
    split <;> rfl
  have htag : line.tag ≠ "%begin".toList ∧ line.tag ≠ "%exit".toList := by
    unfold tag
    split <;> decide
  have hword := line.takeWhile_text
  simp only [TmuxControlParser.handleLine, hopen, TmuxControlParser.handleNotification, hhead,
    if_true, hword, if_neg htag.1, if_neg htag.2]

end PaneLine

/-! ### Cutting a stream -/

/-- The chunks of the first part of a stream, of a given length. -/
def takeChunks : ℕ → List Text → List Text
  | 0, _ => []
  | _, [] => []
  | length + 1, chunk :: chunks =>
    chunk.take (length + 1) :: takeChunks (length + 1 - chunk.length) chunks

/-- The chunks that remain. -/
def dropChunks : ℕ → List Text → List Text
  | 0, chunks => chunks
  | _, [] => []
  | length + 1, chunk :: chunks =>
    if chunk.length ≤ length + 1 then dropChunks (length + 1 - chunk.length) chunks
    else chunk.drop (length + 1) :: chunks

theorem flatten_takeChunks (length : ℕ) (chunks : List Text) :
    (takeChunks length chunks).flatten = chunks.flatten.take length := by
  induction chunks generalizing length with
  | nil => cases length <;> simp [takeChunks]
  | cons chunk chunks ih =>
    cases length with
    | zero => simp [takeChunks]
    | succ length => rw [takeChunks, List.flatten_cons, ih, List.flatten_cons, List.take_append]

theorem flatten_dropChunks (length : ℕ) (chunks : List Text) :
    (dropChunks length chunks).flatten = chunks.flatten.drop length := by
  induction chunks generalizing length with
  | nil => cases length <;> simp [dropChunks]
  | cons chunk chunks ih =>
    cases length with
    | zero => simp [dropChunks]
    | succ length =>
      rw [dropChunks, List.flatten_cons, List.drop_append]
      split
      next hle => rw [ih, List.drop_eq_nil_of_le hle, List.nil_append]
      next hlong =>
        rw [List.flatten_cons, Nat.sub_eq_zero_of_le (by omega), List.drop_zero]

namespace TmuxControlParser

variable {parser : TmuxControlParser}

theorem feed_nil (hbuffer : parser.buffer = []) : parser.feed [] = (parser, []) := by
  obtain ⟨buffer, openReply⟩ := parser
  simp only at hbuffer
  subst hbuffer
  rfl

/-- Behind a newline a chunk may be cut. -/
theorem feed_append_newline (parser : TmuxControlParser) {first : Text}
    (hfirst : first.getLast? = some '\n') (rest : Text) :
    (parser.feed first).1.buffer = [] ∧
      parser.feed (first ++ rest) =
        (((parser.feed first).1.feed rest).1,
          (parser.feed first).2 ++ ((parser.feed first).1.feed rest).2) := by
  obtain ⟨line, rfl⟩ := List.getLast?_eq_some_iff.mp hfirst
  have hstart : LineStart (parser.buffer ++ (line ++ ['\n'])) := by
    rw [← List.append_assoc]
    exact .newline _
  have hbuffer : ({ parser with buffer := [] }.handleLines
      (completeLines (parser.buffer ++ (line ++ ['\n'])))).1.buffer = [] := by
    rw [handleLines_buffer]
  have hfeed := feed_of_lineStart hstart (List.append_nil _).symm
  rw [feed_nil hbuffer, List.append_nil] at hfeed
  have hwhole : parser.buffer ++ (line ++ ['\n'] ++ rest) =
      parser.buffer ++ (line ++ ['\n']) ++ rest := (List.append_assoc ..).symm
  rw [feed_of_lineStart hstart hwhole, hfeed]
  exact ⟨hbuffer, rfl⟩

/-- A stream may be cut behind a newline, wherever its chunks are cut. -/
theorem read_cut (parser : TmuxControlParser) {chunks : List Text} {first rest : Text}
    (hchunks : chunks.flatten = first ++ rest)
    (hfirst : first = [] ∨ first.getLast? = some '\n') :
    parser.read chunks =
      (((parser.read (takeChunks first.length chunks)).1.read
          (dropChunks first.length chunks)).1,
        (parser.read (takeChunks first.length chunks)).2 ++
          ((parser.read (takeChunks first.length chunks)).1.read
            (dropChunks first.length chunks)).2) := by
  induction chunks generalizing parser first with
  | nil =>
    obtain ⟨rfl, -⟩ := List.append_eq_nil_iff.mp hchunks.symm
    rfl
  | cons chunk chunks ih =>
    cases first with
    | nil => simp [takeChunks, dropChunks, read]
    | cons c first =>
      rw [List.length_cons, takeChunks, dropChunks]
      rw [List.flatten_cons] at hchunks
      split
      next hle =>
        -- the chunk ends within the first part
        obtain ⟨more, hmore⟩ : chunk <+: c :: first :=
          List.prefix_of_prefix_length_le (List.prefix_append _ _)
            (hchunks ▸ List.prefix_append (c :: first) rest) hle
        have hrest : chunks.flatten = more ++ rest := by
          rw [← hmore, List.append_assoc] at hchunks
          exact List.append_cancel_left hchunks
        have hlength : first.length + 1 - chunk.length = more.length := by
          have := congrArg List.length hmore
          simp only [List.length_append, List.length_cons] at this
          omega
        have hends : more = [] ∨ more.getLast? = some '\n' := by
          cases more with
          | nil => exact .inl rfl
          | cons d more =>
            rw [← hmore, List.getLast?_append_of_ne_nil _ (List.cons_ne_nil d more)] at hfirst
            exact .inr (hfirst.resolve_left (by simp))
        rw [hlength, List.take_of_length_le hle]
        simp only [read, ih _ hrest hends, List.append_assoc]
      next hlong =>
        obtain ⟨more, rfl⟩ : c :: first <+: chunk :=
          List.prefix_of_prefix_length_le (hchunks ▸ List.prefix_append (c :: first) rest)
            (List.prefix_append _ _) (by simp only [List.length_cons]; omega)
        have hends := hfirst.resolve_left (List.cons_ne_nil _ _)
        have hcut := (parser.feed_append_newline hends more).2
        rw [Nat.sub_eq_zero_of_le (by simp), List.take_left' (by simp), List.drop_left' (by simp)]
        simp only [takeChunks, read, hcut, List.append_nil, List.append_assoc]

/-- After complete lines nothing is retained. -/
theorem buffer_read {chunks : List Text} (hbuffer : parser.buffer = [])
    (h : chunks.flatten = [] ∨ chunks.flatten.getLast? = some '\n') :
    (parser.read chunks).1.buffer = [] := by
  induction chunks using List.reverseRecOn with
  | nil => exact hbuffer
  | append_singleton chunks chunk ih =>
    rw [List.flatten_append, List.flatten_singleton] at h
    rw [read_concat]
    cases chunk with
    | nil =>
      rw [List.append_nil] at h
      rw [feed_nil (ih h)]
      exact ih h
    | cons c chunk =>
      refine ((parser.read chunks).1.feed_append_newline ?_ []).1
      rw [List.getLast?_append_of_ne_nil _ (List.cons_ne_nil c chunk)] at h
      exact h.resolve_left (by simp)

/-- A text with its wrappers at line starts may come in any chunks. -/
theorem read_of_wrappersAtLineStarts {chunks : List Text} (hbuffer : parser.buffer = [])
    (h : WrappersAtLineStarts chunks.flatten) :
    parser.read chunks = parser.feed chunks.flatten := by
  induction chunks using List.reverseRecOn with
  | nil => exact (feed_nil hbuffer).symm
  | append_singleton chunks chunk ih =>
    rw [List.flatten_append, List.flatten_singleton] at h ⊢
    rw [read_concat, ih h.of_append, feed_append_of_wrappersAtLineStarts
      (by rw [hbuffer]; exact h.of_append)]

end TmuxControlParser

/-! ### A line in a stream -/

theorem LineStart.append {before rest : Text} (hbefore : LineStart before)
    (hrest : LineStart rest) : LineStart (before ++ rest) := by
  induction hrest with
  | start => simpa using hbefore
  | newline rest =>
    rw [← List.append_assoc]
    exact .newline _
  | introducer _ ih =>
    rw [← List.append_assoc]
    exact ih.introducer
  | terminator _ ih =>
    rw [← List.append_assoc]
    exact ih.terminator

theorem lineStart_wrapper {wrapper : Text}
    (h : wrapper = dcsIntroducer ∨ wrapper = dcsTerminator) : LineStart wrapper := by
  rcases h with rfl | rfl
  · exact LineStart.start.introducer
  · exact LineStart.start.terminator

/-- One more wrapper in front. -/
theorem WrappersAtLineStarts.wrapper_append {wrapper rest : Text}
    (hwrapper : wrapper = dcsIntroducer ∨ wrapper = dcsTerminator)
    (h : WrappersAtLineStarts rest) : WrappersAtLineStarts (wrapper ++ rest) := by
  intro before later after hlater htext
  rw [List.append_assoc] at htext
  rcases List.append_eq_append_iff.mp htext with ⟨more, rfl, hrest⟩ | ⟨more, hinside, hmore⟩
  · refine (lineStart_wrapper hwrapper).append (h more later after hlater ?_)
    rw [hrest, List.append_assoc]
  · cases more with
    | nil =>
      rw [List.append_nil] at hinside
      exact hinside ▸ lineStart_wrapper hwrapper
    | cons c more =>
      -- a wrapper begins with the escape character and has no other
      have hc : c = '\x1b' := by
        rcases hlater with rfl | rfl <;> exact (List.cons.inj hmore).1.symm
      cases before with
      | nil => exact .start
      | cons d before =>
        have htail : '\x1b' ∈ wrapper.tail := by
          rw [hinside, List.cons_append, List.tail_cons, hc]
          simp
        rcases hwrapper with rfl | rfl
        · exact absurd htail (by decide)
        · exact absurd htail (by decide)

section Stream

variable {wrappers : List Text}

theorem lineStart_wrappers
    (h : ∀ wrapper ∈ wrappers, wrapper = dcsIntroducer ∨ wrapper = dcsTerminator) :
    LineStart wrappers.flatten := by
  induction wrappers with
  | nil => exact .start
  | cons wrapper wrappers ih =>
    rw [List.flatten_cons]
    exact (lineStart_wrapper (h _ List.mem_cons_self)).append
      (ih fun later hlater => h later (List.mem_cons_of_mem _ hlater))

theorem stripDcsWrapper_wrappers
    (h : ∀ wrapper ∈ wrappers, wrapper = dcsIntroducer ∨ wrapper = dcsTerminator) :
    stripDcsWrapper wrappers.flatten = [] := by
  induction wrappers with
  | nil => rfl
  | cons wrapper wrappers ih =>
    have hwrapper := h wrapper List.mem_cons_self
    have hnil : stripDcsWrapper wrapper = [] := by
      rcases hwrapper with rfl | rfl <;> decide
    rw [List.flatten_cons, (lineStart_wrapper hwrapper).stripDcsWrapper_append, hnil,
      ih fun later hlater => h later (List.mem_cons_of_mem _ hlater)]
    rfl

/-- Wrappers in front of a text without one stand at the start of a line. -/
theorem wrappersAtLineStarts_wrappers
    (h : ∀ wrapper ∈ wrappers, wrapper = dcsIntroducer ∨ wrapper = dcsTerminator) {text : Text}
    (htext : Bare text) : WrappersAtLineStarts (wrappers.flatten ++ text) := by
  induction wrappers with
  | nil =>
    rintro before wrapper after (rfl | rfl) hsplit
    · exact absurd ⟨before, after, hsplit.symm⟩ htext.1
    · exact absurd ⟨before, after, hsplit.symm⟩ htext.2
  | cons wrapper wrappers ih =>
    rw [List.flatten_cons, List.append_assoc]
    exact (ih fun later hlater => h later (List.mem_cons_of_mem _ hlater)).wrapper_append
      (h wrapper List.mem_cons_self)

/-- A parser between two lines reads the line of a pane, whatever its chunks, and is as before. -/
theorem read_paneLine {parser : TmuxControlParser} (hbuffer : parser.buffer = [])
    (hopen : parser.openReply = none)
    (hwrappers : ∀ wrapper ∈ wrappers, wrapper = dcsIntroducer ∨ wrapper = dcsTerminator)
    (line : PaneLine) (ending : LineEnding) {chunks : List Text}
    (hchunks : chunks.flatten = wrappers.flatten ++ linesText ending [line.text]) :
    parser.read chunks = (parser, [.other line.text]) := by
  have hlines : ∀ piece ∈ [line.text], Bare piece ∧ '\n' ∉ piece := by
    intro piece hpiece
    rw [List.mem_singleton.mp hpiece]
    exact ⟨line.bare_text, line.newline_not_mem_text⟩
  have htext : Bare (linesText ending [line.text]) :=
    bare_linesText fun piece hpiece => (hlines piece hpiece).1
  have hsplit : (linesText ending [line.text]).splitOn '\n' =
      [line.text ++ ending.carriageReturn] ++ [[]] :=
    splitOn_linesText fun piece hpiece => (hlines piece hpiece).2
  have hreturn : dropCarriageReturn (line.text ++ ending.carriageReturn) = line.text :=
    dropCarriageReturn_line fun _ => line.getLast?_text_ne
  rw [TmuxControlParser.read_of_wrappersAtLineStarts hbuffer
    (hchunks ▸ wrappersAtLineStarts_wrappers hwrappers htext), hchunks]
  simp only [TmuxControlParser.feed, hbuffer, List.nil_append,
    (lineStart_wrappers hwrappers).stripDcsWrapper_append, stripDcsWrapper_wrappers hwrappers,
    htext.strip, hsplit, List.dropLast_concat, List.getLast?_concat, Option.getD_some,
    TmuxControlParser.handleLines, hreturn, TmuxControlParser.handleLines_buffer,
    line.handleLine_text hopen, List.append_nil]
  rw [← hbuffer]

/-- A line with the bytes of a pane, anywhere in a stream where no reply block is open, however
the stream is cut, yields one output notification with the pane and those bytes; what comes before
and after it is read as it is without the line. -/
theorem pane_bytes_survive (line : PaneLine) (ending : LineEnding) (before after : Text)
    (chunks : List Text) (hbefore : before = [] ∨ before.getLast? = some '\n')
    (hwrappers : ∀ wrapper ∈ wrappers, wrapper = dcsIntroducer ∨ wrapper = dcsTerminator)
    (hchunks : chunks.flatten =
      before ++ (wrappers.flatten ++ linesText ending [line.text] ++ after))
    (hopen : (({} : TmuxControlParser).read (takeChunks before.length chunks)).1.openReply =
      none) :
    ∃ notification later, notification.output? = some ⟨line.pane.text, line.bytes⟩ ∧
      later.flatten = after ∧
      ({} : TmuxControlParser).read chunks =
        (((({} : TmuxControlParser).read (takeChunks before.length chunks)).1.read later).1,
          (({} : TmuxControlParser).read (takeChunks before.length chunks)).2 ++ notification ::
            ((({} : TmuxControlParser).read (takeChunks before.length chunks)).1.read later).2) :=
  by
  have hfront : (takeChunks before.length chunks).flatten = before := by
    rw [flatten_takeChunks, hchunks, List.take_left]
  have hrest : (dropChunks before.length chunks).flatten =
      wrappers.flatten ++ linesText ending [line.text] ++ after := by
    rw [flatten_dropChunks, hchunks, List.drop_left]
  have hbuffer := @TmuxControlParser.buffer_read {} (takeChunks before.length chunks) rfl
    (by rw [hfront]; exact hbefore)
  rw [TmuxControlParser.read_cut _ hchunks hbefore]
  generalize ({} : TmuxControlParser).read (takeChunks before.length chunks) = reader at *
  generalize dropChunks before.length chunks = rest at *
  have hline : (wrappers.flatten ++ linesText ending [line.text]).getLast? = some '\n' := by
    simp [linesText]
  have hread := @read_paneLine wrappers reader.1 hbuffer hopen hwrappers line ending
    (takeChunks (wrappers.flatten ++ linesText ending [line.text]).length rest)
    (by rw [flatten_takeChunks, hrest, List.take_left])
  refine ⟨.other line.text,
    dropChunks (wrappers.flatten ++ linesText ending [line.text]).length rest, line.output?_text,
    by rw [flatten_dropChunks, hrest, List.drop_left], ?_⟩
  rw [reader.1.read_cut hrest (.inr hline), hread]
  rfl

end Stream

/-- An escape sequence of pane `%3`, after a reply block and cut within an escape. -/
theorem pane_bytes_survive_extended :
    ∃ notification later, notification.output? = some ⟨"%3".toList, [0x1b, 0x5d, 0x5c, 0x31]⟩ ∧
      later.flatten = "%exit\n".toList ∧
      ({} : TmuxControlParser).read
          ["\x1bP1000p%begin 1 7 0\n%end 1 7 0".toList, "\n%extended-output %3 12 : \\03".toList,
            "3]\\1341\n%ex".toList, "it\n".toList] =
        (((({} : TmuxControlParser).read
            ["\x1bP1000p%begin 1 7 0\n%end 1 7 0".toList, "\n".toList]).1.read later).1,
          (({} : TmuxControlParser).read
              ["\x1bP1000p%begin 1 7 0\n%end 1 7 0".toList, "\n".toList]).2 ++
            notification ::
              ((({} : TmuxControlParser).read
                ["\x1bP1000p%begin 1 7 0\n%end 1 7 0".toList, "\n".toList]).1.read later).2) :=
  @pane_bytes_survive []
    { pane := ⟨"%3".toList, by decide, by decide, bare_of_not_mem (by decide)⟩
      metadata := some ⟨"12".toList, by decide, bare_of_not_mem (by decide), by decide⟩
      bytes := [0x1b, 0x5d, 0x5c, 0x31] } .lf
    "\x1bP1000p%begin 1 7 0\n%end 1 7 0\n".toList "%exit\n".toList
    ["\x1bP1000p%begin 1 7 0\n%end 1 7 0".toList, "\n%extended-output %3 12 : \\03".toList,
      "3]\\1341\n%ex".toList, "it\n".toList]
    (.inr (by decide)) (fun _ h => nomatch h) (by decide) (by decide)

end AgentCockpit.Remote
