import AgentCockpit.Core.Runes
import AgentCockpit.Renderer.PaneReseed
import AgentCockpit.Renderer.TmuxView
import Mathlib.Data.List.Chain

/-!
# Window titles in the output of the panes

Programs put titles between the bytes that they print: an introducer, the title in UTF-8, and a
terminator. The filter takes them out of the output of each pane, chunk by chunk, and hands each of
them on to the name of the pane's window. It keeps its state and the title read so far for each pane
of each project, and makes one character of each byte.

## Main results

* `exact_iff` — **when output and titles arrive as they were**, however the output is cut
-/

namespace AgentCockpit.Renderer.ScreenTitles

open AgentCockpit.Core Remote
open TmuxView (TmuxViewState)

/-! ### The filter of a pane -/

/-- What the filter is in, and the title read so far. -/
structure TitleFilter where
  state : TitleSkipState := .normal
  buf : Text := []
  deriving DecidableEq

/-- `String.fromCharCode` -/
def fromCharCode (byte : UInt8) : Char := Char.ofNat byte.toNat

/-- What a byte does to the title: the title read so far, and the title that it ends. -/
def titleChars : TitleSkipState → Text → UInt8 → Text × Option Text
  | .normal, buf, _ => (buf, none)
  | .esc, buf, byte => (if byte = 0x6b then [] else buf, none)
  | .skip, buf, byte => (if byte = 0x1b then buf else buf ++ [fromCharCode byte], none)
  | .skipEsc, buf, byte =>
    if byte = 0x5c then ([], some buf)
    -- Of escape characters in a row only the last one counts.
    else if byte = 0x1b then (buf, none)
    else (buf ++ [fromCharCode 0x1b, fromCharCode byte], none)

/-- A chunk goes through the filter: what is let through, and the titles that end in it. -/
def TitleFilter.feed : TitleFilter → List UInt8 → TitleFilter × List UInt8 × List Text
  | filter, [] => (filter, [], [])
  | filter, byte :: input =>
    let (state, first) := titleStep filter.state byte
    let (buf, title) := titleChars filter.state filter.buf byte
    let (filter, rest, titles) := feed ⟨state, buf⟩ input
    (filter, first ++ rest, title.toList ++ titles)

/-! ### All panes -/

/-- A chunk of output of a pane. -/
structure Chunk where
  projectId : Text
  paneId : Text
  bytes : List UInt8
  deriving DecidableEq

structure TitleRegistry where
  filters : Text → Option TitleFilter := fun _ => none
  byProject : Text → Option TmuxViewState
  /-- What was written to each pane's terminal. -/
  written : List Chunk := []
  /-- The titles that reached the name of their pane's window: project, pane and title. -/
  delivered : List (Text × Text × Text) := []

def stateKey (projectId paneId : Text) : Text := projectId ++ ':' :: paneId

def setWindowDisplayName (view : TmuxViewState) (windowId displayName : Text) : TmuxViewState :=
  match view.windows windowId with
  | none => view
  | some window =>
    if window.displayName = some displayName then view
    else { view with
      windows := Function.update view.windows windowId
        (some { window with displayName := some displayName }) }

namespace TitleRegistry

variable (registry : TitleRegistry) (projectId paneId : Text)

/-- The window that a view has the pane in. -/
def windowOf (view : TmuxViewState) (paneId : Text) : Option Text :=
  ((view.panes paneId).bind (·.windowId)).filter (· ≠ [])

/-- A title becomes the name of the window that its pane is in. -/
def promote (title : Text) : TitleRegistry :=
  match registry.byProject projectId with
  | none => registry
  | some view =>
    match windowOf view paneId with
    | none => registry
    | some windowId => { registry with
        byProject := Function.update registry.byProject projectId
          (some (setWindowDisplayName view windowId title))
        delivered := match view.windows windowId with
          -- The view has no such window, and nothing is named.
          | none => registry.delivered
          | some _ => registry.delivered ++ [(projectId, paneId, title)] }

/-- A chunk comes to the sink of its pane. -/
def sink (chunk : Chunk) : TitleRegistry :=
  let key := stateKey chunk.projectId chunk.paneId
  let (filter, filtered, titles) := ((registry.filters key).getD {}).feed chunk.bytes
  -- The titles are promoted while the chunk is filtered, and its bytes are written behind them.
  let promoted := titles.foldl (·.promote chunk.projectId chunk.paneId ·) registry
  { promoted with
    filters := Function.update registry.filters key (some filter)
    written := registry.written ++ [{ chunk with bytes := filtered }] }

/-- The bytes that were passed on for a pane. -/
def passed : List UInt8 :=
  (registry.written.filter fun chunk =>
    chunk.projectId = projectId ∧ chunk.paneId = paneId).flatMap (·.bytes)

/-- The titles of a pane that were delivered. -/
def titles : List Text :=
  (registry.delivered.filter fun entry =>
    entry.1 = projectId ∧ entry.2.1 = paneId).map (·.2.2)

/-- The view has the pane in a window that it knows. -/
def Named : Prop := ∃ view windowId window, registry.byProject projectId = some view ∧
  windowOf view paneId = some windowId ∧ view.windows windowId = some window

end TitleRegistry

/-! ### Output with titles in it -/

/-- An output that titles have been put into: each of them stands in front of a further piece. -/
structure TitledStream where
  head : List UInt8
  rest : List (Text × List UInt8)

/-- A title as a program prints it. -/
def encodeTitle (title : Text) : List UInt8 := [0x1b, 0x6b] ++ Utf8.encode title ++ [0x1b, 0x5c]

namespace TitledStream

variable (stream : TitledStream)

/-- The bytes that the program prints. -/
def encode : List UInt8 :=
  stream.head ++ stream.rest.flatMap fun piece => encodeTitle piece.1 ++ piece.2

/-- The output without the titles. -/
def plain : List UInt8 := stream.head ++ stream.rest.flatMap (·.2)

def titles : List Text := stream.rest.map (·.1)

end TitledStream

/-- No escape character stands right in front of that byte. -/
def NoEscape (byte : UInt8) (bytes : List UInt8) : Prop :=
  bytes.IsChain fun first second => ¬ (first = 0x1b ∧ second = byte)

/-- The output has no introducer of its own, each title stands between complete sequences, and no
title has an escape character. -/
structure TitledStream.Spliced (stream : TitledStream) : Prop where
  own : NoEscape 0x6b stream.plain
  complete : ∀ piece ∈ (stream.head :: stream.rest.map (·.2)).dropLast,
    piece.getLast? ≠ some 0x1b
  noEscape : ∀ title ∈ stream.titles, '\x1b' ∉ title

/-- What is passed on for the pane is the output without the titles, and the titles are delivered as
they are. -/
structure Exact (registry : TitleRegistry) (projectId paneId : Text) (stream : TitledStream) :
    Prop where
  passed : registry.passed projectId paneId = stream.plain
  titles : registry.titles projectId paneId = stream.titles

/-- No two escape characters in a row, and none at the end. -/
def Clean (bytes : List UInt8) : Prop := NoEscape 0x1b bytes ∧ bytes.getLast? ≠ some 0x1b

/-! ### One pane -/

section Feed

variable {filter : TitleFilter} {state : TitleSkipState} {buf : Text} {bytes more : List UInt8}

/-- The filter after one byte. -/
def TitleFilter.next (filter : TitleFilter) (byte : UInt8) : TitleFilter :=
  ⟨(titleStep filter.state byte).1, (titleChars filter.state filter.buf byte).1⟩

theorem feed_cons (byte : UInt8) : filter.feed (byte :: bytes) =
    (((filter.next byte).feed bytes).1,
      (titleStep filter.state byte).2 ++ ((filter.next byte).feed bytes).2.1,
      (titleChars filter.state filter.buf byte).2.toList ++
        ((filter.next byte).feed bytes).2.2) := rfl

theorem extractScreenTitle_cons (byte : UInt8) : extractScreenTitle state (byte :: bytes) =
    ((extractScreenTitle (titleStep state byte).1 bytes).1,
      (titleStep state byte).2 ++ (extractScreenTitle (titleStep state byte).1 bytes).2) := rfl

theorem feed_append : filter.feed (bytes ++ more) =
    (((filter.feed bytes).1.feed more).1,
      (filter.feed bytes).2.1 ++ ((filter.feed bytes).1.feed more).2.1,
      (filter.feed bytes).2.2 ++ ((filter.feed bytes).1.feed more).2.2) := by
  induction bytes generalizing filter with
  | nil => rfl
  | cons byte bytes ih =>
    rw [List.cons_append, feed_cons, feed_cons, ih]
    simp only [List.append_assoc]

theorem extractScreenTitle_append : extractScreenTitle state (bytes ++ more) =
    ((extractScreenTitle (extractScreenTitle state bytes).1 more).1,
      (extractScreenTitle state bytes).2 ++
        (extractScreenTitle (extractScreenTitle state bytes).1 more).2) := by
  induction bytes generalizing state with
  | nil => rfl
  | cons byte bytes ih =>
    rw [List.cons_append, extractScreenTitle_cons, extractScreenTitle_cons, ih]
    simp only [List.append_assoc]

/-- The filter is not within a title. -/
def Outside (state : TitleSkipState) : Prop := state = .normal ∨ state = .esc

/-- The escape character that the filter holds back. -/
def pending (state : TitleSkipState) : List UInt8 := if state = .esc then [0x1b] else []

theorem NoEscape.tail {byte first : UInt8} (h : NoEscape byte (first :: bytes)) :
    NoEscape byte bytes :=
  List.IsChain.tail h

theorem NoEscape.ne {byte second : UInt8} (h : NoEscape byte (0x1b :: second :: bytes)) :
    second ≠ byte := by
  intro heq
  exact (List.isChain_cons_cons.mp h).1 ⟨rfl, heq⟩

/-- A byte that ends no introducer is held back if it is an escape character. -/
theorem step_outside (buf : Text) {byte : UInt8} (houtside : Outside state)
    (hown : NoEscape 0x6b (pending state ++ byte :: bytes)) :
    titleChars state buf byte = (buf, none) ∧ Outside (titleStep state byte).1 ∧
      (titleStep state byte).1 = (if byte = 0x1b then .esc else .normal) ∧
      NoEscape 0x6b (pending (titleStep state byte).1 ++ bytes) := by
  by_cases hescape : byte = 0x1b
  · subst hescape
    rcases houtside with rfl | rfl
    · exact ⟨rfl, .inr rfl, rfl, hown⟩
    · exact ⟨rfl, .inr rfl, rfl, NoEscape.tail hown⟩
  · rw [if_neg hescape]
    rcases houtside with rfl | rfl
    · rw [titleStep, if_neg hescape]
      exact ⟨rfl, .inl rfl, rfl, NoEscape.tail hown⟩
    · have hne : byte ≠ 0x6b := NoEscape.ne hown
      rw [titleStep, if_neg hne, if_neg hescape, titleChars, if_neg hne]
      exact ⟨rfl, .inl rfl, rfl, NoEscape.tail (NoEscape.tail hown)⟩

/-- Without an introducer the filter does not enter a title. -/
theorem feed_outside (houtside : Outside state) (hown : NoEscape 0x6b (pending state ++ bytes)) :
    TitleFilter.feed ⟨state, buf⟩ bytes =
      (⟨(extractScreenTitle state bytes).1, buf⟩, (extractScreenTitle state bytes).2, []) := by
  -- The escape character that is held back stands in front of the bytes that are left.
  induction bytes generalizing state with
  | nil => rfl
  | cons byte bytes ih =>
    obtain ⟨hchars, hnext, -, hrest⟩ := step_outside buf houtside hown
    rw [feed_cons, extractScreenTitle_cons, TitleFilter.next, hchars, ih hnext hrest]
    rfl

/-- Where the filter is after a piece without an introducer. -/
theorem state_outside (houtside : Outside state) (hown : NoEscape 0x6b (pending state ++ bytes)) :
    (extractScreenTitle state bytes).1 =
      if (pending state ++ bytes).getLast? = some 0x1b then .esc else .normal := by
  induction bytes generalizing state with
  | nil => rcases houtside with rfl | rfl <;> rfl
  | cons byte bytes ih =>
    obtain ⟨-, hnext, hstate, hrest⟩ := step_outside [] houtside hown
    rw [extractScreenTitle_cons, ih hnext hrest, hstate]
    cases bytes with
    | nil => by_cases hescape : byte = 0x1b <;> simp [hescape, pending]
    | cons second bytes => simp

theorem feed_skip (h : (0x1b : UInt8) ∉ bytes) : TitleFilter.feed ⟨.skip, buf⟩ bytes =
    (⟨.skip, buf ++ bytes.map fromCharCode⟩, [], []) := by
  induction bytes generalizing buf with
  | nil => simp [TitleFilter.feed]
  | cons byte bytes ih =>
    rw [List.mem_cons, not_or] at h
    have hne : byte ≠ 0x1b := Ne.symm h.1
    rw [TitleFilter.feed]
    dsimp only [titleStep, titleChars]
    rw [if_neg hne, if_neg hne]
    dsimp only
    rw [ih h.2]
    simp

/-- The characters that the filter makes of the bytes of a title. -/
def readTitle (title : Text) : Text := (Utf8.encode title).map fromCharCode

/-- A title is taken out, and handed on byte by byte. -/
theorem feed_encodeTitle {title : Text} (h : '\x1b' ∉ title) :
    TitleFilter.feed ⟨.normal, buf⟩ (encodeTitle title) =
      (⟨.normal, []⟩, [], [readTitle title]) := by
  have hbytes : (0x1b : UInt8) ∉ Utf8.encode title := by
    intro hescape
    have hchars := (Utf8.exists_mem_encode_iff (p := fun number => number = 0x1b)
      (fun number heq => by omega) title).mp ⟨0x1b, hescape, rfl⟩
    obtain ⟨c, hc, heq⟩ := hchars
    have hchar : c = '\x1b' := by
      rw [← Char.ofNat_toNat c, heq]
    exact h (hchar ▸ hc)
  have hopen : TitleFilter.feed ⟨.normal, buf⟩ [0x1b, 0x6b] = (⟨.skip, []⟩, [], []) := rfl
  have hclose : TitleFilter.feed ⟨.skip, readTitle title⟩ [0x1b, 0x5c] =
      (⟨.normal, []⟩, [], [readTitle title]) := rfl
  rw [encodeTitle, feed_append, feed_append, hopen]
  dsimp only
  rw [feed_skip hbytes, List.nil_append]
  exact congrArg (fun result => (result.1, result.2.1, result.2.2)) hclose

/-- What the filter makes of an output with titles: the same as of the output without them, and the
titles read byte by byte. -/
theorem feed_pieces {head : List UInt8} {rest : List (Text × List UInt8)}
    (hown : NoEscape 0x6b (head ++ rest.flatMap (·.2)))
    (hcomplete : ∀ piece ∈ (head :: rest.map (·.2)).dropLast, piece.getLast? ≠ some 0x1b)
    (hescape : ∀ piece ∈ rest, '\x1b' ∉ piece.1) :
    (TitleFilter.feed ⟨.normal, buf⟩
        (head ++ rest.flatMap fun piece => encodeTitle piece.1 ++ piece.2)).2 =
      ((extractScreenTitle .normal (head ++ rest.flatMap (·.2))).2,
        rest.map fun piece => readTitle piece.1) := by
  induction rest generalizing head buf with
  | nil =>
    rw [List.flatMap_nil, List.flatMap_nil, List.append_nil,
      feed_outside (.inl rfl) (by simpa [pending] using hown)]
    rfl
  | cons piece rest ih =>
    have hhead : NoEscape 0x6b (pending .normal ++ head) := List.IsChain.left_of_append hown
    have hends : head.getLast? ≠ some 0x1b := hcomplete head (by simp)
    -- The piece in front of the title leaves the filter outside of any sequence.
    have hstate : (extractScreenTitle .normal head).1 = .normal := by
      rw [state_outside (.inl rfl) hhead]
      exact if_neg hends
    rw [List.flatMap_cons, List.flatMap_cons, List.append_assoc, feed_append,
      feed_outside (.inl rfl) hhead, hstate]
    dsimp only
    -- The title is taken out, and behind it the filter is outside again.
    rw [feed_append, feed_encodeTitle (hescape piece List.mem_cons_self)]
    dsimp only
    rw [List.flatMap_cons] at hown
    have hrest := @ih [] piece.2 (List.IsChain.right_of_append hown)
      (fun later hlater => hcomplete later (List.mem_cons_of_mem _ hlater))
      (fun later hlater => hescape later (List.mem_cons_of_mem _ hlater))
    rw [extractScreenTitle_append, hstate, hrest]
    rfl

/-! ### Escape characters in a row -/

theorem clean_cons {byte : UInt8} (h : byte ≠ 0x1b) : Clean (byte :: bytes) ↔ Clean bytes := by
  unfold Clean NoEscape
  cases bytes with
  | nil => simp [h]
  | cons second bytes =>
    rw [List.isChain_cons_cons, List.getLast?_cons_cons]
    constructor
    · exact fun hclean => ⟨hclean.1.2, hclean.2⟩
    · exact fun hclean => ⟨⟨fun heq => h heq.1, hclean.1⟩, hclean.2⟩

theorem clean_escape_cons {byte : UInt8} (h : byte ≠ 0x1b) :
    Clean (0x1b :: byte :: bytes) ↔ Clean bytes := by
  refine Iff.trans ?_ (clean_cons h)
  unfold Clean NoEscape
  rw [List.isChain_cons_cons, List.getLast?_cons_cons]
  constructor
  · exact fun hclean => ⟨hclean.1.2, hclean.2⟩
  · exact fun hclean => ⟨⟨fun heq => h heq.2, hclean.1⟩, hclean.2⟩

/-- Output without an introducer is passed on as it is, or shortened. -/
theorem passed_cases (houtside : Outside state) (hown : NoEscape 0x6b (pending state ++ bytes)) :
    (Clean (pending state ++ bytes) → (extractScreenTitle state bytes).2 = pending state ++ bytes) ∧
      (¬ Clean (pending state ++ bytes) →
        (extractScreenTitle state bytes).2.length < (pending state ++ bytes).length) := by
  induction bytes generalizing state with
  | nil =>
    rcases houtside with rfl | rfl
    · refine ⟨fun _ => rfl, fun hclean => absurd ?_ hclean⟩
      exact ⟨.nil, nofun⟩
    · refine ⟨fun hclean => absurd rfl hclean.2, fun _ => ?_⟩
      exact Nat.zero_lt_one
  | cons byte bytes ih =>
    rw [extractScreenTitle_cons]
    rcases houtside with rfl | rfl
    · by_cases hescape : byte = 0x1b
      · subst hescape
        exact @ih .esc (.inr rfl) hown
      · have hnext : titleStep .normal byte = (.normal, [byte]) := if_neg hescape
        obtain ⟨hsame, hless⟩ := @ih .normal (.inl rfl) hown.tail
        have hclean : Clean (pending .normal ++ byte :: bytes) ↔
            Clean (pending .normal ++ bytes) := clean_cons hescape
        rw [hnext, hclean]
        refine ⟨fun h => congrArg (byte :: ·) (hsame h), fun h => ?_⟩
        exact Nat.succ_lt_succ (hless h)
    · have hne : byte ≠ 0x6b := NoEscape.ne hown
      by_cases hescape : byte = 0x1b
      · subst hescape
        -- Two escape characters in a row: the first one is lost.
        have htail : NoEscape 0x6b (pending .esc ++ bytes) := NoEscape.tail hown
        obtain ⟨hsame, hless⟩ := @ih .esc (.inr rfl) htail
        have hbad : ¬ Clean (pending .esc ++ 0x1b :: bytes) := fun hclean =>
          (List.isChain_cons_cons.mp hclean.1).1 ⟨rfl, rfl⟩
        refine ⟨fun hclean => absurd hclean hbad, fun _ => ?_⟩
        have hle : (extractScreenTitle .esc bytes).2.length ≤ (pending .esc ++ bytes).length := by
          by_cases hclean : Clean (pending .esc ++ bytes)
          · rw [hsame hclean]
          · exact (hless hclean).le
        exact Nat.lt_of_le_of_lt hle (Nat.lt_succ_self _)
      · have hnext : titleStep .esc byte = (.normal, [0x1b, byte]) := by
          rw [titleStep, if_neg hne, if_neg hescape]
        have htail : NoEscape 0x6b (pending .normal ++ bytes) := NoEscape.tail (NoEscape.tail hown)
        obtain ⟨hsame, hless⟩ := @ih .normal (.inl rfl) htail
        have hclean : Clean (pending .esc ++ byte :: bytes) ↔ Clean (pending .normal ++ bytes) :=
          clean_escape_cons hescape
        rw [hnext, hclean]
        refine ⟨fun h => congrArg (0x1b :: byte :: ·) (hsame h), fun h => ?_⟩
        exact Nat.succ_lt_succ (Nat.succ_lt_succ (hless h))

theorem passed_eq_iff (hown : NoEscape 0x6b bytes) :
    (extractScreenTitle .normal bytes).2 = bytes ↔ Clean bytes := by
  obtain ⟨hsame, hless⟩ := @passed_cases .normal bytes (.inl rfl) hown
  constructor
  · intro heq
    by_contra hclean
    exact (hless hclean).ne (congrArg List.length heq)
  · exact hsame

/-! ### Characters -/

theorem length_le_encode (title : Text) : title.length ≤ (Utf8.encode title).length := by
  induction title with
  | nil => exact Nat.le_refl 0
  | cons c title ih =>
    have hpos := Char.utf8Size_pos c
    rw [Utf8.encode_cons, List.length_append, String.length_utf8EncodeChar, List.length_cons]
    omega

/-- Only ASCII characters are written in one byte each. -/
theorem ascii_of_length {title : Text} (h : (Utf8.encode title).length ≤ title.length) :
    ∀ c ∈ title, c.toNat < 0x80 := by
  induction title with
  | nil => exact nofun
  | cons c title ih =>
    have hpos := Char.utf8Size_pos c
    have hrest := length_le_encode title
    rw [Utf8.encode_cons, List.length_append, String.length_utf8EncodeChar,
      List.length_cons] at h
    have hone : c.utf8Size = 1 := by omega
    have hfirst : c.toNat ≤ 0x7f := Char.utf8Size_eq_one_iff.mp hone
    intro other hother
    rcases List.mem_cons.mp hother with rfl | hother
    · exact Nat.lt_succ_of_le hfirst
    · exact ih (by omega) other hother

/-- A title is read as it was exactly if its characters are ASCII. -/
theorem readTitle_eq_iff (title : Text) :
    readTitle title = title ↔ ∀ c ∈ title, c.toNat < 0x80 := by
  unfold readTitle
  constructor
  · intro heq
    have hlength := congrArg List.length heq
    rw [List.length_map] at hlength
    exact ascii_of_length hlength.le
  · intro hascii
    induction title with
    | nil => rfl
    | cons c title ih =>
      have hc := hascii c List.mem_cons_self
      rw [Utf8.encode_cons, List.map_append, Utf8.encodeChar_of_ascii hc,
        ih fun c hc => hascii c (List.mem_cons_of_mem _ hc), List.map_singleton, fromCharCode,
        Utf8.toNat_ofNat (by omega), Char.ofNat_toNat]
      rfl

end Feed

/-! ### Promotions -/

namespace TitleRegistry

variable {registry : TitleRegistry} {projectId paneId otherProject otherPane title : Text}

/-- What the filter of a pane is in. -/
def filterOf (registry : TitleRegistry) (projectId paneId : Text) : TitleFilter :=
  (registry.filters (stateKey projectId paneId)).getD {}

theorem setWindowDisplayName_panes (view : TmuxViewState) (windowId displayName : Text) :
    (setWindowDisplayName view windowId displayName).panes = view.panes := by
  unfold setWindowDisplayName
  split
  · rfl
  · split_ifs <;> rfl

/-- A new name makes no window known that was not. -/
theorem setWindowDisplayName_isSome (view : TmuxViewState) (windowId displayName other : Text) :
    ((setWindowDisplayName view windowId displayName).windows other).isSome =
      (view.windows other).isSome := by
  unfold setWindowDisplayName
  split
  · rfl
  · rename_i window hwindow
    split_ifs
    · rfl
    · by_cases hother : other = windowId
      · subst hother
        simp [hwindow]
      · simp [hother]

theorem named_iff {view : TmuxViewState} (h : registry.byProject projectId = some view) :
    registry.Named projectId paneId ↔
      ∃ windowId, windowOf view paneId = some windowId ∧ (view.windows windowId).isSome := by
  constructor
  · rintro ⟨other, windowId, window, hother, hof, hwindow⟩
    obtain rfl : view = other := Option.some.inj (h.symm.trans hother)
    exact ⟨windowId, hof, by rw [hwindow]; rfl⟩
  · rintro ⟨windowId, hof, hsome⟩
    obtain ⟨window, hwindow⟩ := Option.isSome_iff_exists.mp hsome
    exact ⟨view, windowId, window, h, hof, hwindow⟩

/-- A promotion leaves each pane in its window. -/
theorem named_promote :
    (registry.promote otherProject otherPane title).Named projectId paneId ↔
      registry.Named projectId paneId := by
  unfold promote
  split
  · exact Iff.rfl
  rename_i view hview
  split
  · exact Iff.rfl
  rename_i windowId _
  by_cases hproject : projectId = otherProject
  · subst hproject
    rw [named_iff (Function.update_self _ _ _), named_iff hview]
    simp only [windowOf, setWindowDisplayName_panes, setWindowDisplayName_isSome]
  · unfold Named
    simp [hproject]

theorem titles_promote_of_ne (h : ¬ (otherProject = projectId ∧ otherPane = paneId)) :
    (registry.promote otherProject otherPane title).titles projectId paneId =
      registry.titles projectId paneId := by
  unfold promote
  split
  · rfl
  · split
    · rfl
    · unfold titles
      dsimp only
      split
      · rfl
      · rw [List.filter_append, List.filter_cons_of_neg (by simpa using h), List.filter_nil,
          List.append_nil]

/-- A pane in a window that the view knows names it. -/
theorem titles_promote (h : registry.Named projectId paneId) :
    (registry.promote projectId paneId title).titles projectId paneId =
      registry.titles projectId paneId ++ [title] := by
  obtain ⟨view, windowId, window, hview, hof, hwindow⟩ := h
  unfold promote titles
  rw [hview]
  dsimp only
  rw [hof]
  dsimp only
  rw [hwindow]
  simp

/-- The titles of any other pane are dropped. -/
theorem titles_promote_of_not_named (h : ¬ registry.Named projectId paneId) :
    (registry.promote projectId paneId title).titles projectId paneId =
      registry.titles projectId paneId := by
  unfold promote
  split
  · rfl
  rename_i view hview
  split
  · rfl
  rename_i windowId hof
  unfold titles
  dsimp only
  split
  · rfl
  · rename_i window hwindow
    exact absurd ⟨view, windowId, window, hview, hof, hwindow⟩ h

end TitleRegistry

/-! ### Runs -/

section Runs

variable {projectId paneId : Text} {registry : TitleRegistry}

/-- What some bytes of a pane do to the registry, as far as the pane is concerned. -/
structure Follows (projectId paneId : Text) (bytes : List UInt8) (before after : TitleRegistry) :
    Prop where
  filter : after.filterOf projectId paneId = ((before.filterOf projectId paneId).feed bytes).1
  passed : after.passed projectId paneId =
    before.passed projectId paneId ++ ((before.filterOf projectId paneId).feed bytes).2.1
  named : after.Named projectId paneId ↔ before.Named projectId paneId
  delivered : before.Named projectId paneId → after.titles projectId paneId =
    before.titles projectId paneId ++ ((before.filterOf projectId paneId).feed bytes).2.2
  dropped : ¬ before.Named projectId paneId →
    after.titles projectId paneId = before.titles projectId paneId

theorem Follows.refl : Follows projectId paneId [] registry registry where
  filter := rfl
  passed := (List.append_nil _).symm
  named := Iff.rfl
  delivered _ := (List.append_nil _).symm
  dropped _ := rfl

theorem Follows.trans {first second third : TitleRegistry} {bytes more : List UInt8}
    (h : Follows projectId paneId bytes first second)
    (h' : Follows projectId paneId more second third) :
    Follows projectId paneId (bytes ++ more) first third where
  filter := by rw [h'.filter, h.filter, feed_append]
  passed := by rw [h'.passed, h.passed, h.filter, feed_append, List.append_assoc]
  named := h'.named.trans h.named
  delivered hnamed := by
    rw [h'.delivered (h.named.mpr hnamed), h.delivered hnamed, h.filter, feed_append,
      List.append_assoc]
  dropped hnamed := by
    rw [h'.dropped fun hsecond => hnamed (h.named.mp hsecond), h.dropped hnamed]

/-- Pane ids have no colon, so no two panes have the same key. -/
theorem stateKey_inj {otherProject otherPane : Text} (hpane : ':' ∉ paneId)
    (hother : ':' ∉ otherPane) (h : stateKey projectId paneId = stateKey otherProject otherPane) :
    projectId = otherProject ∧ paneId = otherPane := by
  -- Read from its end, a key splits at the first colon.
  have hreverse := congrArg List.reverse h
  rw [stateKey, stateKey, List.reverse_append, List.reverse_append, List.reverse_cons,
    List.reverse_cons, List.append_assoc, List.append_assoc, List.singleton_append,
    List.singleton_append] at hreverse
  have hfirst : ':' ∉ paneId.reverse := by rwa [List.mem_reverse]
  have hsecond : ':' ∉ otherPane.reverse := by rwa [List.mem_reverse]
  obtain ⟨hpanes, hprojects⟩ := of_append_cons_eq hfirst hsecond hreverse
  exact ⟨List.reverse_injective hprojects, List.reverse_injective hpanes⟩

theorem named_foldl_promote (titles : List Text) (otherProject otherPane : Text) :
    (titles.foldl (·.promote otherProject otherPane ·) registry).Named projectId paneId ↔
      registry.Named projectId paneId := by
  induction titles generalizing registry with
  | nil => exact Iff.rfl
  | cons title titles ih => exact ih.trans TitleRegistry.named_promote

theorem titles_foldl_promote (titles : List Text) (h : registry.Named projectId paneId) :
    (titles.foldl (·.promote projectId paneId ·) registry).titles projectId paneId =
      registry.titles projectId paneId ++ titles := by
  induction titles generalizing registry with
  | nil => exact (List.append_nil _).symm
  | cons title titles ih =>
    rw [List.foldl_cons, ih (TitleRegistry.named_promote.mpr h), TitleRegistry.titles_promote h,
      List.append_assoc, List.singleton_append]

theorem titles_foldl_promote_of_not_named (titles : List Text)
    (h : ¬ registry.Named projectId paneId) :
    (titles.foldl (·.promote projectId paneId ·) registry).titles projectId paneId =
      registry.titles projectId paneId := by
  induction titles generalizing registry with
  | nil => rfl
  | cons title titles ih =>
    rw [List.foldl_cons, ih fun hnext => h (TitleRegistry.named_promote.mp hnext),
      TitleRegistry.titles_promote_of_not_named h]

theorem titles_foldl_promote_of_ne {otherProject otherPane : Text} (titles : List Text)
    (h : ¬ (otherProject = projectId ∧ otherPane = paneId)) :
    (titles.foldl (·.promote otherProject otherPane ·) registry).titles projectId paneId =
      registry.titles projectId paneId := by
  induction titles generalizing registry with
  | nil => rfl
  | cons title titles ih => rw [List.foldl_cons, ih, TitleRegistry.titles_promote_of_ne h]

/-- A chunk of the pane goes through the filter of the pane. -/
theorem follows_sink (bytes : List UInt8) :
    Follows projectId paneId bytes registry (registry.sink ⟨projectId, paneId, bytes⟩) := by
  constructor
  · simp [TitleRegistry.sink, TitleRegistry.filterOf]
  · simp [TitleRegistry.sink, TitleRegistry.filterOf, TitleRegistry.passed]
  · exact named_foldl_promote _ _ _
  · exact fun h => titles_foldl_promote _ h
  · exact fun h => titles_foldl_promote_of_not_named _ h

/-- A chunk of another pane does nothing to the pane. -/
theorem follows_sink_of_ne {chunk : Chunk} (hpane : ':' ∉ paneId) (hchunk : ':' ∉ chunk.paneId)
    (h : ¬ (chunk.projectId = projectId ∧ chunk.paneId = paneId)) :
    Follows projectId paneId [] registry (registry.sink chunk) := by
  have hkey : stateKey projectId paneId ≠ stateKey chunk.projectId chunk.paneId := by
    intro heq
    obtain ⟨hproject, hid⟩ := stateKey_inj hpane hchunk heq
    exact h ⟨hproject.symm, hid.symm⟩
  have htitles : (registry.sink chunk).titles projectId paneId =
      registry.titles projectId paneId := titles_foldl_promote_of_ne _ h
  constructor
  · simp [TitleRegistry.sink, TitleRegistry.filterOf, hkey, TitleFilter.feed]
  · simp [TitleRegistry.sink, TitleRegistry.passed, List.filter_append, h, TitleFilter.feed]
  · exact named_foldl_promote _ _ _
  · exact fun _ => htitles.trans (List.append_nil _).symm
  · exact fun _ => htitles

/-- The bytes of a pane in a sequence of chunks. -/
def bytesOf (projectId paneId : Text) (chunks : List Chunk) : List UInt8 :=
  (chunks.filter fun chunk => chunk.projectId = projectId ∧ chunk.paneId = paneId).flatMap (·.bytes)

/-- However its output is cut, and whatever comes in between, a pane sees its own bytes only. -/
theorem follows_run {chunks : List Chunk} (hpane : ':' ∉ paneId)
    (hchunks : ∀ chunk ∈ chunks, ':' ∉ chunk.paneId) :
    Follows projectId paneId (bytesOf projectId paneId chunks) registry
      (chunks.foldl TitleRegistry.sink registry) := by
  induction chunks generalizing registry with
  | nil => exact .refl
  | cons chunk chunks ih =>
    -- The chunk is one of the pane, or its filter and its titles are those of another one.
    have hlater := @ih (registry.sink chunk)
      fun later hmem => hchunks later (List.mem_cons_of_mem _ hmem)
    by_cases h : chunk.projectId = projectId ∧ chunk.paneId = paneId
    · obtain ⟨rfl, rfl⟩ := h
      have hbytes : bytesOf chunk.projectId chunk.paneId (chunk :: chunks) =
          chunk.bytes ++ bytesOf chunk.projectId chunk.paneId chunks := by
        simp [bytesOf]
      rw [hbytes]
      exact (follows_sink chunk.bytes).trans hlater
    · have hbytes : bytesOf projectId paneId (chunk :: chunks) =
          [] ++ bytesOf projectId paneId chunks := by
        simp [bytesOf, h]
      rw [hbytes]
      exact (follows_sink_of_ne hpane (hchunks chunk List.mem_cons_self) h).trans hlater

end Runs

/-! ### Whole outputs -/

variable {projectId paneId : Text}

/-- What the filter makes of an output with titles. -/
theorem feed_encode {stream : TitledStream} (h : stream.Spliced) :
    (TitleFilter.feed {} stream.encode).2 =
      ((extractScreenTitle .normal stream.plain).2, stream.titles.map readTitle) := by
  have hpieces := @feed_pieces [] stream.head stream.rest h.own h.complete
    fun piece hpiece => h.noEscape piece.1 (List.mem_map_of_mem hpiece)
  rw [TitledStream.titles, List.map_map]
  exact hpieces

/-- What has become of a pane after the bytes of an output with titles. -/
theorem Follows.arrives_iff {before after : TitleRegistry} {stream : TitledStream}
    (h : Follows projectId paneId stream.encode before after) (hstream : stream.Spliced)
    (hfilter : before.filterOf projectId paneId = {})
    (hpassed : before.passed projectId paneId = [])
    (htitles : before.titles projectId paneId = []) :
    Exact after projectId paneId stream ↔ Clean stream.plain ∧
      (stream.rest ≠ [] → before.Named projectId paneId) ∧
        ∀ title ∈ stream.titles, ∀ c ∈ title, c.toNat < 0x80 := by
  have hfeed := feed_encode hstream
  have hplain : after.passed projectId paneId = (extractScreenTitle .normal stream.plain).2 := by
    rw [h.passed, hpassed, hfilter, hfeed, List.nil_append]
  have hclean : (extractScreenTitle .normal stream.plain).2 = stream.plain ↔ Clean stream.plain :=
    passed_eq_iff hstream.own
  by_cases hnamed : before.Named projectId paneId
  · have hread : stream.titles.map readTitle = stream.titles ↔
        ∀ title ∈ stream.titles, ∀ c ∈ title, c.toNat < 0x80 := by
      simp only [← readTitle_eq_iff]
      rw [← List.map_inj_left (g := fun title => title), List.map_id']
    have hdelivered : after.titles projectId paneId = stream.titles.map readTitle := by
      rw [h.delivered hnamed, htitles, hfilter, hfeed, List.nil_append]
    constructor
    · intro hexact
      exact ⟨hclean.mp (hplain.symm.trans hexact.passed), fun _ => hnamed,
        hread.mp (hdelivered.symm.trans hexact.titles)⟩
    · rintro ⟨hown, -, hascii⟩
      exact ⟨hplain.trans (hclean.mpr hown), hdelivered.trans (hread.mpr hascii)⟩
  · -- No title is delivered, which is right only where none was printed.
    have hdropped : after.titles projectId paneId = [] := (h.dropped hnamed).trans htitles
    constructor
    · intro hexact
      have hnone : stream.titles = [] := hexact.titles.symm.trans hdropped
      refine ⟨hclean.mp (hplain.symm.trans hexact.passed), fun hrest => ?_, ?_⟩
      · exact absurd (List.map_eq_nil_iff.mp hnone) hrest
      · rw [hnone]
        exact nofun
    · rintro ⟨hown, hrest, -⟩
      have hnone : stream.rest = [] := by
        by_contra hsome
        exact hnamed (hrest hsome)
      refine ⟨hplain.trans (hclean.mpr hown), hdropped.trans ?_⟩
      rw [TitledStream.titles, hnone]
      rfl

/-- **The output of a pane loses its titles and nothing else, and the titles arrive as they are,
exactly if no escape character of the output stands in front of another one or at its end, the
pane is in a window that the view knows, and the titles are ASCII**, for every cut of the output
and whatever the other panes print in between. -/
theorem exact_iff (byProject : Text → Option TmuxViewState)
    {stream : TitledStream} {chunks : List Chunk} (hstream : stream.Spliced)
    (hbytes : bytesOf projectId paneId chunks = stream.encode) (hpane : ':' ∉ paneId)
    (hchunks : ∀ chunk ∈ chunks, ':' ∉ chunk.paneId) :
    Exact (chunks.foldl TitleRegistry.sink { byProject }) projectId paneId stream ↔
      Clean stream.plain ∧
        (stream.rest ≠ [] → TitleRegistry.Named { byProject } projectId paneId) ∧
        ∀ title ∈ stream.titles, ∀ c ∈ title, c.toNat < 0x80 := by
  have hrun := @follows_run projectId paneId { byProject } chunks hpane hchunks
  rw [hbytes] at hrun
  exact hrun.arrives_iff hstream rfl rfl rfl

/-! ### A pane in a window -/

/-- A view with one pane in one window. -/
def oneWindow : TmuxViewState where
  isOpen := true
  openError := none
  sessionName := none
  sessionId := none
  windowOrder := ["@0".toList]
  windows := Function.update (fun _ => none) "@0".toList
    (some ⟨"@0".toList, [], none, none, false, none⟩)
  panes := Function.update (fun _ => none) "%0".toList
    (some ⟨"%0".toList, some "@0".toList, none, none, none⟩)
  activeWindowId := none
  activePaneId := none

def oneProject : Text → Option TmuxViewState :=
  Function.update (fun _ => none) "p".toList (some oneWindow)

/-- A prompt, a title and a color sequence. -/
def promptStream (title : Text) : TitledStream where
  head := [0x24, 0x20]
  rest := [(title, [0x1b, 0x5b, 0x30, 0x6d])]

theorem exact_iff_cutTitle :
    Exact (([⟨"p".toList, "%0".toList, (promptStream "vim".toList).encode.take 5⟩,
        ⟨"q".toList, "%0".toList, [0x1b]⟩,
        ⟨"p".toList, "%0".toList, (promptStream "vim".toList).encode.drop 5⟩] : List Chunk).foldl
      TitleRegistry.sink { byProject := oneProject }) "p".toList "%0".toList
      (promptStream "vim".toList) :=
  (exact_iff oneProject ⟨by simp [NoEscape, TitledStream.plain, promptStream],
    by simp [promptStream], by simp [TitledStream.titles, promptStream]⟩
    (by simp [bytesOf]) (by decide) (by decide)).mpr
    ⟨by simp [Clean, NoEscape, TitledStream.plain, promptStream],
      fun _ => ⟨oneWindow, "@0".toList, _, rfl, rfl, rfl⟩,
      by simp [TitledStream.titles, promptStream]⟩

/-- A title with an accent arrives with two characters for the letter. -/
theorem not_exact_accent :
    (promptStream "é".toList).Spliced ∧
    TitleRegistry.Named { byProject := oneProject } "p".toList "%0".toList ∧
    ¬ Exact (TitleRegistry.sink { byProject := oneProject }
      ⟨"p".toList, "%0".toList, (promptStream "é".toList).encode⟩) "p".toList "%0".toList
      (promptStream "é".toList) := by
  refine ⟨⟨by simp [NoEscape, TitledStream.plain, promptStream], by simp [promptStream],
    by simp [TitledStream.titles, promptStream]⟩, ⟨oneWindow, "@0".toList, _, rfl, rfl, rfl⟩, ?_⟩
  intro h
  have htitles : (TitleRegistry.sink { byProject := oneProject } ⟨"p".toList, "%0".toList,
      (promptStream "é".toList).encode⟩).titles "p".toList "%0".toList = ["Ã©".toList] := by
    decide
  exact absurd (htitles.symm.trans h.titles) (by decide)

end AgentCockpit.Renderer.ScreenTitles
