import AgentCockpit.Mux.MirrorSegments
import AgentCockpit.Mux.ModeAgreement

/-!
# The saved cursor of the primary screen

The mirror searches every segment that it feeds for `ESC 7` and for `ESC c`, the second after the
first. The escape scanner of the tracked modes goes through the bytes of the primary screen in
order. The two agree as long as the searches of each segment find just what the scanner recognises
there, and a reset comes last in a segment that has both. A sequence that a read cuts, one within
the text of a longer sequence, and a cursor that is saved behind a reset tell them apart.

## Main results

* `savedCursor_iff_savesLast` — **so does the mirror, where all its searches come out right**
-/

namespace AgentCockpit.Mux

open AgentCockpit.Core ModeState PrimaryMirror

/-! ### The last save or reset -/

/-- `ESC 7`. -/
def saveToken : ModeToken := .escape 0x37

/-- `ESC c`. -/
def resetToken : ModeToken := .escape 0x63

theorem valid_saveToken : saveToken.Valid := ⟨by decide, by decide⟩

theorem valid_resetToken : resetToken.Valid := ⟨by decide, by decide⟩

/-- The sequences that the flag depends on. -/
def IsCursorToken (token : ModeToken) : Prop := token = saveToken ∨ token = resetToken

instance : DecidablePred IsCursorToken := fun _ => inferInstanceAs (Decidable (_ ∨ _))

/-- The last of the recognised saves and resets of an output, if there is one, is a save. -/
def SavesLast (data : Bytes) : Prop :=
  ((tokens data).filter fun token => IsCursorToken token).getLast? = some saveToken

/-- The flag behind a sequence. -/
def cursorAfter (saved : Bool) (token : ModeToken) : Bool :=
  if token = saveToken then true else if token = resetToken then false else saved

theorem cursorAfter_eq {saved : Bool} {token : ModeToken} (h : ¬ IsCursorToken token) :
    cursorAfter saved token = saved := by
  obtain ⟨hsave, hreset⟩ := not_or.mp h
  rw [cursorAfter, if_neg hsave, if_neg hreset]

/-- A fold over sequences has the flag of the last save or reset. -/
theorem foldl_cursorAfter (saved : Bool) (list : List ModeToken) :
    list.foldl cursorAfter saved =
      match (list.filter fun token => IsCursorToken token).getLast? with
      | none => saved
      | some token => decide (token = saveToken) := by
  induction list using List.reverseRecOn with
  | nil => rfl
  | append_singleton list token ih =>
    rw [List.foldl_concat, List.filter_append]
    by_cases hcursor : IsCursorToken token
    · rw [List.filter_singleton, decide_eq_true hcursor, cond_true, List.getLast?_concat]
      rcases hcursor with rfl | rfl
      · rfl
      · rfl
    · rw [List.filter_singleton, decide_eq_false hcursor, cond_false, List.append_nil,
        cursorAfter_eq hcursor]
      exact ih

theorem savesLast_iff_foldl (data : Bytes) :
    SavesLast data ↔ (tokens data).foldl cursorAfter false = true := by
  rw [foldl_cursorAfter, SavesLast]
  cases ((tokens data).filter fun token => IsCursorToken token).getLast? with
  | none => exact iff_of_false nofun nofun
  | some token => rw [Option.some.injEq, decide_eq_true_eq]

/-- A CSI sequence does not save the cursor. -/
theorem observeCSI_savedCursor (modes : ModeState) (params : Bytes) (final : UInt8) :
    (modes.observeCSI params final).savedCursor = modes.savedCursor := by
  unfold observeCSI
  dsimp only
  split
  · obtain ⟨flags, stack, heq⟩ := observeKittyKeyboard_eq modes params
    rw [heq]
  · split
    · rfl
    · split
      · rfl
      · split
        · rfl
        · split
          · refine foldl_view (·.savedCursor) (fun modes parameter => ?_) _ modes
            split
            · simp only [setPrivate]
              split
              · rfl
              · split <;> rfl
            · rfl
          · refine foldl_view (·.savedCursor) (fun modes parameter => ?_) _ modes
            split <;> rfl

/-- A sequence changes the flag of the tracked modes in this way. -/
theorem apply_savedCursor (modes : ModeState) (token : ModeToken) :
    (modes.apply token).savedCursor = cursorAfter modes.savedCursor token := by
  cases token with
  | text byte => exact (cursorAfter_eq (by simp [IsCursorToken, saveToken, resetToken])).symm
  | csi params final =>
    rw [cursorAfter_eq (by simp [IsCursorToken, saveToken, resetToken])]
    exact observeCSI_savedCursor modes params final
  | osc payload terminator =>
    rw [cursorAfter_eq (by simp [IsCursorToken, saveToken, resetToken])]
    simp only [ModeState.apply, observeOSC]
    split
    · rfl
    · split <;> rfl
  | escape kind =>
    simp only [ModeState.apply, observeEscape, cursorAfter, saveToken, resetToken,
      ModeToken.escape.injEq]
    split
    · next hkind => rw [hkind]; rfl
    · split
      · next hkind => rw [hkind]; rfl
      · split
        · rfl
        · split <;> rfl

/-- **The tracked modes have the flag of the last save or reset.** -/
theorem savesLast_iff_observe (data : Bytes) :
    SavesLast data ↔ (({} : ModeState).observe data).savedCursor = true := by
  obtain ⟨pending, heq⟩ := observe_eq {} rfl data
  rw [savesLast_iff_foldl, heq]
  dsimp only
  have hview : ((tokens data).foldl ModeState.apply {}).savedCursor =
      (tokens data).foldl cursorAfter false :=
    (List.foldl_hom (·.savedCursor) fun modes token => (apply_savedCursor modes token).symm).symm
  rw [ModeState.after, hview]

/-! ### The searches of a segment -/

/-- The sequences that end in a segment. -/
def newTokens (before segment : Bytes) : List ModeToken :=
  (modeScanner.scan ((modeScanner.scan before).2 ++ segment)).1

theorem tokens_append (before segment : Bytes) :
    tokens (before ++ segment) = tokens before ++ newTokens before segment := by
  unfold tokens newTokens
  rw [modeScanner.scan_append]

theorem newTokens_nil (segment : Bytes) : newTokens [] segment = tokens segment := by
  rw [newTokens, modeScanner.scan_nil]
  rfl

/-- What the searches of a segment find is what the scanner recognises in it, and a reset comes last
in a segment that has both. -/
structure SearchesRight (before segment : Bytes) : Prop where
  saves : (∃ i, OccursAt saveToken.code segment i) ↔ saveToken ∈ newTokens before segment
  resets : (∃ i, OccursAt resetToken.code segment i) ↔ resetToken ∈ newTokens before segment
  order : resetToken ∈ newTokens before segment →
    ((newTokens before segment).filter fun token => IsCursorToken token).getLast? =
      some resetToken

theorem isSome_bytesIndex_iff {pattern data : Bytes} :
    (bytesIndex pattern data).isSome = true ↔ ∃ i, OccursAt pattern data i := by
  constructor
  · intro hsome
    obtain ⟨i, hi⟩ := Option.isSome_iff_exists.mp hsome
    exact ⟨i, (bytesIndex_eq_some_iff.mp hi).occurs⟩
  · rintro ⟨i, hoccurs⟩
    by_contra hnone
    exact bytesIndex_eq_none_iff.mp (Option.not_isSome_iff_eq_none.mp hnone) i hoccurs

/-- Where the searches come out right, the mirror has the flag of the scanner. -/
theorem SearchesRight.savedAfter_eq {before segment : Bytes} (h : SearchesRight before segment)
    (saved : Bool) :
    savedAfter saved segment = (newTokens before segment).foldl cursorAfter saved := by
  have hsave : saveToken.code = [0x1b, 0x37] := rfl
  have hreset : resetToken.code = [0x1b, 0x63] := rfl
  rw [foldl_cursorAfter, savedAfter, ← hsave, ← hreset]
  by_cases hresets : resetToken ∈ newTokens before segment
  · rw [if_pos (isSome_bytesIndex_iff.mpr (h.resets.mpr hresets)), h.order hresets]
    rfl
  · rw [if_neg (fun hsome => hresets (h.resets.mp (isSome_bytesIndex_iff.mp hsome)))]
    by_cases hsaves : saveToken ∈ newTokens before segment
    · rw [if_pos (isSome_bytesIndex_iff.mpr (h.saves.mpr hsaves))]
      -- what comes last is no reset
      cases hlast : ((newTokens before segment).filter fun token =>
          IsCursorToken token).getLast? with
      | none =>
        have hcursor : IsCursorToken saveToken := .inl rfl
        have hnone := List.filter_eq_nil_iff.mp (List.getLast?_eq_none_iff.mp hlast)
        exact absurd (decide_eq_true hcursor) (hnone saveToken hsaves)
      | some token =>
        obtain ⟨hmem, hcursor⟩ := List.mem_filter.mp (List.mem_of_getLast? hlast)
        rcases of_decide_eq_true hcursor with rfl | rfl
        · rfl
        · exact absurd hmem hresets
    · rw [if_neg (fun hsome => hsaves (h.saves.mp (isSome_bytesIndex_iff.mp hsome)))]
      have hnone : ((newTokens before segment).filter fun token => IsCursorToken token) = [] := by
        refine List.filter_eq_nil_iff.mpr fun token hmem hcursor => ?_
        rcases of_decide_eq_true hcursor with rfl | rfl
        · exact hsaves hmem
        · exact hresets hmem
      rw [hnone]
      rfl

/-! ### What is withheld -/

/-- The second byte of an escape is one of the input. -/
theorem kind_mem_of_escape {kind : UInt8} (data : Bytes) (h : .escape kind ∈ tokens data) :
    kind ∈ data := by
  unfold tokens at h
  induction data using Scanner.scan.induct modeScanner with
  | case1 data hnext =>
    rw [modeScanner.scan_of_none hnext] at h
    cases h
  | case2 data token rest hnext ih =>
    rw [modeScanner.scan_of_some hnext] at h
    obtain ⟨-, rfl⟩ := ModeToken.code_of_read data token rest hnext
    rcases List.mem_cons.mp h with rfl | hrest
    · exact List.mem_append_left _ (List.mem_cons_of_mem _ List.mem_cons_self)
    · exact List.mem_append_right _ (ih hrest)

/-- The second byte of an escape that ends in a segment is one of the segment. -/
theorem kind_mem_of_new {kind : UInt8} {before segment : Bytes}
    (h : .escape kind ∈ newTokens before segment) : kind ∈ segment := by
  unfold newTokens at h
  have hleft := modeScanner.next_left before
  generalize (modeScanner.scan before).2 = left at h hleft
  cases hnext : modeScanner.next (left ++ segment) with
  | none =>
    rw [modeScanner.scan_of_none hnext] at h
    exact nomatch h
  | some pair =>
    obtain ⟨token, rest⟩ := pair
    rw [modeScanner.scan_of_some hnext] at h
    obtain ⟨-, hcode⟩ := ModeToken.code_of_read (left ++ segment) token rest hnext
    have hlength := modeScanner.length_le_of_extends hleft hnext
    rcases List.mem_cons.mp h with rfl | hrest
    · -- the first sequence goes beyond what was left, so its last byte is of the segment
      match left with
      | [] =>
        rw [show segment = [esc, kind] ++ rest from hcode]
        exact List.mem_append_left _ (List.mem_cons_of_mem _ List.mem_cons_self)
      | [first] =>
        obtain ⟨-, rfl⟩ := List.cons.inj hcode
        exact List.mem_cons_self
      | first :: second :: left =>
        obtain ⟨-, htail⟩ := List.cons.inj hcode
        obtain ⟨-, rfl⟩ := List.cons.inj htail
        exact nomatch hleft.symm.trans (modeScanner.determined hnext)
    · have hsuffix : rest <:+ segment := by
        exact List.suffix_of_suffix_length_le (modeScanner.suffix hnext)
          (List.suffix_append left segment) hlength
      exact hsuffix.subset (kind_mem_of_escape rest hrest)

/-- The start of a switch neither saves nor resets the cursor. -/
theorem savesLast_append_iff {data held : Bytes} (h : held <+: switchOn) :
    SavesLast (data ++ held) ↔ SavesLast data := by
  have hsave : saveToken ∉ newTokens data held := fun hmem =>
    absurd (h.subset (kind_mem_of_new hmem)) (by decide)
  have hreset : resetToken ∉ newTokens data held := fun hmem =>
    absurd (h.subset (kind_mem_of_new hmem)) (by decide)
  have hnone : ((newTokens data held).filter fun token => IsCursorToken token) = [] := by
    refine List.filter_eq_nil_iff.mpr fun token hmem hcursor => ?_
    rcases of_decide_eq_true hcursor with rfl | rfl
    · exact hsave hmem
    · exact hreset hmem
  unfold SavesLast
  rw [tokens_append, List.filter_append, hnone, List.append_nil]

/-! ### Runs -/

/-- The searches of every segment come out right, behind the segments before it. -/
def AllRight : Bytes → List Bytes → Prop
  | _, [] => True
  | before, segment :: segments =>
    SearchesRight before segment ∧ AllRight (before ++ segment) segments

theorem foldl_savedAfter {before : Bytes} {segments : List Bytes} (h : AllRight before segments) :
    segments.foldl savedAfter ((tokens before).foldl cursorAfter false) =
      (tokens (before ++ segments.flatten)).foldl cursorAfter false := by
  induction segments generalizing before with
  | nil => rw [List.flatten_nil, List.append_nil]; rfl
  | cons segment segments ih =>
    rw [List.foldl_cons, h.1.savedAfter_eq, ← List.foldl_append, ← tokens_append, ih h.2,
      List.flatten_cons, List.append_assoc]

variable {T : Type*} (ghostty : Ghostty T)

/-- **The mirror has the flag of the last save or reset on the primary screen** after all reads the
searches of whose segments come out right. -/
theorem savedCursor_iff_savesLast (primary : T) (reads : List Bytes)
    (h : AllRight [] (scanReads reads).segments) :
    (feeds ghostty primary reads).1.savedCursor = true ↔
      SavesLast (primaryPart false reads.flatten).1 := by
  obtain ⟨hshort, hstart⟩ := pending_scanReads reads
  have hwhole := primaryPart_scanReads reads []
  rw [List.append_nil, List.append_nil, primaryPart_short hshort] at hwhole
  have hheld : (if (scanReads reads).alternate then [] else (scanReads reads).pending) <+:
      switchOn := by
    split
    · exact List.nil_prefix
    · next hprimary => exact hstart (Bool.eq_false_iff.mpr hprimary)
  have hsegments := foldl_savedAfter h
  rw [tokens_nil, List.foldl_nil, List.nil_append] at hsegments
  rw [feeds_eq, hwhole, savesLast_append_iff hheld, savesLast_iff_foldl, hsegments]

/-- A single read without a switch is one segment. -/
theorem scanReads_singleton {data : Bytes} (hne : data ≠ [])
    (hindex : bytesIndex switchOn data = none)
    (hheld : heldSuffix data (switchOn.length - 1) = 0) :
    scanReads [data] = ⟨[data], false, []⟩ := by
  have hscan := scanLoop_false hne
  rw [hindex] at hscan
  dsimp only at hscan
  rw [hheld, Nat.sub_zero, List.take_length, List.drop_length] at hscan
  rw [scanReads, List.foldl_cons, List.foldl_nil, scanRead]
  dsimp only
  rw [List.nil_append, List.nil_append, hscan, asSegments, if_neg hne]

/-- A program resets the terminal and then saves the cursor, in one read. -/
theorem not_savedCursor_iff_savesLast :
    ¬ ∀ (T : Type) (ghostty : Ghostty T) (primary : T) (reads : List Bytes),
      (feeds ghostty primary reads).1.savedCursor = true ↔
        SavesLast (primaryPart false reads.flatten).1 := by
  intro hall
  let idle : Ghostty Unit := {
    write := fun terminal _ => terminal
    resize := fun terminal _ _ _ _ => (terminal, none)
    format := fun _ => .ok []
    savedCursorSeed := fun _ => .ok []
    graphicsSeed := fun _ => .ok [] }
  have hflag := hall Unit idle () [ascii "\x1bc\x1b7"]
  have hscan : scanReads [ascii "\x1bc\x1b7"] = _ :=
    scanReads_singleton (by decide) (by decide) (by decide)
  have hvalid : ∀ token ∈ [resetToken, saveToken], token.Valid :=
    List.forall_mem_cons.mpr ⟨valid_resetToken, List.forall_mem_singleton.mpr valid_saveToken⟩
  have hdata : ascii "\x1bc\x1b7" = [resetToken, saveToken].flatMap ModeToken.code := by decide
  have hpart : primaryPart false (ascii "\x1bc\x1b7") = (ascii "\x1bc\x1b7", false) :=
    primaryPart_short (by decide)
  have hlast : SavesLast (ascii "\x1bc\x1b7") := by
    rw [SavesLast, hdata, tokens_flatMap hvalid]
    decide
  rw [feeds_eq, hscan, List.flatten_singleton, hpart] at hflag
  exact absurd (hflag.mpr hlast) (by decide)

/-- The cursor is saved, and the output goes on. -/
theorem savedCursor_iff_savesLast_save :
    (feeds ({ write := fun fed data => fed ++ data
              resize := fun fed _ _ _ _ => (fed, none)
              format := .ok
              savedCursorSeed := .ok
              graphicsSeed := .ok } : Ghostty Bytes) [] [ascii "\x1b7"]).1.savedCursor = true ↔
      SavesLast (primaryPart false [ascii "\x1b7"].flatten).1 := by
  have hscan : scanReads [ascii "\x1b7"] = _ :=
    scanReads_singleton (by decide) (by decide) (by decide)
  have hvalid : ∀ token ∈ [saveToken], token.Valid :=
    List.forall_mem_singleton.mpr valid_saveToken
  have htokens : newTokens [] (ascii "\x1b7") = [saveToken] := by
    have hdata : ascii "\x1b7" = [saveToken].flatMap ModeToken.code := by decide
    rw [newTokens_nil, hdata, tokens_flatMap hvalid]
  refine savedCursor_iff_savesLast _ [] [ascii "\x1b7"] ?_
  rw [hscan]
  refine ⟨⟨?_, ?_, ?_⟩, trivial⟩
  · rw [← isSome_bytesIndex_iff, htokens]
    decide
  · rw [← isSome_bytesIndex_iff, htokens]
    decide
  · rw [htokens]
    decide

end AgentCockpit.Mux
