import Mathlib.Data.List.Basic

/-!
# Joined words

Words over an alphabet are joined by a separator that does not occur in them, as the names of a path
are joined by slashes. Joining and splitting are inverse to each other, so that tests on the joined
text can be read as tests on the list of words.
-/

namespace AgentCockpit.Core

variable {α : Type*} {sep : α} {words other : List (List α)} {word : List α}

/-- Texts are compared letter by letter. -/
instance lawfulBEqText : LawfulBEq (List Char) := inferInstance

/-- A text splits at the first separator in one way. -/
theorem of_append_cons_eq {first second front back : List α} (hfirst : sep ∉ first)
    (hsecond : sep ∉ second) (h : first ++ sep :: front = second ++ sep :: back) :
    first = second ∧ front = back := by
  induction first generalizing second with
  | nil =>
    cases second with
    | nil => exact ⟨rfl, (List.cons.inj h).2⟩
    | cons b second => exact absurd ((List.cons.inj h).1 ▸ List.mem_cons_self) hsecond
  | cons a first ih =>
    cases second with
    | nil => exact absurd ((List.cons.inj h).1.symm ▸ List.mem_cons_self) hfirst
    | cons b second =>
      obtain ⟨rfl, htail⟩ := List.cons.inj h
      obtain ⟨rfl, rfl⟩ := ih (fun hmem => hfirst (List.mem_cons_of_mem _ hmem))
        (fun hmem => hsecond (List.mem_cons_of_mem _ hmem)) htail
      exact ⟨rfl, rfl⟩

/-- The words, with the separator between them. -/
def join (sep : α) (words : List (List α)) : List α := [sep].intercalate words

@[simp] theorem join_nil : join sep ([] : List (List α)) = [] := rfl

@[simp] theorem join_singleton : join sep [word] = word := by
  simp [join]

@[simp] theorem join_cons_cons {next : List α} :
    join sep (word :: next :: words) = word ++ sep :: join sep (next :: words) := by
  simp [join]

theorem join_append (hwords : words ≠ []) (hother : other ≠ []) :
    join sep (words ++ other) = join sep words ++ sep :: join sep other := by
  induction words with
  | nil => exact absurd rfl hwords
  | cons word words ih =>
    cases words with
    | nil =>
      obtain ⟨next, rest, rfl⟩ := List.exists_cons_of_ne_nil hother
      simp
    | cons next rest =>
      have htail := ih (List.cons_ne_nil _ _)
      simp only [List.cons_append, join_cons_cons] at htail ⊢
      rw [htail, List.append_assoc, List.cons_append]

/-- What begins a text without a separator begins its first word. -/
theorem prefix_join_cons_iff {first : List α} (hword : sep ∉ word) :
    word <+: join sep (first :: words) ↔ word <+: first := by
  cases words with
  | nil => rw [join_singleton]
  | cons next rest =>
    rw [join_cons_cons]
    constructor
    · intro h
      obtain hfirst | ⟨tail, rfl⟩ :=
        List.prefix_or_prefix_of_prefix h (List.prefix_append first _)
      · exact hfirst
      · have htail := (List.prefix_append_right_inj first).mp h
        cases tail with
        | nil => simp
        | cons letter tail =>
          -- The word would go on with the separator.
          have hsep : letter = sep := (List.cons_prefix_cons.mp htail).1
          exact absurd (by simp [hsep]) hword
    · exact fun h => h.trans (List.prefix_append _ _)

variable [DecidableEq α]

theorem splitOn_join (hfree : ∀ word ∈ words, sep ∉ word) (hwords : words ≠ []) :
    (join sep words).splitOn sep = words :=
  List.splitOn_intercalate sep hfree hwords

/-- Each word has a separator behind it. -/
theorem splitOn_flatMap_append (hfree : ∀ word ∈ words, sep ∉ word) :
    (words.flatMap (· ++ [sep])).splitOn sep = words ++ [[]] := by
  induction words with
  | nil => rfl
  | cons word words ih =>
    rw [List.flatMap_cons, List.append_assoc, List.singleton_append,
      List.splitOn_append_cons_self_of_not_mem (hfree word List.mem_cons_self),
      ih fun later hlater => hfree later (List.mem_cons_of_mem _ hlater)]
    rfl

theorem join_splitOn (text : List α) : join sep (text.splitOn sep) = text :=
  List.intercalate_splitOn sep

/-- The words of a text are free of the separator. -/
theorem notMem_of_mem_splitOn {text : List α} (h : word ∈ text.splitOn sep) : sep ∉ word := by
  induction text generalizing word with
  | nil =>
    obtain rfl : word = [] := by simpa using h
    exact List.not_mem_nil
  | cons letter text ih =>
    obtain ⟨first, rest, hsplit⟩ := List.exists_cons_of_ne_nil (List.splitOn_ne_nil sep text)
    rw [List.splitOn_cons_eq_if_modifyHead, hsplit] at h
    rw [hsplit] at ih
    by_cases hletter : letter = sep
    · rw [if_pos (beq_iff_eq.mpr hletter)] at h
      rcases List.mem_cons.mp h with rfl | hmem
      · exact List.not_mem_nil
      · exact ih hmem
    · rw [if_neg (beq_iff_eq.not.mpr hletter), List.modifyHead_cons] at h
      rcases List.mem_cons.mp h with rfl | hmem
      · have hfirst := ih List.mem_cons_self
        simp [hfirst, Ne.symm hletter]
      · exact ih (List.mem_cons_of_mem _ hmem)

/-- Cutting at a separator commutes with cutting the text in two. -/
theorem splitOn_append (sep : α) (first rest : List α) :
    (first ++ rest).splitOn sep =
      (first.splitOn sep).dropLast ++
        ((first.splitOn sep).getLast?.getD [] ++ rest).splitOn sep := by
  induction first with
  | nil => simp
  | cons c first ih =>
    rw [List.cons_append, List.splitOn_cons_eq_if_modifyHead, List.splitOn_cons_eq_if_modifyHead]
    obtain ⟨head, tail, hpieces⟩ :=
      List.exists_cons_of_ne_nil (List.splitOn_ne_nil sep first)
    split
    · rw [ih, hpieces]
      simp
    · rw [ih, hpieces]
      cases tail with
      | nil =>
        simp only [List.modifyHead_cons, List.dropLast_singleton, List.nil_append,
          List.getLast?_singleton, Option.getD_some, List.cons_append]
        rw [List.splitOn_cons_eq_if_modifyHead, if_neg ‹_›]
      | cons next tail => simp [List.dropLast_cons_of_ne_nil]

/-- The last piece is the end of the text. -/
theorem getLast_splitOn_suffix (sep : α) (text : List α) :
    (text.splitOn sep).getLast?.getD [] <:+ text := by
  induction text with
  | nil => simp
  | cons c text ih =>
    rw [List.splitOn_cons_eq_if_modifyHead]
    obtain ⟨head, tail, hpieces⟩ :=
      List.exists_cons_of_ne_nil (List.splitOn_ne_nil sep text)
    rw [hpieces] at ih ⊢
    split
    · exact (by simpa using ih : _ <:+ text).trans (List.suffix_cons c text)
    · cases tail with
      | nil =>
        simp only [List.modifyHead_cons, List.getLast?_singleton, Option.getD_some] at ih ⊢
        have hwhole : head = text := by
          have hjoin : [sep].intercalate (text.splitOn sep) = text := List.intercalate_splitOn sep
          rw [hpieces] at hjoin
          simpa using hjoin
        subst hwhole
        exact List.suffix_refl _
      | cons next tail =>
        simp only [List.modifyHead_cons, List.getLast?_cons_cons] at ih ⊢
        exact ih.trans (List.suffix_cons c text)

theorem splitOn_eq_iff {text : List α} (hfree : ∀ word ∈ words, sep ∉ word) (hwords : words ≠ []) :
    text.splitOn sep = words ↔ text = join sep words := by
  constructor
  · rintro rfl
    exact (join_splitOn text).symm
  · rintro rfl
    exact splitOn_join hfree hwords

theorem join_eq_join (hfree : ∀ word ∈ words, sep ∉ word) (hwords : words ≠ [])
    (hfree' : ∀ word ∈ other, sep ∉ word) (hother : other ≠ []) :
    join sep words = join sep other ↔ words = other := by
  constructor
  · intro h
    rw [← splitOn_join hfree hwords, h, splitOn_join hfree' hother]
  · exact congrArg _

/-- A text is another one, or extends it at a separator, if its words extend the other's. -/
theorem join_prefix_iff (hfree : ∀ word ∈ words, sep ∉ word) (hwords : words ≠ [])
    (hfree' : ∀ word ∈ other, sep ∉ word) (hother : other ≠ []) :
    join sep words = join sep other ∨ join sep words ++ [sep] <+: join sep other ↔
      words <+: other := by
  constructor
  · rintro (h | ⟨text, h⟩)
    · obtain rfl := (join_eq_join hfree hwords hfree' hother).mp h
      exact List.prefix_rfl
    · have hsplit : (join sep words ++ sep :: text).splitOn sep = other := by
        rw [← splitOn_join hfree' hother, ← h, List.append_assoc]
        rfl
      rw [List.splitOn_append_cons_self, splitOn_join hfree hwords] at hsplit
      exact ⟨_, hsplit⟩
  · rintro ⟨rest, rfl⟩
    by_cases hrest : rest = []
    · exact .inl (by rw [hrest, List.append_nil])
    · right
      rw [join_append hwords hrest]
      exact ⟨join sep rest, by simp⟩

/-- Leading separators are leading empty words. -/
theorem splitOn_dropWhile (text : List α) :
    (if text.dropWhile (· = sep) = [] then [] else (text.dropWhile (· = sep)).splitOn sep) =
      (text.splitOn sep).dropWhile (· = []) := by
  induction text with
  | nil => simp
  | cons letter text ih =>
    rw [List.splitOn_cons_eq_if_modifyHead]
    by_cases hletter : letter = sep
    · simpa [hletter, List.dropWhile_cons] using ih
    · obtain ⟨first, rest, hsplit⟩ := List.exists_cons_of_ne_nil (List.splitOn_ne_nil sep text)
      simp [hletter, hsplit, List.splitOn_cons_eq_if_modifyHead]

/-- The letter `also` is read as the separator. -/
def asSep (sep also : α) (letter : α) : α := if letter = also then sep else letter

theorem splitOn_map_asSep {also : α} (hword : sep ∉ word) :
    (word.map (asSep sep also)).splitOn sep = word.splitOn also := by
  induction word with
  | nil => simp
  | cons letter word ih =>
    have hletter : letter ≠ sep := fun h => hword (h ▸ List.mem_cons_self)
    rw [List.map_cons, List.splitOn_cons_eq_if_modifyHead, List.splitOn_cons_eq_if_modifyHead,
      ih fun h => hword (List.mem_cons_of_mem _ h)]
    by_cases halso : letter = also
    · simp [asSep, halso]
    · simp [asSep, halso, hletter]

/-- A text in which a second letter is read as a separator: its words are split further. -/
theorem splitOn_map_join {also : α} (hfree : ∀ word ∈ words, sep ∉ word) (hwords : words ≠ []) :
    ((join sep words).map (asSep sep also)).splitOn sep =
      words.flatMap fun word => word.splitOn also := by
  induction words with
  | nil => exact absurd rfl hwords
  | cons word words ih =>
    have hhead : _ = word.splitOn also := splitOn_map_asSep (hfree word List.mem_cons_self)
    cases words with
    | nil => simpa using hhead
    | cons next rest =>
      have htail := ih (fun word hmem => hfree word (List.mem_cons_of_mem _ hmem)) (by simp)
      have hsep : asSep sep also sep = sep := by
        by_cases h : sep = also <;> simp [asSep, h]
      rw [join_cons_cons, List.map_append, List.map_cons, hsep, List.splitOn_append_cons_self,
        hhead, htail]
      rfl

end AgentCockpit.Core
