import AgentCockpit.Core.Joined
import Mathlib.Data.List.Infix

/-!
# Blocks

A text of blocks has two separators between one block and the next. Within a block separators stand
alone, as they do between the lines of a block. The text is cut at each run of two or more
separators.

## Main results

* `filterMap_splitBlocks` — **the blocks of a text are those that it was made of**
-/

namespace AgentCockpit.Core

variable {α β : Type*} [DecidableEq α] {sep : α} {block rest : List α}
  {blocks words : List (List α)}

/-- Cut at each run of two or more separators, as long as it is. -/
def splitBlocks (sep : α) : List α → List (List α)
  | [] => [[]]
  | [a] => [[a]]
  | a :: b :: rest =>
    if a = sep ∧ b = sep then [] :: splitBlocks sep (rest.dropWhile (· = sep))
    else (splitBlocks sep (b :: rest)).modifyHead (a :: ·)
termination_by text => text.length
decreasing_by
  · have := (List.dropWhile_sublist (fun a => decide (a = sep)) (l := rest)).length_le
    simp only [List.length_cons]
    omega
  · simp

/-- Separators stand alone in it, and none at an end. -/
structure IsBlock (sep : α) (block : List α) : Prop where
  head : block.head? ≠ some sep
  last : block.getLast? ≠ some sep
  apart : ¬ [sep, sep] <:+: block

theorem splitBlocks_sep_sep (rest : List α) :
    splitBlocks sep (sep :: sep :: rest) = [] :: splitBlocks sep (rest.dropWhile (· = sep)) := by
  rw [splitBlocks, if_pos ⟨rfl, rfl⟩]

theorem splitBlocks_cons_cons {a b : α} (h : ¬ (a = sep ∧ b = sep)) :
    splitBlocks sep (a :: b :: rest) = (splitBlocks sep (b :: rest)).modifyHead (a :: ·) := by
  rw [splitBlocks, if_neg h]

/-- A text without a cut goes on in the first block behind it. -/
theorem splitBlocks_append (hlast : block.getLast? ≠ some sep) (hapart : ¬ [sep, sep] <:+: block)
    (rest : List α) :
    splitBlocks sep (block ++ rest) = (splitBlocks sep rest).modifyHead (block ++ ·) := by
  induction block with
  | nil => exact (congrFun List.modifyHead_id _).symm
  | cons a block ih =>
    cases block with
    | nil =>
      have ha : a ≠ sep := fun heq => hlast (congrArg some heq)
      cases rest with
      | nil => simp [splitBlocks]
      | cons b rest => exact splitBlocks_cons_cons fun hboth => ha hboth.1
    | cons b block =>
      -- no cut begins inside the block
      have hboth : ¬ (a = sep ∧ b = sep) := by
        rintro ⟨rfl, rfl⟩
        exact hapart ⟨[], block, rfl⟩
      have htail : ¬ [sep, sep] <:+: b :: block := fun htail => hapart (List.infix_cons htail)
      rw [List.getLast?_cons_cons] at hlast
      rw [List.cons_append, List.cons_append, splitBlocks_cons_cons hboth, ← List.cons_append,
        ih hlast htail, List.modifyHead_modifyHead]
      rfl

/-- A block ends where another one follows. -/
theorem splitBlocks_block {a : α} (h : IsBlock sep block) (ha : a ≠ sep) :
    splitBlocks sep (block ++ sep :: sep :: a :: rest) = block :: splitBlocks sep (a :: rest) := by
  have hdrop : (a :: rest).dropWhile (· = sep) = a :: rest := by simp [ha]
  rw [splitBlocks_append h.last h.apart, splitBlocks_sep_sep, hdrop, List.modifyHead_cons,
    List.append_nil]

/-- Lines that are not empty make a block. -/
theorem isBlock_join (hfree : ∀ word ∈ words, sep ∉ word) (hnil : [] ∉ words)
    (hwords : words ≠ []) : IsBlock sep (join sep words) := by
  have hsplit := splitOn_join hfree hwords
  -- wherever it is cut, there is an empty word
  refine ⟨fun hhead => ?_, fun hlast => ?_, ?_⟩
  · obtain ⟨tail, htail⟩ := List.head?_eq_some_iff.mp hhead
    have hcut : ([] ++ sep :: tail).splitOn sep = words := htail ▸ hsplit
    rw [List.splitOn_append_cons_self, List.splitOn_nil] at hcut
    exact hnil (hcut ▸ List.mem_append_left _ List.mem_cons_self)
  · obtain ⟨front, hfront⟩ := List.getLast?_eq_some_iff.mp hlast
    have hcut : (front ++ sep :: []).splitOn sep = words := hfront ▸ hsplit
    rw [List.splitOn_append_cons_self, List.splitOn_nil] at hcut
    exact hnil (hcut ▸ List.mem_append_right _ List.mem_cons_self)
  · rintro ⟨front, tail, htext⟩
    have hcut : (front ++ sep :: ([] ++ sep :: tail)).splitOn sep = words := by
      rw [← hsplit, ← htext]
      simp
    rw [List.splitOn_append_cons_self, List.splitOn_append_cons_self, List.splitOn_nil] at hcut
    exact hnil (hcut ▸ List.mem_append_right _ (List.mem_append_left _ List.mem_cons_self))

/-- What is read from separators behind a block. -/
theorem filterMap_modifyHead_replicate {read : List α → Option β} (hnil : read [] = none)
    (hsep : ∀ block, read (block ++ [sep]) = read block) (block : List α) (n : ℕ) :
    ((splitBlocks sep (List.replicate n sep)).modifyHead (block ++ ·)).filterMap read =
      [block].filterMap read := by
  match n with
  | 0 => simp [splitBlocks]
  | 1 => simp [splitBlocks, List.filterMap_cons, hsep]
  | n + 2 =>
    have hdrop : (List.replicate n sep).dropWhile (· = sep) = [] := by simp
    rw [List.replicate_succ, List.replicate_succ, splitBlocks_sep_sep, hdrop]
    simp [splitBlocks, List.filterMap_cons, hnil]

/-- **The blocks of a text are those that it was made of**, however many separators are behind the
last one, if nothing is read from an empty block and a separator behind a block is not read. -/
theorem filterMap_splitBlocks {read : List α → Option β} (hnil : read [] = none)
    (hsep : ∀ block, read (block ++ [sep]) = read block)
    (hblocks : ∀ block ∈ blocks, IsBlock sep block) (hne : [] ∉ blocks) (n : ℕ) :
    (splitBlocks sep ([sep, sep].intercalate blocks ++ List.replicate n sep)).filterMap read =
      blocks.filterMap read := by
  induction blocks with
  | nil =>
    have htail := filterMap_modifyHead_replicate hnil hsep [] n
    rw [List.filterMap_cons, hnil] at htail
    exact (congrArg (List.filterMap read) (congrFun List.modifyHead_id _).symm).trans htail
  | cons block blocks ih =>
    have hblock := hblocks block List.mem_cons_self
    cases blocks with
    | nil =>
      rw [List.intercalate_singleton, splitBlocks_append hblock.last hblock.apart]
      exact filterMap_modifyHead_replicate hnil hsep block n
    | cons next blocks =>
      have hnext := hblocks next (List.mem_cons_of_mem _ List.mem_cons_self)
      obtain ⟨a, tail, rfl⟩ := List.exists_cons_of_ne_nil
        (show next ≠ [] from fun heq => hne (heq ▸ List.mem_cons_of_mem _ List.mem_cons_self))
      -- the next block does not begin with a separator, so the cut is where it was made
      have ha : ¬ a = sep := fun heq => hnext.head (congrArg some heq)
      have htail := ih (fun other hother => hblocks other (List.mem_cons_of_mem _ hother))
        fun hmem => hne (List.mem_cons_of_mem _ hmem)
      have htext : [sep, sep].intercalate (block :: (a :: tail) :: blocks) ++
          List.replicate n sep = block ++ sep :: sep :: a ::
            ([sep, sep].intercalate (tail :: blocks) ++ List.replicate n sep) := by simp
      rw [List.intercalate_cons_cons_left, List.cons_append] at htail
      rw [htext, splitBlocks_block hblock ha, List.filterMap_cons, htail, ← List.filterMap_cons]

/-! ### Lines -/

section Lines

variable {σ : Type*} {step : σ → List α → σ}

theorem foldl_splitOn_append_cons (front rest : List α) (s : σ) :
    ((front ++ sep :: rest).splitOn sep).foldl step s =
      (rest.splitOn sep).foldl step ((front.splitOn sep).foldl step s) := by
  rw [List.splitOn_append_cons_self, List.foldl_append]

theorem foldl_splitOn_replicate (hblank : ∀ s, step s [] = s) (n : ℕ) (s : σ) :
    ((List.replicate n sep).splitOn sep).foldl step s = s := by
  induction n generalizing s with
  | zero => simp [hblank]
  | succ n ih =>
    rw [List.replicate_succ, ← List.nil_append (sep :: _), foldl_splitOn_append_cons, ih]
    simp [hblank]

theorem foldl_splitOn_join (hblank : ∀ s, step s [] = s) (hfree : ∀ word ∈ words, sep ∉ word)
    (s : σ) : ((join sep words).splitOn sep).foldl step s = words.foldl step s := by
  by_cases hwords : words = []
  · subst hwords
    simp [hblank]
  · rw [splitOn_join hfree hwords]

/-- A reader that passes over empty lines reads the lines of all blocks, one after another. -/
theorem foldl_splitOn_blocks (hblank : ∀ s, step s [] = s) {pages : List (List (List α))}
    (hfree : ∀ page ∈ pages, ∀ word ∈ page, sep ∉ word) (n : ℕ) (s : σ) :
    (([sep, sep].intercalate (pages.map (join sep)) ++ List.replicate n sep).splitOn sep).foldl
      step s = pages.flatten.foldl step s := by
  induction pages generalizing s with
  | nil => exact foldl_splitOn_replicate hblank n s
  | cons page pages ih =>
    have hpage := hfree page List.mem_cons_self
    have hpages : ∀ other ∈ pages, ∀ word ∈ other, sep ∉ word :=
      fun other hother => hfree other (List.mem_cons_of_mem _ hother)
    cases pages with
    | nil =>
      rw [List.map_singleton, List.intercalate_singleton, List.flatten_singleton]
      cases n with
      | zero => rw [List.replicate_zero, List.append_nil, foldl_splitOn_join hblank hpage]
      | succ n =>
        rw [List.replicate_succ, foldl_splitOn_append_cons, foldl_splitOn_join hblank hpage,
          foldl_splitOn_replicate hblank]
    | cons next pages =>
      -- the blank line between two blocks
      have htext : [sep, sep].intercalate ((page :: next :: pages).map (join sep)) ++
          List.replicate n sep = join sep page ++ sep :: ([] ++ sep ::
            ([sep, sep].intercalate ((next :: pages).map (join sep)) ++ List.replicate n sep)) := by
        simp
      rw [htext, foldl_splitOn_append_cons, foldl_splitOn_append_cons,
        foldl_splitOn_join hblank hpage, ih hpages, List.splitOn_nil, List.foldl_cons,
        List.foldl_nil, hblank, ← List.foldl_append, ← List.flatten_cons]

end Lines

end AgentCockpit.Core
