import AgentCockpit.Core.CommonSubsequence
import Mathlib

/-!
# Word diff

Two texts are cut into words and what stands between words, the two lists of tokens are aligned at a
longest common subsequence, and what lies between two anchors is deleted or added. Tokens of one
kind in a row make one segment. Which characters belong to words is left open.

## Main results

* `wordDiff_exact` — **the segments make up both texts, and none of the diffs keeps more tokens**
-/

namespace AgentCockpit.Renderer.WordDiff

open AgentCockpit.Core

inductive SegmentKind
  | equal
  | del
  | add
  deriving DecidableEq, Repr

structure WordDiffSegment (κ : Type*) where
  kind : SegmentKind
  text : List κ
  deriving DecidableEq

def maxWordDiffTokens : ℕ := 600

inductive WordDiffResult (κ : Type*)
  | clean (segments : List (WordDiffSegment κ))
  | unclean (reason : String)

variable {κ : Type*}

/-- The maximal runs of characters of words, and those of other characters. -/
def tokenizeWords (isWordChar : κ → Bool) (text : List κ) : List (List κ) :=
  text.splitBy fun c d => isWordChar c == isWordChar d

/-- A token joins the last segment if that is of its kind. -/
def push (segments : List (WordDiffSegment κ)) (kind : SegmentKind) (value : List κ) :
    List (WordDiffSegment κ) :=
  if value = [] then segments
  else
    match segments.getLast? with
    | some last =>
      if last.kind = kind then segments.dropLast ++ [{ last with text := last.text ++ value }]
      else segments ++ [⟨kind, value⟩]
    | none => [⟨kind, value⟩]

/-- The tokens between two positions. -/
def between (tokens : List (List κ)) (start stop : ℕ) : List (List κ) :=
  (tokens.take stop).drop start

def pushAll (kind : SegmentKind) (segments : List (WordDiffSegment κ)) (tokens : List (List κ)) :
    List (WordDiffSegment κ) :=
  tokens.foldl (push · kind ·) segments

/-- The segments from a cursor in each list on. -/
def diffAnchors (oldTokens newTokens : List (List κ)) :
    List (WordDiffSegment κ) → ℕ → ℕ → List (ℕ × ℕ) → List (WordDiffSegment κ)
  | segments, oldCursor, newCursor, [] =>
    pushAll .add (pushAll .del segments (oldTokens.drop oldCursor)) (newTokens.drop newCursor)
  | segments, oldCursor, newCursor, (oldAt, newAt) :: anchors =>
    let deleted := pushAll .del segments (between oldTokens oldCursor oldAt)
    let added := pushAll .add deleted (between newTokens newCursor newAt)
    diffAnchors oldTokens newTokens (push added .equal (newTokens.getD newAt []))
      (oldAt + 1) (newAt + 1) anchors

def diffTokens [DecidableEq κ] (oldTokens newTokens : List (List κ)) : List (WordDiffSegment κ) :=
  diffAnchors oldTokens newTokens [] 0 0 (longestCommonSubsequence oldTokens newTokens)

def wordDiff [DecidableEq κ] (isWordChar : κ → Bool) (oldText newText : List κ) :
    List (WordDiffSegment κ) :=
  diffTokens (tokenizeWords isWordChar oldText) (tokenizeWords isWordChar newText)

def computeWordDiff [DecidableEq κ] (isWordChar : κ → Bool) (oldText newText : List κ) :
    WordDiffResult κ :=
  let oldTokens := tokenizeWords isWordChar oldText
  let newTokens := tokenizeWords isWordChar newText
  if maxWordDiffTokens < oldTokens.length ∨ maxWordDiffTokens < newTokens.length then
    .unclean "item is too large for a word-level diff"
  else
    let segments := diffTokens oldTokens newTokens
    if segments.any (·.kind ≠ .equal) then .clean segments
    else .unclean "no word-level change detected"

/-! ### The script -/

/-- The tokens of the diff, from a cursor in each list on. -/
def script (oldTokens newTokens : List (List κ)) :
    ℕ → ℕ → List (ℕ × ℕ) → List (SegmentKind × List κ)
  | oldCursor, newCursor, [] =>
    (oldTokens.drop oldCursor).map (.del, ·) ++ (newTokens.drop newCursor).map (.add, ·)
  | oldCursor, newCursor, (oldAt, newAt) :: anchors =>
    (between oldTokens oldCursor oldAt).map (.del, ·) ++
      ((between newTokens newCursor newAt).map (.add, ·) ++
        (.equal, newTokens.getD newAt []) :: script oldTokens newTokens (oldAt + 1) (newAt + 1)
          anchors)

variable {oldTokens newTokens : List (List κ)} {oldCursor newCursor : ℕ}
  {anchors : List (ℕ × ℕ)} {segments : List (WordDiffSegment κ)}

theorem pushAll_eq (kind : SegmentKind) (tokens : List (List κ)) :
    pushAll kind segments tokens =
      (tokens.map (kind, ·)).foldl (fun segments token => push segments token.1 token.2)
        segments := by
  rw [pushAll, List.foldl_map]

theorem diffAnchors_eq (segments : List (WordDiffSegment κ)) :
    diffAnchors oldTokens newTokens segments oldCursor newCursor anchors =
      (script oldTokens newTokens oldCursor newCursor anchors).foldl
        (fun segments token => push segments token.1 token.2) segments := by
  induction anchors generalizing segments oldCursor newCursor with
  | nil => rw [diffAnchors, script, List.foldl_append, pushAll_eq, pushAll_eq]
  | cons anchor anchors ih =>
    rw [diffAnchors, script, List.foldl_append, List.foldl_append, List.foldl_cons, ih, pushAll_eq,
      pushAll_eq]

theorem between_append {tokens : List (List κ)} {start stop : ℕ} (hle : start ≤ stop)
    (hstop : stop < tokens.length) :
    between tokens start stop ++ tokens[stop] :: tokens.drop (stop + 1) = tokens.drop start := by
  have htake : start ≤ (tokens.take stop).length := by
    rw [List.length_take]
    omega
  rw [between, ← List.drop_eq_getElem_cons hstop, ← List.drop_append_of_le_length htake,
    List.take_append_drop]

/-- Without what is added the script is the old text. -/
theorem old_script (h : Anchored oldTokens newTokens oldCursor newCursor anchors) :
    ((script oldTokens newTokens oldCursor newCursor anchors).filter (·.1 ≠ .add)).map Prod.snd =
      oldTokens.drop oldCursor := by
  induction h with
  | nil => simp [script, -List.map_drop, List.filter_map, Function.comp_def]
  | cons hi hj hold hnew heq hrest ih =>
    rw [← between_append hi hold, ← ih]
    simp [script, List.filter_map, Function.comp_def, hnew, heq]

/-- Without what is deleted the script is the new text. -/
theorem new_script (h : Anchored oldTokens newTokens oldCursor newCursor anchors) :
    ((script oldTokens newTokens oldCursor newCursor anchors).filter (·.1 ≠ .del)).map Prod.snd =
      newTokens.drop newCursor := by
  induction h with
  | nil => simp [script, -List.map_drop, List.filter_map, Function.comp_def]
  | cons hi hj hold hnew heq hrest ih =>
    rw [← between_append hj hnew, ← ih]
    simp [script, List.filter_map, Function.comp_def, hnew]

theorem length_equal_script :
    ((script oldTokens newTokens oldCursor newCursor anchors).filter (·.1 = .equal)).length =
      anchors.length := by
  induction anchors generalizing oldCursor newCursor with
  | nil => simp [script, -List.map_drop, List.filter_map, Function.comp_def]
  | cons anchor anchors ih => simp [script, List.filter_map, Function.comp_def, ih]

/-! ### Runs -/

/-- Tokens of one kind in a row. -/
structure TokenRun (κ : Type*) where
  kind : SegmentKind
  tokens : List (List κ)

def TokenRun.segment (run : TokenRun κ) : WordDiffSegment κ := ⟨run.kind, run.tokens.flatten⟩

def TokenRun.script (run : TokenRun κ) : List (SegmentKind × List κ) := run.tokens.map (run.kind, ·)

/-- Tokens that are put together make one segment of each run. -/
theorem exists_runs (tokens : List (SegmentKind × List κ)) (hne : ∀ token ∈ tokens, token.2 ≠ []) :
    ∃ runs : List (TokenRun κ), runs.flatMap TokenRun.script = tokens ∧
      tokens.foldl (fun segments token => push segments token.1 token.2) [] =
        runs.map TokenRun.segment ∧
      runs.IsChain (·.kind ≠ ·.kind) ∧
      ∀ run ∈ runs, run.segment.text ≠ [] := by
  induction tokens using List.reverseRecOn with
  | nil => exact ⟨[], rfl, rfl, .nil, nofun⟩
  | append_singleton tokens token ih =>
    obtain ⟨runs, hscript, hsegments, hchain, htext⟩ :=
      ih fun other hother => hne other (List.mem_append_left _ hother)
    have hvalue : token.2 ≠ [] := hne token (by simp)
    rw [List.foldl_append, hsegments, List.foldl_cons, List.foldl_nil, push, if_neg hvalue]
    rcases List.eq_nil_or_concat runs with rfl | ⟨front, last, rfl⟩
    · refine ⟨[⟨token.1, [token.2]⟩], ?_, ?_, .singleton _, ?_⟩
      · simp [TokenRun.script, ← hscript]
      · simp [TokenRun.segment]
      · simpa [TokenRun.segment] using hvalue
    · by_cases hkind : last.kind = token.1
      · -- The token joins the last run.
        refine ⟨front ++ [⟨last.kind, last.tokens ++ [token.2]⟩], ?_, ?_, ?_, ?_⟩
        · rw [← hscript]
          simp [TokenRun.script, hkind]
        · simp [TokenRun.segment, hkind]
        · rw [List.concat_eq_append, List.isChain_append] at hchain
          rw [List.isChain_append]
          exact ⟨hchain.1, .singleton _, fun x hx y hy => by
            rw [List.head?_cons, Option.mem_some_iff] at hy
            exact hy ▸ hchain.2.2 x hx last rfl⟩
        · intro run hrun
          rcases List.mem_append.mp hrun with hfront | hlast
          · exact htext run (by simp [hfront])
          · rw [List.mem_singleton.mp hlast]
            simpa [TokenRun.segment] using fun _ => hvalue
      · refine ⟨front.concat last ++ [⟨token.1, [token.2]⟩], ?_, ?_, ?_, ?_⟩
        · rw [List.flatMap_append, hscript]
          simp [TokenRun.script]
        · simp [TokenRun.segment, hkind]
        · rw [List.isChain_append]
          refine ⟨hchain, .singleton _, fun x hx y hy => ?_⟩
          rw [List.concat_eq_append, List.getLast?_concat, Option.mem_some_iff] at hx
          rw [List.head?_cons, Option.mem_some_iff] at hy
          rw [← hx, ← hy]
          exact hkind
        · intro run hrun
          rcases List.mem_append.mp hrun with hfront | hlast
          · exact htext run hfront
          · rw [List.mem_singleton.mp hlast]
            simpa [TokenRun.segment] using hvalue

/-- The segments of some kinds make up the tokens of these kinds. -/
theorem flatMap_text_runs (p : SegmentKind → Bool) (runs : List (TokenRun κ)) :
    ((runs.map TokenRun.segment).filter fun segment => p segment.kind).flatMap (·.text) =
      (((runs.flatMap TokenRun.script).filter fun token => p token.1).map Prod.snd).flatten := by
  induction runs with
  | nil => rfl
  | cons run runs ih =>
    rw [List.map_cons, List.filter_cons, List.flatMap_cons, List.filter_append, List.map_append,
      List.flatten_append, ← ih]
    cases hp : p run.kind with
    | true => simp [TokenRun.segment, TokenRun.script, hp, List.filter_map, Function.comp_def]
    | false => simp [TokenRun.segment, TokenRun.script, hp, List.filter_map, Function.comp_def]

/-! ### The word diff -/

variable (isWordChar : κ → Bool)

theorem ne_nil_of_mem_script {a b : List κ}
    (h : Anchored (tokenizeWords isWordChar a) (tokenizeWords isWordChar b) 0 0 anchors)
    {token : SegmentKind × List κ}
    (hmem : token ∈ script (tokenizeWords isWordChar a) (tokenizeWords isWordChar b) 0 0 anchors) :
    token.2 ≠ [] := by
  have hold := old_script h
  have hnew := new_script h
  by_cases hadd : token.1 = .add
  · have hnew' : token.2 ∈ tokenizeWords isWordChar b := by
      rw [← List.drop_zero (l := tokenizeWords isWordChar b), ← hnew]
      exact List.mem_map_of_mem (List.mem_filter.mpr ⟨hmem, by simp [hadd]⟩)
    exact List.ne_nil_of_mem_splitBy hnew'
  · have hold' : token.2 ∈ tokenizeWords isWordChar a := by
      rw [← List.drop_zero (l := tokenizeWords isWordChar a), ← hold]
      exact List.mem_map_of_mem (List.mem_filter.mpr ⟨hmem, by simp [hadd]⟩)
    exact List.ne_nil_of_mem_splitBy hold'

/-- Tokens in a row are the tokens of what they make up. -/
theorem tokenizeWords_flatten {text : List κ} {tokens : List (List κ)}
    (h : tokens <:+: tokenizeWords isWordChar text) :
    tokenizeWords isWordChar tokens.flatten = tokens := by
  obtain ⟨-, hne, hruns, hmaximal⟩ := List.splitBy_eq_iff.mp
    (rfl : text.splitBy (fun c d => isWordChar c == isWordChar d) = _)
  exact List.splitBy_eq_iff.mpr ⟨rfl, fun hmem => hne (h.subset hmem),
    fun run hrun => hruns run (h.subset hrun), hmaximal.infix h⟩

/-- The equal segments hold as many tokens as were found equal. -/
theorem sum_tokens_runs {text : List κ} {runs : List (TokenRun κ)}
    (h : ((runs.flatMap TokenRun.script).filter (·.1 ≠ .add)).map Prod.snd =
      (tokenizeWords isWordChar text).drop 0) :
    (((runs.map TokenRun.segment).filter (·.kind = .equal)).map
        fun segment => (tokenizeWords isWordChar segment.text).length).sum =
      ((runs.flatMap TokenRun.script).filter (·.1 = .equal)).length := by
  have hinfix : ((runs.flatMap TokenRun.script).filter (·.1 ≠ .add)).map Prod.snd <:+:
      tokenizeWords isWordChar text := by
    rw [h, List.drop_zero]
  clear h
  induction runs with
  | nil => rfl
  | cons run runs ih =>
    rw [List.flatMap_cons, List.filter_append, List.map_append] at hinfix
    have hrest := ih ((List.suffix_append _ _).isInfix.trans hinfix)
    rw [List.map_cons, List.filter_cons, List.flatMap_cons, List.filter_append, List.length_append,
      ← hrest]
    by_cases hkind : run.kind = .equal
    · -- The tokens of an equal run stand in a row in the old text.
      have hrun : run.tokens <:+: tokenizeWords isWordChar text := by
        refine List.IsInfix.trans ?_ ((List.prefix_append _ _).isInfix.trans hinfix)
        simp [TokenRun.script, hkind, List.filter_map, Function.comp_def]
      simp [TokenRun.segment, TokenRun.script, hkind, List.filter_map, Function.comp_def,
        tokenizeWords_flatten isWordChar hrun]
    · simp [TokenRun.segment, TokenRun.script, hkind, List.filter_map, Function.comp_def]

variable [DecidableEq κ]

/-- The segments are the runs of the script. -/
theorem exists_runs_wordDiff (a b : List κ) :
    ∃ runs : List (TokenRun κ),
      runs.flatMap TokenRun.script = script (tokenizeWords isWordChar a)
        (tokenizeWords isWordChar b)
        0 0 (longestCommonSubsequence (tokenizeWords isWordChar a) (tokenizeWords isWordChar b)) ∧
      wordDiff isWordChar a b = runs.map TokenRun.segment ∧
      runs.IsChain (·.kind ≠ ·.kind) ∧
      ∀ run ∈ runs, run.segment.text ≠ [] := by
  have hanchored := anchored_longestCommonSubsequence (tokenizeWords isWordChar a)
    (tokenizeWords isWordChar b)
  obtain ⟨runs, hscript, hsegments, hruns⟩ := exists_runs _
    fun _ hmem => ne_nil_of_mem_script isWordChar hanchored hmem
  rw [← diffAnchors_eq] at hsegments
  exact ⟨runs, hscript, hsegments, hruns⟩

theorem old_wordDiff (a b : List κ) :
    ((wordDiff isWordChar a b).filter (·.kind ≠ .add)).flatMap (·.text) = a := by
  obtain ⟨runs, hscript, hdiff, -⟩ := exists_runs_wordDiff isWordChar a b
  rw [hdiff, flatMap_text_runs (fun kind => kind ≠ .add), hscript,
    old_script (anchored_longestCommonSubsequence _ _)]
  exact List.flatten_splitBy _ _

theorem new_wordDiff (a b : List κ) :
    ((wordDiff isWordChar a b).filter (·.kind ≠ .del)).flatMap (·.text) = b := by
  obtain ⟨runs, hscript, hdiff, -⟩ := exists_runs_wordDiff isWordChar a b
  rw [hdiff, flatMap_text_runs (fun kind => kind ≠ .del), hscript,
    new_script (anchored_longestCommonSubsequence _ _)]
  exact List.flatten_splitBy _ _

/-- The equal segments hold the tokens of a longest common subsequence. -/
theorem sum_tokens_wordDiff (a b : List κ) :
    (((wordDiff isWordChar a b).filter (·.kind = .equal)).map
        fun segment => (tokenizeWords isWordChar segment.text).length).sum =
      lcsLength (tokenizeWords isWordChar a) (tokenizeWords isWordChar b) := by
  obtain ⟨runs, hscript, hdiff, -⟩ := exists_runs_wordDiff isWordChar a b
  have hold := old_script (anchored_longestCommonSubsequence (tokenizeWords isWordChar a)
    (tokenizeWords isWordChar b))
  rw [← hscript] at hold
  rw [hdiff, sum_tokens_runs isWordChar hold, hscript, length_equal_script,
    length_longestCommonSubsequence]

/-- The segments make up both texts, they are neither empty nor of the kind of their neighbour, and
no common subsequence of the tokens is longer than what the equal ones hold. -/
theorem wordDiff_exact (a b : List κ) :
    (tokenizeWords isWordChar a).flatten = a ∧ (tokenizeWords isWordChar b).flatten = b ∧
    ((wordDiff isWordChar a b).filter (·.kind ≠ .add)).flatMap (·.text) = a ∧
    ((wordDiff isWordChar a b).filter (·.kind ≠ .del)).flatMap (·.text) = b ∧
    (wordDiff isWordChar a b).IsChain (·.kind ≠ ·.kind) ∧
    (∀ segment ∈ wordDiff isWordChar a b, segment.text ≠ []) ∧
    ∀ common : List (List κ), common.Sublist (tokenizeWords isWordChar a) →
      common.Sublist (tokenizeWords isWordChar b) →
      common.length ≤ (((wordDiff isWordChar a b).filter (·.kind = .equal)).map
        fun segment => (tokenizeWords isWordChar segment.text).length).sum := by
  obtain ⟨runs, -, hdiff, hchain, htext⟩ := exists_runs_wordDiff isWordChar a b
  refine ⟨List.flatten_splitBy _ _, List.flatten_splitBy _ _, old_wordDiff isWordChar a b,
    new_wordDiff isWordChar a b, ?_, ?_, fun common ha hb => ?_⟩
  · rw [hdiff, List.isChain_map]
    exact hchain
  · rw [hdiff]
    simpa using htext
  · rw [sum_tokens_wordDiff]
    exact length_le_lcsLength ha hb

/-- **A change is never taken for none**, be it one of words or of what stands between them. -/
theorem computeWordDiff_ne_unclean {a b : List κ} (hne : a ≠ b) :
    computeWordDiff isWordChar a b ≠ .unclean "no word-level change detected" := by
  refine fun h => hne ?_
  have hequal : ∀ segment ∈ wordDiff isWordChar a b, segment.kind = .equal := by
    rw [computeWordDiff] at h
    by_contra hchange
    push Not at hchange
    obtain ⟨segment, hmem, hkind⟩ := hchange
    have hany : (wordDiff isWordChar a b).any (·.kind ≠ .equal) = true :=
      List.any_eq_true.mpr ⟨segment, hmem, decide_eq_true hkind⟩
    have hclean : (diffTokens (tokenizeWords isWordChar a) (tokenizeWords isWordChar b)).any
        (·.kind ≠ .equal) = true := hany
    split at h
    · simp at h
    · simp only [hclean, if_true] at h
      exact absurd h nofun
  calc a = ((wordDiff isWordChar a b).filter (·.kind ≠ .add)).flatMap (·.text) :=
        (old_wordDiff isWordChar a b).symm
    _ = ((wordDiff isWordChar a b).filter (·.kind ≠ .del)).flatMap (·.text) := by
        congr 1
        exact List.filter_congr fun segment hmem => by simp [hequal segment hmem]
    _ = b := new_wordDiff isWordChar a b

theorem computeWordDiff_ne_unclean_space :
    computeWordDiff Char.isAlphanum ['a', ' '] ['a'] ≠ .unclean "no word-level change detected" :=
  computeWordDiff_ne_unclean Char.isAlphanum (by decide)

end AgentCockpit.Renderer.WordDiff
