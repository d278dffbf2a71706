import AgentCockpit.Core.Leftmost

/-!
# Finding in rendered content

A query is looked for in each text of a document, without regard to case. The texts are lower-cased
as a whole, and the places found there are taken as places in the texts themselves. Lower case can
be longer than upper case, and what a letter is in lower case can depend on what stands around it.

## Main results

* `marksMatches_iff` — **the right matches are found exactly in such texts**
-/

namespace AgentCockpit.Renderer.FindInContent

open AgentCockpit.Core

/-- UTF-16 code units. -/
abbrev Units := List UInt16

/-- Of a document the texts matter, which elements hold. -/
inductive DomNode
  | text (nodeValue : Units)
  | element (children : List DomNode)

structure MatchPos where
  /-- The text by its number in the order of the document. -/
  node : ℕ
  start : ℕ
  stop : ℕ
  deriving DecidableEq

/-! ### The search -/

mutual

/-- The texts in the order of a tree walk. -/
def DomNode.texts : DomNode → List Units
  | .text nodeValue => [nodeValue]
  | .element children => textsOf children

def textsOf : List DomNode → List Units
  | [] => []
  | node :: nodes => node.texts ++ textsOf nodes

end

def Occurs (hay q : Units) (i : ℕ) : Prop := q <+: hay.drop i

instance (hay q : Units) : DecidablePred (Occurs hay q) := fun i =>
  inferInstanceAs (Decidable (q <+: hay.drop i))

theorem Occurs.le {hay q : Units} {i : ℕ} (h : Occurs hay q i) (hq : q ≠ []) :
    i + q.length ≤ hay.length := by
  have hlength := List.IsPrefix.length_le h
  have hpos := List.length_pos_of_ne_nil hq
  rw [List.length_drop] at hlength
  omega

/-- `hay.indexOf(q, start)` -/
def indexOf (hay q : Units) (start : ℕ) : Option ℕ :=
  if start + q.length ≤ hay.length then
    if Occurs hay q start then some start else indexOf hay q (start + 1)
  else none
termination_by hay.length + 1 - start

theorem indexOf_some {hay q : Units} {start i : ℕ} (h : indexOf hay q start = some i) :
    start ≤ i ∧ Occurs hay q i ∧ ∀ j, start ≤ j → j < i → ¬ Occurs hay q j := by
  induction start using indexOf.induct hay q with
  | case1 start hle hoccurs =>
    rw [indexOf, if_pos hle, if_pos hoccurs] at h
    obtain rfl := Option.some.inj h
    exact ⟨Nat.le_refl _, hoccurs, fun j hj hlt => absurd hj (by omega)⟩
  | case2 start hle hoccurs ih =>
    rw [indexOf, if_pos hle, if_neg hoccurs] at h
    obtain ⟨hstart, hat, hfirst⟩ := ih h
    refine ⟨by omega, hat, fun j hj hlt => ?_⟩
    rcases Nat.eq_or_lt_of_le hj with rfl | hlater
    · exact hoccurs
    · exact hfirst j hlater hlt
  | case3 start hle =>
    rw [indexOf, if_neg hle] at h
    exact absurd h nofun

theorem indexOf_none {hay q : Units} {start : ℕ} (hq : q ≠ []) (h : indexOf hay q start = none) :
    ∀ j, start ≤ j → ¬ Occurs hay q j := by
  induction start using indexOf.induct hay q with
  | case1 start hle hoccurs =>
    rw [indexOf, if_pos hle, if_pos hoccurs] at h
    exact absurd h nofun
  | case2 start hle hoccurs ih =>
    rw [indexOf, if_pos hle, if_neg hoccurs] at h
    intro j hj
    rcases Nat.eq_or_lt_of_le hj with rfl | hlater
    · exact hoccurs
    · exact ih h j hlater
  | case3 start hle =>
    intro j hj hoccurs
    have := hoccurs.le hq
    omega

theorem scan_decreases {hay q : Units} {start i : ℕ} (hq : q ≠ [])
    (h : indexOf hay q start = some i) :
    hay.length + 1 - (i + q.length) < hay.length + 1 - start := by
  obtain ⟨hstart, hoccurs, -⟩ := indexOf_some h
  have hle := hoccurs.le hq
  have hpos := List.length_pos_of_ne_nil hq
  omega

/-- The places of the query, each behind the one before it. -/
def scan (hay q : Units) (hq : q ≠ []) (start : ℕ) : List ℕ :=
  match _h : indexOf hay q start with
  | none => []
  | some i => i :: scan hay q hq (i + q.length)
termination_by hay.length + 1 - start
decreasing_by exact scan_decreases hq _h

/-- The places of the query in one text. -/
def places (toLowerCase : Units → Units) (q : Units) (hq : q ≠ []) (text : Units) : List ℕ :=
  if text = [] then [] else scan (toLowerCase text) q hq 0

/-- The matches in the texts below a node. -/
def collectMatches (toLowerCase : Units → Units) (root : List DomNode) (query : Units) :
    List MatchPos :=
  if hq : toLowerCase query = [] then []
  else (textsOf root).zipIdx.flatMap fun entry =>
    (places toLowerCase (toLowerCase query) hq entry.1).map fun i =>
      { node := entry.2, start := i, stop := i + (toLowerCase query).length }

/-! ### What is meant to be found -/

def slice (text : Units) (start stop : ℕ) : Units := (text.take stop).drop start

/-- A part of a text is the query when both are lower-cased. -/
def IsMatch (toLowerCase : Units → Units) (text query : Units) (start stop : ℕ) : Prop :=
  start ≤ stop ∧ stop ≤ text.length ∧ toLowerCase (slice text start stop) = toLowerCase query

instance (toLowerCase : Units → Units) (text query : Units) (start stop : ℕ) :
    Decidable (IsMatch toLowerCase text query start stop) := inferInstanceAs (Decidable (_ ∧ _))

structure MarksMatches (toLowerCase : Units → Units) (texts : List Units) (query : Units)
    (out : List MatchPos) : Prop where
  isMatch : ∀ m ∈ out, ∃ text, texts[m.node]? = some text ∧
    IsMatch toLowerCase text query m.start m.stop
  apart : out.Pairwise fun m m' => m.node = m'.node → m.stop ≤ m'.start
  found : ∀ node text, texts[node]? = some text →
    ∀ start stop, IsMatch toLowerCase text query start stop →
      ⟨node, start, stop⟩ ∈ out ∨ ∃ m ∈ out, m.node = node ∧ m.start < start ∧ start < m.stop

/-- The query is at a place both in the lower-cased text and in the text itself. -/
def Common (toLowerCase : Units → Units) (text query : Units) (i : ℕ) : Prop :=
  Occurs (toLowerCase text) (toLowerCase query) i ∧
    IsMatch toLowerCase text query i (i + (toLowerCase query).length)

instance (toLowerCase : Units → Units) (text query : Units) :
    DecidablePred (Common toLowerCase text query) := fun _ => inferInstanceAs (Decidable (_ ∧ _))

/-- Inside one of the common places, as they are taken from left to right. -/
def Inside (toLowerCase : Units → Units) (text query : Units) (i : ℕ) : Prop :=
  ∃ j ∈ leftmost (Common toLowerCase text query) (toLowerCase query).length (text.length + 1) 0,
    j < i ∧ i < j + (toLowerCase query).length

/-- Where the query begins in only one of the two, this is inside a common place. -/
structure InStep (toLowerCase : Units → Units) (text query : Units) : Prop where
  lowered : ∀ i, Occurs (toLowerCase text) (toLowerCase query) i →
    Common toLowerCase text query i ∨ Inside toLowerCase text query i
  sliced : ∀ start stop, IsMatch toLowerCase text query start stop →
    (Common toLowerCase text query start ∧ stop = start + (toLowerCase query).length) ∨
      Inside toLowerCase text query start

/-! ### Matches in one text -/

section OneText

variable {toLowerCase : Units → Units} {text query : Units}

/-- The search takes the occurrences from left to right. -/
theorem leftmost_scan (hay q : Units) (hq : q ≠ []) (start : ℕ) :
    Leftmost (fun i => Occurs hay q i ∧ start ≤ i) q.length (scan hay q hq start) := by
  induction start using scan.induct hay q hq with
  | case1 start hnone =>
    rw [scan]
    split
    · exact leftmost_nil fun i hi => indexOf_none hq hnone i hi.2 hi.1
    · next hsome => exact absurd (hnone.symm.trans hsome) nofun
  | case2 start i hsome ih =>
    rw [scan]
    split
    · next hnone => exact absurd (hsome.symm.trans hnone) nofun
    · next i' hsome' =>
      obtain rfl := Option.some.inj (hsome.symm.trans hsome')
      obtain ⟨hstart, hoccurs, hfirst⟩ := indexOf_some hsome
      refine Leftmost.cons ⟨hoccurs, hstart⟩ (fun j hj => ?_) ?_
      · by_contra hlt
        exact hfirst j hj.2 (by omega) hj.1
      · refine ih.extend (fun j hj => ⟨⟨hj.1, by omega⟩, hj.2⟩) fun j hj => .inl ⟨hj.1.1, hj.2⟩

theorem leftmost_places (hempty : toLowerCase [] = []) (hq : toLowerCase query ≠ [])
    (text : Units) :
    Leftmost (Occurs (toLowerCase text) (toLowerCase query)) (toLowerCase query).length
      (places toLowerCase (toLowerCase query) hq text) := by
  rw [places]
  split
  · next htext =>
    rw [htext, hempty]
    refine leftmost_nil fun i hi => ?_
    have hle := hi.le hq
    have hpos := List.length_pos_of_ne_nil hq
    rw [List.length_nil] at hle
    omega
  · refine (leftmost_scan _ _ hq 0).extend (fun i hi => hi.1) fun i hi => .inl ⟨hi, Nat.zero_le _⟩

theorem leftmost_common (hq : toLowerCase query ≠ []) (text : Units) :
    Leftmost (Common toLowerCase text query) (toLowerCase query).length
      (leftmost (Common toLowerCase text query) (toLowerCase query).length
        (text.length + 1) 0) := by
  have hpos := List.length_pos_of_ne_nil hq
  refine (leftmost_leftmost (Common toLowerCase text query) hpos fun i hi => ?_).extend
    (fun i hi => hi.1) fun i hi => .inl ⟨hi, Nat.zero_le _⟩
  have := hi.2.2.1
  omega

/-- In step, the places that are found are the common ones; and where the places that are found are
right and complete, the text is in step. -/
theorem inStep_iff (hempty : toLowerCase [] = []) (hq : toLowerCase query ≠ []) (text : Units) :
    InStep toLowerCase text query ↔
      (∀ i ∈ places toLowerCase (toLowerCase query) hq text,
        IsMatch toLowerCase text query i (i + (toLowerCase query).length)) ∧
      ∀ start stop, IsMatch toLowerCase text query start stop →
        (start ∈ places toLowerCase (toLowerCase query) hq text ∧
          stop = start + (toLowerCase query).length) ∨
        ∃ j ∈ places toLowerCase (toLowerCase query) hq text,
          j < start ∧ start < j + (toLowerCase query).length := by
  have hpos := List.length_pos_of_ne_nil hq
  have hplaces := leftmost_places hempty hq text
  have hcommon := leftmost_common hq text
  constructor
  · intro h
    have heq := hplaces.unique hpos (hcommon.extend (fun i hi => hi.1) h.lowered)
    rw [heq]
    refine ⟨fun i hi => (hcommon.holds i hi).2, fun start stop hmatch => ?_⟩
    rcases h.sliced start stop hmatch with ⟨hstart, hstop⟩ | hinside
    · exact (hcommon.reached start hstart).imp_left fun hmem => ⟨hmem, hstop⟩
    · exact .inr hinside
  · rintro ⟨hmatches, hfound⟩
    have heq := hcommon.unique hpos (hplaces.restrict (fun i hi => hi.1)
      fun i hi => ⟨hplaces.holds i hi, hmatches i hi⟩)
    refine ⟨fun i hi => ?_, fun start stop hmatch => ?_⟩
    · rw [Inside, heq]
      exact (hplaces.reached i hi).imp_left fun hmem => ⟨hi, hmatches i hmem⟩
    · rw [Inside, heq]
      refine (hfound start stop hmatch).imp_left fun hmem =>
        ⟨⟨hplaces.holds start hmem.1, ?_⟩, hmem.2⟩
      exact hmatches start hmem.1

theorem occurs_iff_slice {hay q : Units} {i : ℕ} (hq : q ≠ []) :
    Occurs hay q i ↔ i + q.length ≤ hay.length ∧ slice hay i (i + q.length) = q := by
  rw [slice, List.drop_take, Nat.add_sub_cancel_left]
  constructor
  · exact fun h => ⟨h.le hq, (List.prefix_iff_eq_take.mp h).symm⟩
  · exact fun h => List.prefix_iff_eq_take.mpr h.2.symm

/-- A text is in step if its lower case is that of its parts, each at its place. -/
theorem inStep_of_slices (hq : toLowerCase query ≠ [])
    (hlength : (toLowerCase text).length = text.length)
    (hslices : ∀ start stop, start ≤ stop → stop ≤ text.length →
      toLowerCase (slice text start stop) = slice (toLowerCase text) start stop) :
    InStep toLowerCase text query where
  lowered i hi := by
    obtain ⟨hle, hslice⟩ := (occurs_iff_slice hq).mp hi
    rw [hlength] at hle
    exact .inl ⟨hi, by omega, hle, by rw [hslices i _ (by omega) hle, hslice]⟩
  sliced start stop hmatch := by
    obtain ⟨hle, hstop, heq⟩ := hmatch
    have hslice := heq
    rw [hslices start stop hle hstop] at hslice
    have hstopEq : stop = start + (toLowerCase query).length := by
      rw [← hslice, slice, List.length_drop, List.length_take]
      omega
    subst hstopEq
    exact .inl ⟨⟨(occurs_iff_slice hq).mpr ⟨by omega, hslice⟩, hle, hstop, heq⟩, rfl⟩

end OneText

/-! ### Matches in a document -/

section Document

variable {toLowerCase : Units → Units} {root : List DomNode} {query : Units}

theorem mem_collectMatches (hq : toLowerCase query ≠ []) (m : MatchPos) :
    m ∈ collectMatches toLowerCase root query ↔ ∃ text, (textsOf root)[m.node]? = some text ∧
      m.start ∈ places toLowerCase (toLowerCase query) hq text ∧
      m.stop = m.start + (toLowerCase query).length := by
  rw [collectMatches, dif_neg hq, List.mem_flatMap]
  constructor
  · rintro ⟨⟨text, node⟩, hentry, hm⟩
    obtain ⟨i, hi, rfl⟩ := List.mem_map.mp hm
    exact ⟨text, List.mk_mem_zipIdx_iff_getElem?.mp hentry, hi, rfl⟩
  · rintro ⟨text, htext, hstart, hstop⟩
    refine ⟨(text, m.node), List.mk_mem_zipIdx_iff_getElem?.mpr htext,
      List.mem_map.mpr ⟨m.start, hstart, ?_⟩⟩
    rw [← hstop]

theorem apart_collectMatches (hempty : toLowerCase [] = []) (hq : toLowerCase query ≠ []) :
    (collectMatches toLowerCase root query).Pairwise fun m m' =>
      m.node = m'.node → m.stop ≤ m'.start := by
  rw [collectMatches, dif_neg hq, List.pairwise_flatMap]
  refine ⟨fun entry _ => ?_, ?_⟩
  · rw [List.pairwise_map]
    refine (leftmost_places hempty hq entry.1).apart.imp ?_
    exact fun hle _ => hle
  · have hnodes : (textsOf root).zipIdx.Pairwise fun entry entry' => entry.2 ≠ entry'.2 := by
      rw [← List.pairwise_map (f := Prod.snd), List.zipIdx_map_snd]
      exact List.nodup_range'
    refine hnodes.imp fun hne m hm m' hm' heq => ?_
    obtain ⟨i, -, rfl⟩ := List.mem_map.mp hm
    obtain ⟨i', -, rfl⟩ := List.mem_map.mp hm'
    exact absurd heq hne

end Document

/-- **The right matches are found** exactly where each text is in step with its lower case. -/
theorem marksMatches_iff (toLowerCase : Units → Units)
    (hlower : ∀ text, toLowerCase text = [] ↔ text = []) (root : List DomNode) (query : Units)
    (hquery : query ≠ []) :
    MarksMatches toLowerCase (textsOf root) query (collectMatches toLowerCase root query) ↔
      ∀ text ∈ textsOf root, InStep toLowerCase text query := by
  have hempty : toLowerCase [] = [] := (hlower []).mpr rfl
  have hq : toLowerCase query ≠ [] := fun h => hquery ((hlower query).mp h)
  constructor
  · intro h text htext
    obtain ⟨node, hnode⟩ := List.mem_iff_getElem?.mp htext
    refine (inStep_iff hempty hq text).mpr ⟨fun i hi => ?_, fun start stop hmatch => ?_⟩
    · have hmem : ⟨node, i, i + (toLowerCase query).length⟩ ∈
          collectMatches toLowerCase root query :=
        (mem_collectMatches hq _).mpr ⟨text, hnode, hi, rfl⟩
      obtain ⟨text', htext', hmatch⟩ := h.isMatch _ hmem
      obtain rfl := Option.some.inj (hnode.symm.trans htext')
      exact hmatch
    · rcases h.found node text hnode start stop hmatch with hmem | ⟨m, hmem, hsame, hlt, hinside⟩
      · obtain ⟨text', htext', hstart, hstop⟩ := (mem_collectMatches hq _).mp hmem
        obtain rfl := Option.some.inj (hnode.symm.trans htext')
        exact .inl ⟨hstart, hstop⟩
      · obtain ⟨text', htext', hstart, hstop⟩ := (mem_collectMatches hq _).mp hmem
        rw [hsame] at htext'
        obtain rfl := Option.some.inj (hnode.symm.trans htext')
        exact .inr ⟨m.start, hstart, hlt, hstop ▸ hinside⟩
  · intro h
    have hinStep {node : ℕ} {text : Units} (hnode : (textsOf root)[node]? = some text) :=
      (inStep_iff hempty hq text).mp (h text (List.mem_of_getElem? hnode))
    refine ⟨fun m hm => ?_, apart_collectMatches hempty hq, ?_⟩
    · obtain ⟨text, htext, hstart, hstop⟩ := (mem_collectMatches hq m).mp hm
      refine ⟨text, htext, ?_⟩
      rw [hstop]
      exact (hinStep htext).1 m.start hstart
    · intro node text hnode start stop hmatch
      rcases (hinStep hnode).2 start stop hmatch with ⟨hstart, hstop⟩ | ⟨j, hj, hlt, hinside⟩
      · exact .inl ((mem_collectMatches hq _).mpr ⟨text, hnode, hstart, hstop⟩)
      · exact .inr ⟨⟨node, j, _⟩, (mem_collectMatches hq _).mpr ⟨text, hnode, hj, rfl⟩, rfl, hlt,
          hinside⟩

/-! ### Letters that grow -/

/-- Lower case of ASCII letters, and of the capital I with a dot, which becomes two units. -/
def lowerUnit (c : UInt16) : Units :=
  if c = 0x130 then [0x69, 0x307] else if 65 ≤ c ∧ c ≤ 90 then [c + 32] else [c]

def lowerCase (text : Units) : Units := text.flatMap lowerUnit

theorem lowerCase_eq_nil_iff (text : Units) : lowerCase text = [] ↔ text = [] := by
  have hunit (c : UInt16) : lowerUnit c ≠ [] := by
    rw [lowerUnit]
    split
    · exact List.cons_ne_nil _ _
    · split <;> exact List.cons_ne_nil _ _
  rw [lowerCase, List.flatMap_eq_nil_iff]
  constructor
  · intro h
    rw [List.eq_nil_iff_forall_not_mem]
    exact fun c hc => hunit c (h c hc)
  · rintro rfl
    exact nofun

/-- `Foo foo`, in which `foo` is found twice. -/
theorem marksMatches_iff_foo :
    MarksMatches lowerCase [[70, 111, 111, 32, 102, 111, 111]] [102, 111, 111]
      (collectMatches lowerCase [.element [.text [70, 111, 111, 32, 102, 111, 111]]]
        [102, 111, 111]) := by
  have hslices : ∀ stop < 8, ∀ start < 8,
      lowerCase (slice [70, 111, 111, 32, 102, 111, 111] start stop) =
        slice (lowerCase [70, 111, 111, 32, 102, 111, 111]) start stop := by decide
  refine (marksMatches_iff lowerCase lowerCase_eq_nil_iff
    [.element [.text [70, 111, 111, 32, 102, 111, 111]]] [102, 111, 111] (by decide)).mpr ?_
  rintro text htext
  obtain rfl := List.mem_singleton.mp htext
  refine inStep_of_slices (by decide) (by decide) fun start stop hle hstop => ?_
  rw [List.length_cons] at hstop
  simp only [List.length_cons, List.length_nil] at hstop
  exact hslices stop (by omega) start (by omega)

/-- In a text of a capital I with a dot and an x, the x is found behind the end of the text. -/
theorem not_marksMatches_dotted :
    ¬ MarksMatches lowerCase (textsOf [.text [0x130, 120]]) [120]
      (collectMatches lowerCase [.text [0x130, 120]] [120]) := by
  intro h
  have hout : collectMatches lowerCase [.text [0x130, 120]] [120] = [⟨0, 2, 3⟩] := by decide +kernel
  obtain ⟨text, htext, -, hstop, -⟩ := h.isMatch ⟨0, 2, 3⟩
    (by rw [hout]; exact List.mem_singleton_self _)
  obtain rfl : [0x130, 120] = text := Option.some.inj htext
  exact absurd hstop (by decide)

end AgentCockpit.Renderer.FindInContent
