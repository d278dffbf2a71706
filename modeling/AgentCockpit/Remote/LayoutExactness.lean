import AgentCockpit.Remote.LayoutString

/-!
# Exactness of layout strings

The parser accepts a string exactly if the grammar derives it from a tree in which a leaf in front
of a sibling has its pane number, and it returns this tree, with the numbers that the format holds.
A leaf without a number takes the width of its sibling for one, and the string is refused.
-/

namespace AgentCockpit.Remote.LayoutString

open AgentCockpit.Core

/-! ### Layouts -/

section Layouts

variable {checksum layout : Text} {root : LayoutNode Text (Option Text)}

theorem takeWhile_checksum (h : IsChecksum checksum) (left : Text) :
    (checksum ++ ',' :: left).takeWhile (· ≠ ',') = checksum ∧
      (checksum ++ ',' :: left).dropWhile (· ≠ ',') = ',' :: left := by
  have hall : ∀ c ∈ checksum, decide (c ≠ ',') = true := by
    intro c hc
    apply decide_eq_true
    rintro rfl
    exact h.2 hc
  rw [List.takeWhile_append_of_pos hall, List.dropWhile_append_of_pos hall]
  simp

/-- What is read of a string of the grammar is decided by its cell. -/
theorem parseLayout_of_derives (h : Derives checksum root layout) :
    parseLayout layout = (parseCell layout (layout.length + 1) root.text).bind fun (root, left) =>
      if left ≠ [] then fail layout left "trailing characters after layout"
      else .ok ⟨checksum, root⟩ := by
  obtain ⟨hchecksum, -, hlayout⟩ := h
  have hparts := takeWhile_checksum hchecksum root.text
  rw [← layoutText, ← hlayout] at hparts
  simp only [parseLayout]
  rw [hparts.1, hparts.2, if_neg hchecksum.1, expect_ok.mpr rfl]
  rfl

theorem length_text_lt (h : Derives checksum root layout) :
    root.text.length < layout.length + 1 := by
  rw [h.2.2, layoutText, List.length_append, List.length_cons]
  omega

/-- A string of the grammar is read as the tree that it is written from. -/
theorem parseLayout_text (h : Derives checksum root layout) (hmarked : root.Marked) :
    parseLayout layout = .ok ⟨checksum, root.mapNumbers toNumber⟩ := by
  have hcell := parseCell_text (s := layout) root h.2.1 hmarked follow_nil
    (fun _ => by simp [peek]) (length_text_lt h)
  rw [List.append_nil] at hcell
  rw [parseLayout_of_derives h, hcell]
  simp only [Except.bind]
  exact if_neg (not_not.mpr rfl)

/-- Where a pane number is missing in front of a sibling, the string is refused. -/
theorem parseLayout_of_not_marked (h : Derives checksum root layout) (hmarked : ¬ root.Marked)
    (parsed : WindowLayout Number (Option Number)) : parseLayout layout ≠ .ok parsed := by
  rw [parseLayout_of_derives h]
  intro hparsed
  obtain ⟨cell, hcell, -⟩ := bind_ok.mp hparsed
  have hrefused : parseCell layout (layout.length + 1) (root.text ++ []) ≠ .ok cell :=
    parseCell_of_not_marked root h.2.1 hmarked (length_text_lt h) cell
  rw [List.append_nil] at hrefused
  exact hrefused hcell

/-- What is accepted is a string of the grammar, with its numbers as they are read. -/
theorem exists_text_of_parseLayout {parsed : WindowLayout Number (Option Number)}
    (h : parseLayout layout = .ok parsed) :
    ∃ root, Derives parsed.checksum root layout ∧ root.Marked ∧
      parsed.root = root.mapNumbers toNumber := by
  simp only [parseLayout] at h
  split at h
  · simp [fail] at h
  · next hchecksum =>
    obtain ⟨left, hcomma, h⟩ := bind_ok.mp h
    obtain ⟨⟨cell, rest⟩, hcell, h⟩ := bind_ok.mp h
    dsimp only at h
    split at h
    · simp [fail] at h
    · next hrest =>
      cases h
      obtain ⟨root, hnumbers, hmarked, hleft, hcell, -⟩ := (exists_of_parse layout _).1 hcell
      have hlayout : layout = layout.takeWhile (· ≠ ',') ++ ',' :: left := by
        rw [← expect_ok.mp hcomma, List.takeWhile_append_dropWhile]
      refine ⟨root, ⟨⟨hchecksum, fun hmem => ?_⟩, hnumbers, ?_⟩, hmarked, hcell⟩
      · have hno := List.all_eq_true.mp (List.all_takeWhile (l := layout)) ',' hmem
        simp at hno
      · rw [not_not.mp hrest, List.append_nil] at hleft
        rw [layoutText, ← hleft]
        exact hlayout

end Layouts

/-! ### Exactness -/

section Numbers

variable {ν ν' ν'' : Type}

mutual

theorem LayoutNode.numbers_mapNumbers (f : ν → ν') (node : LayoutNode ν (Option ν)) :
    (node.mapNumbers f).numbers = node.numbers.map f := by
  match node with
  | .leaf none box => rfl
  | .leaf (some paneIndex) box => rfl
  | .split dir box children =>
    have hchildren := LayoutNodes.numbers_mapNumbers f children
    change (box.map f).numbers ++ (children.mapNumbers f).numbers = _
    rw [hchildren, LayoutNode.numbers, List.map_append]
    rfl

theorem LayoutNodes.numbers_mapNumbers (f : ν → ν') (nodes : LayoutNodes ν (Option ν)) :
    (nodes.mapNumbers f).numbers = nodes.numbers.map f := by
  match nodes with
  | .last node => exact LayoutNode.numbers_mapNumbers f node
  | .more node nodes =>
    have hnode := LayoutNode.numbers_mapNumbers f node
    have hnodes := LayoutNodes.numbers_mapNumbers f nodes
    change (node.mapNumbers f).numbers ++ (nodes.mapNumbers f).numbers = _
    rw [hnode, hnodes, LayoutNodes.numbers, List.map_append]

end

mutual

theorem LayoutNode.mapNumbers_mapNumbers (f : ν → ν') (g : ν' → ν'')
    (node : LayoutNode ν (Option ν)) :
    (node.mapNumbers f).mapNumbers g = node.mapNumbers (g ∘ f) := by
  match node with
  | .leaf none box => rfl
  | .leaf (some paneIndex) box => rfl
  | .split dir box children =>
    exact congrArg (LayoutNode.split dir _) (LayoutNodes.mapNumbers_mapNumbers f g children)

theorem LayoutNodes.mapNumbers_mapNumbers (f : ν → ν') (g : ν' → ν'')
    (nodes : LayoutNodes ν (Option ν)) :
    (nodes.mapNumbers f).mapNumbers g = nodes.mapNumbers (g ∘ f) := by
  match nodes with
  | .last node => exact congrArg LayoutNodes.last (LayoutNode.mapNumbers_mapNumbers f g node)
  | .more node nodes =>
    exact congrArg₂ LayoutNodes.more (LayoutNode.mapNumbers_mapNumbers f g node)
      (LayoutNodes.mapNumbers_mapNumbers f g nodes)

end

theorem Box.map_eq_map_iff (f g : ν → ν') (box : Box ν) :
    box.map f = box.map g ↔ ∀ n ∈ box.numbers, f n = g n := by
  simp [Box.map, Box.numbers]

mutual

/-- Two ways of replacing the numbers of a tree agree if they agree on its numbers. -/
theorem LayoutNode.mapNumbers_eq_iff (f g : ν → ν') (node : LayoutNode ν (Option ν)) :
    node.mapNumbers f = node.mapNumbers g ↔ ∀ n ∈ node.numbers, f n = g n := by
  match node with
  | .leaf none box =>
    have hbox := Box.map_eq_map_iff f g box
    simpa [LayoutNode.mapNumbers, LayoutNode.map, LayoutNode.numbers] using hbox
  | .leaf (some paneIndex) box =>
    have hbox := Box.map_eq_map_iff f g box
    simp only [LayoutNode.mapNumbers, LayoutNode.map, LayoutNode.numbers, Option.map_some,
      LayoutNode.leaf.injEq, Option.some.injEq, hbox, Option.toList_some, List.forall_mem_append,
      List.forall_mem_singleton]
    exact and_comm
  | .split dir box children =>
    have hbox := Box.map_eq_map_iff f g box
    have hchildren := LayoutNodes.mapNumbers_eq_iff f g children
    rw [LayoutNodes.mapNumbers, LayoutNodes.mapNumbers] at hchildren
    simp only [LayoutNode.mapNumbers, LayoutNode.map, LayoutNode.numbers,
      LayoutNode.split.injEq, true_and, hbox, hchildren, List.forall_mem_append]

theorem LayoutNodes.mapNumbers_eq_iff (f g : ν → ν') (nodes : LayoutNodes ν (Option ν)) :
    nodes.mapNumbers f = nodes.mapNumbers g ↔ ∀ n ∈ nodes.numbers, f n = g n := by
  match nodes with
  | .last node =>
    have hnode := LayoutNode.mapNumbers_eq_iff f g node
    rw [LayoutNode.mapNumbers, LayoutNode.mapNumbers] at hnode
    simp only [LayoutNodes.mapNumbers, LayoutNodes.map, LayoutNodes.numbers,
      LayoutNodes.last.injEq, hnode]
  | .more node nodes =>
    have hnode := LayoutNode.mapNumbers_eq_iff f g node
    have hnodes := LayoutNodes.mapNumbers_eq_iff f g nodes
    rw [LayoutNode.mapNumbers, LayoutNode.mapNumbers] at hnode
    rw [LayoutNodes.mapNumbers, LayoutNodes.mapNumbers] at hnodes
    simp only [LayoutNodes.mapNumbers, LayoutNodes.map, LayoutNodes.numbers,
      LayoutNodes.more.injEq, hnode, hnodes, List.forall_mem_append]

end

mutual

theorem LayoutNode.map_id (node : LayoutNode ν (Option ν)) :
    node.map id (Option.map id) = node := by
  match node with
  | .leaf none box => rfl
  | .leaf (some paneIndex) box => rfl
  | .split dir box children =>
    exact congrArg (LayoutNode.split dir box) (LayoutNodes.map_id children)

theorem LayoutNodes.map_id (nodes : LayoutNodes ν (Option ν)) :
    nodes.map id (Option.map id) = nodes := by
  match nodes with
  | .last node => exact congrArg LayoutNodes.last (LayoutNode.map_id node)
  | .more node nodes =>
    exact congrArg₂ LayoutNodes.more (LayoutNode.map_id node) (LayoutNodes.map_id nodes)

end

/-- Replacing numbers by themselves changes nothing. -/
theorem LayoutNode.mapNumbers_eq_self {f : ν → ν} {node : LayoutNode ν (Option ν)}
    (h : ∀ n ∈ node.numbers, f n = n) : node.mapNumbers f = node := by
  have heq := (LayoutNode.mapNumbers_eq_iff f id node).mpr h
  rwa [LayoutNode.mapNumbers, LayoutNode.mapNumbers, LayoutNode.map_id] at heq

end Numbers

/-- A number as tmux writes it. -/
def uintText (n : ℕ) : Text := Nat.toDigits 10 n

theorem isUint_uintText (n : ℕ) : IsUint (uintText n) :=
  ⟨Nat.toDigits_ne_nil, fun _ hc => Nat.isDigit_of_mem_toDigits (by decide) (by decide) hc⟩

/-- The number that digits mean. -/
def uintValue (digits : Text) : ℕ := Nat.ofDigitChars 10 digits 0

@[simp] theorem uintValue_uintText (n : ℕ) : uintValue (uintText n) = n :=
  Nat.ofDigitChars_ten_toDigits

def asNumber (n : ℕ) : Number := some (n : ℚ)

/-- The number is in the format. -/
def Exact (n : ℕ) : Prop := Binary64.round (n : ℚ) = asNumber n

/-- So is each number that has at most 53 bits. -/
theorem exact_of_lt {n : ℕ} (h : n < 2 ^ 53) : Exact n := by
  have hround := Binary64.round_intCast (n := n) (by rw [Nat.abs_cast]; exact_mod_cast h)
  exact_mod_cast hround

theorem toNumber_eq_iff (digits : Text) :
    toNumber digits = asNumber (uintValue digits) ↔ Exact (uintValue digits) := Iff.rfl

/-- A number that was read, as it is written again. -/
def numberText : Number → Text
  | none => "Infinity".toList
  | some n => uintText n.num.toNat

theorem numberText_asNumber (n : ℕ) : numberText (asNumber n) = uintText n := rfl

/-- What was read, as it is written again. -/
def WindowLayout.text (parsed : WindowLayout Number (Option Number)) : Text :=
  layoutText parsed.checksum (parsed.root.mapNumbers numberText)

/-- The digits are those of a number, without zeros in front. -/
def IsCanonical (digits : Text) : Prop := ∃ n, digits = uintText n

theorem IsCanonical.uintText_uintValue {digits : Text} (h : IsCanonical digits) :
    uintText (uintValue digits) = digits := by
  obtain ⟨n, rfl⟩ := h
  rw [uintValue_uintText]

/-- The parser reads exactly the grammar, reads back what is written, and loses nothing of it. -/
structure ParsesExactly (layout : Text) : Prop where
  accepts : (∃ parsed, parseLayout layout = .ok parsed) ↔ Documented layout
  reads : ∀ (checksum : Text) (tree : LayoutNode ℕ (Option ℕ)), IsChecksum checksum →
    layout = layoutText checksum (tree.mapNumbers uintText) →
    parseLayout layout = .ok ⟨checksum, tree.mapNumbers asNumber⟩
  writes : ∀ parsed, parseLayout layout = .ok parsed →
    (∃ checksum root, Derives checksum root layout ∧ ∀ digits ∈ root.numbers, IsCanonical digits) →
    parsed.text = layout

/-- A tree that is marked, and whose numbers are in the format where they are canonical. -/
def Readable (root : LayoutNode Text (Option Text)) : Prop :=
  root.Marked ∧ ((∀ digits ∈ root.numbers, IsCanonical digits) →
    ∀ digits ∈ root.numbers, Exact (uintValue digits))

theorem derives_uintText {checksum : Text} (h : IsChecksum checksum)
    (tree : LayoutNode ℕ (Option ℕ)) :
    Derives checksum (tree.mapNumbers uintText)
      (layoutText checksum (tree.mapNumbers uintText)) := by
  refine ⟨h, ?_, rfl⟩
  rw [LayoutNode.numbers_mapNumbers]
  intro digits hdigits
  obtain ⟨n, -, rfl⟩ := List.mem_map.mp hdigits
  exact isUint_uintText n

/-- The tree that canonical digits are written from. -/
theorem mapNumbers_uintText {root : LayoutNode Text (Option Text)}
    (h : ∀ digits ∈ root.numbers, IsCanonical digits) :
    (root.mapNumbers uintValue).mapNumbers uintText = root := by
  rw [LayoutNode.mapNumbers_mapNumbers]
  exact LayoutNode.mapNumbers_eq_self fun digits hdigits => (h digits hdigits).uintText_uintValue

theorem readable_of_parsesExactly {checksum layout : Text} {root : LayoutNode Text (Option Text)}
    (h : ParsesExactly layout) (hderives : Derives checksum root layout) : Readable root := by
  have hmarked : root.Marked := by
    by_contra hbare
    obtain ⟨parsed, hparsed⟩ := h.accepts.mpr ⟨checksum, root, hderives⟩
    exact parseLayout_of_not_marked hderives hbare parsed hparsed
  refine ⟨hmarked, fun hcanonical digits hdigits => ?_⟩
  have hwritten := mapNumbers_uintText hcanonical
  have hreads := h.reads checksum (root.mapNumbers uintValue) hderives.1
    (by rw [hwritten]; exact hderives.2.2)
  -- Both ways of reading the digits give one tree.
  rw [parseLayout_text hderives hmarked, LayoutNode.mapNumbers_mapNumbers, Except.ok.injEq,
    WindowLayout.mk.injEq, LayoutNode.mapNumbers_eq_iff] at hreads
  exact (toNumber_eq_iff digits).mp (hreads.2 digits hdigits)

/-- The parser is exact on a string unless the grammar derives it with a leaf that lacks its pane
number in front of a sibling, or with a number that is not in the format. -/
theorem parsesExactly_iff (layout : Text) : ParsesExactly layout ↔
    ∀ checksum root, Derives checksum root layout → Readable root := by
  constructor
  · intro h checksum root hderives
    exact readable_of_parsesExactly h hderives
  · intro h
    refine ⟨⟨?_, ?_⟩, ?_, ?_⟩
    · rintro ⟨parsed, hparsed⟩
      obtain ⟨root, hderives, -, -⟩ := exists_text_of_parseLayout hparsed
      exact ⟨parsed.checksum, root, hderives⟩
    · rintro ⟨checksum, root, hderives⟩
      exact ⟨_, parseLayout_text hderives (h checksum root hderives).1⟩
    · rintro checksum tree hchecksum rfl
      have hderives := derives_uintText hchecksum tree
      obtain ⟨hmarked, hexact⟩ := h checksum _ hderives
      rw [parseLayout_text hderives hmarked, LayoutNode.mapNumbers_mapNumbers, Except.ok.injEq,
        WindowLayout.mk.injEq, LayoutNode.mapNumbers_eq_iff]
      refine ⟨rfl, fun n hn => ?_⟩
      rw [LayoutNode.numbers_mapNumbers] at hexact
      have hn' := hexact (List.forall_mem_map.mpr fun m _ => ⟨m, rfl⟩) _ (List.mem_map_of_mem hn)
      have hvalue := (toNumber_eq_iff _).mpr hn'
      rw [uintValue_uintText] at hvalue
      exact hvalue
    · rintro parsed hparsed ⟨checksum, root, hderives, hcanonical⟩
      obtain ⟨hmarked, hexact⟩ := h checksum root hderives
      rw [parseLayout_text hderives hmarked] at hparsed
      obtain rfl := Except.ok.inj hparsed
      have hback : (root.mapNumbers toNumber).mapNumbers numberText = root := by
        rw [LayoutNode.mapNumbers_mapNumbers]
        refine LayoutNode.mapNumbers_eq_self fun digits hdigits => ?_
        have hvalue := (toNumber_eq_iff digits).mpr (hexact hcanonical digits hdigits)
        rw [Function.comp_apply, hvalue, numberText_asNumber]
        exact (hcanonical digits hdigits).uintText_uintValue
      rw [WindowLayout.text, hback]
      exact hderives.2.2.symm

/-- The width of the second pane is taken for the number of the first. -/
theorem not_parsesExactly :
    ¬ ParsesExactly "a1b2,9x4,0,0\x7b4x4,0,0,4x4,5,0,1\x7d".toList := by
  intro h
  have hderives : Derives "a1b2".toList
      (.split .lr ⟨"9".toList, "4".toList, "0".toList, "0".toList⟩
        (.more (.leaf none ⟨"4".toList, "4".toList, "0".toList, "0".toList⟩)
          (.last (.leaf (some "1".toList) ⟨"4".toList, "4".toList, "5".toList, "0".toList⟩))))
      "a1b2,9x4,0,0\x7b4x4,0,0,4x4,5,0,1\x7d".toList := by
    refine ⟨⟨by decide, by decide⟩, ?_, rfl⟩
    simp [LayoutNode.numbers, LayoutNodes.numbers, Box.numbers, IsUint]
  exact (readable_of_parsesExactly h hderives).1

end AgentCockpit.Remote.LayoutString
