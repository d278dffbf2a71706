import AgentCockpit.Core.Binary64
import AgentCockpit.Remote.ControlParser

/-!
# Layout strings

tmux writes the layout of a window as a checksum and a cell. A cell is a box, and behind it the
number of its pane, or the cells that it is split into. One comma separates the numbers of a box,
the number of a pane from its box, and a cell from the next one; the parser tells the last two apart
by where it stands.
-/

namespace AgentCockpit.Remote.LayoutString

open AgentCockpit.Core

/-! ### Trees -/

inductive LayoutDir
  | lr
  | tb
  deriving DecidableEq, Repr

/-- Size and origin of a cell. -/
structure Box (ν : Type) where
  w : ν
  h : ν
  x : ν
  y : ν
  deriving DecidableEq, Repr

mutual

/-- A layout tree with numbers of type `ν` and panes of type `ι`. -/
inductive LayoutNode (ν ι : Type)
  | leaf (paneId : ι) (box : Box ν)
  | split (dir : LayoutDir) (box : Box ν) (children : LayoutNodes ν ι)

/-- The children of a split, of which there is at least one. -/
inductive LayoutNodes (ν ι : Type)
  | last (node : LayoutNode ν ι)
  | more (node : LayoutNode ν ι) (nodes : LayoutNodes ν ι)

end

/-- A window's layout. -/
structure WindowLayout (ν ι : Type) where
  checksum : Text
  root : LayoutNode ν ι

section Map

variable {ν ν' ι ι' : Type} (f : ν → ν') (g : ι → ι')

def Box.map (box : Box ν) : Box ν' := ⟨f box.w, f box.h, f box.x, f box.y⟩

mutual

/-- Put other numbers and other panes in their place. -/
def LayoutNode.map : LayoutNode ν ι → LayoutNode ν' ι'
  | .leaf paneId box => .leaf (g paneId) (box.map f)
  | .split dir box children => .split dir (box.map f) children.map

def LayoutNodes.map : LayoutNodes ν ι → LayoutNodes ν' ι'
  | .last node => .last node.map
  | .more node nodes => .more node.map nodes.map

end

end Map

/-! ### The parser -/

structure TmuxLayoutParseError where
  message : String
  layout : Text
  deriving DecidableEq, Repr

/-- A number as it is read: the nearest one of the format, or `none` if that is infinite. -/
abbrev Number := Option ℚ

/-- `Number(digits)`. -/
def toNumber (digits : Text) : Number := Binary64.round (Nat.ofDigitChars 10 digits 0 : ℕ)

/-- A leaf is named by its pane number behind a `%`, or by nothing. -/
abbrev ParsedNode := LayoutNode Number (Option Number)

section Parser

-- The layout that is read; what is left of it is passed on.
variable (s : Text)

/-- A failure, at the offset of what is left. -/
def fail {α : Type} (left : Text) (msg : String) : Except TmuxLayoutParseError α :=
  .error ⟨"tmux layout parse error: " ++ msg ++ " at offset " ++
    toString (s.length - left.length) ++ " (in \"" ++ String.ofList s ++ "\")", s⟩

def peek (left : Text) : Option Char := left.head?

def expect (left : Text) (ch : Char) : Except TmuxLayoutParseError Text :=
  if peek left = some ch then .ok left.tail
  else fail s left ("expected \"" ++ String.singleton ch ++ "\"")

/-- Read a run of decimal digits. -/
def readUint (left : Text) : Except TmuxLayoutParseError (Number × Text) :=
  let digits := left.takeWhile (·.isDigit)
  if digits = [] then fail s left "expected a number"
  else .ok (toNumber digits, left.dropWhile (·.isDigit))

/-- The part of a cell that each cell has. -/
def readBox (left : Text) : Except TmuxLayoutParseError (Box Number × Text) := do
  let (w, left) ← readUint s left
  let left ← expect s left 'x'
  let (h, left) ← readUint s left
  let left ← expect s left ','
  let (x, left) ← readUint s left
  let left ← expect s left ','
  let (y, left) ← readUint s left
  pure (⟨w, h, x, y⟩, left)

def LayoutDir.opening : LayoutDir → Char
  | .lr => '\x7b'
  | .tb => '['

def LayoutDir.closing : LayoutDir → Char
  | .lr => '\x7d'
  | .tb => ']'

mutual

/-- Parse one cell. Each call takes a unit of `fuel`, and at least one character. -/
def parseCell : ℕ → Text → Except TmuxLayoutParseError (ParsedNode × Text)
  | 0, left => fail s left "expected a number"
  | fuel + 1, left => do
    let (box, left) ← readBox s left
    let split (dir : LayoutDir) : Except TmuxLayoutParseError (ParsedNode × Text) := do
      let left ← expect s left dir.opening
      let (children, left) ← parseCells fuel left
      let left ← expect s left dir.closing
      pure (.split dir box children, left)
    if peek left = some LayoutDir.lr.opening then split .lr
    else if peek left = some LayoutDir.tb.opening then split .tb
    else if peek left = some ',' then
      let (paneIndex, left) ← readUint s left.tail
      pure (.leaf (some paneIndex) box, left)
    -- No pane suffix: the leaf has an empty id.
    else pure (.leaf none box, left)

/-- Parse the children of a split, up to what does not go on with a comma. -/
def parseCells : ℕ → Text → Except TmuxLayoutParseError (LayoutNodes Number (Option Number) × Text)
  | 0, left => fail s left "expected a number"
  | fuel + 1, left => do
    let (node, left) ← parseCell fuel left
    if peek left = some ',' then
      let (nodes, left) ← parseCells fuel left.tail
      pure (.more node nodes, left)
    else pure (.last node, left)

end

end Parser

/-- Parse a layout with its checksum, which is kept and not verified. -/
def parseLayout (layout : Text) :
    Except TmuxLayoutParseError (WindowLayout Number (Option Number)) := do
  let checksum := layout.takeWhile (· ≠ ',')
  let left := layout.dropWhile (· ≠ ',')
  if checksum = [] then fail layout left "missing checksum"
  else
    let left ← expect layout left ','
    let (root, left) ← parseCell layout (layout.length + 1) left
    if left ≠ [] then fail layout left "trailing characters after layout"
    else pure ⟨checksum, root⟩

/-! ### Trees as strings -/

def Box.numbers {ν : Type} (box : Box ν) : List ν := [box.w, box.h, box.x, box.y]

section Numbers

variable {ν : Type}

mutual

/-- All numbers of a tree, those of its panes included. -/
def LayoutNode.numbers : LayoutNode ν (Option ν) → List ν
  | .leaf paneId box => box.numbers ++ paneId.toList
  | .split _ box children => box.numbers ++ children.numbers

def LayoutNodes.numbers : LayoutNodes ν (Option ν) → List ν
  | .last node => node.numbers
  | .more node nodes => node.numbers ++ nodes.numbers

end

mutual

/-- A leaf in front of a sibling has its pane number. -/
def LayoutNode.Marked : LayoutNode ν (Option ν) → Prop
  | .leaf _ _ => True
  | .split _ _ children => children.Marked

def LayoutNodes.Marked : LayoutNodes ν (Option ν) → Prop
  | .last node => node.Marked
  | .more (.leaf none _) _ => False
  | .more node nodes => node.Marked ∧ nodes.Marked

end

/-- A leaf without a pane number. -/
def LayoutNode.Bare : LayoutNode ν (Option ν) → Prop
  | .leaf none _ => True
  | _ => False

theorem marked_more_iff (node : LayoutNode ν (Option ν)) (nodes : LayoutNodes ν (Option ν)) :
    (LayoutNodes.more node nodes).Marked ↔ ¬ node.Bare ∧ node.Marked ∧ nodes.Marked := by
  cases node with
  | leaf paneId box =>
    cases paneId <;> simp [LayoutNodes.Marked, LayoutNode.Marked, LayoutNode.Bare]
  | split dir box children =>
    simp [LayoutNodes.Marked, LayoutNode.Marked, LayoutNode.Bare]

end Numbers

/-- Put other numbers in their place, those of the panes included. -/
def LayoutNode.mapNumbers {ν ν' : Type} (f : ν → ν') (node : LayoutNode ν (Option ν)) :
    LayoutNode ν' (Option ν') := node.map f (Option.map f)

def LayoutNodes.mapNumbers {ν ν' : Type} (f : ν → ν') (nodes : LayoutNodes ν (Option ν)) :
    LayoutNodes ν' (Option ν') := nodes.map f (Option.map f)

def Box.text (box : Box Text) : Text :=
  box.w ++ 'x' :: (box.h ++ ',' :: (box.x ++ ',' :: box.y))

mutual

/-- A cell as tmux writes it. -/
def LayoutNode.text : LayoutNode Text (Option Text) → Text
  | .leaf none box => box.text
  | .leaf (some paneIndex) box => box.text ++ ',' :: paneIndex
  | .split dir box children => box.text ++ dir.opening :: (children.text ++ [dir.closing])

def LayoutNodes.text : LayoutNodes Text (Option Text) → Text
  | .last node => node.text
  | .more node nodes => node.text ++ ',' :: nodes.text

end

/-- A run of decimal digits. -/
def IsUint (digits : Text) : Prop := digits ≠ [] ∧ ∀ c ∈ digits, c.isDigit = true

/-- What tmux writes as a checksum ends at the first comma. -/
def IsChecksum (checksum : Text) : Prop := checksum ≠ [] ∧ ',' ∉ checksum

def layoutText (checksum : Text) (root : LayoutNode Text (Option Text)) : Text :=
  checksum ++ ',' :: root.text

/-- The strings of the grammar, with the tree that each one is derived by. -/
def Derives (checksum : Text) (root : LayoutNode Text (Option Text)) (layout : Text) : Prop :=
  IsChecksum checksum ∧ (∀ digits ∈ root.numbers, IsUint digits) ∧ layout = layoutText checksum root

def Documented (layout : Text) : Prop := ∃ checksum root, Derives checksum root layout

/-! ### Reading numbers and boxes -/

/-- A run of digits ends here. -/
def NoDigit (left : Text) : Prop := ∀ c, peek left = some c → c.isDigit = false

theorem peek_cons (c : Char) (left : Text) : peek (c :: left) = some c := rfl

theorem noDigit_cons {c : Char} {left : Text} (h : c.isDigit = false) : NoDigit (c :: left) := by
  intro d hd
  obtain rfl := Option.some.inj hd
  exact h

theorem bind_ok {ε α β : Type} {first : Except ε α} {next : α → Except ε β} {b : β} :
    first >>= next = .ok b ↔ ∃ a, first = .ok a ∧ next a = .ok b := by
  cases first with
  | error err =>
    constructor
    · intro h
      cases h
    · rintro ⟨a, ha, -⟩
      cases ha
  | ok a =>
    constructor
    · intro h
      exact ⟨a, rfl, h⟩
    · rintro ⟨_, ha, h⟩
      cases ha
      exact h

variable {s left left' : Text}

theorem expect_ok {ch : Char} : expect s left ch = .ok left' ↔ left = ch :: left' := by
  rw [expect, peek]
  cases left with
  | nil => simp [fail]
  | cons c rest =>
    by_cases hc : c = ch
    · subst hc
      simp
    · simp [hc, fail]

theorem takeWhile_digits {digits : Text} (h : IsUint digits) (hleft : NoDigit left) :
    (digits ++ left).takeWhile (·.isDigit) = digits := by
  have htake : left.takeWhile (·.isDigit) = [] := by
    cases left with
    | nil => rfl
    | cons c rest => rw [List.takeWhile_cons_of_neg (by simp [hleft c rfl])]
  rw [List.takeWhile_append_of_pos h.2, htake, List.append_nil]

theorem dropWhile_digits {digits : Text} (h : IsUint digits) (hleft : NoDigit left) :
    (digits ++ left).dropWhile (·.isDigit) = left := by
  rw [List.dropWhile_append_of_pos h.2]
  cases left with
  | nil => rfl
  | cons c rest => rw [List.dropWhile_cons_of_neg (by simp [hleft c rfl])]

theorem readUint_text {digits : Text} (h : IsUint digits) (hleft : NoDigit left) :
    readUint s (digits ++ left) = .ok (toNumber digits, left) := by
  simp only [readUint]
  rw [takeWhile_digits h hleft, dropWhile_digits h hleft, if_neg h.1]

theorem exists_of_readUint {n : Number} (h : readUint s left = .ok (n, left')) :
    ∃ digits, IsUint digits ∧ left = digits ++ left' ∧ n = toNumber digits ∧ NoDigit left' := by
  simp only [readUint] at h
  split at h
  · simp [fail] at h
  · next hne =>
    cases h
    refine ⟨left.takeWhile (·.isDigit), ⟨hne, ?_⟩, ?_, rfl, ?_⟩
    · intro c hc
      exact List.all_eq_true.mp List.all_takeWhile c hc
    · exact List.takeWhile_append_dropWhile.symm
    · intro c hc
      have hhead := List.head?_dropWhile_not (fun c : Char => c.isDigit) left
      rw [peek] at hc
      rw [hc] at hhead
      simpa using hhead

theorem readBox_text {box : Box Text} (h : ∀ digits ∈ box.numbers, IsUint digits)
    (hleft : NoDigit left) : readBox s (box.text ++ left) = .ok (box.map toNumber, left) := by
  have hw := h box.w (by simp [Box.numbers])
  have hh := h box.h (by simp [Box.numbers])
  have hx := h box.x (by simp [Box.numbers])
  have hy := h box.y (by simp [Box.numbers])
  have htext : box.text ++ left =
      box.w ++ 'x' :: (box.h ++ ',' :: (box.x ++ ',' :: (box.y ++ left))) := by
    simp [Box.text]
  rw [htext, readBox, readUint_text hw (noDigit_cons (by decide))]
  simp only [bind, Except.bind]
  rw [expect_ok.mpr rfl]
  dsimp only
  rw [readUint_text hh (noDigit_cons (by decide))]
  dsimp only
  rw [expect_ok.mpr rfl]
  dsimp only
  rw [readUint_text hx (noDigit_cons (by decide))]
  dsimp only
  rw [expect_ok.mpr rfl]
  dsimp only
  rw [readUint_text hy hleft]
  rfl

theorem exists_of_readBox {parsed : Box Number} (h : readBox s left = .ok (parsed, left')) :
    ∃ box : Box Text, (∀ digits ∈ box.numbers, IsUint digits) ∧ left = box.text ++ left' ∧
      parsed = box.map toNumber ∧ NoDigit left' := by
  rw [readBox] at h
  obtain ⟨⟨w, left₁⟩, hw, h⟩ := bind_ok.mp h
  obtain ⟨left₂, hcross, h⟩ := bind_ok.mp h
  obtain ⟨⟨height, left₃⟩, hh, h⟩ := bind_ok.mp h
  obtain ⟨left₄, hcomma, h⟩ := bind_ok.mp h
  obtain ⟨⟨x, left₅⟩, hx, h⟩ := bind_ok.mp h
  obtain ⟨left₆, hcomma', h⟩ := bind_ok.mp h
  obtain ⟨⟨y, left₇⟩, hy, h⟩ := bind_ok.mp h
  cases h
  obtain ⟨w', hw', rfl, rfl, -⟩ := exists_of_readUint hw
  obtain rfl := expect_ok.mp hcross
  obtain ⟨h', hh', rfl, rfl, -⟩ := exists_of_readUint hh
  obtain rfl := expect_ok.mp hcomma
  obtain ⟨x', hx', rfl, rfl, -⟩ := exists_of_readUint hx
  obtain rfl := expect_ok.mp hcomma'
  obtain ⟨y', hy', rfl, rfl, hend⟩ := exists_of_readUint hy
  refine ⟨⟨w', h', x', y'⟩, ?_, ?_, rfl, hend⟩
  · simp [Box.numbers, hw', hh', hx', hy']
  · simp [Box.text]

/-! ### Reading cells -/

/-- A cell ends here, or a list of cells does. -/
def Follow (left : Text) : Prop := ∀ c, peek left = some c → c = ',' ∨ c = '\x7d' ∨ c = ']'

theorem follow_nil : Follow [] := by simp [Follow, peek]

theorem follow_comma (left : Text) : Follow (',' :: left) := by
  intro c hc
  exact Or.inl (Option.some.inj hc).symm

theorem follow_closing (dir : LayoutDir) (left : Text) : Follow (dir.closing :: left) := by
  intro c hc
  obtain rfl := Option.some.inj hc
  cases dir
  · exact Or.inr (Or.inl rfl)
  · exact Or.inr (Or.inr rfl)

theorem Follow.noDigit (h : Follow left) : NoDigit left := by
  intro c hc
  rcases h c hc with rfl | rfl | rfl <;> decide

theorem closing_ne_comma (dir : LayoutDir) : dir.closing ≠ ',' := by cases dir <;> decide

theorem Follow.peek_ne_opening (h : Follow left) (dir : LayoutDir) :
    peek left ≠ some dir.opening := by
  intro hpeek
  rcases h _ hpeek with heq | heq | heq <;> cases dir <;> exact absurd heq (by decide)

/-- The cell of a split, behind its box. -/
def parseSplit (s : Text) (fuel : ℕ) (dir : LayoutDir) (box : Box Number) (left : Text) :
    Except TmuxLayoutParseError (ParsedNode × Text) := do
  let left ← expect s left dir.opening
  let (children, left) ← parseCells s fuel left
  let left ← expect s left dir.closing
  pure (.split dir box children, left)

/-- Reading a cell, once its box has been read. -/
theorem parseCell_of_readBox {box : Box Number} {fuel : ℕ} (h : readBox s left = .ok (box, left')) :
    parseCell s (fuel + 1) left =
      if peek left' = some LayoutDir.lr.opening then parseSplit s fuel .lr box left'
      else if peek left' = some LayoutDir.tb.opening then parseSplit s fuel .tb box left'
      else if peek left' = some ',' then
        (readUint s left'.tail).map fun (paneIndex, left) => (.leaf (some paneIndex) box, left)
      else .ok (.leaf none box, left') := by
  rw [parseCell, h]
  simp only [bind, Except.bind, parseSplit]
  split
  · rfl
  · split
    · rfl
    · split
      · cases readUint s left'.tail <;> rfl
      · rfl

theorem parseCell_of_opening {box : Box Text} {dir : LayoutDir} {fuel : ℕ}
    (h : ∀ digits ∈ box.numbers, IsUint digits) :
    parseCell s (fuel + 1) (box.text ++ dir.opening :: left) =
      (parseCells s fuel left).bind fun (children, left) =>
        (expect s left dir.closing).map
          fun left => (.split dir (box.map toNumber) children, left) := by
  have hbox : readBox s (box.text ++ dir.opening :: left) =
      .ok (box.map toNumber, dir.opening :: left) :=
    readBox_text h (noDigit_cons (by cases dir <;> decide))
  have hsplit : parseSplit s fuel dir (box.map toNumber) (dir.opening :: left) =
      (parseCells s fuel left).bind fun (children, left) =>
        (expect s left dir.closing).map
          fun left => (.split dir (box.map toNumber) children, left) := by
    rw [parseSplit, expect_ok.mpr rfl]
    rfl
  rw [parseCell_of_readBox hbox, ← hsplit]
  cases dir
  · exact if_pos rfl
  · rw [peek_cons, if_neg (by decide), if_pos rfl]

theorem parseCell_of_comma {box : Box Text} {paneIndex : Text} {fuel : ℕ}
    (h : ∀ digits ∈ box.numbers, IsUint digits) (hpane : IsUint paneIndex) (hleft : NoDigit left) :
    parseCell s (fuel + 1) (box.text ++ ',' :: (paneIndex ++ left)) =
      .ok (.leaf (some (toNumber paneIndex)) (box.map toNumber), left) := by
  have hbox : readBox s (box.text ++ ',' :: (paneIndex ++ left)) =
      .ok (box.map toNumber, ',' :: (paneIndex ++ left)) :=
    readBox_text h (noDigit_cons (by decide))
  rw [parseCell_of_readBox hbox, peek_cons, if_neg (by decide), if_neg (by decide), if_pos rfl,
    List.tail_cons, readUint_text hpane hleft]
  rfl

theorem parseCell_of_bare {box : Box Text} {fuel : ℕ} (h : ∀ digits ∈ box.numbers, IsUint digits)
    (hfollow : Follow left) (hcomma : peek left ≠ some ',') :
    parseCell s (fuel + 1) (box.text ++ left) = .ok (.leaf none (box.map toNumber), left) := by
  rw [parseCell_of_readBox (readBox_text h hfollow.noDigit), if_neg (hfollow.peek_ne_opening .lr),
    if_neg (hfollow.peek_ne_opening .tb), if_neg hcomma]

theorem LayoutNode.text_pos (node : LayoutNode Text (Option Text)) : 0 < node.text.length := by
  match node with
  | .leaf none box => simp [LayoutNode.text, Box.text]
  | .leaf (some paneIndex) box => simp [LayoutNode.text]
  | .split dir box children => simp [LayoutNode.text]

mutual

/-- A marked cell is read back, and nothing behind it. -/
theorem parseCell_text (node : LayoutNode Text (Option Text)) {left : Text} {fuel : ℕ}
    (hnumbers : ∀ digits ∈ node.numbers, IsUint digits) (hmarked : node.Marked)
    (hfollow : Follow left) (hbare : node.Bare → peek left ≠ some ',')
    (hfuel : node.text.length < fuel) :
    parseCell s fuel (node.text ++ left) = .ok (node.mapNumbers toNumber, left) := by
  obtain ⟨fuel, rfl⟩ := Nat.exists_eq_succ_of_ne_zero (Nat.ne_zero_of_lt hfuel)
  match node with
  | .leaf none box =>
    have hbox : ∀ digits ∈ box.numbers, IsUint digits := by
      simpa [LayoutNode.numbers] using hnumbers
    exact parseCell_of_bare hbox hfollow (hbare trivial)
  | .leaf (some paneIndex) box =>
    have hbox : ∀ digits ∈ box.numbers, IsUint digits :=
      fun digits hdigits => hnumbers digits (List.mem_append_left _ hdigits)
    have hpane : IsUint paneIndex := hnumbers paneIndex (by simp [LayoutNode.numbers])
    rw [LayoutNode.text, List.append_assoc, List.cons_append]
    exact parseCell_of_comma hbox hpane hfollow.noDigit
  | .split dir box children =>
    have hbox : ∀ digits ∈ box.numbers, IsUint digits :=
      fun digits hdigits => hnumbers digits (List.mem_append_left _ hdigits)
    have hchildren : ∀ digits ∈ children.numbers, IsUint digits :=
      fun digits hdigits => hnumbers digits (List.mem_append_right _ hdigits)
    have hshorter : children.text.length + 1 < fuel := by
      simp only [LayoutNode.text, List.length_append, List.length_cons] at hfuel
      omega
    have hcomma : peek (dir.closing :: left) ≠ some ',' := by
      simpa [peek] using closing_ne_comma dir
    have hcells : parseCells s fuel (children.text ++ dir.closing :: left) =
        .ok (children.mapNumbers toNumber, dir.closing :: left) :=
      parseCells_text children hchildren hmarked (follow_closing dir left) hcomma hshorter
    have htext : (LayoutNode.split dir box children).text ++ left =
        box.text ++ dir.opening :: (children.text ++ dir.closing :: left) := by
      simp [LayoutNode.text]
    rw [htext, parseCell_of_opening hbox, hcells]
    simp only [Except.bind]
    rw [expect_ok.mpr rfl]
    rfl

theorem parseCells_text (nodes : LayoutNodes Text (Option Text)) {left : Text} {fuel : ℕ}
    (hnumbers : ∀ digits ∈ nodes.numbers, IsUint digits) (hmarked : nodes.Marked)
    (hfollow : Follow left) (hcomma : peek left ≠ some ',')
    (hfuel : nodes.text.length + 1 < fuel) :
    parseCells s fuel (nodes.text ++ left) = .ok (nodes.mapNumbers toNumber, left) := by
  obtain ⟨fuel, rfl⟩ := Nat.exists_eq_succ_of_ne_zero (Nat.ne_zero_of_lt hfuel)
  match nodes with
  | .last node =>
    have hcell : parseCell s fuel (node.text ++ left) = .ok (node.mapNumbers toNumber, left) :=
      parseCell_text node hnumbers hmarked hfollow (fun _ => hcomma) (Nat.lt_of_succ_lt_succ hfuel)
    rw [LayoutNodes.text, parseCells, hcell]
    exact if_neg hcomma
  | .more node nodes =>
    obtain ⟨hbare, hnode, hnodes⟩ := (marked_more_iff node nodes).mp hmarked
    have hpos := node.text_pos
    have hlength : node.text.length + nodes.text.length + 1 < fuel := by
      simp only [LayoutNodes.text, List.length_append, List.length_cons] at hfuel
      omega
    have hcell : parseCell s fuel (node.text ++ ',' :: (nodes.text ++ left)) =
        .ok (node.mapNumbers toNumber, ',' :: (nodes.text ++ left)) :=
      parseCell_text node (fun digits hdigits => hnumbers digits (List.mem_append_left _ hdigits))
        hnode (follow_comma _) (fun h => absurd h hbare) (by omega)
    have hcells : parseCells s fuel (nodes.text ++ left) = .ok (nodes.mapNumbers toNumber, left) :=
      parseCells_text nodes
        (fun digits hdigits => hnumbers digits (List.mem_append_right _ hdigits)) hnodes
        hfollow hcomma (by omega)
    rw [LayoutNodes.text, List.append_assoc, List.cons_append, parseCells, hcell]
    simp only [bind, Except.bind]
    rw [peek_cons, if_pos rfl, List.tail_cons, hcells]
    rfl

end

/-! ### Cells that are not read -/

theorem Box.exists_text (box : Box Text) (left : Text) :
    ∃ rest, box.text ++ left = box.w ++ 'x' :: rest :=
  ⟨box.h ++ ',' :: (box.x ++ ',' :: (box.y ++ left)), by simp [Box.text]⟩

/-- Cells begin with a width, and a cross behind it. -/
theorem LayoutNode.exists_text (node : LayoutNode Text (Option Text))
    (h : ∀ digits ∈ node.numbers, IsUint digits) :
    ∃ width rest, IsUint width ∧ node.text = width ++ 'x' :: rest := by
  match node with
  | .leaf none box =>
    exact ⟨box.w, _, h _ (by simp [LayoutNode.numbers, Box.numbers]), rfl⟩
  | .leaf (some paneIndex) box =>
    obtain ⟨rest, hrest⟩ := box.exists_text (',' :: paneIndex)
    exact ⟨box.w, rest, h _ (by simp [LayoutNode.numbers, Box.numbers]), hrest⟩
  | .split dir box children =>
    obtain ⟨rest, hrest⟩ := box.exists_text (dir.opening :: (children.text ++ [dir.closing]))
    exact ⟨box.w, rest, h _ (by simp [LayoutNode.numbers, Box.numbers]), hrest⟩

theorem LayoutNodes.exists_text (nodes : LayoutNodes Text (Option Text))
    (h : ∀ digits ∈ nodes.numbers, IsUint digits) :
    ∃ width rest, IsUint width ∧ nodes.text = width ++ 'x' :: rest := by
  match nodes with
  | .last node => exact node.exists_text h
  | .more node nodes =>
    obtain ⟨width, rest, hwidth, htext⟩ :=
      node.exists_text fun digits hdigits => h digits (List.mem_append_left _ hdigits)
    refine ⟨width, rest ++ ',' :: nodes.text, hwidth, ?_⟩
    rw [LayoutNodes.text, htext, List.append_assoc, List.cons_append]

/-- The width of the next cell is read as the number of a leaf that has none. -/
theorem parseCells_of_bare {box : Box Text} {nodes : LayoutNodes Text (Option Text)} {fuel : ℕ}
    (hbox : ∀ digits ∈ box.numbers, IsUint digits)
    (hnodes : ∀ digits ∈ nodes.numbers, IsUint digits) :
    ∃ parsed rest, parseCells s (fuel + 2) (box.text ++ ',' :: (nodes.text ++ left)) =
      .ok (parsed, 'x' :: rest) := by
  obtain ⟨width, rest, hwidth, htext⟩ := nodes.exists_text hnodes
  refine ⟨.last (.leaf (some (toNumber width)) (box.map toNumber)), rest ++ left, ?_⟩
  rw [htext, List.append_assoc, List.cons_append, parseCells,
    parseCell_of_comma hbox hwidth (noDigit_cons (by decide))]
  simp only [bind, Except.bind]
  rw [peek_cons, if_neg (by decide)]
  rfl

mutual

/-- A cell with a leaf that lacks its number in front of a sibling is refused. -/
theorem parseCell_of_not_marked (node : LayoutNode Text (Option Text)) {left : Text} {fuel : ℕ}
    (hnumbers : ∀ digits ∈ node.numbers, IsUint digits) (hmarked : ¬ node.Marked)
    (hfuel : node.text.length < fuel) (parsed : ParsedNode × Text) :
    parseCell s fuel (node.text ++ left) ≠ .ok parsed := by
  obtain ⟨fuel, rfl⟩ := Nat.exists_eq_succ_of_ne_zero (Nat.ne_zero_of_lt hfuel)
  match node with
  | .leaf paneId box => exact absurd trivial hmarked
  | .split dir box children =>
    have hshorter : children.text.length + 1 < fuel := by
      simp only [LayoutNode.text, List.length_append, List.length_cons] at hfuel
      omega
    have htext : (LayoutNode.split dir box children).text ++ left =
        box.text ++ dir.opening :: (children.text ++ dir.closing :: left) := by
      simp [LayoutNode.text]
    rw [htext, parseCell_of_opening fun digits hdigits =>
      hnumbers digits (List.mem_append_left _ hdigits)]
    intro h
    obtain ⟨⟨cells, rest⟩, hcells, hrest⟩ := bind_ok.mp h
    -- The reading of the children stops at the cross of the next cell.
    obtain ⟨tail, rfl⟩ := parseCells_of_not_marked children
      (fun digits hdigits => hnumbers digits (List.mem_append_right _ hdigits)) hmarked hshorter
      hcells
    cases hclosing : expect s ('x' :: tail) dir.closing with
    | error err => simp [hclosing, Except.map] at hrest
    | ok rest =>
      have hcross := (List.cons.inj (expect_ok.mp hclosing)).1
      cases dir <;> exact absurd hcross (by decide)

theorem parseCells_of_not_marked (nodes : LayoutNodes Text (Option Text)) {left : Text} {fuel : ℕ}
    (hnumbers : ∀ digits ∈ nodes.numbers, IsUint digits) (hmarked : ¬ nodes.Marked)
    (hfuel : nodes.text.length + 1 < fuel) {parsed : LayoutNodes Number (Option Number)}
    {left' : Text} (h : parseCells s fuel (nodes.text ++ left) = .ok (parsed, left')) :
    ∃ rest, left' = 'x' :: rest := by
  obtain ⟨fuel, rfl⟩ := Nat.exists_eq_succ_of_ne_zero (Nat.ne_zero_of_lt hfuel)
  match nodes with
  | .last node =>
    rw [LayoutNodes.text, parseCells] at h
    obtain ⟨cell, hcell, -⟩ := bind_ok.mp h
    exact absurd hcell
      (parseCell_of_not_marked node hnumbers hmarked (Nat.lt_of_succ_lt_succ hfuel) cell)
  | .more node nodes =>
    have hpos := node.text_pos
    have hlength : node.text.length + nodes.text.length + 1 < fuel := by
      simp only [LayoutNodes.text, List.length_append, List.length_cons] at hfuel
      omega
    have hnode : ∀ digits ∈ node.numbers, IsUint digits :=
      fun digits hdigits => hnumbers digits (List.mem_append_left _ hdigits)
    have hnodes : ∀ digits ∈ nodes.numbers, IsUint digits :=
      fun digits hdigits => hnumbers digits (List.mem_append_right _ hdigits)
    rw [LayoutNodes.text, List.append_assoc, List.cons_append] at h
    by_cases hbare : node.Bare
    · obtain ⟨box, rfl⟩ : ∃ box, node = .leaf none box := by
        match node, hbare with
        | .leaf none box, _ => exact ⟨box, rfl⟩
      obtain ⟨fuel, rfl⟩ := Nat.exists_eq_succ_of_ne_zero (Nat.ne_zero_of_lt hlength)
      have hbox : ∀ digits ∈ box.numbers, IsUint digits :=
        fun digits hdigits => hnode digits (List.mem_append_left _ hdigits)
      obtain ⟨cells, rest, hcells⟩ : ∃ parsed rest, parseCells s (fuel + 2)
          (box.text ++ ',' :: (nodes.text ++ left)) = .ok (parsed, 'x' :: rest) :=
        parseCells_of_bare hbox hnodes
      rw [LayoutNode.text, hcells] at h
      cases h
      exact ⟨rest, rfl⟩
    · by_cases hmark : node.Marked
      · -- The cell itself is read, and what is missing is missing in the next ones.
        have hcell : parseCell s fuel (node.text ++ ',' :: (nodes.text ++ left)) =
            .ok (node.mapNumbers toNumber, ',' :: (nodes.text ++ left)) :=
          parseCell_text node hnode hmark (follow_comma _) (fun h => absurd h hbare) (by omega)
        rw [parseCells, hcell] at h
        simp only [bind, Except.bind] at h
        rw [peek_cons, if_pos rfl, List.tail_cons] at h
        have hmore : ¬ nodes.Marked := by
          intro hall
          exact hmarked ((marked_more_iff node nodes).mpr ⟨hbare, hmark, hall⟩)
        obtain ⟨cells, hcells, hdone⟩ := bind_ok.mp h
        cases hdone
        exact parseCells_of_not_marked nodes hnodes hmore (by omega) hcells
      · rw [parseCells] at h
        obtain ⟨cell, hcell, -⟩ := bind_ok.mp h
        exact absurd hcell (parseCell_of_not_marked node hnode hmark (by omega) cell)

end

/-! ### What was read -/

/-- What has been read is a marked cell as it is written, and what is left ends it. -/
def IsCell (left left' : Text) (parsed : ParsedNode) : Prop :=
  ∃ node : LayoutNode Text (Option Text), (∀ digits ∈ node.numbers, IsUint digits) ∧
    node.Marked ∧ left = node.text ++ left' ∧ parsed = node.mapNumbers toNumber ∧
    (node.Bare → peek left' ≠ some ',')

def IsCells (left left' : Text) (parsed : LayoutNodes Number (Option Number)) : Prop :=
  ∃ nodes : LayoutNodes Text (Option Text), (∀ digits ∈ nodes.numbers, IsUint digits) ∧
    nodes.Marked ∧ left = nodes.text ++ left' ∧ parsed = nodes.mapNumbers toNumber

theorem exists_of_peek {c : Char} (h : peek left = some c) : ∃ tail, left = c :: tail :=
  List.head?_eq_some_iff.mp h

section Read

-- What the cells of a split are is known already.
variable {fuel : ℕ} (hcells : ∀ {left left' : Text} {parsed : LayoutNodes Number (Option Number)},
  parseCells s fuel left = .ok (parsed, left') → IsCells left left' parsed)

include hcells

theorem isCell_of_parseSplit {box : Box Text} (hbox : ∀ digits ∈ box.numbers, IsUint digits)
    {dir : LayoutDir} {rest : Text} {parsed : ParsedNode}
    (h : parseSplit s fuel dir (box.map toNumber) rest = .ok (parsed, left')) :
    IsCell (box.text ++ rest) left' parsed := by
  obtain ⟨inner, hopening, h⟩ := bind_ok.mp h
  obtain ⟨⟨cells, behind⟩, hread, h⟩ := bind_ok.mp h
  obtain ⟨after, hclosing, h⟩ := bind_ok.mp h
  cases h
  obtain rfl := expect_ok.mp hopening
  obtain rfl := expect_ok.mp hclosing
  obtain ⟨children, hchildren, hmarked, rfl, rfl⟩ := hcells hread
  refine ⟨.split dir box children, ?_, hmarked, ?_, rfl, fun h => h.elim⟩
  · simp only [LayoutNode.numbers, List.mem_append]
    rintro digits (hdigits | hdigits)
    · exact hbox digits hdigits
    · exact hchildren digits hdigits
  · simp [LayoutNode.text]

theorem isCell_of_parseCell {parsed : ParsedNode}
    (h : parseCell s (fuel + 1) left = .ok (parsed, left')) : IsCell left left' parsed := by
  obtain ⟨box, rest, hread⟩ : ∃ box rest, readBox s left = .ok (box, rest) := by
    rw [parseCell] at h
    obtain ⟨⟨box, rest⟩, hread, -⟩ := bind_ok.mp h
    exact ⟨box, rest, hread⟩
  obtain ⟨box, hbox, rfl, rfl, -⟩ := exists_of_readBox hread
  rw [parseCell_of_readBox hread] at h
  -- Behind the box stands a bracket, a comma with the pane number, or the end of the cell.
  split at h
  · exact isCell_of_parseSplit hcells hbox h
  · split at h
    · exact isCell_of_parseSplit hcells hbox h
    · split at h
      · next hcomma =>
        obtain ⟨tail, rfl⟩ := exists_of_peek hcomma
        rw [List.tail_cons] at h
        cases hpane : readUint s tail with
        | error err => simp [hpane, Except.map] at h
        | ok pane =>
          rw [hpane] at h
          cases h
          obtain ⟨paneIndex, huint, rfl, hvalue, -⟩ := exists_of_readUint hpane
          refine ⟨.leaf (some paneIndex) box, ?_, trivial, ?_, ?_, fun h => h.elim⟩
          · simp only [LayoutNode.numbers, List.mem_append, Option.mem_toList,
              Option.some.injEq]
            rintro digits (hdigits | rfl)
            · exact hbox digits hdigits
            · exact huint
          · simp [LayoutNode.text]
          · rw [hvalue]
            rfl
      · next hcomma =>
        cases h
        refine ⟨.leaf none box, ?_, trivial, rfl, rfl, fun _ => hcomma⟩
        simpa [LayoutNode.numbers] using hbox

theorem isCells_of_parseCells (hcell : ∀ {left left' : Text} {parsed : ParsedNode},
      parseCell s fuel left = .ok (parsed, left') → IsCell left left' parsed)
    {parsed : LayoutNodes Number (Option Number)}
    (h : parseCells s (fuel + 1) left = .ok (parsed, left')) : IsCells left left' parsed := by
  rw [parseCells] at h
  obtain ⟨⟨cell, rest⟩, hread, h⟩ := bind_ok.mp h
  obtain ⟨node, hnode, hmarked, rfl, rfl, hbare⟩ := hcell hread
  dsimp only at h
  split at h
  · next hcomma =>
    obtain ⟨⟨cells, behind⟩, hmore, h⟩ := bind_ok.mp h
    cases h
    obtain ⟨nodes, hnodes, hmarks, htail, rfl⟩ := hcells hmore
    refine ⟨.more node nodes, ?_, ?_, ?_, rfl⟩
    · simp only [LayoutNodes.numbers, List.mem_append]
      rintro digits (hdigits | hdigits)
      · exact hnode digits hdigits
      · exact hnodes digits hdigits
    · exact (marked_more_iff node nodes).mpr ⟨fun h => hbare h hcomma, hmarked, hmarks⟩
    · obtain ⟨tail, rfl⟩ := exists_of_peek hcomma
      rw [List.tail_cons] at htail
      simp [LayoutNodes.text, htail]
  · cases h
    exact ⟨.last node, hnode, hmarked, rfl, rfl⟩

end Read

/-- What has been read is a marked tree as it is written. -/
theorem exists_of_parse (s : Text) (fuel : ℕ) :
    (∀ {left left' : Text} {parsed : ParsedNode}, parseCell s fuel left = .ok (parsed, left') →
      IsCell left left' parsed) ∧
    ∀ {left left' : Text} {parsed : LayoutNodes Number (Option Number)},
      parseCells s fuel left = .ok (parsed, left') → IsCells left left' parsed := by
  induction fuel with
  | zero =>
    constructor
    · intro left left' parsed h
      simp [parseCell, fail] at h
    · intro left left' parsed h
      simp [parseCells, fail] at h
  | succ fuel ih =>
    obtain ⟨ihcell, ihcells⟩ := ih
    constructor
    · exact fun h => isCell_of_parseCell ihcells h
    · exact fun h => isCells_of_parseCells ihcells ihcell h

end AgentCockpit.Remote.LayoutString
