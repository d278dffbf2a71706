import AgentCockpit.Core.Joined

/-!
# Delimited text

A table is a text of records with fields in them. A field that is quoted may hold the delimiter, the
ends of lines, and quotes, which are doubled. The parser goes over the text with an index: it ends a
field at a delimiter or at the end of a line, skips blank lines, and takes what it cannot read as it
stands.

## Main results

* `parseDelimited_printDelimited` — **the records come back, however they were printed**
-/

namespace AgentCockpit.Renderer.TabularText

open AgentCockpit.Core

inductive Delimiter
  | comma
  | tab
  deriving DecidableEq

abbrev Units := List UInt16

def Delimiter.code : Delimiter → UInt16
  | .comma => 44
  | .tab => 9

def quote : UInt16 := 34

def lf : UInt16 := 10

def cr : UInt16 := 13

def byteOrderMark : UInt16 := 0xfeff

/-! ### The parser -/

/-- `text.slice(start, stop)` -/
def slice (text : Units) (start stop : ℕ) : Units := (text.take stop).drop start

/-- `text.indexOf('"', start)` -/
def indexOfQuote (text : Units) (start : ℕ) : Option ℕ :=
  ((text.drop start).findIdx? (· = quote)).map (start + ·)

theorem indexOfQuote_bounds {text : Units} {start q : ℕ} (h : indexOfQuote text start = some q) :
    start ≤ q ∧ q < text.length := by
  obtain ⟨offset, hoffset, rfl⟩ := Option.map_eq_some_iff.mp h
  have hlt := (List.findIdx?_eq_some_iff_getElem.mp hoffset).1
  rw [List.length_drop] at hlt
  omega

/-- What stands in quotes, from behind the opening one on, and the index behind the closing one. -/
def closeQuote (text : Units) (j : ℕ) (out : Units) : Units × ℕ :=
  match h : indexOfQuote text j with
  | none => (out ++ text.drop j, text.length)
  | some q =>
    if text[q + 1]? = some quote then closeQuote text (q + 2) (out ++ slice text j (q + 1))
    else (out ++ slice text j q, q + 1)
termination_by text.length - j
decreasing_by
  have := indexOfQuote_bounds h
  omega

/-- Ends a field. -/
def isStop (delimiter : Delimiter) (c : UInt16) : Bool :=
  c = delimiter.code ∨ c = lf ∨ c = cr

def fieldEnd (delimiter : Delimiter) (text : Units) (k : ℕ) : ℕ :=
  if h : k < text.length then
    if isStop delimiter text[k] then k else fieldEnd delimiter text (k + 1)
  else k
termination_by text.length - k

/-- The field at an index, and the index behind it. -/
def parseField (delimiter : Delimiter) (text : Units) (i : ℕ) : Units × ℕ :=
  if text[i]? = some quote then
    let (out, j) := closeQuote text (i + 1) []
    let k := fieldEnd delimiter text j
    (if j < k then out ++ slice text j k else out, k)
  else
    let k := fieldEnd delimiter text i
    (slice text i k, k)

theorem le_fieldEnd (delimiter : Delimiter) (text : Units) (k : ℕ) :
    k ≤ fieldEnd delimiter text k := by
  induction k using fieldEnd.induct delimiter text with
  | case1 k h hstop => simp [fieldEnd, h, hstop]
  | case2 k h hstop ih =>
    rw [fieldEnd, dif_pos h, if_neg hstop]
    omega
  | case3 k h => simp [fieldEnd, h]

/-- The two things that can stand behind the next quote. -/
theorem closeQuote_of_some {text : Units} {j q : ℕ} (out : Units)
    (h : indexOfQuote text j = some q) :
    closeQuote text j out =
      if text[q + 1]? = some quote then closeQuote text (q + 2) (out ++ slice text j (q + 1))
      else (out ++ slice text j q, q + 1) := by
  rw [closeQuote]
  split
  · next hnone => exact absurd (h.symm.trans hnone) nofun
  · next q' hsome =>
    obtain rfl := Option.some.inj (h.symm.trans hsome)
    rfl

theorem le_closeQuote (text : Units) (j : ℕ) (out : Units) (hj : j ≤ text.length) :
    j ≤ (closeQuote text j out).2 := by
  induction j, out using closeQuote.induct text with
  | case1 j out hnone =>
    rw [closeQuote]
    split
    · exact hj
    · next hsome => exact absurd (hnone.symm.trans hsome) nofun
  | case2 j out q hq hnext ih =>
    have hbounds := indexOfQuote_bounds hq
    have hlt := (List.getElem?_eq_some_iff.mp hnext).1
    rw [closeQuote_of_some out hq, if_pos hnext]
    have := ih (by omega)
    omega
  | case3 j out q hq hnext =>
    have hbounds := indexOfQuote_bounds hq
    rw [closeQuote_of_some out hq, if_neg hnext]
    dsimp only
    omega

theorem le_parseField (delimiter : Delimiter) (text : Units) (i : ℕ) :
    i ≤ (parseField delimiter text i).2 := by
  rw [parseField]
  split
  · next hquote =>
    obtain ⟨hi, -⟩ := List.getElem?_eq_some_iff.mp hquote
    have hclose := le_closeQuote text (i + 1) [] hi
    have hend := le_fieldEnd delimiter text (closeQuote text (i + 1) []).2
    dsimp only
    omega
  · exact le_fieldEnd delimiter text i

/-- The record at an index, behind the fields read so far, and the index behind it. -/
def parseRow (delimiter : Delimiter) (text : Units) (row : List Units) (i : ℕ) : List Units × ℕ :=
  match read : parseField delimiter text i with
  | (field, next) =>
    if h : next < text.length then
      if text[next] = delimiter.code then
        -- Behind the last delimiter of the text there is one more field.
        if text.length ≤ next + 1 then (row ++ [field] ++ [[]], next + 1)
        else parseRow delimiter text (row ++ [field]) (next + 1)
      else
        (row ++ [field],
          if text[next] = cr ∧ text[next + 1]? = some lf then next + 2 else next + 1)
    else (row ++ [field], next)
termination_by text.length - i
decreasing_by
  have := le_parseField delimiter text i
  rw [read] at this
  omega

/-- Each record takes the index further. -/
theorem lt_parseRow (delimiter : Delimiter) (text : Units) (row : List Units) {i : ℕ}
    (hi : i < text.length) : i < (parseRow delimiter text row i).2 := by
  induction row, i using parseRow.induct delimiter text with
  | case1 row i field next read h hdelimiter hlast =>
    have hle := le_parseField delimiter text i
    rw [parseRow]
    simp only [read, h, hdelimiter, hlast, dite_true, if_true]
    rw [read] at hle
    omega
  | case2 row i field next read h hdelimiter hlast ih =>
    have hle := le_parseField delimiter text i
    rw [parseRow]
    simp only [read, h, hdelimiter, hlast, dite_true, if_true, if_false]
    rw [read] at hle
    have := ih (by omega)
    omega
  | case3 row i field next read h hdelimiter =>
    have hle := le_parseField delimiter text i
    rw [parseRow]
    simp only [read, h, hdelimiter, dite_true, if_false]
    rw [read] at hle
    split
    · omega
    · omega
  | case4 row i field next read h =>
    rw [parseRow]
    simp only [read, h, dite_false]
    omega

/-- The records from an index on, behind those read so far. -/
def parseRows (delimiter : Delimiter) (text : Units) (rows : List (List Units)) (i : ℕ) :
    List (List Units) :=
  if i < text.length then
    -- A blank line is no record.
    let row := (parseRow delimiter text [] i).1
    parseRows delimiter text (if row = [[]] then rows else rows ++ [row])
      (parseRow delimiter text [] i).2
  else rows
termination_by text.length - i
decreasing_by
  have := lt_parseRow delimiter text [] ‹i < text.length›
  omega

def parseDelimited (text : Units) (delimiter : Delimiter) : List (List Units) :=
  parseRows delimiter text [] (if text[0]? = some byteOrderMark then 1 else 0)

/-! ### Printing -/

/-- A field, with the choice to quote it. -/
structure EncodedField where
  cell : Units
  quoted : Bool

/-- Quotes are doubled. -/
def escape (cell : Units) : Units := cell.flatMap fun c => if c = quote then [quote, quote] else [c]

def EncodedField.text (field : EncodedField) : Units :=
  if field.quoted then quote :: (escape field.cell ++ [quote]) else field.cell

/-- A record, with the choice of what ends it. -/
structure EncodedRecord where
  fields : List EncodedField
  terminator : Units

def EncodedRecord.cells (record : EncodedRecord) : List Units := record.fields.map (·.cell)

def EncodedRecord.text (delimiter : Delimiter) (record : EncodedRecord) : Units :=
  join delimiter.code (record.fields.map EncodedField.text) ++ record.terminator

def printDelimited (delimiter : Delimiter) (leadingMark : Bool) (records : List EncodedRecord) :
    Units :=
  (if leadingMark then [byteOrderMark] else []) ++ records.flatMap (EncodedRecord.text delimiter)

/-- A cell that has to be quoted. -/
def NeedsQuotes (delimiter : Delimiter) (cell : Units) : Prop :=
  ∃ c ∈ cell, c = quote ∨ isStop delimiter c = true

def IsEnd (terminator : Units) : Prop := terminator ∈ [[lf], [cr], [cr, lf]]

instance (terminator : Units) : Decidable (IsEnd terminator) :=
  inferInstanceAs (Decidable (terminator ∈ [[lf], [cr], [cr, lf]]))

/-- Each record is ended, the last one possibly by the end of the text. -/
def Terminated : List EncodedRecord → Prop
  | [] => True
  | [last] => IsEnd last.terminator ∨ last.terminator = []
  | record :: records => IsEnd record.terminator ∧ Terminated records

instance (delimiter : Delimiter) (cell : Units) : Decidable (NeedsQuotes delimiter cell) :=
  inferInstanceAs (Decidable (∃ c ∈ cell, c = quote ∨ isStop delimiter c = true))

/-- What is neither an empty record nor a blank line, with quotes wherever they are needed. -/
structure Encodable (delimiter : Delimiter) (record : EncodedRecord) : Prop where
  nonempty : record.fields ≠ []
  notBlank : record.cells ≠ [[]]
  quoted : ∀ field ∈ record.fields, NeedsQuotes delimiter field.cell → field.quoted = true

/-- Records that can be read back. -/
structure Encodes (delimiter : Delimiter) (records : List EncodedRecord) : Prop where
  encodable : ∀ record ∈ records, Encodable delimiter record
  terminated : Terminated records
  /-- A byte order mark in first place is quoted if it belongs to a cell. -/
  mark : ∀ record ∈ records.head?, ∀ field ∈ record.fields.head?,
    field.cell.head? = some byteOrderMark → field.quoted = true

/-! ### Reading back -/

section Reading

variable {delimiter : Delimiter} {text body more : Units} {i j : ℕ}

theorem drop_of_drop (h : text.drop j = body ++ more) : text.drop (j + body.length) = more := by
  rw [← List.drop_drop, h, List.drop_left]

theorem drop_behind {c : UInt16} (h : text.drop j = body ++ c :: more) :
    text.drop (j + body.length + 1) = more := by
  rw [← List.drop_drop, drop_of_drop h]
  rfl

theorem getElem?_of_drop (h : text.drop j = body ++ more) :
    text[j + body.length]? = more.head? := by
  rw [← drop_of_drop h, List.head?_drop]

theorem slice_of_drop (h : text.drop j = body ++ more) : slice text j (j + body.length) = body := by
  rw [slice, List.drop_take, h, Nat.add_sub_cancel_left, List.take_left]

theorem indexOfQuote_of_drop (h : text.drop j = body ++ quote :: more) (hbody : quote ∉ body) :
    indexOfQuote text j = some (j + body.length) := by
  have hfind : (body ++ quote :: more).findIdx? (· = quote) = some body.length := by
    rw [List.findIdx?_append, List.findIdx?_eq_none_iff.mpr]
    · simp [List.findIdx?_cons]
    · rintro c hc
      rw [decide_eq_false_iff_not]
      rintro rfl
      exact hbody hc
  rw [indexOfQuote, h, hfind, Option.map_some]

theorem escape_of_notMem {cell : Units} (h : quote ∉ cell) : escape cell = cell := by
  rw [escape]
  induction cell with
  | nil => rfl
  | cons c cell ih =>
    rw [List.mem_cons, not_or] at h
    rw [List.flatMap_cons, if_neg (Ne.symm h.1), ih h.2]
    rfl

/-- The index goes behind the closing quote, and doubled quotes are read as one. -/
theorem closeQuote_eq {cell : Units} (out : Units) (h : text.drop j = escape cell ++ quote :: more)
    (hmore : more.head? ≠ some quote) :
    closeQuote text j out = (out ++ cell, j + (escape cell).length + 1) := by
  induction hsize : cell.length using Nat.strongRecOn generalizing cell j out with
  | ind size ih =>
    by_cases hquote : quote ∈ cell
    · -- Up to the first doubled quote, and from behind it on.
      obtain ⟨front, back, rfl, hfront⟩ := List.eq_append_cons_of_mem hquote
      have hescape : escape (front ++ quote :: back) = front ++ quote :: quote :: escape back := by
        have hplain := escape_of_notMem hfront
        rw [escape] at hplain ⊢
        rw [List.flatMap_append, hplain, List.flatMap_cons, if_pos rfl]
        rfl
      rw [hescape, List.append_assoc] at h
      have hindex := indexOfQuote_of_drop h hfront
      have hsecond : text.drop (j + front.length + 1) = quote :: (escape back ++ quote :: more) :=
        drop_behind h
      have hnext : text[j + front.length + 1]? = some quote := by
        rw [← List.head?_drop, hsecond, List.head?_cons]
      have hslice : slice text j (j + front.length + 1) = front ++ [quote] := by
        rw [slice, List.drop_take, h, Nat.add_assoc, Nat.add_sub_cancel_left]
        simp [List.take_append, List.take_of_length_le]
      have hback : text.drop (j + front.length + 2) = escape back ++ quote :: more :=
        drop_of_drop (show _ = [quote] ++ _ from hsecond)
      rw [closeQuote_of_some out hindex, if_pos hnext, hslice,
        ih back.length (by rw [← hsize]; simp; omega) _ hback rfl, hescape]
      simp
      omega
    · rw [escape_of_notMem hquote] at h ⊢
      have hnext : text[j + cell.length + 1]? = more.head? := by
        rw [← List.head?_drop, drop_behind h]
      rw [closeQuote_of_some out (indexOfQuote_of_drop h hquote), hnext, if_neg hmore,
        slice_of_drop h]

theorem fieldEnd_eq (h : text.drop j = body ++ more)
    (hbody : ∀ c ∈ body, isStop delimiter c = false)
    (hmore : ∀ c ∈ more.head?, isStop delimiter c = true) :
    fieldEnd delimiter text j = j + body.length := by
  induction body generalizing j with
  | nil =>
    have hhead := getElem?_of_drop h
    rw [List.length_nil, Nat.add_zero] at hhead ⊢
    rw [fieldEnd]
    split
    · next hlt =>
      rw [List.getElem?_eq_getElem hlt] at hhead
      rw [if_pos (hmore _ hhead.symm)]
    · rfl
  | cons c body ih =>
    have hhead : text[j]? = some c := by rw [← List.head?_drop, h]; rfl
    obtain ⟨hlt, hc⟩ := List.getElem?_eq_some_iff.mp hhead
    have htail : text.drop (j + 1) = body ++ more :=
      drop_of_drop (show text.drop j = [c] ++ (body ++ more) by rw [h]; rfl)
    rw [fieldEnd, dif_pos hlt, hc, hbody c List.mem_cons_self, if_neg Bool.false_ne_true,
      ih htail fun c hc => hbody c (List.mem_cons_of_mem _ hc), List.length_cons]
    omega

/-- A field is read back in front of what ends it. -/
theorem parseField_eq {field : EncodedField}
    (hquoted : NeedsQuotes delimiter field.cell → field.quoted = true)
    (h : text.drop i = field.text ++ more) (hmore : ∀ c ∈ more.head?, isStop delimiter c = true) :
    parseField delimiter text i = (field.cell, i + field.text.length) := by
  have hquote : isStop delimiter quote = false := by cases delimiter <;> rfl
  rw [EncodedField.text] at h ⊢
  cases hfield : field.quoted with
  | true =>
    rw [hfield, if_pos rfl] at h
    rw [if_pos rfl]
    have hopen : text[i]? = some quote := by rw [← List.head?_drop, h]; rfl
    have hbehind : text.drop (i + 1) = escape field.cell ++ quote :: more :=
      drop_of_drop (show text.drop i = [quote] ++ (escape field.cell ++ quote :: more) by
        rw [h]; simp)
    -- no quote stands behind the closing one, which would make an escaped quote of the two
    have hclose := closeQuote_eq [] hbehind fun hhead => by
      rw [hmore quote hhead] at hquote
      exact absurd hquote nofun
    have hend := fieldEnd_eq (show _ = [] ++ more from drop_behind hbehind) (by simp) hmore
    rw [List.length_nil, Nat.add_zero] at hend
    rw [parseField, if_pos hopen]
    simp only [hclose, hend, Nat.lt_irrefl]
    simp
    omega
  | false =>
    rw [hfield, if_neg Bool.false_ne_true] at h
    rw [if_neg Bool.false_ne_true]
    -- a field written without quotes holds nothing that needs them
    have hplain : ∀ c ∈ field.cell, c ≠ quote ∧ isStop delimiter c = false := fun c hc => by
      have hneeds : ¬ NeedsQuotes delimiter field.cell := fun hneeds => by
        rw [hquoted hneeds] at hfield
        exact absurd hfield nofun
      refine ⟨fun heq => hneeds ⟨c, hc, .inl heq⟩, ?_⟩
      rw [← Bool.not_eq_true]
      exact fun hstop => hneeds ⟨c, hc, .inr hstop⟩
    have hopen : text[i]? ≠ some quote := by
      rw [← List.head?_drop, h]
      cases hcell : field.cell with
      | nil =>
        intro hhead
        rw [hmore quote hhead] at hquote
        exact absurd hquote nofun
      | cons c cell =>
        intro hhead
        exact (hplain c (by rw [hcell]; exact List.mem_cons_self)).1 (Option.some.inj hhead)
    rw [parseField, if_neg hopen]
    simp only [fieldEnd_eq h (fun c hc => (hplain c hc).2) hmore, slice_of_drop h]

theorem eq_nil_of_text_eq_nil {field : EncodedField} (h : field.text = []) : field.cell = [] := by
  rw [EncodedField.text] at h
  split at h
  · exact absurd h (List.cons_ne_nil _ _)
  · exact h

theorem isStop_of_isEnd {terminator : Units} (h : IsEnd terminator) :
    ∃ c rest, terminator = c :: rest ∧ isStop delimiter c = true ∧ c ≠ delimiter.code := by
  simp only [IsEnd, List.mem_cons, List.not_mem_nil, or_false] at h
  rcases h with rfl | rfl | rfl <;> cases delimiter <;>
    exact ⟨_, _, rfl, by decide, by decide⟩

/-- A record is read back in front of what follows its end. -/
theorem parseRow_eq {fields : List EncodedField} {terminator : Units} (row : List Units)
    (hfields : fields ≠ [])
    (hquoted : ∀ field ∈ fields, NeedsQuotes delimiter field.cell → field.quoted = true)
    (hend : IsEnd terminator ∨ (terminator = [] ∧ more = []))
    (hcr : terminator = [cr] → more.head? ≠ some lf)
    (h : text.drop i =
      join delimiter.code (fields.map EncodedField.text) ++ (terminator ++ more)) :
    parseRow delimiter text row i = (row ++ fields.map (·.cell),
      i + (join delimiter.code (fields.map EncodedField.text)).length + terminator.length) := by
  induction fields generalizing row i with
  | nil => exact absurd rfl hfields
  | cons field fields ih =>
    have hfield := hquoted field List.mem_cons_self
    cases fields with
    | nil =>
      simp only [List.map_cons, List.map_nil, join_singleton] at h ⊢
      rcases hend with hend | ⟨rfl, rfl⟩
      · obtain ⟨c, rest, rfl, hstop, hcode⟩ := @isStop_of_isEnd delimiter _ hend
        have hread := parseField_eq hfield h (by
          intro other hother
          obtain rfl : c = other := by simpa using hother
          exact hstop)
        have hnext : text[i + field.text.length]? = some c := getElem?_of_drop h
        obtain ⟨hlt, hc⟩ := List.getElem?_eq_some_iff.mp hnext
        have hbehind : text[i + field.text.length + 1]? = (rest ++ more).head? := by
          rw [← List.head?_drop, drop_behind h]
          rfl
        rw [parseRow, hread]
        simp only [hlt, hc, hcode, dite_true, if_false, hbehind]
        simp only [IsEnd, List.mem_cons, List.not_mem_nil, or_false] at hend
        rcases hend with hend | hend | hend
        · obtain ⟨rfl, rfl⟩ := List.cons.inj hend
          rw [if_neg (by rintro ⟨hcr, -⟩; exact absurd hcr (by decide))]
          rfl
        · obtain ⟨rfl, rfl⟩ := List.cons.inj hend
          rw [if_neg (by rintro ⟨-, hlf⟩; exact hcr rfl hlf)]
          rfl
        · obtain ⟨rfl, rfl⟩ := List.cons.inj hend
          rw [if_pos ⟨rfl, rfl⟩]
          rfl
      · have hread := parseField_eq hfield h (by simp)
        have hover : ¬ i + field.text.length < text.length := by
          have := drop_of_drop h
          rw [List.append_nil, List.drop_eq_nil_iff] at this
          omega
        rw [parseRow, hread]
        simp only [hover, dite_false, List.length_nil, Nat.add_zero]
    | cons next fields =>
      rw [List.map_cons, List.map_cons, join_cons_cons, List.append_assoc, List.cons_append] at h
      have hread := parseField_eq hfield h (by
        intro c hc
        obtain rfl : delimiter.code = c := by simpa using hc
        simp [isStop])
      have hnext : text[i + field.text.length]? = some delimiter.code := getElem?_of_drop h
      obtain ⟨hlt, hcode⟩ := List.getElem?_eq_some_iff.mp hnext
      have hrest : text.drop (i + field.text.length + 1) =
          join delimiter.code ((next :: fields).map EncodedField.text) ++ (terminator ++ more) :=
        drop_behind h
      rw [parseRow, hread]
      simp only [hlt, hcode, dite_true, if_true]
      split
      · next hlast =>
        -- The text ends with the delimiter, and so in an empty field.
        rw [List.drop_eq_nil_of_le hlast] at hrest
        obtain ⟨hjoin, hmore⟩ := List.append_eq_nil_iff.mp hrest.symm
        obtain ⟨rfl, -⟩ := List.append_eq_nil_iff.mp hmore
        cases fields with
        | nil =>
          rw [List.map_singleton, join_singleton] at hjoin
          have hempty := eq_nil_of_text_eq_nil hjoin
          simp [hempty, hjoin]
          omega
        | cons other fields => simp at hjoin
      · rw [ih (row ++ [field.cell]) (List.cons_ne_nil _ _)
          (fun other hother => hquoted other (List.mem_cons_of_mem _ hother)) hrest]
        simp only [List.map_cons, join_cons_cons, List.length_append, List.length_cons]
        refine Prod.ext (by simp) ?_
        dsimp only
        omega

/-- A record begins with a quote, with a delimiter, or with its first cell, and not with the end of
a line. -/
theorem Encodable.exists_head {record : EncodedRecord} (h : Encodable delimiter record) :
    ∃ c rest, join delimiter.code (record.fields.map EncodedField.text) = c :: rest ∧ c ≠ lf ∧
      (c = byteOrderMark → ∃ field ∈ record.fields.head?,
        field.quoted = false ∧ field.cell.head? = some byteOrderMark) := by
  obtain ⟨field, fields, hfields⟩ := List.exists_cons_of_ne_nil h.nonempty
  obtain ⟨rest, hrest⟩ : ∃ rest, join delimiter.code (record.fields.map EncodedField.text) =
      field.text ++ rest := by
    rw [hfields]
    cases fields with
    | nil => exact ⟨[], by simp⟩
    | cons next fields => exact ⟨_, join_cons_cons⟩
  cases hquoted : field.quoted with
  | true =>
    refine ⟨quote, escape field.cell ++ [quote] ++ rest, ?_, by decide, fun heq => ?_⟩
    · rw [hrest, EncodedField.text, if_pos hquoted]
      rfl
    · exact absurd heq (by decide)
  | false =>
    have htext : field.text = field.cell := by
      rw [EncodedField.text, if_neg (ne_true_of_eq_false hquoted)]
    cases hcell : field.cell with
    | nil =>
      cases fields with
      | nil => exact absurd (by simp [EncodedRecord.cells, hfields, hcell]) h.notBlank
      | cons next fields =>
        refine ⟨delimiter.code, join delimiter.code ((next :: fields).map EncodedField.text), ?_,
          by cases delimiter <;> decide, fun heq => ?_⟩
        · rw [hfields, List.map_cons, List.map_cons, join_cons_cons, htext, hcell]
          rfl
        · exact absurd heq (by cases delimiter <;> decide)
    | cons c cell =>
      refine ⟨c, cell ++ rest, by rw [hrest, htext, hcell]; rfl, ?_, ?_⟩
      · rintro rfl
        have hneeds : NeedsQuotes delimiter field.cell :=
          ⟨lf, by rw [hcell]; exact List.mem_cons_self, .inr (by cases delimiter <;> rfl)⟩
        rw [h.quoted field (by rw [hfields]; exact List.mem_cons_self) hneeds] at hquoted
        exact absurd hquoted nofun
      · rintro rfl
        exact ⟨field, by rw [hfields]; rfl, hquoted, by rw [hcell]; rfl⟩

/-- The records are read back from where the first one begins. -/
theorem parseRows_eq {records : List EncodedRecord} (rows : List (List Units))
    (hencodable : ∀ record ∈ records, Encodable delimiter record) (hterminated : Terminated records)
    (h : text.drop i = records.flatMap (EncodedRecord.text delimiter)) :
    parseRows delimiter text rows i = rows ++ records.map EncodedRecord.cells := by
  induction records generalizing rows i with
  | nil =>
    have hover : ¬ i < text.length := Nat.not_lt.mpr (List.drop_eq_nil_iff.mp h)
    rw [parseRows, if_neg hover, List.map_nil, List.append_nil]
  | cons record records ih =>
    have hrecord := hencodable record List.mem_cons_self
    obtain ⟨c, rest, hbody, -⟩ := hrecord.exists_head
    rw [List.flatMap_cons, EncodedRecord.text, List.append_assoc] at h
    have hin : i < text.length := by
      rw [← Nat.not_le, ← List.drop_eq_nil_iff, h, hbody]
      exact List.cons_ne_nil _ _
    have hend : IsEnd record.terminator ∨ (record.terminator = [] ∧
        records.flatMap (EncodedRecord.text delimiter) = []) := by
      cases records with
      | nil => exact hterminated.imp_right fun hnil => ⟨hnil, rfl⟩
      | cons next records => exact .inl hterminated.1
    have hlf : (records.flatMap (EncodedRecord.text delimiter)).head? ≠ some lf := by
      cases records with
      | nil => exact nofun
      | cons next records =>
        obtain ⟨first, tail, hnext, hfirst, -⟩ :=
          (hencodable next (List.mem_cons_of_mem _ List.mem_cons_self)).exists_head
        rw [List.flatMap_cons, EncodedRecord.text, hnext]
        exact fun heq => hfirst (Option.some.inj heq)
    have hread := parseRow_eq [] hrecord.nonempty hrecord.quoted hend (fun _ => hlf) h
    rw [List.nil_append, ← EncodedRecord.cells] at hread
    have hbehind : text.drop (i +
        (join delimiter.code (record.fields.map EncodedField.text)).length +
        record.terminator.length) = records.flatMap (EncodedRecord.text delimiter) :=
      drop_of_drop (drop_of_drop h)
    rw [parseRows, if_pos hin]
    simp only [hread, if_neg hrecord.notBlank]
    rw [ih _ (fun other hother => hencodable other
      (List.mem_cons_of_mem _ hother)) ?_ hbehind]
    · rw [List.append_assoc]
      rfl
    · cases records with
      | nil => trivial
      | cons next records => exact hterminated.2

end Reading

/-- **Delimited text is read back**: whatever is quoted, however the lines end, and with or without
a byte order mark, the parser returns the records that were printed; on any text it goes from record
to record and so comes to an end. -/
theorem parseDelimited_printDelimited (delimiter : Delimiter) (leadingMark : Bool)
    (records : List EncodedRecord) (h : Encodes delimiter records) :
    parseDelimited (printDelimited delimiter leadingMark records) delimiter =
        records.map EncodedRecord.cells ∧
      ∀ (text : Units) (row : List Units) (i : ℕ), i < text.length →
        i < (parseRow delimiter text row i).2 := by
  refine ⟨?_, fun text row i hi => lt_parseRow delimiter text row hi⟩
  rw [parseDelimited]
  cases leadingMark with
  | true => exact parseRows_eq [] h.encodable h.terminated rfl
  | false =>
    have hhead : (printDelimited delimiter false records)[0]? ≠ some byteOrderMark := by
      rw [← List.head?_eq_getElem?]
      cases records with
      | nil => exact nofun
      | cons record records =>
        obtain ⟨c, rest, hbody, -, hmark⟩ :=
          (h.encodable record List.mem_cons_self).exists_head
        intro heq
        have hc : c = byteOrderMark := by
          simpa [printDelimited, EncodedRecord.text, hbody] using heq
        obtain ⟨field, hfield, hquoted, hcell⟩ := hmark hc
        rw [h.mark record rfl field hfield hcell] at hquoted
        exact absurd hquoted nofun
    rw [if_neg hhead]
    exact parseRows_eq [] h.encodable h.terminated rfl

/-- `a,"b,c"` and `"""",`. -/
def quotedRecords : List EncodedRecord :=
  [⟨[⟨[97], false⟩, ⟨[98, 44, 99], true⟩], [cr, lf]⟩, ⟨[⟨[quote], true⟩, ⟨[], false⟩], []⟩]

theorem parseDelimited_printDelimited_quoted :
    parseDelimited (printDelimited .comma true quotedRecords) .comma =
      [[[97], [98, 44, 99]], [[quote], []]] :=
  (parseDelimited_printDelimited .comma true quotedRecords
    { encodable := by
        simp only [quotedRecords, List.forall_mem_cons]
        exact ⟨⟨by decide, by decide, by decide⟩, ⟨by decide, by decide, by decide⟩, nofun⟩
      terminated := ⟨by decide, .inr rfl⟩
      mark := by decide }).1

/-! ### What can be read -/

theorem parseRow_ne_nil (delimiter : Delimiter) (text : Units) (row : List Units) (i : ℕ) :
    (parseRow delimiter text row i).1 ≠ [] := by
  induction row, i using parseRow.induct delimiter text with
  | case1 row i field next read h hdelimiter hlast =>
    rw [parseRow]
    simp [read, h, hdelimiter, hlast]
  | case2 row i field next read h hdelimiter hlast ih =>
    rw [parseRow]
    simpa [read, h, hdelimiter, hlast] using ih
  | case3 row i field next read h hdelimiter =>
    rw [parseRow]
    simp [read, h, hdelimiter]
  | case4 row i field next read h =>
    rw [parseRow]
    simp [read, h]

/-- Neither an empty record nor a blank line is added to the records. -/
theorem mem_parseRows {delimiter : Delimiter} {text : Units} {rows : List (List Units)} {i : ℕ}
    {row : List Units} (hrow : row ∈ parseRows delimiter text rows i) :
    row ∈ rows ∨ row ≠ [] ∧ row ≠ [[]] := by
  induction rows, i using parseRows.induct delimiter text with
  | case1 rows i hi read ih =>
    rw [parseRows, if_pos hi] at hrow
    refine (ih hrow).elim (fun hmem => ?_) .inr
    split at hmem
    · exact .inl hmem
    · next hblank =>
      refine (List.mem_append.mp hmem).imp_right fun hread => ?_
      obtain rfl := List.mem_singleton.mp hread
      exact ⟨parseRow_ne_nil delimiter text [] i, hblank⟩
  | case2 rows i hi =>
    rw [parseRows, if_neg hi] at hrow
    exact .inl hrow

/-- A record with all its fields in quotes. -/
def EncodedRecord.inQuotes (cells : List Units) : EncodedRecord := ⟨cells.map (⟨·, true⟩), [lf]⟩

/-- **What can be read**: a table is read from some text if and only if no record of it is empty
or a blank line. -/
theorem exists_parseDelimited_iff (delimiter : Delimiter) (table : List (List Units)) :
    (∃ text, parseDelimited text delimiter = table) ↔ ∀ row ∈ table, row ≠ [] ∧ row ≠ [[]] := by
  constructor
  · rintro ⟨text, rfl⟩ row hrow
    exact (mem_parseRows hrow).resolve_left List.not_mem_nil
  · intro h
    have hcells : ∀ row, (EncodedRecord.inQuotes row).cells = row := fun row =>
      (List.map_map ..).trans (List.map_id row)
    have hencodable : ∀ record ∈ table.map EncodedRecord.inQuotes, Encodable delimiter record := by
      refine List.forall_mem_map.mpr fun row hrow => ⟨?_, ?_, ?_⟩
      · exact fun hnil => (h row hrow).1 (List.map_eq_nil_iff.mp hnil)
      · exact (hcells row).symm ▸ (h row hrow).2
      · exact List.forall_mem_map.mpr fun _ _ _ => rfl
    have hterminated : Terminated (table.map EncodedRecord.inQuotes) := by
      clear h hencodable
      induction table with
      | nil => trivial
      | cons row rows ih =>
        cases rows with
        | nil => exact .inl List.mem_cons_self
        | cons next rows => exact ⟨List.mem_cons_self, ih⟩
    -- a byte order mark in front, so that none of the cells is taken for one
    refine ⟨printDelimited delimiter true (table.map .inQuotes), ?_⟩
    refine (parseRows_eq [] hencodable hterminated rfl).trans ?_
    rw [List.nil_append, List.map_map]
    exact (List.map_congr_left fun row _ => hcells row).trans (List.map_id table)

end AgentCockpit.Renderer.TabularText
