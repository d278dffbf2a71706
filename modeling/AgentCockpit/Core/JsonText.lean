import AgentCockpit.Core.Utf8

/-!
# JSON texts

A scanner that accepts the texts of the JSON grammar, character by character, with a stack of the
arrays and objects that it is inside of. It keeps the depth of the deepest nesting, because some
libraries bound it. Characters beyond ASCII matter in strings only, where they are all alike, so the
scanner may read bytes instead of characters.
-/

namespace AgentCockpit.Core.JsonText

/-- What the scanner is inside of. -/
inductive ParseState
  /-- In an object, before or behind a key. -/
  | objectKey
  /-- In an object, behind a colon. -/
  | objectValue
  | arrayValue
  deriving DecidableEq, Repr

inductive Mode
  | beginValue | beginValueOrEmpty | beginString | beginStringOrEmpty
  | endValue
  /-- The text has ended; only space may follow. -/
  | endTop
  | inString | inStringEsc
  /-- Behind `\\u`, with so many hexadecimal digits to come after the next one. -/
  | inStringEscU (more : ℕ)
  | neg | digits | zero | dot | dot0 | exponent | exponentSign | exponent0
  | t | tr | tru | f | fa | fal | fals | n | nu | nul
  | error
  deriving DecidableEq, Repr

structure Scanner where
  mode : Mode := .beginValue
  parseState : List ParseState := []
  /-- The depth of the deepest nesting so far. -/
  deepest : ℕ := 0
  deriving DecidableEq, Repr

def isSpace (c : Char) : Prop := c = ' ' ∨ c = '\t' ∨ c = '\r' ∨ c = '\n'

instance (c : Char) : Decidable (isSpace c) := inferInstanceAs (Decidable (_ ∨ _))

def isDigit (c : Char) : Prop := 0x30 ≤ c.toNat ∧ c.toNat ≤ 0x39

instance (c : Char) : Decidable (isDigit c) := inferInstanceAs (Decidable (_ ∧ _))

def isHexDigit (c : Char) : Prop :=
  isDigit c ∨ 0x61 ≤ c.toNat ∧ c.toNat ≤ 0x66 ∨ 0x41 ≤ c.toNat ∧ c.toNat ≤ 0x46

instance (c : Char) : Decidable (isHexDigit c) := inferInstanceAs (Decidable (_ ∨ _))

namespace Scanner

variable (scanner : Scanner)

def goto (mode : Mode) : Scanner := { scanner with mode }

def pushParseState (state : ParseState) (mode : Mode) : Scanner where
  mode
  parseState := state :: scanner.parseState
  deepest := max scanner.deepest (scanner.parseState.length + 1)

/-- The innermost array or object ends. -/
def popParseState : Scanner where
  mode := if scanner.parseState.tail = [] then .endTop else .endValue
  parseState := scanner.parseState.tail
  deepest := scanner.deepest

/-- A literal goes on with the expected character. -/
def literal (expected : Char) (next : Mode) (c : Char) : Scanner :=
  scanner.goto (if c = expected then next else .error)

/-- Behind a value. -/
def endValue (c : Char) : Scanner :=
  match scanner.parseState with
  | [] => scanner.goto (if isSpace c then .endTop else .error)
  | state :: outer =>
    if isSpace c then scanner.goto .endValue
    else
      match state with
      | .objectKey =>
        if c = ':' then { scanner with mode := .beginValue, parseState := .objectValue :: outer }
        else scanner.goto .error
      | .objectValue =>
        if c = ',' then { scanner with mode := .beginString, parseState := .objectKey :: outer }
        else if c = '\x7d' then scanner.popParseState
        else scanner.goto .error
      | .arrayValue =>
        if c = ',' then scanner.goto .beginValue
        else if c = ']' then scanner.popParseState
        else scanner.goto .error

/-- At the start of a value. -/
def beginValue (c : Char) : Scanner :=
  if isSpace c then scanner
  else if c = '\x7b' then scanner.pushParseState .objectKey .beginStringOrEmpty
  else if c = '[' then scanner.pushParseState .arrayValue .beginValueOrEmpty
  else if c = '"' then scanner.goto .inString
  else if c = '-' then scanner.goto .neg
  else if c = '0' then scanner.goto .zero
  else if isDigit c then scanner.goto .digits
  else if c = 't' then scanner.goto .t
  else if c = 'f' then scanner.goto .f
  else if c = 'n' then scanner.goto .n
  else scanner.goto .error

/-- At the start of a key. -/
def beginString (c : Char) : Scanner :=
  if isSpace c then scanner
  else if c = '"' then scanner.goto .inString
  else scanner.goto .error

/-- Behind the integer part of a number. -/
def zero (c : Char) : Scanner :=
  if c = '.' then scanner.goto .dot
  else if c = 'e' ∨ c = 'E' then scanner.goto .exponent
  else scanner.endValue c

/-- Read a character. -/
def step (c : Char) : Scanner :=
  match scanner.mode with
  | .beginValue => scanner.beginValue c
  | .beginValueOrEmpty => if c = ']' then scanner.endValue c else scanner.beginValue c
  | .beginString => scanner.beginString c
  | .beginStringOrEmpty =>
    if c = '\x7d' then
      { scanner with parseState := .objectValue :: scanner.parseState.tail }.endValue c
    else scanner.beginString c
  | .endValue => scanner.endValue c
  | .endTop => if isSpace c then scanner else scanner.goto .error
  | .inString =>
    if c = '"' then scanner.goto .endValue
    else if c = '\\' then scanner.goto .inStringEsc
    else if c.toNat < 0x20 then scanner.goto .error
    else scanner
  | .inStringEsc =>
    if c = 'b' ∨ c = 'f' ∨ c = 'n' ∨ c = 'r' ∨ c = 't' ∨ c = '\\' ∨ c = '/' ∨ c = '"' then
      scanner.goto .inString
    else if c = 'u' then scanner.goto (.inStringEscU 3)
    else scanner.goto .error
  | .inStringEscU more =>
    if isHexDigit c then
      scanner.goto (match more with | 0 => .inString | more + 1 => .inStringEscU more)
    else scanner.goto .error
  | .neg =>
    if c = '0' then scanner.goto .zero
    else if isDigit c then scanner.goto .digits
    else scanner.goto .error
  | .digits => if isDigit c then scanner else scanner.zero c
  | .zero => scanner.zero c
  | .dot => scanner.goto (if isDigit c then .dot0 else .error)
  | .dot0 =>
    if isDigit c then scanner
    else if c = 'e' ∨ c = 'E' then scanner.goto .exponent
    else scanner.endValue c
  | .exponent =>
    if c = '+' ∨ c = '-' then scanner.goto .exponentSign
    else scanner.goto (if isDigit c then .exponent0 else .error)
  | .exponentSign => scanner.goto (if isDigit c then .exponent0 else .error)
  | .exponent0 => if isDigit c then scanner else scanner.endValue c
  | .t => scanner.literal 'r' .tr c
  | .tr => scanner.literal 'u' .tru c
  | .tru => scanner.literal 'e' .endValue c
  | .f => scanner.literal 'a' .fa c
  | .fa => scanner.literal 'l' .fal c
  | .fal => scanner.literal 's' .fals c
  | .fals => scanner.literal 'e' .endValue c
  | .n => scanner.literal 'u' .nu c
  | .nu => scanner.literal 'l' .nul c
  | .nul => scanner.literal 'l' .endValue c
  | .error => scanner

end Scanner

/-- The scanner behind a text. The space ends a number at the end of the text. -/
def scan (text : List Char) : Scanner := (text.foldl Scanner.step {}).step ' '

/-- The text is of the grammar. -/
def Valid (text : List Char) : Prop := (scan text).mode = .endTop

instance (text : List Char) : Decidable (Valid text) := inferInstanceAs (Decidable (_ = _))

/-- The scanner behind bytes, each read as the character with its number. -/
def scanBytes (bytes : List UInt8) : Scanner :=
  (bytes.foldl (Utf8.readByte Scanner.step) {}).step ' '

def ValidBytes (bytes : List UInt8) : Prop := (scanBytes bytes).mode = .endTop

def nestingBytes (bytes : List UInt8) : ℕ := (scanBytes bytes).deepest

instance (bytes : List UInt8) : Decidable (ValidBytes bytes) := inferInstanceAs (Decidable (_ = _))

/-! ### Characters beyond ASCII -/

namespace Scanner

/-- A character beyond ASCII goes on with a string, and is an error elsewhere. -/
def beyond (scanner : Scanner) : Scanner :=
  if scanner.mode = .inString then scanner else scanner.goto .error

section

variable {c : Char} (h : 0x80 ≤ c.toNat) (scanner : Scanner)

include h

theorem ne_of_beyond {d : Char} (hd : d.toNat < 0x80) : c = d ↔ False := by
  refine iff_false_intro fun hcd => ?_
  rw [hcd] at h
  omega

theorem isSpace_of_beyond : isSpace c ↔ False := by
  simp (disch := decide) only [isSpace, ne_of_beyond h, or_self]

theorem isDigit_of_beyond : isDigit c ↔ False := by
  refine iff_false_intro ?_
  unfold isDigit
  omega

theorem isHexDigit_of_beyond : isHexDigit c ↔ False := by
  refine iff_false_intro ?_
  unfold isHexDigit isDigit
  omega

theorem endValue_of_beyond : scanner.endValue c = scanner.goto .error := by
  unfold endValue
  split
  · rw [if_neg (isSpace_of_beyond h).mp]
  · rw [if_neg (isSpace_of_beyond h).mp]
    split <;> simp (disch := decide) only [ne_of_beyond h, if_false]

theorem beginValue_of_beyond : scanner.beginValue c = scanner.goto .error := by
  simp (disch := decide) only [beginValue, isSpace_of_beyond h, isDigit_of_beyond h,
    ne_of_beyond h, if_false]

theorem beginString_of_beyond : scanner.beginString c = scanner.goto .error := by
  simp (disch := decide) only [beginString, isSpace_of_beyond h, ne_of_beyond h, if_false]

theorem zero_of_beyond : scanner.zero c = scanner.goto .error := by
  simp (disch := decide) only [zero, endValue_of_beyond h, ne_of_beyond h, or_self, if_false]

theorem step_of_beyond : scanner.step c = scanner.beyond := by
  have hcontrol : ¬ c.toNat < 0x20 := by omega
  obtain ⟨mode, parseState, deepest⟩ := scanner
  cases mode <;>
    simp (disch := decide) only [step, beyond, endValue_of_beyond h, beginValue_of_beyond h,
      beginString_of_beyond h, zero_of_beyond h, isSpace_of_beyond h, isDigit_of_beyond h,
      isHexDigit_of_beyond h, ne_of_beyond h, hcontrol, literal, or_self, if_false, if_true,
      reduceCtorEq, goto]

end

end Scanner

/-- The scanner does not tell characters beyond ASCII apart. -/
theorem blind_step : Utf8.Blind Scanner.step where
  same scanner c hc := by
    rw [Scanner.step_of_beyond hc, Scanner.step_of_beyond (by decide)]
  again scanner := by
    rw [Scanner.step_of_beyond (by decide), Scanner.step_of_beyond (by decide)]
    obtain ⟨mode, parseState, deepest⟩ := scanner
    by_cases hmode : mode = .inString <;> simp [Scanner.beyond, Scanner.goto, hmode]

/-- The scanner may read the bytes of a text, whether they are UTF-8 or not. -/
theorem scan_decode (bytes : List UInt8) : scan (Utf8.decode bytes) = scanBytes bytes := by
  rw [scan, blind_step.foldl_decode, scanBytes]

theorem validBytes_iff (bytes : List UInt8) : ValidBytes bytes ↔ Valid (Utf8.decode bytes) := by
  rw [Valid, scan_decode, ValidBytes]

example : Valid "\x7b\"a\": [1, -2.5e3, null], \"b\": \x7b\x7d\x7d".toList := by decide +kernel

end AgentCockpit.Core.JsonText
