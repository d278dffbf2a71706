import AgentCockpit.Callback.FrameDecoders
import AgentCockpit.Core.JsonValue
import AgentCockpit.Core.Runes

/-!
# The two validators of callback requests

The shared protocol module and its mirror in the helper check the envelope of a request and the
arguments of `open`. Both read the same document, each through its own JSON library: the shared
module gets strings of UTF-16 units as the document writes them and rounded numbers, the helper gets
strings of bytes, with a replacement character for each unpaired surrogate, and numbers as they are
written; and the helper's library gives up on a document that is nested too deep.

The functions of `src/shared/callback/protocol.ts` are in the namespace `Shared`, those of the
helper in the namespace `Helper`.
-/

namespace AgentCockpit.Callback

open AgentCockpit.Core

/-! ### Strings and values of the two languages -/

abbrev JsString := List UInt16

abbrev GoString := List UInt8

/-- A word of the protocol: a member's name, an operation, a kind of pane. -/
structure Word where
  text : String
  ascii : ∀ c ∈ text.toList, c.toNat < 0x80

/-- Checked letter by letter, not for all characters that there are. -/
theorem ascii_of_all {text : String} (h : text.toList.all (fun c => c.toNat < 0x80) = true) :
    ∀ c ∈ text.toList, c.toNat < 0x80 := by
  intro c hc
  exact of_decide_eq_true (List.all_eq_true.mp h c hc)

namespace Word

def units (word : Word) : JsString := Utf16.encode word.text.toList

def bytes (word : Word) : GoString := Utf8.encode word.text.toList

def v : Word := ⟨"v", ascii_of_all (by decide)⟩
def id : Word := ⟨"id", ascii_of_all (by decide)⟩
def op : Word := ⟨"op", ascii_of_all (by decide)⟩
def pane : Word := ⟨"pane", ascii_of_all (by decide)⟩
def kind : Word := ⟨"kind", ascii_of_all (by decide)⟩
def args : Word := ⟨"args", ascii_of_all (by decide)⟩
def path : Word := ⟨"path", ascii_of_all (by decide)⟩
def canonicalPath : Word := ⟨"canonicalPath", ascii_of_all (by decide)⟩
def tmux : Word := ⟨"tmux", ascii_of_all (by decide)⟩
def mux : Word := ⟨"mux", ascii_of_all (by decide)⟩
def «open» : Word := ⟨"open", ascii_of_all (by decide)⟩

end Word

/-- A JSON value as a frame carries it: strings of units, surrogates of their own included, and
numbers in decimal. -/
abbrev Document := JsonValue JsString Decimal

/-- A value that `JSON.parse` makes. A number is `none` if it is infinite. -/
abbrev JsValue := JsonValue JsString (Option ℚ)

/-- A value that the helper's JSON library makes when it leaves numbers as they are. -/
abbrev GoValue := JsonValue GoString Decimal

def jsonParse (document : Document) : JsValue :=
  document.map (fun string => string) Decimal.toDouble

/-- A string that the helper's library reads. -/
def goUnquote (string : JsString) : GoString := Utf8.encode (Utf16.decode string)

/-- A string that the helper's library writes. -/
def goQuote (string : GoString) : JsString := Utf16.encode (Utf8.runes string)

def goValue (document : Document) : GoValue := document.map goUnquote fun number => number

/-- The helper's library fails on a document that is nested too deep. -/
def decode (document : Document) : Option GoValue :=
  if document.depth ≤ maxNestingDepth then some (goValue document) else none

/-! ### The protocol -/

def callbackProtocolVersion : ℕ := 1

def callbackMaxPathBytes : ℕ := 4096

def maxOpChars : ℕ := 32

def maxPaneIdChars : ℕ := 128

def maxSafeInteger : ℕ := 9007199254740991

def callbackOps : List Word := [Word.open]

structure CallbackPane (σ : Type) where
  kind : σ
  id : σ
  deriving DecidableEq, Repr

def CallbackPane.map {σ σ' : Type} (f : σ → σ') (pane : CallbackPane σ) : CallbackPane σ' :=
  ⟨f pane.kind, f pane.id⟩

/-- The outcome of an envelope: the request, or a message and the id if that is valid. -/
inductive EnvelopeResult (σ ι α : Type)
  | accepted (id : ι) (op : σ) (pane : Option (CallbackPane σ)) (args : α)
  | refused (id : ι) (message : String)

/-- The part of a number before the point. -/
def trunc (number : ℚ) : ℤ := number.num.tdiv number.den

namespace Shared

def isCallbackOp (op : JsString) : Bool := callbackOps.any fun allowed => op == allowed.units

def isControlChar (unit : UInt16) : Bool := unit.toNat ≤ 0x1f || unit.toNat == 0x7f

/-- The string if it is a pane id. -/
def isPaneId (value : Option JsValue) : Option JsString :=
  match value.bind JsonValue.asString with
  | none => none
  | some value =>
    if 0 < value.length ∧ value.length ≤ maxPaneIdChars ∧ ¬ value.any isControlChar then some value
    else none

def parsePane (raw : JsValue) : Option (CallbackPane JsString) :=
  match raw.asObject with
  | none => none
  | some record =>
    match (JsonValue.lookup Word.kind.units record).bind JsonValue.asString with
    | none => none
    | some kind =>
      if kind ≠ Word.tmux.units ∧ kind ≠ Word.mux.units then none
      else match isPaneId (JsonValue.lookup Word.id.units record) with
        | none => none
        | some id => some ⟨kind, id⟩

def isSafeInteger (number : ℚ) : Prop := number = trunc number ∧ |number| ≤ maxSafeInteger

instance (number : ℚ) : Decidable (isSafeInteger number) := inferInstanceAs (Decidable (_ ∧ _))

/-- The id of a request, or zero. -/
def requestId (value : Option JsValue) : ℚ :=
  match value.bind JsonValue.asNumber with
  | some (some number) => if isSafeInteger number ∧ 1 ≤ number then number else 0
  | _ => 0

def parseCallbackEnvelope (raw : JsValue) : EnvelopeResult JsString ℚ (Option JsValue) :=
  match raw.asObject with
  | none => .refused 0 "request must be a JSON object"
  | some record =>
    let id := requestId (JsonValue.lookup Word.id.units record)
    if (JsonValue.lookup Word.v.units record).bind JsonValue.asNumber ≠
        some (some (callbackProtocolVersion : ℚ)) then
      .refused id s!"unsupported protocol version (expected v={callbackProtocolVersion})"
    else if id = 0 then .refused id "id must be a positive integer"
    else match (JsonValue.lookup Word.op.units record).bind JsonValue.asString with
      | none => .refused id "op must be a non-empty string"
      | some op =>
        if op.length = 0 ∨ maxOpChars < op.length then .refused id "op must be a non-empty string"
        else
          let args := JsonValue.lookup Word.args.units record
          match JsonValue.lookup Word.pane.units record with
          | none => .accepted id op none args
          | some paneRaw =>
            if paneRaw.isNull then .accepted id op none args
            else match parsePane paneRaw with
              | none =>
                .refused id "pane must be \x7bkind: \"tmux\" | \"mux\", id: string\x7d"
              | some pane => .accepted id op (some pane) args

def parseAbsolutePath (value : Option JsValue) (field : String) : Except String JsString :=
  match value.bind JsonValue.asString with
  | none => .error (field ++ " must be a non-empty string")
  | some path =>
    if path.length = 0 then .error (field ++ " must be a non-empty string")
    else if path.head? ≠ some 0x2F then .error (field ++ " must be an absolute path")
    else if 0 ∈ path then .error (field ++ " must not contain NUL")
    else if callbackMaxPathBytes < (Utf8.encode (Utf16.decode path)).length then
      .error s!"{field} is longer than {callbackMaxPathBytes} bytes"
    else .ok path

structure OpenArgs where
  path : JsString
  canonicalPath : Option JsString
  deriving DecidableEq, Repr

def parseOpenArgs (raw : Option JsValue) : Except String OpenArgs :=
  match raw.bind JsonValue.asObject with
  | none => .error "args must be an object"
  | some record =>
    match parseAbsolutePath (JsonValue.lookup Word.path.units record) "path" with
    | .error message => .error message
    | .ok path =>
      match JsonValue.lookup Word.canonicalPath.units record with
      | none => .ok ⟨path, none⟩
      | some canonicalRaw =>
        if canonicalRaw.isNull then .ok ⟨path, none⟩
        else match parseAbsolutePath (some canonicalRaw) "canonicalPath" with
          | .error message => .error message
          | .ok canonical => .ok ⟨path, some canonical⟩

end Shared

namespace Helper

def isCallbackOp (op : GoString) : Bool := callbackOps.any fun allowed => op == allowed.bytes

/-- The length that the string has in units. -/
def utf16Len (string : GoString) : ℕ :=
  ((Utf8.runes string).map fun rune => if 0x10000 ≤ rune.toNat then 2 else 1).sum

def hasControlChars (string : GoString) : Bool :=
  (Utf8.runes string).any fun rune => rune.toNat ≤ 0x1f || rune.toNat == 0x7f

def isPaneID (string : GoString) : Bool :=
  0 < utf16Len string && utf16Len string ≤ maxPaneIdChars && !hasControlChars string

/-- A member of a map. One that is absent is null. -/
def index (record : List (GoString × GoValue)) (name : Word) : GoValue :=
  (JsonValue.lookup name.bytes record).getD .null

def jsSafeInteger (value : GoValue) : Option ℤ :=
  match value.asNumber with
  | none => none
  | some number =>
    match number.toDouble with
    | none => none
    | some double =>
      if double ≠ trunc double ∨ (maxSafeInteger : ℚ) < |double| then none else some (trunc double)

/-- The id of a request, or zero. -/
def requestId (value : GoValue) : ℤ :=
  match jsSafeInteger value with
  | some n => if 1 ≤ n then n else 0
  | none => 0

def parsePane (raw : GoValue) : Option (CallbackPane GoString) :=
  match raw.asObject with
  | none => none
  | some record =>
    let kind := (index record Word.kind).asString.getD []
    match (index record Word.id).asString with
    | none => none
    | some id =>
      if (kind ≠ Word.tmux.bytes ∧ kind ≠ Word.mux.bytes) ∨ ¬ isPaneID id then none
      else some ⟨kind, id⟩

def parseCallbackEnvelope (raw : Document) : EnvelopeResult GoString ℤ GoValue :=
  match decode raw with
  | none => .refused 0 "request must be a JSON object"
  | some value =>
    match value.asObject with
    | none => .refused 0 "request must be a JSON object"
    | some record =>
      let id := requestId (index record Word.id)
      if jsSafeInteger (index record Word.v) ≠ some (callbackProtocolVersion : ℤ) then
        .refused id s!"unsupported protocol version (expected v={callbackProtocolVersion})"
      else if id = 0 then .refused 0 "id must be a positive integer"
      else match (index record Word.op).asString with
        | none => .refused id "op must be a non-empty string"
        | some op =>
          if op = [] ∨ maxOpChars < utf16Len op then .refused id "op must be a non-empty string"
          else
            let args := index record Word.args
            match JsonValue.lookup Word.pane.bytes record with
            | none => .accepted id op none args
            | some paneRaw =>
              if paneRaw.isNull then .accepted id op none args
              else match parsePane paneRaw with
                | none =>
                  .refused id "pane must be \x7bkind: \"tmux\" | \"mux\", id: string\x7d"
                | some pane => .accepted id op (some pane) args

/-- The path, or what is wrong with it. -/
def parseAbsolutePath (value : GoValue) (field : String) : Except String GoString :=
  match value.asString with
  | none => .error (field ++ " must be a non-empty string")
  | some path =>
    if path = [] then .error (field ++ " must be a non-empty string")
    else if path.head? ≠ some 0x2F then .error (field ++ " must be an absolute path")
    else if 0 ∈ path then .error (field ++ " must not contain NUL")
    else if callbackMaxPathBytes < path.length then
      .error s!"{field} is longer than {callbackMaxPathBytes} bytes"
    else .ok path

/-- The arguments of `open`. The canonical path is empty if there is none. -/
structure OpenArgs where
  path : GoString
  canonicalPath : GoString := []
  deriving DecidableEq, Repr

def parseOpenArgs (raw : GoValue) : Except String OpenArgs :=
  match raw.asObject with
  | none => .error "args must be an object"
  | some record =>
    match parseAbsolutePath (index record Word.path) "path" with
    | .error problem => .error problem
    | .ok path =>
      match JsonValue.lookup Word.canonicalPath.bytes record with
      | none => .ok ⟨path, []⟩
      | some canonicalRaw =>
        if canonicalRaw.isNull then .ok ⟨path, []⟩
        else match parseAbsolutePath canonicalRaw "canonicalPath" with
          | .error problem => .error problem
          | .ok canonical => .ok ⟨path, canonical⟩

/-- A request as the command line tool and the helper write it. -/
structure CallbackRequest where
  v : ℤ
  id : ℤ
  op : GoString
  pane : Option (CallbackPane GoString)
  args : OpenArgs

def OpenArgs.members (args : OpenArgs) : List (JsString × Document) :=
  (Word.path.units, .string (goQuote args.path)) ::
    if args.canonicalPath = [] then []
    else [(Word.canonicalPath.units, .string (goQuote args.canonicalPath))]

def paneMembers (pane : CallbackPane GoString) : List (JsString × Document) :=
  [(Word.kind.units, .string (goQuote pane.kind)), (Word.id.units, .string (goQuote pane.id))]

def CallbackRequest.members (request : CallbackRequest) : List (JsString × Document) :=
  [(Word.v.units, .number (.ofInt request.v)), (Word.id.units, .number (.ofInt request.id)),
    (Word.op.units, .string (goQuote request.op))] ++
  request.pane.elim [] (fun pane => [(Word.pane.units, .object (paneMembers pane))]) ++
  [(Word.args.units, .object request.args.members)]

/-- The request as the helper's library writes it. -/
def CallbackRequest.document (request : CallbackRequest) : Document := .object request.members

/-- What the helper does with a request: it replies itself, or forwards a request. -/
inductive Handling
  | reply (id : ℤ) (code message : String)
  | forward (id : ℤ) (request : CallbackRequest)

/-- Decide a request. `tryTake` is what the rate limiter says if it is asked. -/
def handleRequest (tryTake : Bool) (raw : Document) : Handling :=
  match parseCallbackEnvelope raw with
  | .refused id message => .reply id "bad-request" message
  | .accepted id op pane args =>
    if ¬ isCallbackOp op then .reply id "unsupported-op" "unsupported operation"
    else match parseOpenArgs args with
      | .error problem => .reply id "bad-request" problem
      | .ok args =>
        if tryTake then .forward id ⟨callbackProtocolVersion, id, op, pane, args⟩
        else .reply id "rate-limited" "too many requests"

end Helper

end AgentCockpit.Callback
