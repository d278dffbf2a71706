import AgentCockpit.Callback.ProtocolStrings

/-!
# The two validators, check by check

The validators of the shared module and of the helper go through the same checks in the same order,
so on one document they come to matching results, messages included, if the helper's library reads
the document at all. What they accept is the same text only where it has no unpaired surrogate.

What a request must be is said once more without the validators: `IsRequest` and `IsOpenArgs` are
predicates on the members of a document.
-/

namespace AgentCockpit.Callback

open AgentCockpit.Core

/-! ### Reading members -/

abbrev Members := List (JsString × Document)

def jsRecord (members : Members) : List (JsString × JsValue) :=
  JsonValue.mapMembers (fun string => string) Decimal.toDouble members

def goRecord (members : Members) : List (GoString × GoValue) :=
  JsonValue.mapMembers goUnquote (fun number => number) members

def member (word : Word) (members : Members) : Option Document :=
  JsonValue.lookup word.units members

section Reading

variable (word : Word) (members : Members) (value : Option Document)

theorem lookup_jsRecord :
    JsonValue.lookup word.units (jsRecord members) = (member word members).map jsonParse :=
  JsonValue.lookup_mapMembers _ (fun _ => Iff.rfl) members

theorem lookup_goRecord :
    JsonValue.lookup word.bytes (goRecord members) = (member word members).map goValue := by
  have hname : ∀ other, goUnquote other = goUnquote word.units ↔ other = word.units := by
    intro other
    rw [goUnquote_units, goUnquote_eq_bytes_iff]
  rw [← goUnquote_units]
  exact JsonValue.lookup_mapMembers _ hname members

theorem index_goRecord :
    Helper.index (goRecord members) word = goValue ((member word members).getD .null) := by
  rw [Helper.index, lookup_goRecord]
  cases member word members <;> rfl

theorem asString_jsonParse :
    (value.map jsonParse).bind JsonValue.asString = value.bind JsonValue.asString := by
  cases value with
  | none => rfl
  | some value => simp [jsonParse]

theorem asString_goValue : (goValue (value.getD .null)).asString =
    (value.bind JsonValue.asString).map goUnquote := by
  cases value with
  | none => rfl
  | some value => simp [goValue]

theorem asObject_jsonParse : (value.map jsonParse).bind JsonValue.asObject =
    (value.bind JsonValue.asObject).map jsRecord := by
  cases value with
  | none => rfl
  | some value =>
    simp only [Option.map_some, Option.bind_some, jsonParse, JsonValue.asObject_map]
    rfl

theorem asObject_goValue : (goValue (value.getD .null)).asObject =
    (value.bind JsonValue.asObject).map goRecord := by
  cases value with
  | none => rfl
  | some value =>
    simp only [Option.getD_some, Option.bind_some, goValue, JsonValue.asObject_map]
    rfl

end Reading

/-! ### Well-formed requests -/

/-- A member that need not be there: it is absent or null. -/
def Omitted (value : Option Document) : Prop := ∀ document ∈ value, document = .null

theorem omitted_none : Omitted none := by
  intro _ hmem
  cases hmem

structure IsPane (members : Members) (pane : CallbackPane JsString) : Prop where
  kind : member Word.kind members = some (.string pane.kind)
  kind_eq : pane.kind = Word.tmux.units ∨ pane.kind = Word.mux.units
  id : member Word.id members = some (.string pane.id)
  id_length : 0 < pane.id.length ∧ pane.id.length ≤ maxPaneIdChars
  id_printable : ¬ pane.id.any Shared.isControlChar

/-- The pane among the members, if there is one. -/
def GivesPane (members : Members) : Option (CallbackPane JsString) → Prop
  | none => Omitted (member Word.pane members)
  | some pane => ∃ record, member Word.pane members = some (.object record) ∧ IsPane record pane

/-- The members are a request for an operation, from a pane if one is given. -/
structure IsRequest (members : Members) (op : JsString) (pane : Option (CallbackPane JsString)) :
    Prop where
  version : ∃ decimal, member Word.v members = some (.number decimal) ∧
    decimal.toDouble = some (callbackProtocolVersion : ℚ)
  id : ∃ decimal, ∃ n : ℤ, member Word.id members = some (.number decimal) ∧
    decimal.toDouble = some (n : ℚ) ∧ 1 ≤ n ∧ n ≤ maxSafeInteger
  op_eq : member Word.op members = some (.string op)
  op_length : 0 < op.length ∧ op.length ≤ maxOpChars
  pane_eq : GivesPane members pane

structure IsAbsolutePath (path : JsString) : Prop where
  absolute : path.head? = some 0x2F
  no_nul : 0 ∉ path
  short : (Utf8.encode (Utf16.decode path)).length ≤ callbackMaxPathBytes

/-- The canonical path among the members, if there is one. -/
def GivesCanonicalPath (members : Members) : Option JsString → Prop
  | none => Omitted (member Word.canonicalPath members)
  | some path => member Word.canonicalPath members = some (.string path) ∧ IsAbsolutePath path

/-- The members are arguments of `open`. -/
structure IsOpenArgs (members : Members) (args : Shared.OpenArgs) : Prop where
  path : member Word.path members = some (.string args.path) ∧ IsAbsolutePath args.path
  canonicalPath : GivesCanonicalPath members args.canonicalPath

/-! ### Panes -/

/-- The helper finds the same pane. -/
theorem parsePane_goValue (value : Document) :
    Helper.parsePane (goValue value) =
      (Shared.parsePane (jsonParse value)).map (CallbackPane.map goUnquote) := by
  have hgo := asObject_goValue (some value)
  have hjs := asObject_jsonParse (some value)
  simp only [Option.getD_some, Option.map_some, Option.bind_some] at hgo hjs
  unfold Helper.parsePane Shared.parsePane Shared.isPaneId
  rw [hgo, hjs]
  cases value.asObject with
  | none => rfl
  | some members =>
    simp only [Option.map_some, lookup_jsRecord, index_goRecord, asString_jsonParse,
      asString_goValue]
    cases (member Word.kind members).bind JsonValue.asString with
    | none =>
      -- An absent kind is an empty string for the helper, which is no kind.
      cases (member Word.id members).bind JsonValue.asString with
      | none => rfl
      | some id =>
        simp only [Option.map_none, Option.getD_none, Option.map_some]
        exact if_pos (Or.inl (by decide))
    | some kind =>
      simp only [Option.map_some, Option.getD_some, ne_eq, goUnquote_eq_bytes_iff]
      by_cases hkind : ¬ kind = Word.tmux.units ∧ ¬ kind = Word.mux.units
      · rw [if_pos hkind]
        cases (member Word.id members).bind JsonValue.asString with
        | none => rfl
        | some id =>
          rw [Option.map_some]
          exact if_pos (Or.inl hkind)
      · rw [if_neg hkind]
        cases (member Word.id members).bind JsonValue.asString with
        | none => rfl
        | some id =>
          simp only [Option.map_some, isPaneID_goUnquote, hkind, false_or, ite_not]
          split_ifs <;> rfl

/-- A pane that is accepted is well formed. -/
theorem parsePane_iff (value : Document) (pane : CallbackPane JsString) :
    Shared.parsePane (jsonParse value) = some pane ↔
      ∃ record, value = .object record ∧ IsPane record pane := by
  have hjs := asObject_jsonParse (some value)
  simp only [Option.map_some, Option.bind_some] at hjs
  unfold Shared.parsePane Shared.isPaneId
  rw [hjs]
  cases hobject : value.asObject with
  | none =>
    refine iff_of_false nofun ?_
    rintro ⟨record, rfl, -⟩
    exact nomatch hobject
  | some members =>
    obtain rfl := JsonValue.asObject_eq_some.mp hobject
    simp only [Option.map_some, lookup_jsRecord, asString_jsonParse]
    constructor
    · intro h
      refine ⟨members, rfl, ?_⟩
      cases hkind : (member Word.kind members).bind JsonValue.asString with
      | none =>
        rw [hkind] at h
        exact nomatch h
      | some kind =>
        cases hid : (member Word.id members).bind JsonValue.asString with
        | none =>
          rw [hkind, hid] at h
          simp at h
        | some id =>
          rw [hkind, hid] at h
          obtain ⟨_, hkind, hkindString⟩ := Option.bind_eq_some_iff.mp hkind
          obtain ⟨_, hid, hidString⟩ := Option.bind_eq_some_iff.mp hid
          obtain rfl := JsonValue.asString_eq_some.mp hkindString
          obtain rfl := JsonValue.asString_eq_some.mp hidString
          dsimp only at h
          split_ifs at h with hother hprintable
          obtain rfl := Option.some.inj h
          rw [ne_eq, ne_eq, ← not_or, not_not] at hother
          exact ⟨hkind, hother, hid, ⟨hprintable.1, hprintable.2.1⟩, hprintable.2.2⟩
    · rintro ⟨_, ⟨⟩, hpane⟩
      rw [hpane.kind, hpane.id]
      simp only [Option.bind_some, JsonValue.asString]
      have hkind : ¬ (pane.kind ≠ Word.tmux.units ∧ pane.kind ≠ Word.mux.units) := by
        rw [ne_eq, ne_eq, ← not_or, not_not]
        exact hpane.kind_eq
      rw [if_neg hkind, if_pos ⟨hpane.id_length.1, hpane.id_length.2, hpane.id_printable⟩]

/-! ### Envelopes -/

/-- Matching results: the helper has the strings as its library reads them. -/
inductive Matches :
    EnvelopeResult JsString ℚ (Option JsValue) → EnvelopeResult GoString ℤ GoValue → Prop
  | accepted (id : ℤ) (op : JsString) (pane : Option (CallbackPane JsString))
      (args : Option Document) :
      Matches (.accepted id op pane (args.map jsonParse))
        (.accepted id (goUnquote op) (pane.map (CallbackPane.map goUnquote))
          (goValue (args.getD .null)))
  | refused (id : ℤ) (message : String) : Matches (.refused id message) (.refused id message)

theorem Matches.refused_zero (message : String) :
    Matches (.refused 0 message) (.refused 0 message) := by
  have h := Matches.refused 0 message
  rwa [Int.cast_zero] at h

/-- The results match for a document that the helper's library reads. -/
theorem envelopes_match {document : Document} (h : document.depth ≤ maxNestingDepth) :
    Matches (Shared.parseCallbackEnvelope (jsonParse document))
      (Helper.parseCallbackEnvelope document) := by
  have hgo := asObject_goValue (some document)
  have hjs := asObject_jsonParse (some document)
  simp only [Option.getD_some, Option.map_some, Option.bind_some] at hgo hjs
  unfold Shared.parseCallbackEnvelope Helper.parseCallbackEnvelope
  rw [decode, if_pos h]
  dsimp only
  rw [hgo, hjs]
  cases document.asObject with
  | none => exact Matches.refused_zero _
  | some members =>
    simp only [Option.map_some, lookup_jsRecord, index_goRecord, lookup_goRecord,
      asString_jsonParse, asString_goValue, requestId_eq, ne_eq, jsSafeInteger_eq_version_iff,
      Int.cast_eq_zero]
    -- both sides make the same tests in the same order
    generalize Helper.requestId (goValue ((member Word.id members).getD .null)) = id
    by_cases hversion : ((member Word.v members).map jsonParse).bind JsonValue.asNumber =
        some (some (callbackProtocolVersion : ℚ))
    · rw [if_neg (not_not.mpr hversion), if_neg (not_not.mpr hversion)]
      by_cases hid : id = 0
      · rw [if_pos hid, if_pos hid, hid, Int.cast_zero]
        exact Matches.refused_zero _
      · rw [if_neg hid, if_neg hid]
        cases (member Word.op members).bind JsonValue.asString with
        | none => exact Matches.refused id _
        | some op =>
          simp only [Option.map_some, goUnquote_eq_nil_iff, utf16Len_goUnquote,
            List.length_eq_zero_iff]
          by_cases hop : op = [] ∨ maxOpChars < op.length
          · rw [if_pos hop, if_pos hop]
            exact Matches.refused id _
          · rw [if_neg hop, if_neg hop]
            cases member Word.pane members with
            | none => exact Matches.accepted id op none _
            | some paneRaw =>
              have hnull : (goValue paneRaw).isNull = (jsonParse paneRaw).isNull := by
                rw [goValue, jsonParse, JsonValue.isNull_map, JsonValue.isNull_map]
              simp only [Option.map_some, hnull, parsePane_goValue]
              by_cases habsent : (jsonParse paneRaw).isNull
              · rw [if_pos habsent, if_pos habsent]
                exact Matches.accepted id op none _
              · rw [if_neg habsent, if_neg habsent]
                cases Shared.parsePane (jsonParse paneRaw) with
                | none => exact Matches.refused id _
                | some pane => exact Matches.accepted id op (some pane) _
    · rw [if_pos hversion, if_pos hversion]
      exact Matches.refused id _

theorem bind_asString_eq_some_iff (value : Option Document) (string : JsString) :
    value.bind JsonValue.asString = some string ↔ value = some (.string string) := by
  rw [Option.bind_eq_some_iff]
  simp [JsonValue.asString_eq_some]

theorem version_iff (value : Option Document) :
    (value.map jsonParse).bind JsonValue.asNumber = some (some (callbackProtocolVersion : ℚ)) ↔
      ∃ decimal, value = some (.number decimal) ∧
        decimal.toDouble = some (callbackProtocolVersion : ℚ) := by
  cases value with
  | none => exact iff_of_false nofun (by rintro ⟨decimal, ⟨⟩, -⟩)
  | some value =>
    rw [Option.map_some, Option.bind_some, jsonParse, JsonValue.asNumber_map,
      Option.map_eq_some_iff]
    simp [JsonValue.asNumber_eq_some]

theorem requestId_ne_zero_iff (value : Option Document) :
    Shared.requestId (value.map jsonParse) ≠ 0 ↔
      ∃ decimal, ∃ n : ℤ, value = some (.number decimal) ∧
        decimal.toDouble = some (n : ℚ) ∧ 1 ≤ n ∧ n ≤ maxSafeInteger := by
  constructor
  · intro h
    rw [requestId_eq, Int.cast_ne_zero] at h
    have hbounds := requestId_bounds h
    cases value with
    | none => exact absurd rfl h
    | some value =>
      rw [Option.getD_some] at h hbounds
      unfold Helper.requestId at h hbounds
      cases hinteger : Helper.jsSafeInteger (goValue value) with
      | none =>
        rw [hinteger] at h
        exact absurd rfl h
      | some n =>
        rw [hinteger] at hbounds h
        dsimp only at hbounds h
        obtain ⟨decimal, double, rfl, hdouble, -, rfl⟩ :=
          (jsSafeInteger_eq_some_iff value n).mp hinteger
        by_cases hpos : 1 ≤ n
        · rw [if_pos hpos] at hbounds
          exact ⟨decimal, n, rfl, hdouble, hbounds⟩
        · exact absurd (if_neg hpos) h
  · rintro ⟨decimal, n, rfl, hdouble, hpos, hsafe⟩
    have htrunc : ((n : ℚ) = trunc n) := by simp [trunc]
    have hpos' : (1 : ℚ) ≤ n := by exact_mod_cast hpos
    have habs : |(n : ℚ)| ≤ (maxSafeInteger : ℚ) := by
      rw [abs_of_nonneg (zero_le_one.trans hpos')]
      exact_mod_cast hsafe
    rw [Option.map_some, Shared.requestId, Option.bind_some, jsonParse, JsonValue.asNumber_map]
    simp only [JsonValue.asNumber, Option.map_some, hdouble]
    rw [if_pos ⟨⟨htrunc, habs⟩, hpos'⟩]
    exact (zero_lt_one.trans_le hpos').ne'

/-- What the shared module accepts is a request, and it accepts every request. -/
theorem parseCallbackEnvelope_iff (document : Document) (id : ℚ) (op : JsString)
    (pane : Option (CallbackPane JsString)) (args : Option JsValue) :
    Shared.parseCallbackEnvelope (jsonParse document) = .accepted id op pane args ↔
      ∃ members, document = .object members ∧ IsRequest members op pane ∧
        id = Shared.requestId ((member Word.id members).map jsonParse) ∧
        args = (member Word.args members).map jsonParse := by
  have hjs := asObject_jsonParse (some document)
  simp only [Option.map_some, Option.bind_some] at hjs
  unfold Shared.parseCallbackEnvelope
  rw [hjs]
  cases hobject : document.asObject with
  | none =>
    refine iff_of_false (by simp) ?_
    rintro ⟨members, rfl, -⟩
    cases hobject
  | some members =>
    obtain rfl := JsonValue.asObject_eq_some.mp hobject
    simp only [Option.map_some, lookup_jsRecord, asString_jsonParse]
    constructor
    · intro h
      refine ⟨members, rfl, ?_⟩
      -- the checks in the order of the source: each one passed gives a field of the request
      split_ifs at h with hversion hid
      cases hop : (member Word.op members).bind JsonValue.asString with
      | none =>
        rw [hop] at h
        cases h
      | some op' =>
        rw [hop] at h
        dsimp only at h
        split_ifs at h with hlength
        rw [not_or, not_lt] at hlength
        have hrequest : op' = op → GivesPane members pane → IsRequest members op pane :=
          fun hop' hpane =>
          { version := (version_iff _).mp (not_not.mp hversion)
            id := (requestId_ne_zero_iff _).mp hid
            op_eq := hop' ▸ (bind_asString_eq_some_iff _ _).mp hop
            op_length := hop' ▸ ⟨Nat.pos_of_ne_zero hlength.1, hlength.2⟩
            pane_eq := hpane }
        cases hpane : member Word.pane members with
        | none =>
          rw [hpane] at h
          obtain ⟨rfl, hop', rfl, rfl⟩ := EnvelopeResult.accepted.inj h
          refine ⟨hrequest hop' ?_, rfl, rfl⟩
          rw [GivesPane, hpane]
          exact omitted_none
        | some paneRaw =>
          rw [hpane] at h
          simp only [Option.map_some] at h
          split_ifs at h with hnull
          · obtain ⟨rfl, hop', rfl, rfl⟩ := EnvelopeResult.accepted.inj h
            refine ⟨hrequest hop' ?_, rfl, rfl⟩
            rw [GivesPane, hpane]
            -- `null` stands for an omitted pane
            rintro _ ⟨⟩
            rw [jsonParse, JsonValue.isNull_map] at hnull
            cases paneRaw <;> first | rfl | cases hnull
          · cases hparsed : Shared.parsePane (jsonParse paneRaw) with
            | none =>
              rw [hparsed] at h
              cases h
            | some pane' =>
              rw [hparsed] at h
              obtain ⟨rfl, hop', rfl, rfl⟩ := EnvelopeResult.accepted.inj h
              refine ⟨hrequest hop' ?_, rfl, rfl⟩
              obtain ⟨record, rfl, hrecord⟩ := (parsePane_iff paneRaw pane').mp hparsed
              exact ⟨record, hpane, hrecord⟩
    · rintro ⟨_, ⟨⟩, hrequest, rfl, rfl⟩
      -- a request passes every check
      have hversion := (version_iff _).mpr hrequest.version
      have hid := (requestId_ne_zero_iff _).mpr hrequest.id
      have hop := (bind_asString_eq_some_iff _ _).mpr hrequest.op_eq
      have hlength : ¬ (op.length = 0 ∨ maxOpChars < op.length) := by
        have := hrequest.op_length
        omega
      rw [if_neg (not_not.mpr hversion), if_neg hid, hop]
      dsimp only
      rw [if_neg hlength]
      have hpane := hrequest.pane_eq
      cases pane with
      | none =>
        cases hraw : member Word.pane members with
        | none => rfl
        | some paneRaw =>
          obtain rfl := hpane paneRaw hraw
          rfl
      | some pane =>
        obtain ⟨record, hraw, hrecord⟩ := hpane
        have hparsed := (parsePane_iff (.object record) pane).mpr ⟨record, rfl, hrecord⟩
        have hpresent : ¬ (jsonParse (.object record)).isNull = true := Bool.false_ne_true
        rw [hraw, Option.map_some]
        dsimp only
        rw [if_neg hpresent, hparsed]

/-! ### Arguments -/

/-- The helper's library reads an absent member as null. -/
theorem parseAbsolutePath_goValue (value : Option Document) (field : String) :
    Helper.parseAbsolutePath (goValue (value.getD .null)) field =
      (Shared.parseAbsolutePath (value.map jsonParse) field).map goUnquote := by
  unfold Helper.parseAbsolutePath Shared.parseAbsolutePath
  rw [asString_goValue, asString_jsonParse]
  cases value.bind JsonValue.asString with
  | none => rfl
  | some path =>
    simp only [Option.map_some, goUnquote_eq_nil_iff, List.length_eq_zero_iff, ne_eq,
      head_goUnquote_iff, zero_mem_goUnquote_iff]
    by_cases hempty : path = []
    · rw [if_pos hempty, if_pos hempty]
      rfl
    · rw [if_neg hempty, if_neg hempty]
      by_cases habsolute : path.head? = some 0x2F
      · rw [if_neg (not_not.mpr habsolute), if_neg (not_not.mpr habsolute)]
        by_cases hnul : 0 ∈ path
        · rw [if_pos hnul, if_pos hnul]
          rfl
        · rw [if_neg hnul, if_neg hnul, goUnquote]
          by_cases hlong : callbackMaxPathBytes < (Utf8.encode (Utf16.decode path)).length
          · rw [if_pos hlong, if_pos hlong]
            rfl
          · rw [if_neg hlong, if_neg hlong]
            rfl
      · rw [if_pos habsolute, if_pos habsolute]
        rfl

theorem parseAbsolutePath_iff (value : Option Document) (field : String) (path : JsString) :
    Shared.parseAbsolutePath (value.map jsonParse) field = .ok path ↔
      value = some (.string path) ∧ IsAbsolutePath path := by
  unfold Shared.parseAbsolutePath
  rw [asString_jsonParse]
  constructor
  · intro h
    cases hstring : value.bind JsonValue.asString with
    | none =>
      rw [hstring] at h
      exact nomatch h
    | some string =>
      rw [hstring] at h
      dsimp only at h
      split_ifs at h with hempty habsolute hnul hlong
      obtain rfl := Except.ok.inj h
      refine ⟨(bind_asString_eq_some_iff _ _).mp hstring, ?_⟩
      exact ⟨not_not.mp habsolute, hnul, not_lt.mp hlong⟩
  · rintro ⟨rfl, hpath⟩
    have hempty : path.length ≠ 0 := by
      intro hempty
      have habsolute := hpath.absolute
      rw [List.length_eq_zero_iff.mp hempty] at habsolute
      exact nomatch habsolute
    rw [Option.bind_some, JsonValue.asString]
    dsimp only
    rw [if_neg hempty, if_neg (not_not.mpr hpath.absolute), if_neg hpath.no_nul,
      if_neg (not_lt.mpr hpath.short)]

/-- The arguments as the helper's library reads them. -/
def Shared.OpenArgs.goUnquote (args : Shared.OpenArgs) : Helper.OpenArgs where
  path := Callback.goUnquote args.path
  canonicalPath := args.canonicalPath.elim [] Callback.goUnquote

/-- The helper finds the same arguments. -/
theorem parseOpenArgs_goValue (value : Option Document) :
    Helper.parseOpenArgs (goValue (value.getD .null)) =
      (Shared.parseOpenArgs (value.map jsonParse)).map Shared.OpenArgs.goUnquote := by
  unfold Helper.parseOpenArgs Shared.parseOpenArgs
  rw [asObject_goValue, asObject_jsonParse]
  cases value.bind JsonValue.asObject with
  | none => rfl
  | some members =>
    simp only [Option.map_some, lookup_jsRecord, index_goRecord, lookup_goRecord,
      parseAbsolutePath_goValue]
    cases Shared.parseAbsolutePath ((member Word.path members).map jsonParse) "path" with
    | error message => rfl
    | ok path =>
      simp only [Except.map]
      cases member Word.canonicalPath members with
      | none => rfl
      | some canonicalRaw =>
        have hnull : (goValue canonicalRaw).isNull = (jsonParse canonicalRaw).isNull := by
          rw [goValue, jsonParse, JsonValue.isNull_map, JsonValue.isNull_map]
        have hcanonical := parseAbsolutePath_goValue (some canonicalRaw) "canonicalPath"
        rw [Option.getD_some, Option.map_some] at hcanonical
        simp only [Option.map_some, hnull, hcanonical]
        by_cases habsent : (jsonParse canonicalRaw).isNull
        · rw [if_pos habsent, if_pos habsent]
          rfl
        · rw [if_neg habsent, if_neg habsent]
          cases Shared.parseAbsolutePath (some (jsonParse canonicalRaw)) "canonicalPath" with
          | error message => rfl
          | ok canonical => rfl

/-- What the shared module accepts are arguments, and it accepts all arguments. -/
theorem parseOpenArgs_iff (value : Option Document) (args : Shared.OpenArgs) :
    Shared.parseOpenArgs (value.map jsonParse) = .ok args ↔
      ∃ members, value = some (.object members) ∧ IsOpenArgs members args := by
  unfold Shared.parseOpenArgs
  rw [asObject_jsonParse]
  cases hobject : value.bind JsonValue.asObject with
  | none =>
    refine iff_of_false (by simp) ?_
    rintro ⟨members, rfl, -⟩
    cases hobject
  | some members =>
    obtain ⟨document, rfl, hdocument⟩ := Option.bind_eq_some_iff.mp hobject
    obtain rfl := JsonValue.asObject_eq_some.mp hdocument
    simp only [Option.map_some, lookup_jsRecord]
    constructor
    · intro h
      refine ⟨members, rfl, ?_⟩
      cases hpath : Shared.parseAbsolutePath ((member Word.path members).map jsonParse) "path" with
      | error message =>
        rw [hpath] at h
        cases h
      | ok path =>
        rw [hpath] at h
        dsimp only at h
        have hpath' := (parseAbsolutePath_iff _ _ _).mp hpath
        cases hcanonical : member Word.canonicalPath members with
        | none =>
          rw [hcanonical] at h
          obtain rfl := Except.ok.inj h
          refine ⟨hpath', ?_⟩
          rw [GivesCanonicalPath, hcanonical]
          exact omitted_none
        | some canonicalRaw =>
          rw [hcanonical, Option.map_some] at h
          dsimp only at h
          split_ifs at h with hnull
          · obtain rfl := Except.ok.inj h
            refine ⟨hpath', ?_⟩
            rw [GivesCanonicalPath, hcanonical]
            -- `null` stands for an omitted path
            rintro _ ⟨⟩
            rw [jsonParse, JsonValue.isNull_map] at hnull
            cases canonicalRaw <;> first | rfl | cases hnull
          · cases hparsed : Shared.parseAbsolutePath (some (jsonParse canonicalRaw))
                "canonicalPath" with
            | error message =>
              rw [hparsed] at h
              cases h
            | ok canonical =>
              rw [hparsed] at h
              obtain rfl := Except.ok.inj h
              have hcanonical' := (parseAbsolutePath_iff (some canonicalRaw) _ _).mp hparsed
              refine ⟨hpath', ?_⟩
              rw [GivesCanonicalPath, hcanonical]
              exact hcanonical'
    · rintro ⟨_, ⟨⟩, hargs⟩
      obtain ⟨path, canonicalPath⟩ := args
      rw [(parseAbsolutePath_iff _ _ _).mpr hargs.path]
      dsimp only
      have hcanonical := hargs.canonicalPath
      cases canonicalPath with
      | none =>
        cases hraw : member Word.canonicalPath members with
        | none => rfl
        | some canonicalRaw =>
          obtain rfl := hcanonical canonicalRaw hraw
          rfl
      | some canonical =>
        have hparsed := (parseAbsolutePath_iff (some (.string canonical)) "canonicalPath" _).mpr
          ⟨rfl, hcanonical.2⟩
        rw [Option.map_some] at hparsed
        have hpresent : ¬ (jsonParse (.string canonical)).isNull = true := Bool.false_ne_true
        rw [hcanonical.1, Option.map_some]
        dsimp only
        rw [if_neg hpresent, hparsed]

end AgentCockpit.Callback
