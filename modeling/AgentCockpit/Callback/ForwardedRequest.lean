import AgentCockpit.Callback.ValidatorAgreement

/-!
# Requests that the helper forwards

The helper forwards a request that it built from what its validators accepted, and the app validates
it once more. Each string of it was written by the helper's library, so it has no unpaired surrogate
any more, and the checks say the same of it as of the string that the helper read.
-/

namespace AgentCockpit.Callback

open AgentCockpit.Core

/-! ### Strings that were read and written -/

/-- A string with a replacement character for each unpaired surrogate. -/
def toWellFormed (string : JsString) : JsString := Utf16.encode (Utf16.decode string)

section Strings

variable (string : JsString)

theorem goQuote_goUnquote : goQuote (goUnquote string) = toWellFormed string := by
  rw [goQuote, runes_goUnquote, toWellFormed]

theorem goUnquote_toWellFormed : goUnquote (toWellFormed string) = goUnquote string := by
  rw [goUnquote, toWellFormed, Utf16.decode_encode, goUnquote]

theorem sameText_toWellFormed : SameText (toWellFormed string) (goUnquote string) :=
  ⟨Utf16.decode string, rfl, rfl⟩

theorem toWellFormed_units (word : Word) : toWellFormed word.units = word.units := by
  rw [toWellFormed, Word.units, Utf16.decode_encode]

theorem any_isControlChar_toWellFormed :
    (toWellFormed string).any Shared.isControlChar = string.any Shared.isControlChar := by
  rw [← hasControlChars_goUnquote, goUnquote_toWellFormed, hasControlChars_goUnquote]

theorem length_toWellFormed : (toWellFormed string).length = string.length :=
  Utf16.length_encode_decode string

variable {string}

theorem IsAbsolutePath.toWellFormed (h : IsAbsolutePath string) :
    IsAbsolutePath (toWellFormed string) where
  absolute := by
    rw [← head_goUnquote_iff, goUnquote_toWellFormed, head_goUnquote_iff]
    exact h.absolute
  no_nul := by
    rw [← zero_mem_goUnquote_iff, goUnquote_toWellFormed, zero_mem_goUnquote_iff]
    exact h.no_nul
  short := by
    rw [Callback.toWellFormed, Utf16.decode_encode]
    exact h.short

end Strings

theorem ne_nil_of_isAbsolutePath {path : JsString} (h : IsAbsolutePath path) :
    goUnquote path ≠ [] := by
  intro hempty
  have habsolute := h.absolute
  rw [(goUnquote_eq_nil_iff path).mp hempty] at habsolute
  exact nomatch habsolute

/-! ### The members of a request -/

section Members

open AgentCockpit.Callback.Helper

variable {members : Members} {op : JsString} {pane : Option (CallbackPane JsString)}

theorem IsPane.forwarded {pane : CallbackPane JsString} (h : IsPane members pane) :
    IsPane (paneMembers (pane.map goUnquote)) (pane.map toWellFormed) where
  kind := by simp +decide [member, paneMembers, JsonValue.lookup, CallbackPane.map,
    goQuote_goUnquote]
  kind_eq := by
    rcases h.kind_eq with hkind | hkind
    · exact Or.inl ((congrArg toWellFormed hkind).trans (toWellFormed_units _))
    · exact Or.inr ((congrArg toWellFormed hkind).trans (toWellFormed_units _))
  id := by simp +decide [member, paneMembers, JsonValue.lookup, CallbackPane.map,
    goQuote_goUnquote]
  id_length := by
    rw [CallbackPane.map, length_toWellFormed]
    exact h.id_length
  id_printable := by
    rw [CallbackPane.map, any_isControlChar_toWellFormed]
    exact h.id_printable

/-- A request that the helper's library writes is a request, if its own values are right. -/
theorem isRequest_members (request : CallbackRequest)
    (hversion : request.v = callbackProtocolVersion) (hpos : 1 ≤ request.id)
    (hsafe : request.id ≤ maxSafeInteger)
    (hlength : 0 < (goQuote request.op).length ∧ (goQuote request.op).length ≤ maxOpChars)
    (hpane : ∀ pane ∈ request.pane, IsPane (paneMembers pane) (pane.map goQuote)) :
    IsRequest request.members (goQuote request.op)
      (request.pane.map (CallbackPane.map goQuote)) where
  version := by
    refine ⟨.ofInt callbackProtocolVersion, ?_, Decimal.toDouble_ofInt (by decide)⟩
    rw [← hversion]
    cases h : request.pane <;> simp +decide [member, CallbackRequest.members, JsonValue.lookup, h]
  id := by
    have hexact : |request.id| < 2 ^ 53 := by
      rw [abs_of_pos (by omega)]
      unfold maxSafeInteger at hsafe
      omega
    refine ⟨.ofInt request.id, request.id, ?_, Decimal.toDouble_ofInt hexact, hpos, hsafe⟩
    cases h : request.pane <;> simp +decide [member, CallbackRequest.members, JsonValue.lookup, h]
  op_eq := by
    cases h : request.pane <;> simp +decide [member, CallbackRequest.members, JsonValue.lookup, h]
  op_length := hlength
  pane_eq := by
    cases h : request.pane with
    | none =>
      intro document hdocument
      simp +decide [member, CallbackRequest.members, JsonValue.lookup, h] at hdocument
    | some pane =>
      refine ⟨paneMembers pane, ?_, hpane pane h⟩
      simp +decide [member, CallbackRequest.members, JsonValue.lookup, h]

variable {id : ℤ} (args : Helper.OpenArgs)

/-- The request that the helper builds from a request. -/
theorem IsRequest.forwarded (h : IsRequest members op pane) (hpos : 1 ≤ id)
    (hsafe : id ≤ maxSafeInteger) :
    IsRequest (CallbackRequest.members ⟨callbackProtocolVersion, id, goUnquote op,
      pane.map (CallbackPane.map goUnquote), args⟩) (toWellFormed op)
      (pane.map (CallbackPane.map toWellFormed)) := by
  have hpane : ∀ pane' ∈ pane.map (CallbackPane.map goUnquote),
      IsPane (paneMembers pane') (pane'.map goQuote) := by
    cases pane with
    | none => exact nofun
    | some pane =>
      obtain ⟨record, -, hrecord⟩ := h.pane_eq
      rintro _ ⟨⟩
      have hforwarded := hrecord.forwarded
      simpa only [CallbackPane.map, goQuote_goUnquote] using hforwarded
  have hlength := h.op_length
  rw [← length_toWellFormed, ← goQuote_goUnquote] at hlength
  have hmembers := isRequest_members ⟨callbackProtocolVersion, id, goUnquote op,
    pane.map (CallbackPane.map goUnquote), args⟩ rfl hpos hsafe hlength hpane
  have hcomp : CallbackPane.map goQuote ∘ CallbackPane.map goUnquote =
      CallbackPane.map toWellFormed := by
    funext pane
    simp only [Function.comp_apply, CallbackPane.map, goQuote_goUnquote]
  rw [Option.map_map, hcomp, goQuote_goUnquote] at hmembers
  exact hmembers

/-- A safe id is read back. -/
theorem requestId_ofInt (hpos : 1 ≤ id) (hsafe : id ≤ maxSafeInteger) :
    Helper.requestId (goValue (.number (.ofInt id))) = id := by
  have hexact : |id| < 2 ^ 53 := by
    rw [abs_of_pos (by omega)]
    unfold maxSafeInteger at hsafe
    omega
  have hinteger : Helper.jsSafeInteger (goValue (.number (.ofInt id))) = some id := by
    apply (jsSafeInteger_eq_some_iff _ _).mpr
    refine ⟨_, _, rfl, Decimal.toDouble_ofInt hexact, ⟨by simp [trunc], ?_⟩, rfl⟩
    rw [abs_of_nonneg (by exact_mod_cast zero_le_one.trans hpos)]
    exact_mod_cast hsafe
  rw [Helper.requestId, hinteger]
  exact if_pos hpos

theorem member_args (request : CallbackRequest) :
    member Word.args request.members = some (.object request.args.members) := by
  cases hpane : request.pane <;>
    simp +decide [member, CallbackRequest.members, hpane, JsonValue.lookup]

theorem member_id (request : CallbackRequest) :
    member Word.id request.members = some (.number (.ofInt request.id)) := by
  cases hpane : request.pane <;>
    simp +decide [member, CallbackRequest.members, hpane, JsonValue.lookup]

/-- The arguments as the app reads them behind the helper. -/
def Shared.OpenArgs.toWellFormed (args : Shared.OpenArgs) : Shared.OpenArgs where
  path := Callback.toWellFormed args.path
  canonicalPath := args.canonicalPath.map Callback.toWellFormed

theorem IsOpenArgs.forwarded {args : Shared.OpenArgs} (h : IsOpenArgs members args) :
    IsOpenArgs args.goUnquote.members args.toWellFormed := by
  obtain ⟨path, canonicalPath⟩ := args
  obtain ⟨⟨-, hpath⟩, hcanonical⟩ := h
  cases canonicalPath with
  | none =>
    refine ⟨⟨?_, hpath.toWellFormed⟩, ?_⟩
    · simp +decide [member, OpenArgs.members, JsonValue.lookup, Shared.OpenArgs.goUnquote,
        Shared.OpenArgs.toWellFormed, goQuote_goUnquote]
    · intro document hdocument
      simp +decide [member, OpenArgs.members, JsonValue.lookup, Shared.OpenArgs.goUnquote]
        at hdocument
  | some canonical =>
    obtain ⟨-, hcanonical⟩ := hcanonical
    have hnonempty := ne_nil_of_isAbsolutePath hcanonical
    refine ⟨⟨?_, hpath.toWellFormed⟩, ?_, hcanonical.toWellFormed⟩
    all_goals
      simp +decide [member, OpenArgs.members, JsonValue.lookup, Shared.OpenArgs.goUnquote,
        Shared.OpenArgs.toWellFormed, goQuote_goUnquote, hnonempty]

end Members

/-! ### What the app makes of it -/

def SamePane : Option (CallbackPane JsString) → Option (CallbackPane GoString) → Prop
  | none, none => True
  | some pane, some pane' => SameText pane.kind pane'.kind ∧ SameText pane.id pane'.id
  | _, _ => False

def SameCanonicalPath : Option JsString → GoString → Prop
  | none, path' => path' = []
  | some path, path' => path' ≠ [] ∧ SameText path path'

/-- Both sides have the same arguments of `open`. -/
def SameArgs (args : Shared.OpenArgs) (args' : Helper.OpenArgs) : Prop :=
  SameText args.path args'.path ∧ SameCanonicalPath args.canonicalPath args'.canonicalPath

/-- The app accepts the request, and it has the values that the helper sent. -/
def AcceptedByMain (request : Helper.CallbackRequest) : Prop :=
  ∃ op pane args openArgs,
    Shared.parseCallbackEnvelope (jsonParse request.document) =
      .accepted request.id op pane args ∧
    SameText op request.op ∧ SamePane pane request.pane ∧
    Shared.isCallbackOp op ∧
    Shared.parseOpenArgs args = .ok openArgs ∧ SameArgs openArgs request.args

theorem samePane_toWellFormed (pane : Option (CallbackPane JsString)) :
    SamePane (pane.map (CallbackPane.map toWellFormed))
      (pane.map (CallbackPane.map goUnquote)) := by
  cases pane with
  | none => trivial
  | some pane => exact ⟨sameText_toWellFormed _, sameText_toWellFormed _⟩

theorem IsOpenArgs.sameArgs {members : Members} {args : Shared.OpenArgs}
    (h : IsOpenArgs members args) : SameArgs args.toWellFormed args.goUnquote := by
  obtain ⟨path, canonicalPath⟩ := args
  refine ⟨sameText_toWellFormed _, ?_⟩
  cases canonicalPath with
  | none => rfl
  | some canonical =>
    exact ⟨ne_nil_of_isAbsolutePath h.canonicalPath.2, sameText_toWellFormed _⟩

/-- A request that is forwarded has been accepted by all checks of the helper. -/
theorem handleRequest_forward {tryTake : Bool} {document : Document} {id : ℤ}
    {request : Helper.CallbackRequest}
    (h : Helper.handleRequest tryTake document = .forward id request) :
    ∃ op pane args openArgs, Helper.parseCallbackEnvelope document = .accepted id op pane args ∧
      Helper.isCallbackOp op ∧ Helper.parseOpenArgs args = .ok openArgs ∧
      request = ⟨callbackProtocolVersion, id, op, pane, openArgs⟩ := by
  unfold Helper.handleRequest at h
  cases henvelope : Helper.parseCallbackEnvelope document with
  | refused id' message =>
    rw [henvelope] at h
    exact nomatch h
  | accepted id' op pane args =>
    rw [henvelope] at h
    dsimp only at h
    by_cases hop : Helper.isCallbackOp op
    · rw [if_neg (not_not.mpr hop)] at h
      cases hargs : Helper.parseOpenArgs args with
      | error problem =>
        rw [hargs] at h
        exact nomatch h
      | ok openArgs =>
        rw [hargs] at h
        dsimp only at h
        split_ifs at h
        obtain ⟨rfl, rfl⟩ := Helper.Handling.forward.inj h
        exact ⟨op, pane, args, openArgs, rfl, hop, hargs, rfl⟩
    · rw [if_pos hop] at h
      exact nomatch h

/-- A document that the helper accepts is read by its library. -/
theorem depth_le_of_accepted {document : Document} {id : ℤ} {op : GoString}
    {pane : Option (CallbackPane GoString)} {args : GoValue}
    (h : Helper.parseCallbackEnvelope document = .accepted id op pane args) :
    document.depth ≤ maxNestingDepth := by
  by_contra hdeep
  rw [Helper.parseCallbackEnvelope, decode, if_neg hdeep] at h
  cases h

/-- What the helper accepts is what the shared module accepts, as the helper's library reads it. -/
theorem accepted_of_helper {document : Document} {id : ℤ} {op : GoString}
    {pane : Option (CallbackPane GoString)} {args : GoValue}
    (h : Helper.parseCallbackEnvelope document = .accepted id op pane args) :
    ∃ op' pane', ∃ args' : Option Document,
      Shared.parseCallbackEnvelope (jsonParse document) =
        .accepted id op' pane' (args'.map jsonParse) ∧
      op = goUnquote op' ∧ pane = pane'.map (CallbackPane.map goUnquote) ∧
      args = goValue (args'.getD .null) := by
  have hmatch := envelopes_match (depth_le_of_accepted h)
  rw [h] at hmatch
  generalize hshared : Shared.parseCallbackEnvelope (jsonParse document) = shared at hmatch
  cases hmatch with
  | accepted _ op' pane' args' => exact ⟨op', pane', args', rfl, rfl, rfl, rfl⟩

/-- The app accepts whatever the helper forwards. -/
theorem handleRequest_acceptedByMain {tryTake : Bool} {document : Document} {id : ℤ}
    {request : Helper.CallbackRequest}
    (h : Helper.handleRequest tryTake document = .forward id request) :
    AcceptedByMain request := by
  obtain ⟨_, _, _, _, henvelope, hop, hargs, rfl⟩ := handleRequest_forward h
  obtain ⟨op, pane, args, hshared, rfl, rfl, rfl⟩ := accepted_of_helper henvelope
  obtain ⟨members, rfl, hrequest, hid, -⟩ := (parseCallbackEnvelope_iff _ _ _ _ _).mp hshared
  have hnonzero : Helper.requestId (goValue ((member Word.id members).getD .null)) ≠ 0 := by
    have hshared := (requestId_ne_zero_iff _).mpr hrequest.id
    rwa [requestId_eq, Int.cast_ne_zero] at hshared
  rw [requestId_eq, Int.cast_inj] at hid
  obtain ⟨hpos, hsafe⟩ := requestId_bounds hnonzero
  rw [← hid] at hpos hsafe
  rw [isCallbackOp_goUnquote] at hop
  -- The arguments that the helper accepted, from those that the shared module accepts.
  rw [parseOpenArgs_goValue] at hargs
  cases hopen : Shared.parseOpenArgs (args.map jsonParse) with
  | error message =>
    rw [hopen] at hargs
    exact nomatch hargs
  | ok openArgs =>
    rw [hopen] at hargs
    obtain rfl := Except.ok.inj hargs
    obtain ⟨_, rfl, hopenArgs⟩ := (parseOpenArgs_iff _ _).mp hopen
    refine ⟨toWellFormed op, pane.map (CallbackPane.map toWellFormed),
      Option.map jsonParse (some (.object openArgs.goUnquote.members)), openArgs.toWellFormed,
      ?_, sameText_toWellFormed op, samePane_toWellFormed pane, ?_, ?_, hopenArgs.sameArgs⟩
    · apply (parseCallbackEnvelope_iff _ _ _ _ _).mpr
      refine ⟨_, rfl, hrequest.forwarded _ hpos hsafe, ?_, by rw [member_args]⟩
      rw [member_id, requestId_eq, Int.cast_inj, Option.getD_some]
      exact (requestId_ofInt hpos hsafe).symm
    · rw [← isCallbackOp_goUnquote, goUnquote_toWellFormed, isCallbackOp_goUnquote]
      exact hop
    · exact (parseOpenArgs_iff _ _).mpr ⟨_, rfl, hopenArgs.forwarded⟩

/-! ### The validators agree -/

/-- Both envelopes are refused, or both are accepted with the same id, operation and pane, and hand
on the same arguments. -/
def EnvelopesAgree (document : Document) : Prop :=
  match Shared.parseCallbackEnvelope (jsonParse document),
    Helper.parseCallbackEnvelope document with
  | .accepted id op pane args, .accepted id' op' pane' args' =>
    id = id' ∧ SameText op op' ∧ SamePane pane pane' ∧
      ∃ value : Option Document, args = value.map jsonParse ∧ args' = goValue (value.getD .null)
  | .refused _ _, .refused _ _ => True
  | _, _ => False

/-- The arguments are refused by both sides, or both find the same paths. -/
def ArgumentsAgree (document : Document) : Prop :=
  match Shared.parseOpenArgs (some (jsonParse document)),
    Helper.parseOpenArgs (goValue document) with
  | .ok args, .ok args' => SameArgs args args'
  | .error _, .error _ => True
  | _, _ => False

/-- The validators agree on a JSON value, taken as a request, as arguments, as a pane id and as an
operation; and the app accepts what the helper forwards for it. -/
structure ValidatorsAgree (document : Document) : Prop where
  envelope : EnvelopesAgree document
  arguments : ArgumentsAgree document
  paneId : ∀ id, document = .string id →
    (Shared.isPaneId (some (jsonParse document))).isSome = Helper.isPaneID (goUnquote id)
  operation : ∀ op, document = .string op →
    Shared.isCallbackOp op = Helper.isCallbackOp (goUnquote op)
  forwarded : ∀ tryTake id request,
    Helper.handleRequest tryTake document = .forward id request → AcceptedByMain request

/-- A request is nested no deeper than the helper's library reads, and the strings that a request
or arguments are accepted for have no unpaired surrogates. -/
structure Carried (document : Document) : Prop where
  depth : ∀ members op pane, document = .object members → IsRequest members op pane →
    document.depth ≤ maxNestingDepth
  op : ∀ members op pane, document = .object members → IsRequest members op pane →
    Utf16.Paired op
  pane : ∀ members op pane, document = .object members → IsRequest members op (some pane) →
    Utf16.Paired pane.id
  path : ∀ members args, document = .object members → IsOpenArgs members args →
    Utf16.Paired args.path
  canonicalPath : ∀ members path canonical, document = .object members →
    IsOpenArgs members ⟨path, some canonical⟩ → Utf16.Paired canonical

theorem IsPane.paired_kind {members : Members} {pane : CallbackPane JsString}
    (h : IsPane members pane) : Utf16.Paired pane.kind := by
  rcases h.kind_eq with hkind | hkind
  · rw [hkind]
    exact Utf16.paired_encode _
  · rw [hkind]
    exact Utf16.paired_encode _

theorem envelopesAgree_of_refused {document : Document} {id : ℚ} {message : String}
    (h : Shared.parseCallbackEnvelope (jsonParse document) = .refused id message) :
    EnvelopesAgree document := by
  unfold EnvelopesAgree
  cases hhelper : Helper.parseCallbackEnvelope document with
  | refused id' message' => rw [h]; trivial
  | accepted id' op pane args =>
    obtain ⟨_, _, _, hshared, -⟩ := accepted_of_helper hhelper
    rw [h] at hshared
    exact nomatch hshared

/-- On an accepted envelope, the sides agree if the helper's library reads the document and it has
no unpaired surrogate where it counts. -/
theorem envelopesAgree_iff_of_accepted {document : Document} {id : ℚ} {op : JsString}
    {pane : Option (CallbackPane JsString)} {args : Option JsValue}
    (h : Shared.parseCallbackEnvelope (jsonParse document) = .accepted id op pane args) :
    EnvelopesAgree document ↔ document.depth ≤ maxNestingDepth ∧ Utf16.Paired op ∧
      ∀ pane' ∈ pane, Utf16.Paired pane'.id := by
  by_cases hdepth : document.depth ≤ maxNestingDepth
  · obtain ⟨members, -, hrequest, -, -⟩ := (parseCallbackEnvelope_iff _ _ _ _ _).mp h
    have hmatch := envelopes_match hdepth
    rw [h] at hmatch
    unfold EnvelopesAgree
    rw [h]
    generalize Helper.parseCallbackEnvelope document = helper at hmatch
    cases hmatch with
    | accepted id op pane args =>
      dsimp only
      rw [sameText_goUnquote_iff]
      cases pane with
      | none =>
        constructor
        · rintro ⟨-, hop, -, -⟩
          exact ⟨hdepth, hop, nofun⟩
        · rintro ⟨-, hop, -⟩
          exact ⟨rfl, hop, trivial, args, rfl, rfl⟩
      | some pane =>
        obtain ⟨record, -, hrecord⟩ := hrequest.pane_eq
        constructor
        · rintro ⟨-, hop, ⟨-, hid⟩, -⟩
          refine ⟨hdepth, hop, ?_⟩
          rintro _ ⟨⟩
          exact (sameText_goUnquote_iff _).mp hid
        · rintro ⟨-, hop, hid⟩
          refine ⟨rfl, hop, ⟨?_, ?_⟩, args, rfl, rfl⟩
          · exact (sameText_goUnquote_iff _).mpr hrecord.paired_kind
          · exact (sameText_goUnquote_iff _).mpr (hid pane rfl)
  · refine iff_of_false ?_ fun hand => hdepth hand.1
    unfold EnvelopesAgree
    rw [h, Helper.parseCallbackEnvelope, decode, if_neg hdepth]
    exact fun hfalse => hfalse

theorem argumentsAgree_of_error {document : Document} {message : String}
    (h : Shared.parseOpenArgs (some (jsonParse document)) = .error message) :
    ArgumentsAgree document := by
  have hhelper := parseOpenArgs_goValue (some document)
  rw [Option.getD_some, Option.map_some, h] at hhelper
  unfold ArgumentsAgree
  rw [h, hhelper]
  trivial

theorem argumentsAgree_iff_of_ok {document : Document} {path : JsString}
    {canonicalPath : Option JsString}
    (h : Shared.parseOpenArgs (some (jsonParse document)) = .ok ⟨path, canonicalPath⟩) :
    ArgumentsAgree document ↔
      Utf16.Paired path ∧ ∀ canonical ∈ canonicalPath, Utf16.Paired canonical := by
  have hhelper := parseOpenArgs_goValue (some document)
  rw [Option.getD_some, Option.map_some, h] at hhelper
  obtain ⟨members, -, hargs⟩ := (parseOpenArgs_iff (some document) _).mp h
  unfold ArgumentsAgree
  rw [h, hhelper]
  dsimp only [Except.map, SameArgs, Shared.OpenArgs.goUnquote]
  rw [sameText_goUnquote_iff]
  apply and_congr_right
  intro _
  cases canonicalPath with
  | none => exact iff_of_true rfl nofun
  | some canonical =>
    have hnonempty := ne_nil_of_isAbsolutePath hargs.canonicalPath.2
    constructor
    · rintro ⟨-, hsame⟩ _ ⟨⟩
      exact (sameText_goUnquote_iff _).mp hsame
    · intro hpaired
      exact ⟨hnonempty, (sameText_goUnquote_iff _).mpr (hpaired canonical rfl)⟩

theorem isSome_isPaneId (id : JsString) :
    (Shared.isPaneId (some (jsonParse (.string id)))).isSome = Helper.isPaneID (goUnquote id) := by
  rw [Bool.eq_iff_iff, isPaneID_goUnquote]
  simp only [Shared.isPaneId, jsonParse, JsonValue.map, Option.bind_some, JsonValue.asString]
  by_cases h : 0 < id.length ∧ id.length ≤ maxPaneIdChars ∧ ¬ id.any Shared.isControlChar
  · rw [if_pos h]
    exact iff_of_true rfl h
  · rw [if_neg h]
    exact iff_of_false (by simp) h

/-- The validators agree on exactly the JSON values of which both sides can read alike what they
accept. -/
theorem validatorsAgree_iff (document : Document) :
    ValidatorsAgree document ↔ Carried document := by
  constructor
  · intro hagree
    have haccepted : ∀ members op pane, document = .object members → IsRequest members op pane →
        document.depth ≤ maxNestingDepth ∧ Utf16.Paired op ∧
          ∀ pane' ∈ pane, Utf16.Paired pane'.id := by
      intro members op pane hmembers hrequest
      have hshared := (parseCallbackEnvelope_iff document _ op pane _).mpr
        ⟨members, hmembers, hrequest, rfl, rfl⟩
      exact (envelopesAgree_iff_of_accepted hshared).mp hagree.envelope
    have hok : ∀ members path canonicalPath, document = .object members →
        IsOpenArgs members ⟨path, canonicalPath⟩ →
        Utf16.Paired path ∧ ∀ canonical ∈ canonicalPath, Utf16.Paired canonical := by
      intro members path canonicalPath hmembers hargs
      have hshared := (parseOpenArgs_iff (some document) _).mpr
        ⟨members, congrArg some hmembers, hargs⟩
      exact (argumentsAgree_iff_of_ok hshared).mp hagree.arguments
    exact
      { depth := fun members op pane hmembers h => (haccepted members op pane hmembers h).1
        op := fun members op pane hmembers h => (haccepted members op pane hmembers h).2.1
        pane := fun members op pane hmembers h =>
          (haccepted members op (some pane) hmembers h).2.2 pane rfl
        path := fun members args hmembers h => (hok members args.path _ hmembers h).1
        canonicalPath := fun members path canonical hmembers h =>
          (hok members path (some canonical) hmembers h).2 canonical rfl }
  · intro hcarried
    refine ⟨?_, ?_, ?_, ?_, ?_⟩
    · cases hshared : Shared.parseCallbackEnvelope (jsonParse document) with
      | refused id message => exact envelopesAgree_of_refused hshared
      | accepted id op pane args =>
        obtain ⟨members, hmembers, hrequest, -⟩ := (parseCallbackEnvelope_iff _ _ _ _ _).mp hshared
        apply (envelopesAgree_iff_of_accepted hshared).mpr
        refine ⟨hcarried.depth _ _ _ hmembers hrequest, hcarried.op _ _ _ hmembers hrequest, ?_⟩
        rintro pane' hpane
        obtain rfl := Option.mem_def.mp hpane
        exact hcarried.pane _ _ _ hmembers hrequest
    · cases hshared : Shared.parseOpenArgs (some (jsonParse document)) with
      | error message => exact argumentsAgree_of_error hshared
      | ok args =>
        obtain ⟨path, canonicalPath⟩ := args
        obtain ⟨members, hmembers, hargs⟩ := (parseOpenArgs_iff (some document) _).mp hshared
        have hmembers := Option.some.inj hmembers
        apply (argumentsAgree_iff_of_ok hshared).mpr
        refine ⟨hcarried.path _ _ hmembers hargs, ?_⟩
        intro canonical hcanonical
        obtain rfl := Option.mem_def.mp hcanonical
        exact hcarried.canonicalPath _ _ _ hmembers hargs
    · rintro id rfl
      exact isSome_isPaneId id
    · rintro op rfl
      exact (isCallbackOp_goUnquote op).symm
    · intro tryTake id request h
      exact handleRequest_acceptedByMain h

/-! ### Where they do not -/

/-- A request with a member that no one reads. -/
def requestWith (op : JsString) (ignored : Document) : Document :=
  .object [(Word.v.units, .number (.ofInt 1)), (Word.id.units, .number (.ofInt 1)),
    (Word.op.units, .string op), ([0x78], ignored)]

/-- Arrays in arrays. -/
def nested : ℕ → Document
  | 0 => .null
  | n + 1 => .array [nested n]

theorem depth_nested (n : ℕ) : (nested n).depth = n := by
  induction n with
  | zero => rfl
  | succ n ih => simp [nested, JsonValue.depth, JsonValue.depthItems, ih]

theorem depth_requestWith (op : JsString) (ignored : Document) :
    (requestWith op ignored).depth = ignored.depth + 1 := by
  simp [requestWith, JsonValue.depth, JsonValue.depthMembers]

theorem parseCallbackEnvelope_requestWith (op : JsString) (ignored : Document)
    (hnonempty : 0 < op.length) (hshort : op.length ≤ maxOpChars) :
    ∃ id args, Shared.parseCallbackEnvelope (jsonParse (requestWith op ignored)) =
      .accepted id op none args := by
  refine ⟨_, _, (parseCallbackEnvelope_iff _ _ _ _ _).mpr ⟨_, rfl, ?_, rfl, rfl⟩⟩
  exact
    { version := ⟨.ofInt 1, by simp +decide [member, JsonValue.lookup],
        Decimal.toDouble_ofInt (by decide)⟩
      id := ⟨.ofInt 1, 1, by simp +decide [member, JsonValue.lookup],
        Decimal.toDouble_ofInt (by decide), by decide, by decide⟩
      op_eq := by simp +decide [member, JsonValue.lookup]
      op_length := ⟨hnonempty, hshort⟩
      pane_eq := by
        intro document hdocument
        simp +decide [member, JsonValue.lookup] at hdocument }

/-- A request that is nested too deep where no one reads it. -/
theorem not_agree_of_nested {n : ℕ} (h : maxNestingDepth ≤ n) :
    ¬ ValidatorsAgree (requestWith Word.open.units (nested n)) := by
  intro hagree
  obtain ⟨id, args, hshared⟩ := parseCallbackEnvelope_requestWith Word.open.units (nested n)
    (by decide) (by decide)
  obtain ⟨hdepth, -⟩ := (envelopesAgree_iff_of_accepted hshared).mp hagree.envelope
  rw [depth_requestWith, depth_nested] at hdepth
  omega

/-- The helper has another operation than the app if that is an unpaired surrogate, and it refuses
a request that the app accepts if a member that no one reads is nested too deep. -/
theorem validators_disagree :
    ¬ ValidatorsAgree (requestWith [0xD800] .null) ∧
      ¬ ValidatorsAgree (requestWith Word.open.units (nested maxNestingDepth)) := by
  refine ⟨?_, not_agree_of_nested le_rfl⟩
  intro hagree
  obtain ⟨id, args, hshared⟩ :=
    parseCallbackEnvelope_requestWith [0xD800] .null (by decide) (by decide)
  obtain ⟨-, hpaired, -⟩ := (envelopesAgree_iff_of_accepted hshared).mp hagree.envelope
  have hhigh : Utf16.IsHigh 0xD800 := by decide
  exact hpaired (Or.inl hhigh)

end AgentCockpit.Callback
