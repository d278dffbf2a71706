import AgentCockpit.Callback.OpenCommand
import AgentCockpit.Core.PathNames

/-!
# The path opened is the path named

A path crosses two or three JSON texts on its way to the app. The writer of the tool and the helper
puts a replacement character for each byte that is not part of a character, so the app gets another
path if there is such a byte, unless the path has become too long by that.
-/

namespace AgentCockpit.Callback

open AgentCockpit.Core

/-! ### Clean paths are not empty -/

def goPaths : PathSyntax UInt8 where
  sep := separator
  current := dot
  parent := dotDot
  current_ne_nil := by decide
  parent_ne_nil := by decide
  sep_notMem_current := by decide
  sep_notMem_parent := by decide

theorem push_goPaths : goPaths.push = pushElement := by
  funext rooted elements element
  cases elements <;> rfl

theorem clean_ne_nil (path : GoString) : clean path ≠ [] := by
  have helements : ((path.splitOn separator).foldl (pushElement (isAbs path)) []).reverse =
      goPaths.resolve (isAbs path) (path.splitOn separator) := by
    rw [← push_goPaths]
    rfl
  have hnames := @PathSyntax.name_resolve _ goPaths (path.splitOn separator) _ (isAbs path)
    fun _ hword => notMem_of_mem_splitOn hword
  unfold clean
  rw [helements]
  generalize goPaths.resolve (isAbs path) (path.splitOn separator) = names at hnames ⊢
  by_cases hroot : isAbs path
  · rw [if_pos hroot]
    exact List.cons_ne_nil _ _
  · rw [if_neg hroot]
    by_cases hempty : names = []
    · rw [if_pos hempty]
      decide
    · rw [if_neg hempty]
      exact @PathSyntax.join_ne_nil _ goPaths _ (fun name hname => (hnames name hname).1) hempty

theorem base_ne_nil (path : GoString) : base path ≠ [] := by
  unfold base
  by_cases hnil : path = []
  · rw [if_pos hnil]
    decide
  · rw [if_neg hnil]
    dsimp only
    cases htrimmed : path.reverse.dropWhile (· = separator) with
    | nil =>
      rw [if_pos rfl]
      exact List.cons_ne_nil _ _
    | cons byte bytes =>
      have hbyte := List.head?_dropWhile_not (· = separator) path.reverse
      rw [htrimmed] at hbyte
      have hbyte : byte ≠ separator := by simpa using hbyte
      rw [if_neg (List.cons_ne_nil _ _), List.takeWhile_cons_of_pos (by simpa using hbyte)]
      simp

theorem joinPath_ne_nil {parent name : GoString} (h : name ≠ []) : joinPath parent name ≠ [] := by
  unfold joinPath
  by_cases hparent : parent ≠ []
  · rw [if_pos hparent]
    exact clean_ne_nil _
  · rw [if_neg hparent, if_pos h]
    exact clean_ne_nil _

/-- A canonical path is sent whenever there is one. -/
theorem canonicalPath_ne_nil {env : CockpitEnv} {abs canonical : GoString}
    (h : env.canonicalPath abs = some canonical) : canonical ≠ [] := by
  obtain ⟨parent, -, rfl⟩ := Option.map_eq_some_iff.mp h
  exact joinPath_ne_nil (base_ne_nil abs)

/-! ### Strings on the way -/

/-- The bytes of a path that the app names to the file system. -/
def pathBytes (path : JsString) : GoString := Utf8.encode (Utf16.decode path)

/-- Bytes with a replacement character for each byte that is not part of a character. -/
def repair (path : GoString) : GoString := Utf8.encode (Utf8.runes path)

variable (path : GoString)

theorem pathBytes_goQuote : pathBytes (goQuote path) = repair path := by
  rw [pathBytes, goQuote, Utf16.decode_encode, repair]

theorem goUnquote_goQuote : goUnquote (goQuote path) = repair path := pathBytes_goQuote path

theorem runes_repair : Utf8.runes (repair path) = Utf8.runes path := Utf8.runes_encode _

theorem goQuote_bytes (word : Word) : goQuote word.bytes = word.units := by
  rw [goQuote, Word.bytes, Utf8.runes_encode, Word.units]

/-- A path is carried exactly if and only if its bytes encode a text. -/
theorem repair_eq_iff : repair path = path ↔ Utf8.Valid path := Utf8.encode_runes_iff path

theorem goQuote_eq_nil_iff : goQuote path = [] ↔ path = [] := by
  rw [← goUnquote_eq_nil_iff, goUnquote_goQuote]
  constructor
  · intro h
    cases path with
    | nil => rfl
    | cons byte bytes =>
      have hrunes := runes_repair (byte :: bytes)
      rw [h] at hrunes
      exact nomatch hrunes
  · rintro rfl
    rfl

theorem head_repair_iff : (repair path).head? = some separator ↔ path.head? = some separator := by
  have hascii : ∀ number, number = 0x2F → number < 0x80 := by omega
  have hiff := (Utf8.head_encode_iff hascii (Utf8.runes path)).trans
    (Utf8.head_runes_iff hascii path)
  have hbyte : ∀ byte : UInt8, byte.toNat = 0x2F ↔ byte = separator := by
    intro byte
    exact (UInt8.toNat_inj (b := separator))
  rw [repair]
  simpa [hbyte] using hiff

theorem zero_mem_repair_iff : 0 ∈ repair path ↔ 0 ∈ path := by
  have hascii : ∀ number, number = 0 → number < 0x80 := by omega
  have hiff := (Utf8.exists_mem_encode_iff hascii (Utf8.runes path)).trans
    (Utf8.exists_mem_runes_iff hascii path)
  have hbyte : ∀ byte : UInt8, byte.toNat = 0 ↔ byte = 0 := by
    intro byte
    exact (UInt8.toNat_inj (b := 0))
  rw [repair]
  simpa [hbyte] using hiff

/-! ### What the app accepts -/

/-- An absolute path without NUL that is short enough behind the replacements. -/
structure Sendable (path : GoString) : Prop where
  absolute : path.head? = some separator
  no_nul : 0 ∉ path
  short : (repair path).length ≤ callbackMaxPathBytes

variable {path}

theorem isAbsolutePath_goQuote_iff : IsAbsolutePath (goQuote path) ↔ Sendable path := by
  have hhead : (goQuote path).head? = some 0x2F ↔ path.head? = some separator := by
    rw [← head_goUnquote_iff, goUnquote_goQuote]
    exact head_repair_iff path
  have hnul : 0 ∈ goQuote path ↔ 0 ∈ path := by
    rw [← zero_mem_goUnquote_iff, goUnquote_goQuote, zero_mem_repair_iff]
  have hlength : (Utf8.encode (Utf16.decode (goQuote path))).length = (repair path).length :=
    congrArg List.length (pathBytes_goQuote path)
  constructor
  · rintro ⟨habsolute, hno, hshort⟩
    exact ⟨hhead.mp habsolute, fun h => hno (hnul.mpr h), hlength ▸ hshort⟩
  · rintro ⟨habsolute, hno, hshort⟩
    exact ⟨hhead.mpr habsolute, fun h => hno (hnul.mp h), hlength.symm ▸ hshort⟩

/-- The arguments as they stand in the document of a request. -/
def Helper.OpenArgs.quoted (args : Helper.OpenArgs) : Shared.OpenArgs where
  path := goQuote args.path
  canonicalPath := if args.canonicalPath = [] then none else some (goQuote args.canonicalPath)

theorem member_path (args : Helper.OpenArgs) :
    member Word.path args.members = some (.string (goQuote args.path)) := by
  by_cases h : args.canonicalPath = [] <;>
    simp +decide [member, Helper.OpenArgs.members, JsonValue.lookup, h]

theorem member_canonicalPath (args : Helper.OpenArgs) :
    member Word.canonicalPath args.members =
      if args.canonicalPath = [] then none else some (.string (goQuote args.canonicalPath)) := by
  by_cases h : args.canonicalPath = [] <;>
    simp +decide [member, Helper.OpenArgs.members, JsonValue.lookup, h]

theorem givesCanonicalPath_members_iff (args : Helper.OpenArgs) (canonical : Option JsString) :
    GivesCanonicalPath args.members canonical ↔ canonical = args.quoted.canonicalPath ∧
      (args.canonicalPath ≠ [] → Sendable args.canonicalPath) := by
  have hmember := member_canonicalPath args
  dsimp only [Helper.OpenArgs.quoted]
  by_cases hempty : args.canonicalPath = []
  · rw [if_pos hempty] at hmember ⊢
    cases canonical with
    | none =>
      refine iff_of_true ?_ ⟨rfl, fun h => absurd hempty h⟩
      rw [GivesCanonicalPath, hmember]
      exact omitted_none
    | some canonical =>
      refine iff_of_false ?_ fun h => by cases h.1
      rw [GivesCanonicalPath, hmember]
      exact fun h => by cases h.1
  · rw [if_neg hempty] at hmember ⊢
    cases canonical with
    | none =>
      refine iff_of_false ?_ fun h => by cases h.1
      rw [GivesCanonicalPath, hmember]
      exact fun h => by cases h _ rfl
    | some canonical =>
      rw [GivesCanonicalPath, hmember, Option.some_inj, JsonValue.string.injEq, Option.some_inj,
        eq_comm]
      apply and_congr_right
      rintro rfl
      rw [isAbsolutePath_goQuote_iff]
      exact ⟨fun h _ => h, fun h => h hempty⟩

/-- The arguments of a request are accepted as they stand there, if both paths can be sent. -/
theorem parseOpenArgs_members_iff (args : Helper.OpenArgs) (received : Shared.OpenArgs) :
    Shared.parseOpenArgs (some (jsonParse (.object args.members))) = .ok received ↔
      received = args.quoted ∧ Sendable args.path ∧
        (args.canonicalPath ≠ [] → Sendable args.canonicalPath) := by
  have hmember := member_path args
  obtain ⟨path, canonical⟩ := received
  rw [← Option.map_some, parseOpenArgs_iff]
  constructor
  · rintro ⟨_, ⟨⟩, ⟨hpath, habsolute⟩, hcanonical⟩
    rw [hmember] at hpath
    obtain rfl := JsonValue.string.inj (Option.some.inj hpath)
    obtain ⟨hquoted, hsendable⟩ := (givesCanonicalPath_members_iff args canonical).mp hcanonical
    refine ⟨?_, isAbsolutePath_goQuote_iff.mp habsolute, hsendable⟩
    rw [hquoted]
    rfl
  · rintro ⟨hquoted, habsolute, hsendable⟩
    obtain ⟨rfl, hcanonical⟩ := Shared.OpenArgs.mk.inj hquoted
    refine ⟨_, rfl, ⟨hmember, isAbsolutePath_goQuote_iff.mpr habsolute⟩, ?_⟩
    exact (givesCanonicalPath_members_iff args canonical).mpr ⟨hcanonical, hsendable⟩

/-! ### The request -/

theorem isPane_of_isPaneID {pane : CallbackPane GoString} {kind : Word}
    (hkind : kind = Word.tmux ∨ kind = Word.mux) (hpane : pane.kind = kind.bytes)
    (hid : Helper.isPaneID pane.id) :
    IsPane (Helper.paneMembers pane) (pane.map goQuote) := by
  -- The checks of an id look at its characters only.
  have hrepaired : Helper.isPaneID (goUnquote (goQuote pane.id)) = true := by
    rw [goUnquote_goQuote]
    unfold Helper.isPaneID Helper.utf16Len Helper.hasControlChars at hid ⊢
    rwa [runes_repair]
  obtain ⟨hnonempty, hshort, hprintable⟩ := (isPaneID_goUnquote _).mp hrepaired
  refine
    { kind := by simp +decide [member, Helper.paneMembers, JsonValue.lookup, CallbackPane.map]
      kind_eq := ?_
      id := by simp +decide [member, Helper.paneMembers, JsonValue.lookup, CallbackPane.map]
      id_length := ⟨hnonempty, hshort⟩
      id_printable := hprintable }
  rw [CallbackPane.map, hpane, goQuote_bytes]
  rcases hkind with rfl | rfl
  · exact Or.inl rfl
  · exact Or.inr rfl

/-- The tool sends a request that is one for the app. -/
theorem isRequest_openRequest (env : CockpitEnv) (abs : GoString) :
    IsRequest (env.openRequest abs).members Word.open.units
      ((env.openRequest abs).pane.map (CallbackPane.map goQuote)) := by
  have hpane : ∀ pane ∈ (env.openRequest abs).pane,
      IsPane (Helper.paneMembers pane) (pane.map goQuote) := by
    intro pane hpane
    change pane ∈ paneFromEnv env.getenv at hpane
    unfold paneFromEnv at hpane
    split_ifs at hpane with hmux htmux
    · obtain rfl := Option.mem_some_iff.mp hpane
      exact isPane_of_isPaneID (Or.inr rfl) rfl hmux
    · obtain rfl := Option.mem_some_iff.mp hpane
      exact isPane_of_isPaneID (Or.inl rfl) rfl htmux
    · exact nomatch hpane
  have hlength : 0 < (goQuote (env.openRequest abs).op).length ∧
      (goQuote (env.openRequest abs).op).length ≤ maxOpChars := by
    rw [CockpitEnv.openRequest, goQuote_bytes]
    decide
  have hmembers := isRequest_members (env.openRequest abs) rfl (Int.le_refl 1)
    (show (1 : ℤ) ≤ maxSafeInteger by decide) hlength hpane
  rwa [show goQuote (env.openRequest abs).op = Word.open.units from goQuote_bytes _] at hmembers

section Decision

variable {request : Helper.CallbackRequest} {op : JsString}
  {pane : Option (CallbackPane JsString)}

theorem parseCallbackEnvelope_document (h : IsRequest request.members op pane) :
    ∃ id, Shared.parseCallbackEnvelope (jsonParse request.document) =
      .accepted id op pane (some (jsonParse (.object request.args.members))) := by
  refine ⟨_, (parseCallbackEnvelope_iff _ _ _ _ _).mpr ⟨_, rfl, h, rfl, ?_⟩⟩
  rw [member_args]
  rfl

/-- What reaches the app of a request that it decides. -/
theorem handle_args_iff {tryTake connected : Bool} {raw : JsValue} {id : ℚ}
    {args : Option JsValue} (h : Shared.parseCallbackEnvelope raw = .accepted id op pane args)
    (hop : Shared.isCallbackOp op) (received : Shared.OpenArgs) :
    (handle tryTake connected raw).args = some received ↔
      tryTake ∧ connected ∧ Shared.parseOpenArgs args = .ok received := by
  unfold handle
  rw [h]
  dsimp only
  rw [if_neg (not_not.mpr hop)]
  cases tryTake <;> cases connected <;> cases Shared.parseOpenArgs args <;>
    simp [Decision.args]

end Decision

/-! ### The two routes -/

variable (env : CockpitEnv) (abs : GoString)

theorem isCallbackOp_open : Shared.isCallbackOp Word.open.units := by decide

/-- The helper forwards the paths as its library reads them. -/
theorem args_of_forward {tryTake : Bool} {id : ℤ} {forwarded : Helper.CallbackRequest}
    (h : Helper.handleRequest tryTake (env.openRequest abs).document = .forward id forwarded) :
    Sendable abs ∧ ((env.openRequest abs).args.canonicalPath ≠ [] →
        Sendable (env.openRequest abs).args.canonicalPath) ∧
      forwarded.args = (env.openRequest abs).args.quoted.goUnquote := by
  obtain ⟨_, _, _, _, henvelope, -, hargs, rfl⟩ := handleRequest_forward h
  obtain ⟨_, _, args, hshared, rfl, rfl, rfl⟩ := accepted_of_helper henvelope
  obtain ⟨_, hdocument⟩ := parseCallbackEnvelope_document (isRequest_openRequest env abs)
  rw [hshared] at hdocument
  obtain ⟨-, -, -, hmembers⟩ := EnvelopeResult.accepted.inj hdocument
  rw [parseOpenArgs_goValue, hmembers] at hargs
  cases hopen : Shared.parseOpenArgs
      (some (jsonParse (.object (env.openRequest abs).args.members))) with
  | error message =>
    rw [hopen] at hargs
    exact nomatch hargs
  | ok received =>
    rw [hopen] at hargs
    obtain rfl := Except.ok.inj hargs
    obtain ⟨rfl, hpath, hcanonical⟩ := (parseOpenArgs_members_iff _ _).mp hopen
    exact ⟨hpath, hcanonical, rfl⟩

theorem map_pathBytes_of_same {canonical : Option JsString} {sent : GoString}
    (h : SameCanonicalPath canonical sent) :
    canonical.map pathBytes = if sent = [] then none else some sent := by
  cases canonical with
  | none => rw [if_pos (show sent = [] from h), Option.map_none]
  | some canonical =>
    obtain ⟨hnonempty, text, rfl, rfl⟩ := h
    rw [if_neg hnonempty, Option.map_some, pathBytes, Utf16.decode_encode]

/-- The canonical path in the request, and as the helper reads it. -/
theorem canonicalPath_quoted :
    (env.openRequest abs).args.quoted.canonicalPath = (env.canonicalPath abs).map goQuote := by
  unfold Helper.OpenArgs.quoted CockpitEnv.openRequest
  dsimp only
  cases hcanonical : env.canonicalPath abs with
  | none => rfl
  | some canonical => rw [Option.getD_some, if_neg (canonicalPath_ne_nil hcanonical)]; rfl

theorem sendable_canonicalPath_iff :
    ((env.openRequest abs).args.canonicalPath ≠ [] →
        Sendable (env.openRequest abs).args.canonicalPath) ↔
      ∀ canonical ∈ env.canonicalPath abs, Sendable canonical := by
  unfold CockpitEnv.openRequest
  dsimp only
  cases hcanonical : env.canonicalPath abs with
  | none => exact iff_of_true (fun h => absurd rfl h) nofun
  | some canonical =>
    rw [Option.getD_some]
    constructor
    · rintro h _ ⟨⟩
      exact h (canonicalPath_ne_nil hcanonical)
    · intro h _
      exact h canonical rfl

/-- What reaches the app are the repaired paths, on either route, and only what can be sent. -/
theorem receive_repaired {circumstances : Circumstances} {route : Route}
    {received : Shared.OpenArgs}
    (h : receive circumstances (env.openRequest abs) route = some received) :
    Sendable abs ∧ (∀ canonical ∈ env.canonicalPath abs, Sendable canonical) ∧
      pathBytes received.path = repair abs ∧
      received.canonicalPath.map pathBytes = (env.canonicalPath abs).map repair := by
  rw [← sendable_canonicalPath_iff]
  have hquoted := canonicalPath_quoted env abs
  cases route with
  | «local» =>
    obtain ⟨_, hdocument⟩ := parseCallbackEnvelope_document (isRequest_openRequest env abs)
    obtain ⟨-, -, hopen⟩ := (handle_args_iff hdocument isCallbackOp_open received).mp h
    obtain ⟨rfl, hpath, hcanonical⟩ := (parseOpenArgs_members_iff _ _).mp hopen
    refine ⟨hpath, hcanonical, pathBytes_goQuote abs, ?_⟩
    rw [hquoted, Option.map_map]
    congr 1
    funext canonical
    exact pathBytes_goQuote canonical
  | helper =>
    rw [receive] at h
    cases hhandled : Helper.handleRequest circumstances.helperTakes
        (env.openRequest abs).document with
    | reply id code message =>
      rw [hhandled] at h
      exact nomatch h
    | forward id forwarded =>
      rw [hhandled] at h
      -- what the helper forwards are the paths as its own library reads them
      obtain ⟨hpath, hcanonical, hargs⟩ := args_of_forward env abs hhandled
      obtain ⟨op, pane, args, openArgs, henvelope, -, -, hop, hopen, hsame⟩ :=
        handleRequest_acceptedByMain hhandled
      obtain ⟨-, -, hreceived⟩ := (handle_args_iff henvelope hop received).mp h
      rw [hopen] at hreceived
      obtain rfl := Except.ok.inj hreceived
      rw [hargs] at hsame
      obtain ⟨⟨text, htext, hbytes⟩, hsameCanonical⟩ := hsame
      refine ⟨hpath, hcanonical, ?_, ?_⟩
      · rw [pathBytes, ← htext, Utf16.decode_encode, hbytes]
        exact goUnquote_goQuote abs
      · have hforwarded : (env.openRequest abs).args.quoted.goUnquote.canonicalPath =
            (env.canonicalPath abs).elim [] repair := by
          rw [Shared.OpenArgs.goUnquote, hquoted]
          cases env.canonicalPath abs with
          | none => rfl
          | some canonical => exact goUnquote_goQuote canonical
        rw [map_pathBytes_of_same hsameCanonical, hforwarded]
        cases hsent : env.canonicalPath abs with
        | none => rfl
        | some canonical =>
          have hnonempty : repair canonical ≠ [] := by
            rw [← goUnquote_goQuote, ne_eq, goUnquote_eq_nil_iff, goQuote_eq_nil_iff]
            exact canonicalPath_ne_nil hsent
          rw [Option.elim_some, if_neg hnonempty, Option.map_some]

/-- A request with paths that can be sent is accepted. -/
theorem receive_local (hpath : Sendable abs)
    (hcanonical : ∀ canonical ∈ env.canonicalPath abs, Sendable canonical) :
    receive ⟨true, true, true⟩ (env.openRequest abs) .local =
      some (env.openRequest abs).args.quoted := by
  obtain ⟨_, hdocument⟩ := parseCallbackEnvelope_document (isRequest_openRequest env abs)
  apply (handle_args_iff hdocument isCallbackOp_open _).mpr
  refine ⟨rfl, rfl, (parseOpenArgs_members_iff _ _).mpr ⟨rfl, hpath, ?_⟩⟩
  exact (sendable_canonicalPath_iff env abs).mpr hcanonical

/-! ### The path opened is the path named -/

/-- The app has the paths of the tool, byte for byte. -/
structure Kept (abs : GoString) (canonical : Option GoString) (received : Shared.OpenArgs) :
    Prop where
  path : pathBytes received.path = abs
  canonicalPath : received.canonicalPath.map pathBytes = canonical

/-- Whenever a request of the command is accepted, the app has the paths of the tool. -/
def PathKept (env : CockpitEnv) (args : List GoString) : Prop :=
  ∀ arg ∈ parseOpenCommandArgs args, ∀ abs ∈ env.absolutePath arg,
    abs.length ≤ callbackMaxPathBytes → 0 ∉ abs →
    ∀ request, env.runOpen args = .ok request →
    ∀ circumstances route received, receive circumstances request route = some received →
      Kept abs (env.canonicalPath abs) received

/-- The paths of the command are texts, or one of them is refused for its length or its form. -/
def PathsEncoded (env : CockpitEnv) (args : List GoString) : Prop :=
  ∀ arg ∈ parseOpenCommandArgs args, ∀ abs ∈ env.absolutePath arg,
    abs.length ≤ callbackMaxPathBytes → 0 ∉ abs →
    isAbs (env.getenv "COCKPIT_CALLBACK_SOCK") →
    Sendable abs → (∀ canonical ∈ env.canonicalPath abs, Sendable canonical) →
      Utf8.Valid abs ∧ ∀ canonical ∈ env.canonicalPath abs, Utf8.Valid canonical

theorem runOpen_of_absolutePath {env : CockpitEnv} {args : List GoString} {arg abs : GoString}
    (harg : arg ∈ parseOpenCommandArgs args) (habs : abs ∈ env.absolutePath arg)
    (request : Helper.CallbackRequest) :
    env.runOpen args = .ok request ↔
      isAbs (env.getenv "COCKPIT_CALLBACK_SOCK") ∧ request = env.openRequest abs := by
  rw [CockpitEnv.runOpen, Option.mem_def.mp harg]
  dsimp only
  rw [Option.mem_def.mp habs]
  dsimp only
  by_cases hsock : isAbs (env.getenv "COCKPIT_CALLBACK_SOCK")
  · rw [if_neg (not_not.mpr hsock), Except.ok.injEq]
    exact ⟨fun h => ⟨hsock, h.symm⟩, fun h => h.2.symm⟩
  · rw [if_pos hsock]
    exact iff_of_false nofun fun h => hsock h.1

/-- The paths of the tool are what the app gets exactly if they are texts. -/
theorem kept_iff {abs : GoString} {canonical : Option GoString} {received : Shared.OpenArgs}
    (hpath : pathBytes received.path = repair abs)
    (hcanonical : received.canonicalPath.map pathBytes = canonical.map repair) :
    Kept abs canonical received ↔
      Utf8.Valid abs ∧ ∀ path ∈ canonical, Utf8.Valid path := by
  have hcanonical' : received.canonicalPath.map pathBytes = canonical ↔
      ∀ path ∈ canonical, Utf8.Valid path := by
    rw [hcanonical]
    cases canonical with
    | none => exact iff_of_true rfl nofun
    | some path =>
      rw [Option.map_some, Option.some_inj, repair_eq_iff]
      constructor
      · rintro h _ ⟨⟩
        exact h
      · intro h
        exact h path rfl
  have hpath' : pathBytes received.path = abs ↔ Utf8.Valid abs := by
    rw [hpath, repair_eq_iff]
  constructor
  · rintro ⟨h, h'⟩
    exact ⟨hpath'.mp h, hcanonical'.mp h'⟩
  · rintro ⟨h, h'⟩
    exact ⟨hpath'.mpr h, hcanonical'.mpr h'⟩

/-- The path opened is the path named exactly if the paths are texts or the request is refused. -/
theorem pathKept_iff (env : CockpitEnv) (args : List GoString) :
    PathKept env args ↔ PathsEncoded env args := by
  constructor
  · intro hkept arg harg abs habs hshort hnul hsock hsendable hcanonical
    have hreceived := receive_local env abs hsendable hcanonical
    obtain ⟨-, -, hpath, hpath'⟩ := receive_repaired env abs hreceived
    have hrequest := (runOpen_of_absolutePath harg habs (env.openRequest abs)).mpr ⟨hsock, rfl⟩
    exact (kept_iff hpath hpath').mp
      (hkept arg harg abs habs hshort hnul _ hrequest _ _ _ hreceived)
  · intro hencoded arg harg abs habs hshort hnul request hrequest circumstances route received
      hreceived
    obtain ⟨hsock, rfl⟩ := (runOpen_of_absolutePath harg habs request).mp hrequest
    obtain ⟨hsendable, hcanonical, hpath, hpath'⟩ := receive_repaired env abs hreceived
    exact (kept_iff hpath hpath').mpr
      (hencoded arg harg abs habs hshort hnul hsock hsendable hcanonical)

/-- A terminal in the root directory of a system without links. -/
def rootEnv : CockpitEnv where
  getenv name := if name = "COCKPIT_CALLBACK_SOCK" then [0x2F, 0x73] else []
  getwd := some [separator]
  evalSymlinks path := some path

/-- A file whose name is the byte `FF` is opened as one whose name is a replacement character. -/
theorem rootEnv_not_pathKept : ¬ PathKept rootEnv [[0xFF]] := by
  intro hkept
  have habs : rootEnv.absolutePath [0xFF] = some [separator, 0xFF] := by decide
  have hcanonical : rootEnv.canonicalPath [separator, 0xFF] = some [separator, 0xFF] := by decide
  have hsendable : Sendable [separator, 0xFF] := ⟨by decide, by decide, by decide⟩
  have hreceived := receive_local rootEnv [separator, 0xFF] hsendable (by
    rw [hcanonical]
    rintro _ ⟨⟩
    exact hsendable)
  have hrequest := (runOpen_of_absolutePath (show [0xFF] ∈ parseOpenCommandArgs [[0xFF]] by decide)
    habs (rootEnv.openRequest [separator, 0xFF])).mpr ⟨by decide, rfl⟩
  have hpath := (hkept [0xFF] (by decide) _ habs (by decide) (by decide) _ hrequest _ _ _
    hreceived).path
  exact absurd hpath (by decide)

end AgentCockpit.Callback
