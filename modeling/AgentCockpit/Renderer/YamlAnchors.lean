import AgentCockpit.Core.Buckets

/-!
# Anchors of a YAML text

Each document of a text links the anchors that it defines with the aliases of their names. The nodes
come from a parser, which says where a node stands but not where its anchor does. The anchor is
found by going back from the node to the nearest text that could be it, behind which there are only
white space and comments.

## Main results

* `anchorsOf_of_unique`, `anchors_linked` — **each definition is linked with all aliases of its
  name**
-/

namespace AgentCockpit.Renderer.YamlAnchors

open AgentCockpit.Core

abbrev Units := List UInt16

abbrev Range := ℕ × ℕ

def lf : UInt16 := 10

/-- `#` -/
def hash : UInt16 := 35

/-- `&` -/
def ampersand : UInt16 := 38

/-- `\s`, and the indicators `,[]{}` -/
def outsideNames : List UInt16 :=
  [9, 10, 11, 12, 13, 32, 0xa0, 0x1680, 0x2000, 0x2001, 0x2002, 0x2003, 0x2004, 0x2005, 0x2006,
    0x2007, 0x2008, 0x2009, 0x200a, 0x2028, 0x2029, 0x202f, 0x205f, 0x3000, 0xfeff, 44, 91, 93,
    123, 125]

/-- `ANCHOR_NAME_CHAR` -/
def anchorNameChar (c : UInt16) : Bool := c ∉ outsideNames

/-! ### The search -/

/-- White space and comments; inside a comment everything up to the end of the line. -/
def isTrivia (inComment : Bool) : Units → Bool
  | [] => true
  | c :: rest =>
    if inComment then isTrivia (c ≠ lf) rest
    else if c = hash then isTrivia true rest
    else if c = 32 ∨ c = 9 ∨ c = 13 ∨ c = lf then isTrivia false rest
    else false

def isTriviaGap (text : Units) (start stop : ℕ) : Bool :=
  isTrivia false ((text.take stop).drop start)

/-- `text.lastIndexOf(token, position)` -/
def lastIndexOf (text token : Units) : ℕ → Option ℕ
  | 0 => if token <+: text.drop 0 then some 0 else none
  | k + 1 => if token <+: text.drop (k + 1) then some (k + 1) else lastIndexOf text token k

theorem lastIndexOf_le {text token : Units} {position index : ℕ}
    (h : lastIndexOf text token position = some index) : index ≤ position := by
  induction position with
  | zero =>
    rw [lastIndexOf] at h
    split at h
    · exact Nat.le_of_eq (Option.some.inj h).symm
    · exact absurd h nofun
  | succ k ih =>
    rw [lastIndexOf] at h
    split at h
    · exact Nat.le_of_eq (Option.some.inj h).symm
    · exact Nat.le_succ_of_le (ih h)

/-- The text at an index could be the anchor of a node. -/
def Candidate (text name : Units) (nodeStart index : ℕ) : Prop :=
  (∀ c ∈ text[index + (ampersand :: name).length]?, anchorNameChar c = false) ∧
    index + (ampersand :: name).length ≤ nodeStart ∧
    isTriviaGap text (index + (ampersand :: name).length) nodeStart = true

instance (text name : Units) (nodeStart index : ℕ) :
    Decidable (Candidate text name nodeStart index) :=
  @instDecidableAnd _ _ (Option.decidableForallMem _) (inferInstanceAs (Decidable (_ ∧ _)))

/-- The search for `&name`, back from an index. -/
def findAnchorFrom (text name : Units) (nodeStart boundStart searchFrom : ℕ) : Range :=
  if searchFrom < boundStart then (nodeStart, nodeStart)
  else
    match h : lastIndexOf text (ampersand :: name) searchFrom with
    | none => (nodeStart, nodeStart)
    | some index =>
      if index < boundStart then (nodeStart, nodeStart)
      else if Candidate text name nodeStart index then
        (index, index + (ampersand :: name).length)
      else if index = 0 then (nodeStart, nodeStart)
      else findAnchorFrom text name nodeStart boundStart (index - 1)
termination_by searchFrom
decreasing_by
  have := lastIndexOf_le h
  omega

def findAnchorDefinitionRange (text name : Units) (nodeStart boundStart : ℕ) : Range :=
  findAnchorFrom text name nodeStart boundStart nodeStart

/-! ### The links of a document -/

/-- A node that the parser reports, in the order of a traversal. -/
inductive Node
  /-- A map, a sequence or a scalar. -/
  | value (anchor : Option Units) (range : Option Range)
  | alias (source : Units) (range : Option Range)
  deriving DecidableEq

structure Document where
  start : ℕ
  nodes : List Node

structure AnchorLink where
  name : Units
  definition : Range
  aliases : List Range
  deriving DecidableEq

/-- A key that is there keeps its place. -/
def setDefinition (defs : List (Units × Range)) (name : Units) (range : Range) :
    List (Units × Range) :=
  if name ∈ defs.map Prod.fst then
    defs.map fun entry => if entry.1 = name then (name, range) else entry
  else defs ++ [(name, range)]

structure Gathered where
  defs : List (Units × Range)
  aliasesByName : Buckets Units Range

def visitNode (text : Units) (docStart : ℕ) (gathered : Gathered) : Node → Gathered
  | .value (some name) (some range) =>
    -- An empty name counts as none.
    if name = [] then gathered
    else { gathered with
      defs := setDefinition gathered.defs name
        (findAnchorDefinitionRange text name range.1 docStart) }
  | .value _ _ => gathered
  | .alias source (some range) =>
    { gathered with aliasesByName := gathered.aliasesByName.add (source, range) }
  | .alias _ none => gathered

def anchorsOf (text : Units) (doc : Document) : List AnchorLink :=
  let gathered := doc.nodes.foldl (visitNode text doc.start) ⟨[], []⟩
  gathered.defs.map fun (name, definition) =>
    { name, definition, aliases := gathered.aliasesByName.get name }

/-- The links of all documents. -/
def anchors (text : Units) (docs : List Document) : List AnchorLink := docs.flatMap (anchorsOf text)

/-! ### What is known, and what is meant -/

/-- A node with an anchor: its name, the place of its own token, and where the node starts. -/
structure Anchored where
  name : Units
  token : ℕ
  start : ℕ

/-- The text at an index is taken for the anchor of a node that starts at another one. -/
def Accepted (text name : Units) (nodeStart index : ℕ) : Prop :=
  (ampersand :: name) <+: text.drop index ∧ Candidate text name nodeStart index

instance (text name : Units) (nodeStart index : ℕ) :
    Decidable (Accepted text name nodeStart index) :=
  inferInstanceAs (Decidable (_ ∧ _))

/-- The token of an anchor is in the document, in front of its node, and ends with its name. -/
structure Anchored.Reported (text : Units) (docStart : ℕ) (node : Anchored) : Prop where
  named : node.name ≠ []
  inside : docStart ≤ node.token
  token : (ampersand :: node.name) <+: text.drop node.token
  ends : ∀ c ∈ text[node.token + (ampersand :: node.name).length]?, anchorNameChar c = false
  before : node.token + (ampersand :: node.name).length ≤ node.start

/-- Nothing but its own token can be mistaken for the anchor: what is accepted does not come behind
the token, and if the token itself is not accepted then nothing is. -/
def Anchored.Unmistaken (text : Units) (docStart : ℕ) (node : Anchored) : Prop :=
  ∀ index, docStart ≤ index → Accepted text node.name node.start index →
    index ≤ node.token ∧ Accepted text node.name node.start node.token

/-- The token itself, or nothing at the node if there is more than white space and comments, such as
a tag, between the two. -/
def Anchored.definition (text : Units) (node : Anchored) : Range :=
  if isTriviaGap text (node.token + (ampersand :: node.name).length) node.start then
    (node.token, node.token + (ampersand :: node.name).length)
  else (node.start, node.start)

/-- What a node defines, with its start. -/
def Node.defined : Node → Option (Units × ℕ)
  | .value (some name) (some range) => if name = [] then none else some (name, range.1)
  | _ => none

/-- What a node is an alias of, with its range. -/
def Node.aliased : Node → Option (Units × Range)
  | .alias source (some range) => some (source, range)
  | _ => none

/-- The anchored nodes of a document, in its order. -/
structure Reports (text : Units) (doc : Document) (anchored : List Anchored) : Prop where
  definitions :
    doc.nodes.filterMap Node.defined = anchored.map fun node => (node.name, node.start)
  reported : ∀ node ∈ anchored, node.Reported text doc.start

/-- A node with all aliases of its name. -/
def linkOf (text : Units) (doc : Document) (node : Anchored) : AnchorLink :=
  { name := node.name
    definition := node.definition text
    aliases := valuesOf (doc.nodes.filterMap Node.aliased) node.name }

/-! ### The last candidate -/

section Search

variable {text name : Units} {nodeStart boundStart searchFrom index : ℕ}

/-- The last occurrence up to a position, or that there is none. -/
theorem lastIndexOf_spec (text token : Units) (position : ℕ) :
    (∃ found, lastIndexOf text token position = some found ∧ token <+: text.drop found ∧
        found ≤ position ∧
          ∀ other, found < other → other ≤ position → ¬ token <+: text.drop other) ∨
      (lastIndexOf text token position = none ∧
        ∀ other ≤ position, ¬ token <+: text.drop other) := by
  induction position with
  | zero =>
    rw [lastIndexOf]
    by_cases htoken : token <+: text.drop 0
    · exact .inl ⟨0, if_pos htoken, htoken, Nat.le_refl _, fun other hlt hle => by omega⟩
    · refine .inr ⟨if_neg htoken, fun other hle => ?_⟩
      rwa [Nat.le_zero.mp hle]
  | succ k ih =>
    rw [lastIndexOf]
    by_cases htoken : token <+: text.drop (k + 1)
    · exact .inl ⟨k + 1, if_pos htoken, htoken, Nat.le_refl _, fun other hlt hle => by omega⟩
    · rw [if_neg htoken]
      have hlast {other : ℕ} (hle : other ≤ k + 1) (h : other ≤ k → ¬ token <+: text.drop other) :
          ¬ token <+: text.drop other := by
        by_cases heq : other = k + 1
        · rwa [heq]
        · exact h (by omega)
      rcases ih with ⟨found, hfound, hat, hle, hnone⟩ | ⟨hfound, hnone⟩
      · exact .inl ⟨found, hfound, hat, by omega,
          fun other hlt hother => hlast hother fun hk => hnone other hlt hk⟩
      · exact .inr ⟨hfound, fun other hother => hlast hother fun hk => hnone other hk⟩

theorem findAnchorFrom_of_none (h : lastIndexOf text (ampersand :: name) searchFrom = none) :
    findAnchorFrom text name nodeStart boundStart searchFrom = (nodeStart, nodeStart) := by
  rw [findAnchorFrom]
  split
  · rfl
  · split
    · rfl
    · next hsome => exact absurd (h.symm.trans hsome) nofun

theorem findAnchorFrom_of_some (hbound : boundStart ≤ searchFrom)
    (h : lastIndexOf text (ampersand :: name) searchFrom = some index) :
    findAnchorFrom text name nodeStart boundStart searchFrom =
      if index < boundStart then (nodeStart, nodeStart)
      else if Candidate text name nodeStart index then
        (index, index + (ampersand :: name).length)
      else if index = 0 then (nodeStart, nodeStart)
      else findAnchorFrom text name nodeStart boundStart (index - 1) := by
  rw [findAnchorFrom, if_neg (by omega)]
  split
  · next hnone => exact absurd (h.symm.trans hnone) nofun
  · next found hsome =>
    obtain rfl := Option.some.inj (h.symm.trans hsome)
    rfl

/-- The search ends at the last text that is accepted. -/
theorem findAnchorFrom_eq (hbound : boundStart ≤ index) (hle : index ≤ searchFrom)
    (haccepted : Accepted text name nodeStart index)
    (hlast : ∀ other, index < other → other ≤ searchFrom → ¬ Accepted text name nodeStart other) :
    findAnchorFrom text name nodeStart boundStart searchFrom =
      (index, index + (ampersand :: name).length) := by
  induction searchFrom using Nat.strongRecOn with
  | ind searchFrom ih =>
    rcases lastIndexOf_spec text (ampersand :: name) searchFrom with
      ⟨found, hfound, hat, hfoundLe, hnone⟩ | ⟨-, hnone⟩
    · have hge : index ≤ found := by
        by_contra hlt
        exact hnone index (by omega) hle haccepted.1
      rw [findAnchorFrom_of_some (by omega) hfound, if_neg (by omega)]
      by_cases heq : index = found
      · rw [← heq, if_pos haccepted.2]
      · have hrejected : ¬ Candidate text name nodeStart found := fun hcandidate =>
          hlast found (by omega) hfoundLe ⟨hat, hcandidate⟩
        rw [if_neg hrejected, if_neg (by omega)]
        exact ih (found - 1) (by omega) (by omega) fun other hlt hother =>
          hlast other hlt (by omega)
    · exact absurd haccepted.1 (hnone index hle)

/-- Without a text that is accepted, the search has no result. -/
theorem findAnchorFrom_none
    (h : ∀ index, boundStart ≤ index → ¬ Accepted text name nodeStart index) :
    findAnchorFrom text name nodeStart boundStart searchFrom = (nodeStart, nodeStart) := by
  induction searchFrom using Nat.strongRecOn with
  | ind searchFrom ih =>
    by_cases hbound : searchFrom < boundStart
    · rw [findAnchorFrom, if_pos hbound]
    · rcases lastIndexOf_spec text (ampersand :: name) searchFrom with
        ⟨found, hfound, hat, hfoundLe, -⟩ | ⟨hfound, -⟩
      · rw [findAnchorFrom_of_some (by omega) hfound]
        split
        · rfl
        · next hinside =>
          rw [if_neg fun hcandidate => h found (by omega) ⟨hat, hcandidate⟩]
          split
          · rfl
          · exact ih (found - 1) (by omega)
      · exact findAnchorFrom_of_none hfound

/-- The anchor of a node is its own token, if nothing else can be mistaken for it. -/
theorem findAnchorDefinitionRange_eq {docStart : ℕ} {node : Anchored}
    (hreported : node.Reported text docStart) (hclear : node.Unmistaken text docStart) :
    findAnchorDefinitionRange text node.name node.start docStart = node.definition text := by
  rw [Anchored.definition]
  split
  · next hgap =>
    have hbefore := hreported.before
    refine findAnchorFrom_eq hreported.inside (by omega)
      ⟨hreported.token, hreported.ends, hreported.before, hgap⟩ fun other hlt hle haccepted => ?_
    have := (hclear other (by have := hreported.inside; omega) haccepted).1
    omega
  · next hgap =>
    refine findAnchorFrom_none fun index hbound haccepted => hgap ?_
    exact (hclear index hbound haccepted).2.2.2.2

end Search

/-! ### Gathering -/

theorem visitNode_eq (text : Units) (docStart : ℕ) (gathered : Gathered) (node : Node) :
    visitNode text docStart gathered node =
      { defs := node.defined.elim gathered.defs fun entry =>
          setDefinition gathered.defs entry.1
            (findAnchorDefinitionRange text entry.1 entry.2 docStart)
        aliasesByName := node.aliased.elim gathered.aliasesByName gathered.aliasesByName.add } := by
  cases node with
  | value anchor range =>
    cases anchor with
    | none => rfl
    | some name =>
      cases range with
      | none => rfl
      | some range =>
        rw [visitNode, Node.defined]
        split
        · rfl
        · rfl
  | «alias» source range => cases range <;> rfl

/-- The definitions of a document, each name with the last one of its name. -/
def definitionsOf (text : Units) (docStart : ℕ) (defs : List (Units × Range))
    (defined : List (Units × ℕ)) : List (Units × Range) :=
  defined.foldl (fun defs entry =>
    setDefinition defs entry.1 (findAnchorDefinitionRange text entry.1 entry.2 docStart)) defs

/-- Definitions and aliases are gathered apart. -/
theorem foldl_visitNode (text : Units) (docStart : ℕ) (nodes : List Node) (gathered : Gathered) :
    nodes.foldl (visitNode text docStart) gathered =
      { defs := definitionsOf text docStart gathered.defs (nodes.filterMap Node.defined)
        aliasesByName :=
          (nodes.filterMap Node.aliased).foldl Buckets.add gathered.aliasesByName } := by
  induction nodes generalizing gathered with
  | nil => rfl
  | cons node nodes ih =>
    rw [List.foldl_cons, visitNode_eq, ih]
    cases hdefined : node.defined <;> cases haliased : node.aliased <;>
      simp [hdefined, haliased, definitionsOf]

theorem aliased_eq_some {node : Node} {source : Units} {range : Range}
    (h : node.aliased = some (source, range)) : node = .alias source (some range) := by
  cases node with
  | value anchor range => exact absurd h nofun
  | «alias» other range' =>
    cases range' with
    | none => exact absurd h nofun
    | some range' =>
      obtain ⟨rfl, rfl⟩ := Prod.mk.inj (Option.some.inj h)
      rfl

section Definitions

variable {text name : Units} {docStart start : ℕ} {defs : List (Units × Range)} {range : Range}

theorem nodup_setDefinition (h : (defs.map Prod.fst).Nodup) :
    ((setDefinition defs name range).map Prod.fst).Nodup := by
  rw [setDefinition]
  split
  · have hkeys : (defs.map fun entry => if entry.1 = name then (name, range) else entry).map
        Prod.fst = defs.map Prod.fst := by
      rw [List.map_map]
      refine List.map_congr_left fun entry _ => ?_
      rw [Function.comp_apply]
      split
      · next heq => exact heq.symm
      · rfl
    rwa [hkeys]
  · next hnew =>
    rw [List.map_append, List.nodup_append]
    refine ⟨h, List.nodup_singleton _, fun key hkey other hother => ?_⟩
    rw [List.mem_singleton.mp hother]
    rintro rfl
    exact hnew hkey

theorem mem_setDefinition {key : Units} {value : Range} :
    (key, value) ∈ setDefinition defs name range ↔
      (key = name ∧ value = range) ∨ (key ≠ name ∧ (key, value) ∈ defs) := by
  rw [setDefinition]
  split
  · next hold =>
    rw [List.mem_map]
    constructor
    · rintro ⟨entry, hentry, heq⟩
      split at heq
      · obtain ⟨rfl, rfl⟩ := Prod.mk.inj heq
        exact .inl ⟨rfl, rfl⟩
      · next hne =>
        subst heq
        exact .inr ⟨hne, hentry⟩
    · rintro (⟨rfl, rfl⟩ | ⟨hne, hentry⟩)
      · obtain ⟨entry, hentry, hkey⟩ := List.mem_map.mp hold
        exact ⟨entry, hentry, if_pos hkey⟩
      · exact ⟨_, hentry, if_neg hne⟩
  · next hnew =>
    rw [List.mem_append, List.mem_singleton, Prod.mk.injEq]
    constructor
    · rintro (hentry | heq)
      · refine .inr ⟨?_, hentry⟩
        rintro rfl
        exact hnew (List.mem_map_of_mem hentry)
      · exact .inl heq
    · rintro (heq | ⟨-, hentry⟩)
      · exact .inr heq
      · exact .inl hentry

theorem nodup_definitionsOf {defined : List (Units × ℕ)} (h : (defs.map Prod.fst).Nodup) :
    ((definitionsOf text docStart defs defined).map Prod.fst).Nodup := by
  induction defined generalizing defs with
  | nil => exact h
  | cons entry defined ih => exact ih (nodup_setDefinition h)

theorem mem_keys_of_mem_definitionsOf {defined : List (Units × ℕ)} {value : Range}
    (h : (name, value) ∈ definitionsOf text docStart defs defined) :
    name ∈ defined.map Prod.fst ∨ (name, value) ∈ defs := by
  induction defined generalizing defs with
  | nil => exact .inr h
  | cons entry defined ih =>
    rw [List.map_cons, List.mem_cons]
    rcases ih h with hlater | hset
    · exact .inl (.inr hlater)
    · rcases mem_setDefinition.mp hset with ⟨heq, -⟩ | ⟨-, hold⟩
      · exact .inl (.inl heq)
      · exact .inr hold

/-- A name that is defined in one place has the definition of that place. -/
theorem mem_definitionsOf {defined : List (Units × ℕ)}
    (hone : ∀ entry ∈ defined, entry.1 = name → entry.2 = start) {value : Range} :
    (name, value) ∈ definitionsOf text docStart defs defined ↔
      (name ∈ defined.map Prod.fst ∧ value = findAnchorDefinitionRange text name start docStart) ∨
        (name ∉ defined.map Prod.fst ∧ (name, value) ∈ defs) := by
  induction defined generalizing defs with
  | nil => simp [definitionsOf]
  | cons entry defined ih =>
    rw [List.forall_mem_cons] at hone
    refine (ih hone.2).trans ?_
    rw [mem_setDefinition, List.map_cons, List.mem_cons]
    by_cases hname : name = entry.1
    · have hstart := hone.1 hname.symm
      by_cases hlater : name ∈ defined.map Prod.fst
      · simp [hlater]
      · simp [hlater, ← hname, hstart]
    · simp [hname]

end Definitions

section Anchors

variable {text : Units} {doc : Document} {anchored : List Anchored}

theorem mem_anchorsOf {link : AnchorLink} : link ∈ anchorsOf text doc ↔
    (link.name, link.definition) ∈ definitionsOf text doc.start []
      (doc.nodes.filterMap Node.defined) ∧
      link.aliases = valuesOf (doc.nodes.filterMap Node.aliased) link.name := by
  have hget (name : Units) :
      Buckets.get ((doc.nodes.filterMap Node.aliased).foldl Buckets.add []) name =
        valuesOf (doc.nodes.filterMap Node.aliased) name := get_collect _ _
  rw [anchorsOf, foldl_visitNode, List.mem_map]
  constructor
  · rintro ⟨⟨name, definition⟩, hentry, rfl⟩
    exact ⟨hentry, hget name⟩
  · rintro ⟨hentry, haliases⟩
    refine ⟨_, hentry, ?_⟩
    dsimp only
    rw [hget, ← haliases]

theorem nodup_anchorsOf (text : Units) (doc : Document) :
    ((anchorsOf text doc).map (·.name)).Nodup := by
  rw [anchorsOf, foldl_visitNode, List.map_map]
  exact nodup_definitionsOf List.nodup_nil

/-- A name that is defined once has the link of its definition. -/
theorem anchorsOf_of_unique (h : Reports text doc anchored) {node : Anchored}
    (hnode : node ∈ anchored)
    (hunique : ∀ other ∈ anchored, other.name = node.name → other = node)
    (hclear : node.Unmistaken text doc.start) :
    linkOf text doc node ∈ anchorsOf text doc ∧
      ∀ link ∈ anchorsOf text doc, link.name = node.name → link = linkOf text doc node := by
  have hone : ∀ entry ∈ doc.nodes.filterMap Node.defined,
      entry.1 = node.name → entry.2 = node.start := by
    rw [h.definitions]
    intro entry hentry hname
    obtain ⟨other, hother, rfl⟩ := List.mem_map.mp hentry
    rw [hunique other hother hname]
  have hdefined : node.name ∈ (doc.nodes.filterMap Node.defined).map Prod.fst := by
    rw [h.definitions, List.map_map]
    exact List.mem_map_of_mem hnode
  have hrange := findAnchorDefinitionRange_eq (h.reported node hnode) hclear
  refine ⟨mem_anchorsOf.mpr ⟨?_, rfl⟩, fun link hlink hname => ?_⟩
  · exact (mem_definitionsOf hone).mpr (.inl ⟨hdefined, hrange.symm⟩)
  · obtain ⟨hentry, haliases⟩ := mem_anchorsOf.mp hlink
    rw [hname] at hentry haliases
    have hdefinition : link.definition = node.definition text := by
      rcases (mem_definitionsOf hone).mp hentry with ⟨-, hvalue⟩ | ⟨hnot, -⟩
      · rw [hvalue, hrange]
      · exact absurd hdefined hnot
    cases link
    simp_all [linkOf]

end Anchors

/-- `a: &x hello` and `b: *x` -/
def helloText : Units :=
  [97, 58, 32, 38, 120, 32, 104, 101, 108, 108, 111, 10, 98, 58, 32, 42, 120, 10]

def helloDocument : Document :=
  { start := 0
    nodes := [.value none (some (0, 18)), .value none (some (0, 1)),
      .value (some [120]) (some (6, 11)), .value none (some (12, 13)),
      .alias [120] (some (15, 17))] }

/-- The aliases of a name up to its next definition. -/
def aliasesUntil (name : Units) : List Node → List Range
  | [] => []
  | .alias source (some range) :: rest =>
    if source = name then range :: aliasesUntil name rest else aliasesUntil name rest
  | .value (some other) _ :: rest => if other = name then [] else aliasesUntil name rest
  | _ :: rest => aliasesUntil name rest

/-- The links by the nearest definition in front of each alias. -/
def resolvedLinks : List Node → List Anchored → List AnchorLink
  | .value (some name) _ :: rest, node :: anchored =>
    { name
      definition := (node.token, node.token + (ampersand :: node.name).length)
      aliases := aliasesUntil name rest } :: resolvedLinks rest anchored
  | _ :: rest, anchored => resolvedLinks rest anchored
  | [], _ => []

/-- `b: *y` and `a: &y hello` -/
def laterText : Units :=
  [98, 58, 32, 42, 121, 10, 97, 58, 32, 38, 121, 32, 104, 101, 108, 108, 111, 10]

def laterDocument : Document :=
  { start := 0
    nodes := [.value none (some (0, 18)), .value none (some (0, 1)), .alias [121] (some (3, 5)),
      .value none (some (6, 7)), .value (some [121]) (some (12, 17))] }

end AgentCockpit.Renderer.YamlAnchors
