import AgentCockpit.Core.Joined

/-!
# Paths as lists of names

A path is split at a separator. One name stands for the directory that the path has reached, and one
for the directory above it; once these are resolved, the path is a list of plain names, and what is
inside a rooted path can be read off the text or off the names.
-/

namespace AgentCockpit.Core

/-- The separator between names, the name for the directory itself and that for the one above. -/
structure PathSyntax (α : Type*) where
  sep : α
  current : List α
  parent : List α
  current_ne_nil : current ≠ []
  parent_ne_nil : parent ≠ []
  sep_notMem_current : sep ∉ current
  sep_notMem_parent : sep ∉ parent

namespace PathSyntax

variable {α : Type*} (path : PathSyntax α)

/-- A name that stands for an entry of a directory. -/
structure Plain (name : List α) : Prop where
  ne_nil : name ≠ []
  ne_current : name ≠ path.current
  ne_parent : name ≠ path.parent
  sep_notMem : path.sep ∉ name

/-- The text of a rooted path. -/
def rootedText (names : List (List α)) : List α := path.sep :: join path.sep names

/-- What the text of a path inside a rooted one begins with. -/
def frontText (names : List (List α)) : List α :=
  if names = [] then [path.sep] else path.rootedText names ++ [path.sep]

variable {path} {names other rest words : List (List α)} {name : List α}

/-! ### The text of a path -/

theorem join_ne_nil (hname : ∀ name ∈ names, name ≠ []) (hnil : names ≠ []) :
    join path.sep names ≠ [] := by
  obtain ⟨first, names, rfl⟩ := List.exists_cons_of_ne_nil hnil
  have hfirst := hname first List.mem_cons_self
  cases names with
  | nil => simpa using hfirst
  | cons next names => simp

/-- A text of names does not begin with the separator. -/
theorem head?_join_ne (hname : ∀ name ∈ names, name ≠ [] ∧ path.sep ∉ name) :
    (join path.sep names).head? ≠ some path.sep := by
  cases names with
  | nil => simp
  | cons first names =>
    obtain ⟨hnil, hsep⟩ := hname first List.mem_cons_self
    obtain ⟨letter, letters, rfl⟩ := List.exists_cons_of_ne_nil hnil
    have hletter : letter ≠ path.sep := fun h => hsep (h ▸ List.mem_cons_self)
    cases names with
    | nil => simpa using hletter
    | cons next names => simpa using hletter

/-- A text of names does not end with the separator. -/
theorem getLast?_join_ne (hname : ∀ name ∈ names, name ≠ [] ∧ path.sep ∉ name) :
    (join path.sep names).getLast? ≠ some path.sep := by
  induction names with
  | nil => simp
  | cons first names ih =>
    obtain ⟨⟨hnil, hsep⟩, hnames⟩ := List.forall_mem_cons.mp hname
    cases names with
    | nil =>
      rw [join_singleton]
      exact fun h => hsep (List.mem_of_getLast? h)
    | cons next names =>
      have htail : join path.sep (next :: names) ≠ [] :=
        join_ne_nil (fun name hname => (hnames name hname).1) (List.cons_ne_nil _ _)
      rw [join_cons_cons, List.getLast?_append_of_ne_nil _ (List.cons_ne_nil _ _),
        List.getLast?_cons_of_ne_nil htail]
      exact ih hnames

/-- What is inside a path, by the text. -/
theorem rootedText_append (hrest : rest ≠ []) :
    path.rootedText (names ++ rest) = path.frontText names ++ join path.sep rest := by
  unfold rootedText frontText
  split
  next hnil => simp [hnil]
  next hnil => rw [join_append hnil hrest]; simp [rootedText]

/-- **Inside**: the text of a path goes on behind the front of another one if its names do. -/
theorem frontText_prefix_iff (hnames : ∀ name ∈ names, path.Plain name)
    (hother : ∀ name ∈ other, path.Plain name) :
    path.frontText names <+: path.rootedText other ∧
        (path.frontText names).length < (path.rootedText other).length ↔
      names <+: other ∧ names ≠ other := by
  constructor
  · rintro ⟨hbegins, hlength⟩
    have hne : other ≠ [] := by
      rintro rfl
      unfold frontText at hlength
      split at hlength <;> simp [rootedText] at hlength
    by_cases hnil : names = []
    · subst hnil
      exact ⟨List.nil_prefix, hne.symm⟩
    · classical
      rw [frontText, if_neg hnil, rootedText, rootedText, List.cons_append,
        List.cons_prefix_cons] at hbegins
      rw [frontText, if_neg hnil] at hlength
      refine ⟨(join_prefix_iff (fun name hname => (hnames name hname).sep_notMem) hnil
        (fun name hname => (hother name hname).sep_notMem) hne).mp (.inr hbegins.2), ?_⟩
      rintro rfl
      rw [List.length_append] at hlength
      exact Nat.lt_irrefl _ (Nat.lt_of_succ_lt hlength)
  · rintro ⟨⟨rest, rfl⟩, hne⟩
    have hrest : rest ≠ [] := by
      rintro rfl
      exact hne (List.append_nil _).symm
    have htext : join path.sep rest ≠ [] :=
      join_ne_nil (fun name hname => (hother name (List.mem_append_right _ hname)).ne_nil) hrest
    rw [rootedText_append hrest, List.length_append]
    exact ⟨List.prefix_append _ _, Nat.lt_add_of_pos_right (List.length_pos_iff.mpr htext)⟩

/-- The text of a path is shorter than those inside it. -/
theorem length_rootedText_lt (hnames : ∀ name ∈ names, path.Plain name)
    (hother : ∀ name ∈ other, path.Plain name) (hbegins : names <+: other) (hne : names ≠ other) :
    (path.rootedText names).length < (path.rootedText other).length := by
  obtain ⟨-, hlength⟩ := (frontText_prefix_iff hnames hother).mpr ⟨hbegins, hne⟩
  apply Nat.lt_of_le_of_lt _ hlength
  unfold frontText
  split
  next hnil => simp [hnil, rootedText]
  next => simp

/-- Of two paths that begin the same one, the one with the shorter text begins the other. -/
theorem prefix_of_length_le {whole : List (List α)} (hnames : ∀ name ∈ names, path.Plain name)
    (hother : ∀ name ∈ other, path.Plain name) (hbegins : names <+: whole)
    (hbegins' : other <+: whole)
    (hlength : (path.rootedText names).length ≤ (path.rootedText other).length) :
    names <+: other := by
  rcases List.prefix_or_prefix_of_prefix hbegins hbegins' with h | h
  · exact h
  · by_cases heq : other = names
    · exact heq ▸ List.prefix_rfl
    · exact absurd (length_rootedText_lt hother hnames h heq) (Nat.not_lt.mpr hlength)

/-! ### The names of a path -/

variable [DecidableEq α] (path)

/-- Put a name behind those of a path, of which the last one comes first. There is nothing above the
root. -/
def push (rooted : Bool) (names : List (List α)) (name : List α) : List (List α) :=
  if name = [] ∨ name = path.current then names
  else if name = path.parent then
    match names with
    | [] => if rooted then [] else [path.parent]
    | last :: before => if last = path.parent then path.parent :: names else before
  else name :: names

/-- The names that words lead through. -/
def resolve (rooted : Bool) (words : List (List α)) : List (List α) :=
  (words.foldl (path.push rooted) []).reverse

variable {path} {rooted : Bool}

theorem push_of_plain (h : path.Plain name) : path.push rooted names name = name :: names := by
  rw [push.eq_def, if_neg (not_or.mpr ⟨h.ne_nil, h.ne_current⟩), if_neg h.ne_parent]

@[simp] theorem push_nil : path.push rooted names [] = names :=
  if_pos (.inl rfl)

/-- A property of all names is kept when a name is put behind them. -/
theorem forall_push {P : List α → Prop} (hnames : ∀ name ∈ names, P name)
    (hparent : rooted = false → P path.parent)
    (hname : name ≠ [] → name ≠ path.current → name ≠ path.parent → P name)
    (hlast : rooted = true → ∀ name ∈ names, name ≠ path.parent) :
    ∀ pushed ∈ path.push rooted names name, P pushed := by
  unfold push
  split
  · exact hnames
  next hskip =>
    obtain ⟨hnil, hcurrent⟩ := not_or.mp hskip
    split
    · cases names with
      | nil =>
        cases rooted with
        | true => exact nofun
        | false => exact List.forall_mem_singleton.mpr (hparent rfl)
      | cons last before =>
        dsimp only
        split
        next heq =>
          cases rooted with
          | true => exact absurd heq (hlast rfl last List.mem_cons_self)
          | false => exact List.forall_mem_cons.mpr ⟨hparent rfl, hnames⟩
        next => exact (List.forall_mem_cons.mp hnames).2
    next hne => exact List.forall_mem_cons.mpr ⟨hname hnil hcurrent hne, hnames⟩

/-- Resolved names are not empty and have no separator. -/
theorem name_resolve (hwords : ∀ word ∈ words, path.sep ∉ word) :
    ∀ name ∈ path.resolve rooted words, name ≠ [] ∧ path.sep ∉ name := by
  suffices hfold : ∀ (names : List (List α)),
      (∀ name ∈ names, (name ≠ [] ∧ path.sep ∉ name) ∧ (rooted = true → name ≠ path.parent)) →
      ∀ name ∈ words.foldl (path.push rooted) names,
        (name ≠ [] ∧ path.sep ∉ name) ∧ (rooted = true → name ≠ path.parent) by
    intro name hname
    exact (hfold [] nofun name (List.mem_reverse.mp hname)).1
  induction words with
  | nil => exact fun _ h => h
  | cons word words ih =>
    intro names hnames
    apply ih fun word hword => hwords word (List.mem_cons_of_mem _ hword)
    apply forall_push hnames
    · exact fun hrooted => ⟨⟨path.parent_ne_nil, path.sep_notMem_parent⟩,
        fun h => absurd (hrooted.symm.trans h) (by decide)⟩
    · exact fun hnil _ hparent => ⟨⟨hnil, hwords word List.mem_cons_self⟩, fun _ => hparent⟩
    · exact fun hrooted name hname => (hnames name hname).2 hrooted

/-- The names of a rooted path are plain. -/
theorem plain_resolve (hwords : ∀ word ∈ words, path.sep ∉ word) :
    ∀ name ∈ path.resolve true words, path.Plain name := by
  suffices hfold : ∀ (names : List (List α)), (∀ name ∈ names, path.Plain name) →
      ∀ name ∈ words.foldl (path.push true) names, path.Plain name by
    intro name hname
    exact hfold [] nofun name (List.mem_reverse.mp hname)
  induction words with
  | nil => exact fun _ h => h
  | cons word words ih =>
    intro names hnames
    apply ih fun word hword => hwords word (List.mem_cons_of_mem _ hword)
    apply forall_push hnames
    · exact nofun
    · exact fun hnil hcurrent hparent =>
        ⟨hnil, hcurrent, hparent, hwords word List.mem_cons_self⟩
    · exact fun _ name hname => (hnames name hname).ne_parent

/-- Plain names are put behind what the words lead to. -/
theorem resolve_append (hnames : ∀ name ∈ names, path.Plain name) :
    path.resolve rooted (words ++ names) = path.resolve rooted words ++ names := by
  rw [resolve, resolve, List.foldl_append]
  generalize words.foldl (path.push rooted) [] = before
  induction names generalizing before with
  | nil => simp
  | cons name names ih =>
    obtain ⟨hname, hnames⟩ := List.forall_mem_cons.mp hnames
    rw [List.foldl_cons, push_of_plain hname, ih hnames]
    simp

@[simp] theorem resolve_nil_cons :
    path.resolve rooted ([] :: words) = path.resolve rooted words := by
  rw [resolve, List.foldl_cons, push_nil, resolve]

@[simp] theorem resolve_nil : path.resolve rooted [] = [] := rfl

theorem resolve_of_plain (hnames : ∀ name ∈ names, path.Plain name) :
    path.resolve rooted names = names := by
  have h := @resolve_append _ path names [] _ rooted hnames
  simpa using h

theorem resolve_splitOn_join (hnames : ∀ name ∈ names, path.Plain name) :
    path.resolve rooted ((join path.sep names).splitOn path.sep) = names := by
  by_cases hnil : names = []
  · subst hnil
    simp [resolve_nil_cons]
  · rw [splitOn_join (fun name hname => (hnames name hname).sep_notMem) hnil,
      resolve_of_plain hnames]

/-- The text of a path leads through its names. -/
theorem resolve_rootedText (hnames : ∀ name ∈ names, path.Plain name) :
    path.resolve rooted ((path.rootedText names).splitOn path.sep) = names := by
  have hsplit : (path.sep :: join path.sep names).splitOn path.sep =
      [].splitOn path.sep ++ (join path.sep names).splitOn path.sep :=
    List.splitOn_append_cons_self [] _
  rw [rootedText, hsplit, List.splitOn_nil, List.singleton_append, resolve_nil_cons,
    resolve_splitOn_join hnames]

/-- A text and then plain names behind a separator lead through the names of both. -/
theorem resolve_append_join {text : List α} (hrest : ∀ name ∈ rest, path.Plain name)
    (hne : rest ≠ []) :
    path.resolve rooted ((text ++ path.sep :: join path.sep rest).splitOn path.sep) =
      path.resolve rooted (text.splitOn path.sep) ++ rest := by
  rw [List.splitOn_append_cons_self,
    splitOn_join (fun name hname => (hrest name hname).sep_notMem) hne, resolve_append hrest]

end PathSyntax

end AgentCockpit.Core
