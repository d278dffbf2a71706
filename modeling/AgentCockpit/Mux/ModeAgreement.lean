import AgentCockpit.Core.Run
import AgentCockpit.Mux.ModeScanner

/-!
# Agreement of tracked modes

Two scanners that read the same output agree on what they agreed on before: of every mode but the
keyboard flags the next value depends on its own last value and the escape sequence only. The flags
are popped off a stack, so for them the stacks count: it is enough that one has further entries
below those of the other, as long as none of these is popped.

The texts that are stored (a scroll region, a cursor shape, keyboard flags and a title) can be put
into a sequence of their kind again.
-/

namespace AgentCockpit.Mux

open AgentCockpit.Core ModeState

/-- The escape sequences of an output. -/
def tokens (data : Bytes) : List ModeToken := (modeScanner.scan data).1

theorem tokens_nil : tokens [] = [] := by
  rw [tokens, modeScanner.scan_nil]

/-- An output that ends outside an escape sequence. -/
def Outside (data : Bytes) : Prop := (modeScanner.scan data).2 = []

namespace ModeState

/-- The modes after the escape sequences of an output. -/
def after (modes : ModeState) (data : Bytes) : ModeState := (tokens data).foldl apply modes

/-- Nothing is kept of what was left unfinished. -/
theorem observe_eq (modes : ModeState) (hpending : modes.pending = []) (data : Bytes) :
    ∃ pending, modes.observe data = { modes.after data with pending } := by
  have hsame : ({ modes with pending := [] } : ModeState) = modes := by rw [← hpending]
  unfold observe after tokens
  rw [hpending, hsame, List.nil_append, scan_eq]
  split
  · exact ⟨_, rfl⟩
  · exact ⟨_, rfl⟩

theorem after_append {data : Bytes} (h : Outside data) (modes : ModeState) (more : Bytes) :
    modes.after (data ++ more) = (modes.after data).after more := by
  unfold after tokens
  rw [modeScanner.scan_append_of_left h, List.foldl_append]

/-! ### Views of the modes -/

/-- Two states with the same modes but for the keyboard flags; of a private mode that is restored a
view is compared. -/
structure Same {β : Type*} (view : ℤ → Option Bool → β) (a b : ModeState) : Prop where
  alternateScreen : a.alternateScreen = b.alternateScreen
  privateModes : ∀ mode ∈ restoredModes,
    view mode (a.privateModes mode) = view mode (b.privateModes mode)
  insertMode : a.insertMode = b.insertMode
  scrollRegion : a.scrollRegion = b.scrollRegion
  cursorShape : a.cursorShape = b.cursorShape
  keypadApp : a.keypadApp = b.keypadApp
  title : a.title = b.title

/-- The keyboard flags are the same, and under its stack one state has further entries. -/
structure Deeper (base : List Bytes) (a b : ModeState) : Prop where
  kittyFlags : a.kittyFlags = b.kittyFlags
  kittyStack : a.kittyStack = base ++ b.kittyStack

/-- How many entries of the stack a sequence pops. -/
def kittyPops : ModeToken → ℕ
  | .csi (0x3c :: rest) 0x75 =>
    match atoi rest with
    | some n => if n < 1 then 1 else n.toNat
    | none => 1
  | _ => 0

/-- How many entries a sequence pushes. -/
def kittyPushes : ModeToken → ℕ
  | .csi (0x3e :: _) 0x75 => 1
  | _ => 0

/-- No sequence pops more entries than there are on a stack of `depth` entries and those that were
pushed in between. -/
def PopsWithin : ℕ → List ModeToken → Prop
  | _, [] => True
  | depth, token :: tokens =>
    kittyPops token ≤ depth ∧ PopsWithin (depth - kittyPops token + kittyPushes token) tokens

variable {β : Type*} {view : ℤ → Option Bool → β} {a b modes : ModeState}

theorem Same.setPrivate (h : Same view a b) (mode : ℤ) (enabled : Bool) :
    Same view (a.setPrivate mode enabled) (b.setPrivate mode enabled) := by
  have hmodes : ∀ other ∈ restoredModes,
      view other (if other = mode then some enabled else a.privateModes other) =
        view other (if other = mode then some enabled else b.privateModes other) := by
    intro other hother
    split
    · rfl
    · exact h.privateModes other hother
  simp only [ModeState.setPrivate]
  split
  · exact { h with alternateScreen := rfl, privateModes := hmodes }
  · split
    · exact { h with privateModes := hmodes }
    · exact { h with privateModes := hmodes }

theorem Same.foldl {ι : Type*} {f : ModeState → ι → ModeState}
    (hf : ∀ {a b}, Same view a b → ∀ item, Same view (f a item) (f b item)) (h : Same view a b)
    (items : List ι) : Same view (items.foldl f a) (items.foldl f b) := by
  induction items generalizing a b with
  | nil => exact h
  | cons item items ih => exact ih (hf h item)

/-- Keyboard sequences change the flags and their stack only. -/
theorem observeKittyKeyboard_eq (modes : ModeState) (params : Bytes) :
    ∃ kittyFlags kittyStack,
      modes.observeKittyKeyboard params = { modes with kittyFlags, kittyStack } := by
  have hpop : ∀ (count : ℕ) (modes : ModeState), ∃ kittyFlags kittyStack,
      modes.popKitty count = { modes with kittyFlags, kittyStack } := by
    intro count
    induction count with
    | zero => exact fun modes => ⟨_, _, rfl⟩
    | succ count ih =>
      intro modes
      rw [popKitty]
      split
      · exact ⟨_, _, rfl⟩
      · next flags _ =>
        obtain ⟨kittyFlags, kittyStack, heq⟩ :=
          ih { modes with kittyFlags := flags, kittyStack := modes.kittyStack.dropLast }
        exact ⟨kittyFlags, kittyStack, heq⟩
  unfold observeKittyKeyboard
  split
  · exact ⟨_, _, rfl⟩
  · split
    · exact ⟨_, _, rfl⟩
    · split
      · exact ⟨_, _, rfl⟩
      · split
        · exact hpop _ modes
        · exact ⟨_, _, rfl⟩

theorem Same.observeKittyKeyboard (h : Same view a b) (params : Bytes) :
    Same view (a.observeKittyKeyboard params) (b.observeKittyKeyboard params) := by
  obtain ⟨flags, stack, ha⟩ := a.observeKittyKeyboard_eq params
  obtain ⟨flags', stack', hb⟩ := b.observeKittyKeyboard_eq params
  rw [ha, hb]
  exact { h with }

theorem Same.observeCSI (h : Same view a b) (params : Bytes) (final : UInt8) :
    Same view (a.observeCSI params final) (b.observeCSI params final) := by
  unfold ModeState.observeCSI
  dsimp only
  split
  · exact h.observeKittyKeyboard params
  · split
    · exact { h with scrollRegion := rfl }
    · split
      · exact { h with cursorShape := rfl }
      · split
        · exact h
        · split
          · refine h.foldl (fun h parameter => ?_) _
            split
            · exact h.setPrivate _ _
            · exact h
          · refine h.foldl (fun h parameter => ?_) _
            split
            · exact { h with insertMode := rfl }
            · exact h

/-- **The view of a state determines its view after an escape sequence.** -/
theorem Same.apply (h : Same view a b) (token : ModeToken) :
    Same view (a.apply token) (b.apply token) := by
  cases token with
  | text byte => exact h
  | csi params final => exact h.observeCSI params final
  | osc payload terminator =>
    simp only [ModeState.apply, observeOSC]
    split
    · exact h
    · split
      · exact { h with title := rfl }
      · exact h
  | escape kind =>
    simp only [ModeState.apply, observeEscape]
    split
    · exact { h with keypadApp := rfl }
    · split
      · exact { h with keypadApp := rfl }
      · split
        · exact { h with }
        · split
          · exact { h with }
          · exact h

/-! ### The stack of the keyboard flags -/

/-- Whether a sequence is one of the keyboard protocol. -/
def IsKitty : ModeToken → Prop
  | .csi _ final => final = 0x75
  | _ => False

/-- Other sequences leave the keyboard flags and their stack as they are. -/
theorem apply_kitty {token : ModeToken} (h : ¬ IsKitty token) (modes : ModeState) :
    (modes.apply token).kittyFlags = modes.kittyFlags ∧
      (modes.apply token).kittyStack = modes.kittyStack := by
  have hfold : ∀ {ι : Type} {f : ModeState → ι → ModeState}
      (_ : ∀ modes item, (f modes item).kittyFlags = modes.kittyFlags ∧
        (f modes item).kittyStack = modes.kittyStack) (items : List ι) (modes : ModeState),
      (items.foldl f modes).kittyFlags = modes.kittyFlags ∧
        (items.foldl f modes).kittyStack = modes.kittyStack := fun hf items modes =>
    ⟨foldl_view (·.kittyFlags) (fun modes item => (hf modes item).1) items modes,
      foldl_view (·.kittyStack) (fun modes item => (hf modes item).2) items modes⟩
  cases token with
  | text byte => exact ⟨rfl, rfl⟩
  | csi params final =>
    have hfinal : ¬ final = 0x75 := h
    simp only [apply, observeCSI]
    rw [if_neg hfinal]
    split
    · exact ⟨rfl, rfl⟩
    · split
      · exact ⟨rfl, rfl⟩
      · split
        · exact ⟨rfl, rfl⟩
        · split
          · refine hfold (fun modes parameter => ?_) _ _
            split
            · simp only [setPrivate]
              split
              · exact ⟨rfl, rfl⟩
              · split <;> exact ⟨rfl, rfl⟩
            · exact ⟨rfl, rfl⟩
          · refine hfold (fun modes parameter => ?_) _ _
            split <;> exact ⟨rfl, rfl⟩
  | osc payload terminator =>
    simp only [apply, observeOSC]
    split
    · exact ⟨rfl, rfl⟩
    · split <;> exact ⟨rfl, rfl⟩
  | escape kind =>
    simp only [apply, observeEscape]
    repeat' split
    all_goals exact ⟨rfl, rfl⟩

variable {base : List Bytes}

theorem length_popKitty (modes : ModeState) (count : ℕ) :
    (modes.popKitty count).kittyStack.length = modes.kittyStack.length - count := by
  induction count generalizing modes with
  | zero => rfl
  | succ count ih =>
    rw [popKitty]
    split
    · next hnone =>
      rw [List.getLast?_eq_none_iff.mp hnone, List.length_nil, Nat.zero_sub]
    · rw [ih, List.length_dropLast]
      omega

/-- Entries are popped off the part of the stack that the two states share. -/
theorem Deeper.popKitty (h : Deeper base a b) (count : ℕ)
    (hcount : base = [] ∨ count ≤ b.kittyStack.length) :
    Deeper base (a.popKitty count) (b.popKitty count) := by
  induction count generalizing a b with
  | zero => exact h
  | succ count ih =>
    rcases List.eq_nil_or_concat b.kittyStack with hempty | ⟨stack, flags, hstack⟩
    · have hbase : base = [] := by
        rcases hcount with hbase | hcount
        · exact hbase
        · rw [hempty] at hcount
          exact absurd hcount (Nat.not_succ_le_zero count)
      have ha : a.kittyStack = [] := by rw [h.kittyStack, hbase, hempty, List.nil_append]
      rw [ModeState.popKitty, ModeState.popKitty, ha, hempty]
      exact h
    · have ha : a.kittyStack = base ++ stack ++ [flags] := by
        rw [h.kittyStack, hstack, List.concat_eq_append, List.append_assoc]
      rw [List.concat_eq_append] at hstack
      rw [ModeState.popKitty, ModeState.popKitty, ha, hstack, List.getLast?_concat,
        List.getLast?_concat]
      dsimp only
      apply ih
      · exact ⟨rfl, by rw [List.dropLast_concat, List.dropLast_concat]⟩
      · refine hcount.imp_right fun hcount => ?_
        rw [hstack, List.length_append] at hcount
        rw [List.dropLast_concat]
        exact Nat.le_of_succ_le_succ hcount

/-- What a keyboard sequence does, by its first parameter byte. -/
theorem apply_csi_kitty (modes : ModeState) (params : Bytes) :
    modes.apply (.csi params 0x75) = match params with
      | 0x3e :: flags => { modes with
          kittyStack := modes.kittyStack ++ [modes.kittyFlags], kittyFlags := flags }
      | 0x3d :: flags => { modes with kittyFlags := flags }
      | _ => modes.popKitty (kittyPops (.csi params 0x75)) := by
  simp only [apply, observeCSI, if_true]
  cases params with
  | nil => rfl
  | cons byte rest =>
    by_cases hpush : byte = 0x3e
    · rw [hpush]; rfl
    · by_cases hset : byte = 0x3d
      · rw [hset]; rfl
      · by_cases hpop : byte = 0x3c
        · rw [hpop]; rfl
        · have hnone : kittyPops (.csi (byte :: rest) 0x75) = 0 := by simp [kittyPops, hpop]
          simp [observeKittyKeyboard, hpush, hset, hpop, hnone, popKitty]

theorem apply_set (modes : ModeState) (flags : Bytes) :
    modes.apply (.csi (0x3d :: flags) 0x75) = { modes with kittyFlags := flags } := by
  rw [apply_csi_kitty]
  rfl

theorem apply_pop (modes : ModeState) :
    modes.apply (.csi [0x3c] 0x75) = modes.popKitty 1 := by
  rw [apply_csi_kitty]
  rfl

theorem kittyFlags_popKitty_one (modes : ModeState) :
    (modes.popKitty 1).kittyFlags = modes.kittyStack.getLast?.getD modes.kittyFlags := by
  rw [popKitty]
  split
  · next hnone => rw [hnone]; rfl
  · next popped hsome => rw [hsome]; rfl

theorem kittyPops_of_not_isKitty {token : ModeToken} (h : ¬ IsKitty token) :
    kittyPops token = 0 := by
  unfold kittyPops
  split
  · exact absurd rfl h
  · rfl

theorem kittyPushes_of_not_isKitty {token : ModeToken} (h : ¬ IsKitty token) :
    kittyPushes token = 0 := by
  unfold kittyPushes
  split
  · exact absurd rfl h
  · rfl

/-- The depth of the stack after a sequence. -/
theorem length_apply (modes : ModeState) (token : ModeToken) :
    (modes.apply token).kittyStack.length =
      modes.kittyStack.length - kittyPops token + kittyPushes token := by
  by_cases hkitty : IsKitty token
  · cases token with
    | csi params final =>
      obtain rfl : final = 0x75 := hkitty
      rw [apply_csi_kitty]
      split
      · simp [kittyPops, kittyPushes]
      · simp [kittyPops, kittyPushes]
      · next hpush _ =>
        have hnone : kittyPushes (.csi params 0x75) = 0 := by
          unfold kittyPushes
          split
          · next flags heq => exact absurd (ModeToken.csi.inj heq).1 (hpush flags)
          · rfl
        rw [length_popKitty, hnone, Nat.add_zero]
    | text byte => exact hkitty.elim
    | osc payload terminator => exact hkitty.elim
    | escape kind => exact hkitty.elim
  · rw [(apply_kitty hkitty modes).2, kittyPops_of_not_isKitty hkitty,
      kittyPushes_of_not_isKitty hkitty]
    rfl

theorem Deeper.apply (h : Deeper base a b) (token : ModeToken)
    (hpops : base = [] ∨ kittyPops token ≤ b.kittyStack.length) :
    Deeper base (a.apply token) (b.apply token) := by
  by_cases hkitty : IsKitty token
  · cases token with
    | csi params final =>
      obtain rfl : final = 0x75 := hkitty
      rw [apply_csi_kitty, apply_csi_kitty]
      split
      · exact ⟨rfl, by rw [h.kittyStack, h.kittyFlags, List.append_assoc]⟩
      · exact ⟨rfl, h.kittyStack⟩
      · exact h.popKitty _ hpops
    | text byte => exact hkitty.elim
    | osc payload terminator => exact hkitty.elim
    | escape kind => exact hkitty.elim
  · obtain ⟨hflags, hstack⟩ := apply_kitty hkitty a
    obtain ⟨hflags', hstack'⟩ := apply_kitty hkitty b
    exact ⟨by rw [hflags, hflags', h.kittyFlags], by rw [hstack, hstack', h.kittyStack]⟩

/-- Two states whose stacks differ below their common entries stay so while only these are
popped. -/
theorem Deeper.foldl (h : Deeper base a b) {tokens : List ModeToken}
    (hpops : base = [] ∨ PopsWithin b.kittyStack.length tokens) :
    Deeper base (tokens.foldl ModeState.apply a) (tokens.foldl ModeState.apply b) := by
  induction tokens generalizing a b with
  | nil => exact h
  | cons token tokens ih =>
    refine ih (h.apply token (hpops.imp_right And.left)) (hpops.imp_right fun hpops => ?_)
    rw [length_apply]
    exact hpops.2

/-! ### What is stored is read back -/

/-- The bytes of a parameter: none of them ends a CSI sequence. -/
def IsParams (params : Bytes) : Prop := ∀ byte ∈ params, isFinal byte = false

theorem isParams_of_all {params : Bytes} (h : params.all fun byte => !isFinal byte) :
    IsParams params :=
  fun byte hbyte => by simpa using List.all_eq_true.mp h byte hbyte

/-- The stored texts stand in a sequence of their kind as they were read. -/
structure Readable (modes : ModeState) : Prop where
  scrollRegion : IsParams modes.scrollRegion
  notPrivate : modes.scrollRegion.head? ≠ some 0x3f
  cursorShape : IsParams modes.cursorShape
  space : modes.cursorShape ≠ [] → modes.cursorShape.getLast? = some 0x20
  kittyFlags : IsParams modes.kittyFlags
  kittyStack : ∀ flags ∈ modes.kittyStack, IsParams flags
  title : oscEnd (modes.title ++ [bel]) = some modes.title.length

theorem readable_empty : Readable {} where
  scrollRegion := nofun
  notPrivate := nofun
  cursorShape := nofun
  space := fun h => absurd rfl h
  kittyFlags := nofun
  kittyStack := nofun
  title := by decide

theorem Readable.setPrivate (h : Readable modes) (mode : ℤ) (enabled : Bool) :
    Readable (modes.setPrivate mode enabled) := by
  simp only [ModeState.setPrivate]
  split
  · exact { h with }
  · split
    · exact { h with }
    · exact { h with }

theorem Readable.popKitty (h : Readable modes) (count : ℕ) : Readable (modes.popKitty count) := by
  induction count generalizing modes with
  | zero => exact h
  | succ count ih =>
    rw [ModeState.popKitty]
    split
    · exact h
    · next flags hflags =>
      refine ih { h with kittyFlags := ?_, kittyStack := ?_ }
      · exact h.kittyStack flags (List.mem_of_getLast? hflags)
      · exact fun flags hmem => h.kittyStack flags (List.dropLast_subset _ hmem)

theorem Readable.foldl {ι : Type*} {f : ModeState → ι → ModeState}
    (hf : ∀ {modes}, Readable modes → ∀ item, Readable (f modes item)) (h : Readable modes)
    (items : List ι) : Readable (items.foldl f modes) := by
  induction items generalizing modes with
  | nil => exact h
  | cons item items ih => exact ih (hf h item)

theorem Readable.observeCSI (h : Readable modes) {params : Bytes} (hparams : IsParams params)
    (final : UInt8) : Readable (modes.apply (.csi params final)) := by
  by_cases hkitty : final = 0x75
  · rw [hkitty, apply_csi_kitty]
    split
    · next flags _ =>
      refine { h with kittyFlags := ?_, kittyStack := ?_ }
      · exact fun byte hbyte => hparams byte (List.mem_cons_of_mem _ hbyte)
      · refine List.forall_mem_append.mpr ⟨h.kittyStack, fun flags hmem => ?_⟩
        rw [List.mem_singleton.mp hmem]
        exact h.kittyFlags
    · exact { h with kittyFlags := fun byte hbyte => hparams byte (List.mem_cons_of_mem _ hbyte) }
    · exact h.popKitty _
  · simp only [ModeState.apply, ModeState.observeCSI]
    rw [if_neg hkitty]
    split
    · next hregion => exact { h with scrollRegion := hparams, notPrivate := hregion.2 }
    · split
      · next hshape => exact { h with cursorShape := hparams, space := fun _ => hshape.2 }
      · split
        · exact h
        · split
          · refine h.foldl (fun h parameter => ?_) _
            split
            · exact h.setPrivate _ _
            · exact h
          · refine h.foldl (fun h parameter => ?_) _
            split
            · exact { h with }
            · exact h

/-- A terminator is found behind a tail of a payload as well. -/
theorem oscEnd_tail {start title terminator : Bytes}
    (h : oscEnd (start ++ title ++ terminator) = some (start ++ title).length) :
    oscEnd (title ++ terminator) = some title.length := by
  induction start with
  | nil => exact h
  | cons byte start ih =>
    apply ih
    rw [List.cons_append, List.cons_append, oscEnd, List.length_cons] at h
    split at h
    · exact absurd (Option.some.inj h) (Nat.succ_ne_zero _).symm
    · split at h
      · exact absurd (Option.some.inj h) (Nat.succ_ne_zero _).symm
      · obtain ⟨stop, hstop, heq⟩ := Option.map_eq_some_iff.mp h
        rw [hstop, Nat.succ.inj heq]

/-- Either terminator may stand behind a payload. -/
theorem oscEnd_bel {payload : Bytes} (h : oscEnd (payload ++ [esc, 0x5c]) = some payload.length) :
    oscEnd (payload ++ [bel]) = some payload.length := by
  induction payload with
  | nil => rfl
  | cons byte payload ih =>
    rw [List.cons_append, oscEnd, List.length_cons] at h
    rw [List.cons_append, oscEnd, List.length_cons]
    split at h
    · exact absurd (Option.some.inj h) (Nat.succ_ne_zero _).symm
    · next hbel =>
      rw [if_neg hbel]
      split at h
      · exact absurd (Option.some.inj h) (Nat.succ_ne_zero _).symm
      · next hesc =>
        obtain ⟨stop, hstop, heq⟩ := Option.map_eq_some_iff.mp h
        have hbyte : ¬ (byte = esc ∧ (payload ++ [bel]).head? = some 0x5c) := by
          rintro ⟨rfl, hhead⟩
          cases payload with
          | nil => exact absurd hhead (by decide)
          | cons next payload => exact hesc ⟨rfl, hhead⟩
        rw [if_neg hbyte, ih (by rw [hstop, Nat.succ.inj heq])]
        rfl

/-- **Every escape sequence keeps what is stored readable.** -/
theorem Readable.apply (h : Readable modes) {token : ModeToken} (htoken : token.Valid) :
    Readable (modes.apply token) := by
  cases token with
  | text byte => exact h
  | csi params final => exact h.observeCSI htoken.1 final
  | osc payload terminator =>
    obtain ⟨hterminator, hend⟩ := htoken
    simp only [ModeState.apply, observeOSC]
    split
    · exact h
    · next separator title hdrop =>
      split
      · -- a title ends where its payload ends
        have hsplit : payload = payload.takeWhile (· ≠ 0x3b) ++ [separator] ++ title := by
          have htake := List.prefix_iff_eq_take.mp (List.takeWhile_prefix (· ≠ 0x3b) (l := payload))
          conv_lhs => rw [← List.take_append_drop (payload.takeWhile (· ≠ 0x3b)).length payload]
          rw [← htake, hdrop, List.append_assoc]
          rfl
        rw [hsplit] at hend
        have htitle := oscEnd_tail hend
        refine { h with title := ?_ }
        rcases hterminator with rfl | rfl
        · exact htitle
        · exact oscEnd_bel htitle
      · exact h
  | escape kind =>
    simp only [ModeState.apply, observeEscape]
    repeat' split
    all_goals exact { h with }

theorem valid_of_mem_tokens {data : Bytes} : ∀ token ∈ tokens data, token.Valid :=
  modeScanner.forall_mem_scan
    (fun data token rest h => (ModeToken.code_of_read data token rest h).1) data

/-- The modes after an output are readable. -/
theorem Readable.after (h : Readable modes) (data : Bytes) : Readable (modes.after data) := by
  unfold ModeState.after
  have hvalid : ∀ token ∈ tokens data, token.Valid := valid_of_mem_tokens
  generalize tokens data = list at hvalid
  induction list generalizing modes with
  | nil => exact h
  | cons token tokens ih =>
    obtain ⟨htoken, htokens⟩ := List.forall_mem_cons.mp hvalid
    exact ih (h.apply htoken) htokens

theorem Same.after (h : Same view a b) (data : Bytes) : Same view (a.after data) (b.after data) :=
  h.foldl (fun h token => h.apply token) _

/-- Escape sequences one behind the other are read as they stand. -/
theorem tokens_flatMap {list : List ModeToken} (h : ∀ token ∈ list, token.Valid) :
    tokens (list.flatMap ModeToken.code) = list := by
  unfold tokens
  rw [modeScanner.scan_flatMap list fun token htoken rest =>
    ModeToken.read_code token rest (h token htoken)]

theorem after_flatMap {list : List ModeToken} (h : ∀ token ∈ list, token.Valid)
    (modes : ModeState) : modes.after (list.flatMap ModeToken.code) = list.foldl apply modes := by
  rw [ModeState.after, tokens_flatMap h]

theorem outside_flatMap {list : List ModeToken} (h : ∀ token ∈ list, token.Valid) :
    Outside (list.flatMap ModeToken.code) :=
  congrArg Prod.snd (modeScanner.scan_flatMap list fun token htoken rest =>
    ModeToken.read_code token rest (h token htoken))

theorem observe_of_outside {data : Bytes} (hpending : modes.pending = []) (h : Outside data) :
    modes.observe data = modes.after data := by
  have hsame : ({ modes with pending := [] } : ModeState) = modes := by rw [← hpending]
  unfold observe ModeState.after tokens
  rw [hpending, hsame, List.nil_append, scan_eq]
  exact if_pos h

end ModeState

end AgentCockpit.Mux
