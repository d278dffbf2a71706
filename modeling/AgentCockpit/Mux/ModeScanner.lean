import AgentCockpit.Core.Scanner
import AgentCockpit.Mux.Modes

/-!
# The escape scanner of the tracked modes

`observe` folds the tracked modes over the escape sequences of its input. Its loop is that of a
scanner: what stands at the start of the input is a plain byte, a CSI or OSC sequence or a two-byte
escape, or the start of one of these, which is kept for the next read. No more than a bounded part
of it is kept, so the modes do not depend on where reads end as long as no sequence is longer.

## Main results

* `observe_chunks` — **the modes do not depend on where reads end**
-/

namespace AgentCockpit.Mux

open AgentCockpit.Core ModeState

/-- A plain byte, or an escape sequence; of an OSC sequence the terminator is kept. -/
inductive ModeToken
  | text (byte : UInt8)
  | csi (params : Bytes) (final : UInt8)
  | osc (payload terminator : Bytes)
  | escape (kind : UInt8)
  deriving DecidableEq

namespace ModeToken

/-! ### The terminator of an OSC sequence -/

/-- The length of the terminator that an OSC payload ends with. -/
def terminator (body : Bytes) (stop : ℕ) : ℕ :=
  if body[stop]? = some bel then 1 else 2

variable {body more : Bytes} {stop : ℕ}

theorem terminator_cons (byte : UInt8) : terminator (byte :: body) (stop + 1) =
    terminator body stop := rfl

/-- The terminator stands within the input. -/
theorem oscEnd_le (h : oscEnd body = some stop) :
    stop + terminator body stop ≤ body.length := by
  induction body generalizing stop with
  | nil => exact nomatch h
  | cons byte body ih =>
    rw [oscEnd] at h
    split at h
    · next hbel =>
      obtain rfl := Option.some.inj h
      simp [terminator, hbel]
    · split at h
      · next hesc =>
        obtain rfl := Option.some.inj h
        cases body with
        | nil => exact nomatch hesc.2
        | cons next body =>
          rw [terminator]
          split <;> simp
      · obtain ⟨stop, hstop, rfl⟩ := Option.map_eq_some_iff.mp h
        have hle := ih hstop
        rw [terminator_cons, List.length_cons]
        omega

/-- The terminator is a bell or the string terminator. -/
theorem oscEnd_terminator (h : oscEnd body = some stop) :
    (body.drop stop).take (terminator body stop) = [bel] ∨
      (body.drop stop).take (terminator body stop) = [esc, 0x5c] := by
  induction body generalizing stop with
  | nil => exact nomatch h
  | cons byte body ih =>
    rw [oscEnd] at h
    split at h
    · next hbel =>
      obtain rfl := Option.some.inj h
      exact .inl (by simp [terminator, hbel])
    · next hbel =>
      split at h
      · next hesc =>
        obtain rfl := Option.some.inj h
        obtain ⟨rfl, hnext⟩ := hesc
        have hnonempty : body ≠ [] := by rintro rfl; exact nomatch hnext
        obtain ⟨next, body, rfl⟩ := List.exists_cons_of_ne_nil hnonempty
        obtain rfl : next = 0x5c := Option.some.inj hnext
        exact .inr (by simp [terminator, hbel])
      · obtain ⟨stop, hstop, rfl⟩ := Option.map_eq_some_iff.mp h
        rw [List.drop_succ_cons, terminator_cons]
        exact ih hstop

/-- Further input does not move a terminator. -/
theorem oscEnd_append (h : oscEnd body = some stop) (more : Bytes) :
    oscEnd (body ++ more) = some stop := by
  induction body generalizing stop with
  | nil => exact nomatch h
  | cons byte body ih =>
    rw [oscEnd] at h
    rw [List.cons_append, oscEnd]
    cases body with
    | nil =>
      split at h
      · next hbel => rw [if_pos hbel, h]
      · split at h
        · next hesc => exact nomatch hesc.2
        · exact nomatch h
    | cons next body =>
      rw [List.cons_append, List.head?_cons]
      rw [List.head?_cons] at h
      split at h
      · next hbel => rw [if_pos hbel, h]
      · next hbel =>
        rw [if_neg hbel]
        split at h
        · next hesc => rw [if_pos hesc, h]
        · next hesc =>
          rw [if_neg hesc]
          obtain ⟨stop, hstop, rfl⟩ := Option.map_eq_some_iff.mp h
          exact Option.map_eq_some_iff.mpr ⟨stop, ih hstop, rfl⟩

/-- A terminator that stands within the first part of an input is found there. -/
theorem oscEnd_of_append (more : Bytes) (h : oscEnd (body ++ more) = some stop)
    (hle : stop + terminator (body ++ more) stop ≤ body.length) :
    oscEnd body = some stop := by
  induction body generalizing stop with
  | nil =>
    rw [terminator] at hle
    split at hle <;> simp at hle
  | cons byte body ih =>
    rw [List.cons_append, oscEnd] at h
    rw [oscEnd]
    split at h
    · next hbel => rw [if_pos hbel, h]
    · next hbel =>
      rw [if_neg hbel]
      split at h
      · next hesc =>
        obtain rfl := Option.some.inj h
        have hterminator : terminator (byte :: (body ++ more)) 0 = 2 := by
          simp [terminator, hbel]
        rw [List.cons_append, hterminator] at hle
        cases body with
        | nil => simp at hle
        | cons next body =>
          rw [List.cons_append, List.head?_cons] at hesc
          rw [List.head?_cons, if_pos hesc]
      · next hesc =>
        obtain ⟨stop, hstop, rfl⟩ := Option.map_eq_some_iff.mp h
        rw [List.cons_append, terminator_cons, List.length_cons] at hle
        have hfound := ih hstop (by omega)
        have hnonempty : body ≠ [] := by rintro rfl; exact nomatch hfound
        obtain ⟨next, body, rfl⟩ := List.exists_cons_of_ne_nil hnonempty
        rw [List.cons_append, List.head?_cons] at hesc
        rw [List.head?_cons, if_neg hesc, hfound]
        rfl

/-! ### Tokens -/

/-- The bytes of a CSI sequence in front of its final byte. -/
def csiParams (body : Bytes) : Bytes := body.takeWhile fun byte => ¬ isFinal byte

/-- The token at the start of an input. -/
def read : Bytes → Option (ModeToken × Bytes)
  | [] => none
  | byte :: rest =>
    if byte ≠ esc then some (.text byte, rest)
    else
      match rest with
      | [] => none
      | kind :: body =>
        if kind = 0x5b then
          match body.drop (csiParams body).length with
          | [] => none
          | final :: tail => some (.csi (csiParams body) final, tail)
        else if kind = 0x5d then
          (oscEnd body).map fun stop =>
            (.osc (body.take stop) ((body.drop stop).take (terminator body stop)),
              body.drop (stop + terminator body stop))
        else some (.escape kind, body)

/-- The bytes of a token. -/
def code : ModeToken → Bytes
  | .text byte => [byte]
  | .csi params final => esc :: 0x5b :: (params ++ [final])
  | .osc payload terminator => esc :: 0x5d :: (payload ++ terminator)
  | .escape kind => [esc, kind]

/-- The tokens that stand for their bytes. -/
def Valid : ModeToken → Prop
  | .text byte => byte ≠ esc
  | .csi params final => (∀ byte ∈ params, isFinal byte = false) ∧ isFinal final = true
  | .osc payload terminator =>
    (terminator = [bel] ∨ terminator = [esc, 0x5c]) ∧
      oscEnd (payload ++ terminator) = some payload.length
  | .escape kind => kind ≠ 0x5b ∧ kind ≠ 0x5d

variable {token : ModeToken} {data rest params payload : Bytes} {final : UInt8}

theorem csiParams_append (hparams : ∀ byte ∈ params, isFinal byte = false)
    (hfinal : isFinal final = true) (rest : Bytes) :
    csiParams (params ++ final :: rest) = params := by
  induction params with
  | nil => simp [csiParams, hfinal]
  | cons byte params ih =>
    have hbyte := hparams byte List.mem_cons_self
    have hrest := ih fun byte hbyte => hparams byte (List.mem_cons_of_mem _ hbyte)
    unfold csiParams at hrest ⊢
    rw [List.cons_append, List.takeWhile_cons_of_pos (by simp [hbyte]), hrest]

/-- What stands behind the parameters begins with a final byte. -/
theorem csiParams_drop (h : body.drop (csiParams body).length = final :: rest) :
    body = csiParams body ++ final :: rest ∧ isFinal final = true ∧
      ∀ byte ∈ csiParams body, isFinal byte = false := by
  have hsplit : csiParams body ++ body.dropWhile (fun byte => ¬ isFinal byte) = body :=
    List.takeWhile_append_dropWhile
  have hbehind : body.dropWhile (fun byte => ¬ isFinal byte) = final :: rest := by
    have hdrop := congrArg (List.drop (csiParams body).length) hsplit
    rw [List.drop_left] at hdrop
    exact hdrop.trans h
  refine ⟨by rw [← hbehind, hsplit], ?_, fun byte hbyte => ?_⟩
  · have hhead := List.head?_dropWhile_not (fun byte => ¬ isFinal byte) body
    rw [hbehind] at hhead
    simpa using hhead
  · simpa using List.mem_takeWhile_imp hbyte

theorem length_terminator (payload terminator rest : Bytes)
    (h : terminator = [bel] ∨ terminator = [esc, 0x5c]) :
    ModeToken.terminator (payload ++ terminator ++ rest) payload.length = terminator.length := by
  rw [List.append_assoc, ModeToken.terminator]
  rcases h with rfl | rfl
  · simp
  · simp [esc, bel]

/-- A token is read back from its bytes, whatever follows. -/
theorem read_code (token : ModeToken) (rest : Bytes) (h : token.Valid) :
    read (token.code ++ rest) = some (token, rest) := by
  cases token with
  | text byte => simp [code, read, show byte ≠ esc from h]
  | csi params final =>
    obtain ⟨hparams, hfinal⟩ := h
    have hsame := csiParams_append hparams hfinal rest
    simp [code, read, hsame]
  | osc payload terminator =>
    obtain ⟨hterminator, hend⟩ := h
    have hfound := oscEnd_append hend rest
    have hlength := length_terminator payload terminator rest hterminator
    simp only [code, List.cons_append, read, ne_eq, not_true_eq_false, if_false]
    rw [if_neg (by decide), if_true, hfound, Option.map_some, hlength]
    simp [List.append_assoc]
  | escape kind => simp [code, read, h.1, h.2]

theorem code_of_read (data : Bytes) (token : ModeToken) (rest : Bytes)
    (h : read data = some (token, rest)) : token.Valid ∧ data = token.code ++ rest := by
  cases data with
  | nil => cases h
  | cons byte data =>
    unfold read at h
    dsimp only at h
    split at h
    · next hbyte =>
      obtain ⟨rfl, rfl⟩ := Prod.mk.inj (Option.some.inj h)
      exact ⟨hbyte, rfl⟩
    · next hbyte =>
      obtain rfl : byte = esc := not_not.mp hbyte
      cases data with
      | nil => cases h
      | cons kind body =>
        dsimp only at h
        split at h
        · next hkind =>
          split at h
          · cases h
          · next final tail hdrop =>
            obtain ⟨rfl, rfl⟩ := Prod.mk.inj (Option.some.inj h)
            obtain ⟨hbody, hfinal, hparams⟩ := csiParams_drop hdrop
            refine ⟨⟨hparams, hfinal⟩, ?_⟩
            simp only [code, List.cons_append, List.append_assoc, List.nil_append, ← hbody, hkind]
        · next hcsi =>
          split at h
          · next hkind =>
            obtain ⟨stop, hstop, hpair⟩ := Option.map_eq_some_iff.mp h
            obtain ⟨rfl, rfl⟩ := Prod.mk.inj hpair
            have hle := oscEnd_le hstop
            have htake : (body.take stop).length = stop := by
              rw [List.length_take]
              omega
            have hbody : body.take stop ++ (body.drop stop).take (terminator body stop) ++
                body.drop (stop + terminator body stop) = body := by
              rw [← List.drop_drop, List.append_assoc, List.take_append_drop,
                List.take_append_drop]
            refine ⟨⟨oscEnd_terminator hstop, ?_⟩, ?_⟩
            · rw [htake]
              refine oscEnd_of_append (body.drop (stop + terminator body stop)) ?_ ?_
              · rw [hbody, hstop]
              · rw [hbody, List.length_append, htake, List.length_take, List.length_drop]
                omega
            · simp only [code, List.cons_append, hbody, hkind]
          · next hosc =>
            obtain ⟨rfl, rfl⟩ := Prod.mk.inj (Option.some.inj h)
            exact ⟨⟨hcsi, hosc⟩, rfl⟩

theorem code_ne_nil (token : ModeToken) : token.code ≠ [] := by
  cases token <;> exact nofun

end ModeToken

/-- The scanner of the escape sequences of raw PTY output. -/
def modeScanner : Scanner UInt8 ModeToken :=
  .ofCode ModeToken.read ModeToken.code ModeToken.Valid (fun token _ => token.code_ne_nil)
    ModeToken.read_code ModeToken.code_of_read

namespace ModeState

/-! ### Observations -/

/-- What an escape sequence does to the modes. -/
def apply (modes : ModeState) : ModeToken → ModeState
  | .text _ => modes
  | .csi params final => modes.observeCSI params final
  | .osc payload _ => modes.observeOSC payload
  | .escape kind => modes.observeEscape kind

variable (modes : ModeState) (pending : Bytes)

theorem popKitty_pending (count : ℕ) :
    popKitty { modes with pending } count = { popKitty modes count with pending } := by
  induction count generalizing modes with
  | zero => rfl
  | succ count ih =>
    simp only [popKitty]
    split
    · rfl
    · next flags _ =>
      exact ih { modes with kittyFlags := flags, kittyStack := modes.kittyStack.dropLast }

theorem setPrivate_pending (mode : ℤ) (enabled : Bool) :
    setPrivate { modes with pending } mode enabled =
      { setPrivate modes mode enabled with pending } := by
  simp only [setPrivate]
  split
  · rfl
  · split <;> rfl

theorem foldl_pending {β : Type*} {f : ModeState → β → ModeState}
    (hf : ∀ modes item, f { modes with pending } item = { f modes item with pending })
    (items : List β) :
    items.foldl f { modes with pending } = { items.foldl f modes with pending } := by
  induction items generalizing modes with
  | nil => rfl
  | cons item items ih => rw [List.foldl_cons, List.foldl_cons, hf, ih]

theorem observeKittyKeyboard_pending (params : Bytes) :
    observeKittyKeyboard { modes with pending } params =
      { observeKittyKeyboard modes params with pending } := by
  unfold observeKittyKeyboard
  split
  · rfl
  · split
    · rfl
    · split
      · rfl
      · split
        · exact popKitty_pending modes pending _
        · rfl

theorem observeCSI_pending (params : Bytes) (final : UInt8) :
    observeCSI { modes with pending } params final =
      { observeCSI modes params final with pending } := by
  unfold observeCSI
  dsimp only
  split
  · exact observeKittyKeyboard_pending modes pending params
  · split
    · rfl
    · split
      · rfl
      · split
        · rfl
        · split
          · refine foldl_pending modes pending (fun modes parameter => ?_) _
            split
            · exact setPrivate_pending modes pending _ _
            · rfl
          · refine foldl_pending modes pending (fun modes parameter => ?_) _
            split <;> rfl

/-- The bytes that are kept do not matter to an escape sequence. -/
theorem apply_pending (token : ModeToken) :
    apply { modes with pending } token = { apply modes token with pending } := by
  cases token with
  | text byte => rfl
  | csi params final => exact observeCSI_pending modes pending params final
  | osc payload terminator =>
    simp only [apply, observeOSC]
    split
    · rfl
    · split <;> rfl
  | escape kind =>
    simp only [apply, observeEscape]
    split
    · rfl
    · split
      · rfl
      · split
        · rfl
        · split <;> rfl

variable {modes pending} {data rest : Bytes} {token : ModeToken}

/-- The loop takes a token at a time. -/
theorem scan_of_read (h : ModeToken.read data = some (token, rest)) :
    scan modes data = scan (modes.apply token) rest := by
  cases data with
  | nil => cases h
  | cons byte data =>
    unfold ModeToken.read at h
    rw [scan.eq_def]
    dsimp only at h ⊢
    split at h
    · next hbyte =>
      obtain ⟨rfl, rfl⟩ := Prod.mk.inj (Option.some.inj h)
      rw [if_pos hbyte]
      rfl
    · next hbyte =>
      rw [if_neg hbyte]
      cases data with
      | nil => cases h
      | cons kind body =>
        dsimp only at h ⊢
        split at h
        · next hkind =>
          rw [if_pos hkind]
          split at h
          · cases h
          · next final tail hdrop =>
            obtain ⟨rfl, rfl⟩ := Prod.mk.inj (Option.some.inj h)
            split
            · next hnone => cases hnone.symm.trans hdrop
            · next final' tail' hdrop' =>
              obtain ⟨rfl, rfl⟩ := List.cons.inj (hdrop'.symm.trans hdrop)
              rfl
        · next hcsi =>
          rw [if_neg hcsi]
          split at h
          · next hkind =>
            obtain ⟨stop, hstop, hpair⟩ := Option.map_eq_some_iff.mp h
            obtain ⟨rfl, rfl⟩ := Prod.mk.inj hpair
            rw [if_pos hkind, hstop]
            rfl
          · next hosc =>
            obtain ⟨rfl, rfl⟩ := Prod.mk.inj (Option.some.inj h)
            rw [if_neg hosc]
            rfl

/-- The loop keeps the start of a token. -/
theorem scan_of_read_none (h : ModeToken.read data = none) :
    scan modes data = if data = [] then modes else modes.keepPending data := by
  cases data with
  | nil => rw [scan.eq_def, if_pos rfl]
  | cons byte data =>
    rw [if_neg (List.cons_ne_nil byte data)]
    unfold ModeToken.read at h
    rw [scan.eq_def]
    dsimp only at h ⊢
    split at h
    · cases h
    · next hbyte =>
      rw [if_neg hbyte]
      cases data with
      | nil => simp [keepPending, maxPendingBytes]
      | cons kind body =>
        dsimp only at h ⊢
        split at h
        · next hkind =>
          rw [if_pos hkind]
          split at h
          · next hdrop =>
            split
            · rfl
            · next final tail hdrop' => cases hdrop'.symm.trans hdrop
          · cases h
        · next hcsi =>
          rw [if_neg hcsi]
          split at h
          · next hkind => rw [if_pos hkind, Option.map_eq_none_iff.mp h]
          · cases h

/-- The loop folds over the tokens, and keeps what is left. -/
theorem scan_eq (modes : ModeState) (data : Bytes) :
    scan modes data =
      if (modeScanner.scan data).2 = [] then (modeScanner.scan data).1.foldl apply modes
      else
        ((modeScanner.scan data).1.foldl apply modes).keepPending (modeScanner.scan data).2 := by
  induction data using Scanner.scan.induct modeScanner generalizing modes with
  | case1 data h =>
    rw [modeScanner.scan_of_none h]
    exact scan_of_read_none h
  | case2 data token rest h ih =>
    rw [modeScanner.scan_of_some h, scan_of_read h, ih, List.foldl_cons]

/-- The modes with the bytes that are kept, as a feed of the scanner carries them. -/
def carried (modes : ModeState) : ModeState × Bytes := ({ modes with pending := [] }, modes.pending)

/-- **`observe` is a fold over escape sequences**, carrying the start of one. -/
theorem carried_observe (modes : ModeState) (data : Bytes) :
    (modes.observe data).carried =
      modeScanner.feed apply maxPendingBytes modes.carried data := by
  have hfold := foldl_pending modes [] (fun modes token => apply_pending modes [] token)
    (modeScanner.scan (modes.pending ++ data)).1
  unfold observe carried Scanner.feed
  dsimp only
  rw [scan_eq]
  split
  · next hleft => rw [hleft, hfold, List.drop_nil]
  · rw [hfold, keepPending]

theorem carried_injective : Function.Injective carried := fun _ _ h =>
  congrArg (fun pair : ModeState × Bytes => { pair.1 with pending := pair.2 }) h

/-- The bytes that are kept are the start of a token. -/
def Settled (modes : ModeState) : Prop := modeScanner.next modes.pending = none

end ModeState

/-- No escape sequence of an output, nor an unfinished one at its end, is longer than 16 KiB. -/
def ShortSequences (data : Bytes) : Prop := modeScanner.Within maxPendingBytes data

/-- **The modes do not depend on where reads end**, if no escape sequence is longer than 16 KiB. -/
theorem observe_chunks {modes : ModeState} {chunks : List Bytes} (hsettled : modes.Settled)
    (hshort : ShortSequences (modes.pending ++ chunks.flatten)) :
    chunks.foldl observe modes = modes.observe chunks.flatten := by
  apply carried_injective
  have hfold : (chunks.foldl observe modes).carried =
      chunks.foldl (modeScanner.feed apply maxPendingBytes) modes.carried := by
    clear hsettled hshort
    induction chunks generalizing modes with
    | nil => rfl
    | cons chunk chunks ih => rw [List.foldl_cons, List.foldl_cons, ih, carried_observe]
  rw [hfold, carried_observe]
  have hcarried : modeScanner.next modes.carried.2 = none := hsettled
  exact modeScanner.foldl_feed hcarried chunks hshort

/-- A title in two pieces, cut within its terminator. -/
theorem observe_chunks_title :
    ([ascii "\x1b]2;build\x1b", ascii "\\done"].foldl observe {}).title = ascii "build" := by
  have hsettled : ({} : ModeState).Settled := modeScanner.next_nil
  rw [observe_chunks hsettled (modeScanner.within_of_length_le (by decide))]
  simp [observe, scan, oscEnd, observeOSC, ascii, esc, bel]

end AgentCockpit.Mux
