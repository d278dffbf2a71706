import Mathlib.Data.List.Infix

/-!
# Incremental scanners

A scanner takes the token that stands at the start of its input, or waits for more input. What has
been read of a stream is a list of tokens and the input that is left, and neither depends on how the
stream was cut: the input left behind one piece is scanned again in front of the next. A feed that
carries only a bounded part of it from one piece to the next does the same on streams all of whose
tokens are within the bound.
-/

namespace AgentCockpit.Core

/-- A scanner: `next` takes the token at the start of an input, and gives what follows it. Further
input does not change a token, and one that ends before it is taken without it. -/
structure Scanner (α τ : Type*) where
  next : List α → Option (τ × List α)
  suffix : ∀ {data token rest}, next data = some (token, rest) → rest <:+ data
  shorter : ∀ {data token rest}, next data = some (token, rest) → rest.length < data.length
  extend : ∀ {data token rest} more, next data = some (token, rest) →
    next (data ++ more) = some (token, rest ++ more)
  determined : ∀ {data token rest more}, next (data ++ more) = some (token, rest ++ more) →
    next data = some (token, rest)

namespace Scanner

variable {α τ σ : Type*} (S : Scanner α τ) {data more left : List α} {token : τ} {n : ℕ}

/-- The tokens of an input, and what is left of it. -/
def scan (data : List α) : List τ × List α :=
  match _h : S.next data with
  | none => ([], data)
  | some (token, rest) => (token :: (scan rest).1, (scan rest).2)
termination_by data.length
decreasing_by
  all_goals exact S.shorter _h

theorem scan_of_none (h : S.next data = none) : S.scan data = ([], data) := by
  rw [scan]
  split
  · rfl
  · next token rest hnext => exact nomatch h.symm.trans hnext

theorem scan_of_some (h : S.next data = some (token, left)) :
    S.scan data = (token :: (S.scan left).1, (S.scan left).2) := by
  rw [scan]
  split
  · next hnext => exact nomatch h.symm.trans hnext
  · next token' rest hnext =>
    obtain ⟨rfl, rfl⟩ := Prod.mk.inj (Option.some.inj (h.symm.trans hnext))
    rfl

/-- Nothing is left of an input but the start of a token. -/
theorem next_left (data : List α) : S.next (S.scan data).2 = none := by
  induction data using scan.induct S with
  | case1 data h => rw [S.scan_of_none h, h]
  | case2 data token rest h ih => rw [S.scan_of_some h]; exact ih

theorem next_nil : S.next [] = none := by
  cases h : S.next [] with
  | none => rfl
  | some pair => exact absurd (S.shorter h) (Nat.not_lt_zero _)

theorem scan_nil : S.scan [] = ([], []) := S.scan_of_none S.next_nil

/-- **A stream may be cut anywhere.** What is left of the first piece is scanned again in front of
the second. -/
theorem scan_append (data more : List α) :
    S.scan (data ++ more) =
      ((S.scan data).1 ++ (S.scan ((S.scan data).2 ++ more)).1,
        (S.scan ((S.scan data).2 ++ more)).2) := by
  induction data using scan.induct S with
  | case1 data h => rw [S.scan_of_none h, List.nil_append]
  | case2 data token rest h ih => rw [S.scan_of_some h, S.scan_of_some (S.extend more h), ih]; rfl

/-- A stream that was cut between two tokens. -/
theorem scan_append_of_left (h : (S.scan data).2 = []) (more : List α) :
    S.scan (data ++ more) = ((S.scan data).1 ++ (S.scan more).1, (S.scan more).2) := by
  rw [scan_append, h, List.nil_append]

/-- What holds of every token that is read holds of the tokens of an input. -/
theorem forall_mem_scan {p : τ → Prop}
    (h : ∀ data token rest, S.next data = some (token, rest) → p token) (data : List α) :
    ∀ token ∈ (S.scan data).1, p token := by
  induction data using scan.induct S with
  | case1 data hnext => rw [S.scan_of_none hnext]; exact nofun
  | case2 data token rest hnext ih =>
    rw [S.scan_of_some hnext]
    exact List.forall_mem_cons.mpr ⟨h data token rest hnext, ih⟩

/-- Texts of tokens that are read back, one behind the other. -/
theorem scan_flatMap {code : τ → List α} (tokens : List τ)
    (h : ∀ token ∈ tokens, ∀ rest, S.next (code token ++ rest) = some (token, rest)) :
    S.scan (tokens.flatMap code) = (tokens, []) := by
  induction tokens with
  | nil => exact S.scan_nil
  | cons token tokens ih =>
    obtain ⟨htoken, htokens⟩ := List.forall_mem_cons.mp h
    rw [List.flatMap_cons, S.scan_of_some (htoken _), ih htokens]

/-- No token of an input, nor what is left of it, is longer than `n`. -/
def Within (n : ℕ) (data : List α) : Prop :=
  match _h : S.next data with
  | none => data.length ≤ n
  | some (_, rest) => data.length ≤ rest.length + n ∧ Within n rest
termination_by data.length
decreasing_by exact S.shorter _h

theorem within_of_none (h : S.next data = none) : S.Within n data ↔ data.length ≤ n := by
  rw [Within]
  split
  · rfl
  · next token rest hnext => exact nomatch h.symm.trans hnext

theorem within_of_some (h : S.next data = some (token, left)) :
    S.Within n data ↔ data.length ≤ left.length + n ∧ S.Within n left := by
  rw [Within]
  split
  · next hnext => exact nomatch h.symm.trans hnext
  · next token' rest hnext =>
    obtain ⟨rfl, rfl⟩ := Prod.mk.inj (Option.some.inj (h.symm.trans hnext))
    rfl

/-- An input that is short as a whole. -/
theorem within_of_length_le (h : data.length ≤ n) : S.Within n data := by
  induction data using scan.induct S with
  | case1 data hnext => exact (S.within_of_none hnext).mpr h
  | case2 data token rest hnext ih =>
    have hshorter := S.shorter hnext
    exact (S.within_of_some hnext).mpr ⟨by omega, ih (by omega)⟩

/-- A token of a longer input that has not ended in the shorter one goes beyond it. -/
theorem length_le_of_extends {rest : List α} (hnext : S.next data = none)
    (hmore : S.next (data ++ more) = some (token, rest)) : rest.length ≤ more.length := by
  by_contra hlonger
  have hsuffix : more <:+ rest :=
    List.suffix_of_suffix_length_le (List.suffix_append data more) (S.suffix hmore) (by omega)
  obtain ⟨start, rfl⟩ := hsuffix
  exact nomatch hnext.symm.trans (S.determined hmore)

/-- What is left of a first piece is within the bound of the whole, and so is the rest. -/
theorem within_append (h : S.Within n (data ++ more)) :
    (S.scan data).2.length ≤ n ∧ S.Within n ((S.scan data).2 ++ more) := by
  induction data using scan.induct S with
  | case1 data hnext =>
    rw [S.scan_of_none hnext]
    refine ⟨?_, h⟩
    cases hmore : S.next (data ++ more) with
    | none =>
      have hlength := (S.within_of_none hmore).mp h
      rw [List.length_append] at hlength
      exact (Nat.le_add_right _ _).trans hlength
    | some pair =>
      obtain ⟨token, rest⟩ := pair
      have hlength := ((S.within_of_some hmore).mp h).1
      have hrest := S.length_le_of_extends hnext hmore
      rw [List.length_append] at hlength
      dsimp only at hlength ⊢
      omega
  | case2 data token rest hnext ih =>
    rw [S.scan_of_some hnext]
    exact ih ((S.within_of_some (S.extend more hnext)).mp h).2

/-! ### Tokens with texts -/

/-- The scanner of tokens that are read back from their texts, whatever follows. -/
def ofCode (read : List α → Option (τ × List α)) (code : τ → List α) (Valid : τ → Prop)
    (hne : ∀ token, Valid token → code token ≠ [])
    (hread : ∀ token rest, Valid token → read (code token ++ rest) = some (token, rest))
    (hcode : ∀ data token rest, read data = some (token, rest) →
      Valid token ∧ data = code token ++ rest) : Scanner α τ where
  next := read
  suffix h := (hcode _ _ _ h).2 ▸ List.suffix_append _ _
  shorter h := by
    obtain ⟨hvalid, rfl⟩ := hcode _ _ _ h
    have hpos := List.length_pos_iff.mpr (hne _ hvalid)
    rw [List.length_append]
    omega
  extend more h := by
    obtain ⟨hvalid, rfl⟩ := hcode _ _ _ h
    rw [List.append_assoc]
    exact hread _ _ hvalid
  determined h := by
    obtain ⟨hvalid, hdata⟩ := hcode _ _ _ h
    rw [← List.append_assoc] at hdata
    rw [List.append_cancel_right hdata]
    exact hread _ _ hvalid

/-! ### Feeds -/

/-- Fold over the tokens of a piece; at most the last `n` of what is left are carried to the
next. -/
def feed (apply : σ → τ → σ) (n : ℕ) (carried : σ × List α) (data : List α) : σ × List α :=
  let scanned := S.scan (carried.2 ++ data)
  (scanned.1.foldl apply carried.1, scanned.2.drop (scanned.2.length - n))

variable {apply : σ → τ → σ} {carried : σ × List α}

/-- A first piece of a stream within the bound is carried as a whole. -/
theorem feed_eq (h : S.Within n (carried.2 ++ data ++ more)) :
    S.feed apply n carried data =
      ((S.scan (carried.2 ++ data)).1.foldl apply carried.1, (S.scan (carried.2 ++ data)).2) := by
  unfold feed
  dsimp only
  rw [Nat.sub_eq_zero_of_le (S.within_append h).1, List.drop_zero]

theorem feed_append (h : S.Within n (carried.2 ++ data ++ more)) :
    S.feed apply n (S.feed apply n carried data) more = S.feed apply n carried (data ++ more) := by
  rw [S.feed_eq h, feed, feed]
  dsimp only
  rw [← List.append_assoc, S.scan_append (carried.2 ++ data) more, List.foldl_append]

/-- **A feed may be cut anywhere** if the stream is within the bound. -/
theorem foldl_feed (hcarried : S.next carried.2 = none) (pieces : List (List α))
    (h : S.Within n (carried.2 ++ pieces.flatten)) :
    pieces.foldl (S.feed apply n) carried = S.feed apply n carried pieces.flatten := by
  induction pieces generalizing carried with
  | nil =>
    rw [List.flatten_nil, List.append_nil] at h
    have hlength := (S.within_of_none hcarried).mp h
    rw [List.foldl_nil, List.flatten_nil, feed, List.append_nil, S.scan_of_none hcarried]
    dsimp only
    rw [Nat.sub_eq_zero_of_le hlength]
    rfl
  | cons piece pieces ih =>
    rw [List.flatten_cons, ← List.append_assoc] at h
    have hfed : S.feed apply n carried piece = _ := S.feed_eq h
    rw [List.foldl_cons, List.flatten_cons, ih, S.feed_append h]
    · rw [hfed]
      exact S.next_left _
    · rw [hfed]
      exact (S.within_append h).2

end Scanner

end AgentCockpit.Core
