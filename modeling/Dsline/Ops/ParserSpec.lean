import Dsline.Ops.Parser
import Mathlib.Data.List.Infix
/-!
# What the parser returns

A parser takes tokens off the front, at least one, and the leaves of the
expression it returns are tokens it saw. So the rounds of a loop and the
depth of the descent that the model allows are enough.
-/

namespace Dsline

open Outcome

variable {F : Type} [F64 F] {u : Unicode}

/-- The leaves of an expression come from tokens: a literal is what a token
parses to, a column is a token that is an identifier and no number. -/
def Expr.LeavesFrom (u : Unicode) (tokens : List Text) : Expr F → Prop
  | .literal v => ∃ tok ∈ tokens, parseF64 tok = some v
  | .column name =>
      name ∈ tokens ∧ parseF64 (F := F) name = none ∧ isIdent u name ∧ name ≠ notText
  | .binary lhs _ rhs => lhs.LeavesFrom u tokens ∧ rhs.LeavesFrom u tokens
  | .unary _ inner => inner.LeavesFrom u tokens

theorem Expr.LeavesFrom.mono {tokens tokens' : List Text} {e : Expr F}
    (h : e.LeavesFrom u tokens) (hsub : tokens ⊆ tokens') : e.LeavesFrom u tokens' := by
  induction e with
  | literal v =>
      obtain ⟨tok, htok, hv⟩ := h
      exact ⟨tok, hsub htok, hv⟩
  | column name => exact ⟨hsub h.1, h.2⟩
  | binary lhs op rhs ihl ihr => exact ⟨ihl h.1, ihr h.2⟩
  | unary op inner ih => exact ih h

/-- What a parser returned for some tokens: an expression of their leaves,
and fewer tokens. -/
structure Took (u : Unicode) (tokens : List Text) (e : Expr F) (rest : List Text) : Prop where
  suffix : rest <:+ tokens
  fewer : rest.length < tokens.length
  leaves : e.LeavesFrom u tokens

/-- A parser that takes tokens off the front. -/
def Takes (u : Unicode) (p : Parser F) : Prop :=
  ∀ tokens e rest, p tokens = .ok (e, rest) → Took u tokens e rest

theorem Took.cons {tok : Text} {tokens rest : List Text} {e e' : Expr F}
    (h : Took u tokens e rest) (he : e'.LeavesFrom u (tok :: tokens)) :
    Took u (tok :: tokens) e' rest :=
  ⟨h.suffix.trans (List.suffix_cons _ _), by
    have := h.fewer
    rw [List.length_cons]
    omega, he⟩

theorem expect_eq_ok {expected : Text} {tokens rest : List Text} :
    expect expected tokens = .ok rest ↔ tokens = expected :: rest := by
  cases tokens with
  | nil => simp [expect]
  | cons tok tokens =>
      rw [expect]
      split
      · rename_i htok
        rw [Except.ok.injEq, List.cons.injEq]
        exact ⟨fun h => ⟨htok, h⟩, fun h => h.2⟩
      · rename_i htok
        simp [htok]

theorem parseAtom_took {all : Parser F} (hall : Takes u all) {tokens rest : List Text}
    {e : Expr F} (hnot : tokens.head? ≠ some notText) (h : parseAtom u all tokens = .ok (e, rest)) :
    Took u tokens e rest := by
  cases tokens with
  | nil => cases h
  | cons tok tokens =>
      rw [parseAtom] at h
      split at h
      · obtain ⟨⟨inner, tail⟩, hinner, h⟩ := bind_eq_ok.1 h
        obtain ⟨last, hexpect, h⟩ := bind_eq_ok.1 h
        obtain ⟨rfl, rfl⟩ := Prod.mk.inj (Except.ok.inj h)
        obtain rfl := expect_eq_ok.1 hexpect
        have htook := hall _ _ _ hinner
        refine ⟨((List.suffix_cons _ _).trans htook.suffix).trans (List.suffix_cons _ _), ?_,
          htook.leaves.mono (List.subset_cons_self _ _)⟩
        have := htook.fewer
        rw [List.length_cons] at this ⊢
        omega
      · split at h
        · rename_i num hnum
          obtain ⟨rfl, rfl⟩ := Prod.mk.inj (Except.ok.inj h)
          exact ⟨List.suffix_cons _ _, by simp, tok, List.mem_cons_self, hnum⟩
        · rename_i hnum
          split at h
          · rename_i hident
            obtain ⟨rfl, rfl⟩ := Prod.mk.inj (Except.ok.inj h)
            exact ⟨List.suffix_cons _ _, by simp, List.mem_cons_self, hnum, hident,
              fun hname => hnot (by rw [hname]; rfl)⟩
          · cases h

theorem parseUnary_takes {all : Parser F} (hall : Takes u all) : Takes u (parseUnary u all) := by
  intro tokens
  induction tokens with
  | nil =>
      intro e rest h
      cases h
  | cons tok tokens ih =>
      intro e rest h
      rw [parseUnary] at h
      split_ifs at h with hneg hnot
      · obtain ⟨⟨inner, tail⟩, hinner, h⟩ := bind_eq_ok.1 h
        obtain ⟨rfl, rfl⟩ := Prod.mk.inj (Except.ok.inj h)
        have htook := ih _ _ hinner
        exact htook.cons (htook.leaves.mono (List.subset_cons_self _ _))
      · obtain ⟨⟨inner, tail⟩, hinner, h⟩ := bind_eq_ok.1 h
        obtain ⟨rfl, rfl⟩ := Prod.mk.inj (Except.ok.inj h)
        have htook := ih _ _ hinner
        exact htook.cons (htook.leaves.mono (List.subset_cons_self _ _))
      · exact parseAtom_took hall (fun hhead => hnot (Option.some.inj hhead)) h

/-- A loop takes tokens off the front, and keeps the leaves it was given. -/
theorem chain_took {next : Parser F} {opOf : Text → Option BinOp} (hnext : Takes u next)
    {rounds : ℕ} {lhs e : Expr F} {all tokens rest : List Text}
    (hlhs : lhs.LeavesFrom u all) (hsub : tokens <:+ all)
    (h : chain next opOf rounds lhs tokens = .ok (e, rest)) :
    rest <:+ tokens ∧ e.LeavesFrom u all := by
  induction rounds generalizing lhs tokens with
  | zero =>
      cases tokens with
      | nil =>
          obtain ⟨rfl, rfl⟩ := Prod.mk.inj (Except.ok.inj h)
          exact ⟨List.suffix_rfl, hlhs⟩
      | cons tok tokens =>
          obtain ⟨rfl, rfl⟩ := Prod.mk.inj (Except.ok.inj h)
          exact ⟨List.suffix_rfl, hlhs⟩
  | succ rounds ih =>
      cases tokens with
      | nil =>
          obtain ⟨rfl, rfl⟩ := Prod.mk.inj (Except.ok.inj h)
          exact ⟨List.suffix_rfl, hlhs⟩
      | cons tok tokens =>
          rw [chain] at h
          split at h
          · obtain ⟨rfl, rfl⟩ := Prod.mk.inj (Except.ok.inj h)
            exact ⟨List.suffix_rfl, hlhs⟩
          · rename_i op hop
            -- its right operand takes tokens, and the loop goes on with the rest
            obtain ⟨⟨rhs, tail⟩, hrhs, h⟩ := bind_eq_ok.1 h
            have htook := hnext _ _ _ hrhs
            have htail : tail <:+ tok :: tokens := htook.suffix.trans (List.suffix_cons _ _)
            have hmem : tokens ⊆ all := ((List.suffix_cons _ _).trans hsub).subset
            have hboth : (Expr.binary lhs op rhs).LeavesFrom u all :=
              ⟨hlhs, htook.leaves.mono hmem⟩
            obtain ⟨hrest, he⟩ := ih hboth (htail.trans hsub) h
            exact ⟨hrest.trans htail, he⟩

theorem leftAssoc_takes {next : Parser F} {opOf : Text → Option BinOp} (hnext : Takes u next) :
    Takes u (leftAssoc next opOf) := by
  intro tokens e rest h
  obtain ⟨⟨lhs, tail⟩, hlhs, h⟩ := bind_eq_ok.1 h
  have htook := hnext _ _ _ hlhs
  obtain ⟨hrest, he⟩ := chain_took hnext htook.leaves htook.suffix h
  exact ⟨hrest.trans htook.suffix, lt_of_le_of_lt hrest.length_le htook.fewer, he⟩

theorem parseCmp_takes {all : Parser F} (hadd : Takes u (parseAdd u all)) :
    Takes u (parseCmp u all) := by
  intro tokens e rest h
  obtain ⟨⟨lhs, tail⟩, hlhs, h⟩ := bind_eq_ok.1 h
  have htook := hadd _ _ _ hlhs
  cases tail with
  | nil =>
      obtain ⟨rfl, rfl⟩ := Prod.mk.inj (Except.ok.inj h)
      exact htook
  | cons tok tail =>
      dsimp only at h
      split at h
      · obtain ⟨rfl, rfl⟩ := Prod.mk.inj (Except.ok.inj h)
        exact htook
      · obtain ⟨⟨rhs, last⟩, hrhs, h⟩ := bind_eq_ok.1 h
        obtain ⟨rfl, rfl⟩ := Prod.mk.inj (Except.ok.inj h)
        have htook' := hadd _ _ _ hrhs
        have htail : tail <:+ tokens := (List.suffix_cons _ _).trans htook.suffix
        exact ⟨htook'.suffix.trans htail, lt_of_lt_of_le htook'.fewer htail.length_le,
          htook.leaves, htook'.leaves.mono htail.subset⟩

/-- **Every level takes tokens off the front**, if the parser of what is in
parentheses does. -/
theorem parseAdd_takes {all : Parser F} (hall : Takes u all) : Takes u (parseAdd u all) :=
  leftAssoc_takes (leftAssoc_takes (parseUnary_takes hall))

theorem parseOr_takes {all : Parser F} (hall : Takes u all) : Takes u (parseOr u all) :=
  leftAssoc_takes (leftAssoc_takes (parseCmp_takes (parseAdd_takes hall)))

theorem parseAll_takes (depth : ℕ) : Takes u (parseAll (F := F) u depth) := by
  induction depth with
  | zero =>
      intro tokens e rest h
      cases h
  | succ depth ih => exact parseOr_takes ih

/-- **The leaves of a parsed expression are tokens of its source.** -/
theorem parseExpr_leaves {source : Text} {e : Expr F} (h : parseExpr u source = .ok e) :
    e.LeavesFrom u (tokenize u source) := by
  obtain ⟨⟨expr, rest⟩, hparse, h⟩ := bind_eq_ok.1 h
  dsimp only at h
  split_ifs at h
  obtain rfl := Except.ok.inj h
  exact (parseAll_takes _ _ _ _ hparse).leaves

/-! ## Rounds and depth -/

/-- More rounds than tokens make no difference to a loop. -/
theorem chain_rounds {next : Parser F} {opOf : Text → Option BinOp} (hnext : Takes u next)
    {rounds : ℕ} {lhs : Expr F} {tokens : List Text} (h : tokens.length ≤ rounds) :
    chain next opOf rounds lhs tokens = chain next opOf tokens.length lhs tokens := by
  induction hlen : tokens.length using Nat.strong_induction_on generalizing rounds lhs tokens with
  | h len ih =>
      cases tokens with
      | nil => cases rounds <;> cases len <;> rfl
      | cons tok tokens =>
          rw [List.length_cons] at h hlen
          obtain ⟨rounds, rfl⟩ := Nat.exists_eq_succ_of_ne_zero (by omega : rounds ≠ 0)
          subst hlen
          rw [Nat.succ_eq_add_one, chain, chain]
          cases hop : opOf tok with
          | none => rfl
          | some op =>
              dsimp only
              cases hrhs : next tokens with
              | error err => rfl
              | ok result =>
                  have hfewer := (hnext tokens result.1 result.2 hrhs).fewer
                  simp only [ok_bind]
                  -- the operand took tokens, so both counts of rounds still suffice for the rest
                  have hagree : ∀ rounds, result.2.length ≤ rounds →
                      chain next opOf rounds (.binary lhs op result.1) result.2
                        = chain next opOf result.2.length (.binary lhs op result.1) result.2 :=
                    fun rounds hrounds => ih result.2.length (by omega) hrounds rfl
                  rw [hagree rounds (by omega), hagree tokens.length (by omega)]

/-- Two parsers that agree on fewer tokens than a bound. -/
def AgreeBelow (bound : ℕ) (p p' : Parser F) : Prop :=
  ∀ tokens : List Text, tokens.length < bound → p tokens = p' tokens

theorem parseAtom_agree {all all' : Parser F} {bound : ℕ} (h : AgreeBelow bound all all') :
    AgreeBelow (bound + 1) (parseAtom u all) (parseAtom u all') := by
  intro tokens hlen
  cases tokens with
  | nil => rfl
  | cons tok tokens =>
      rw [List.length_cons] at hlen
      rw [parseAtom, parseAtom, h tokens (by omega)]

theorem parseUnary_agree {all all' : Parser F} {bound : ℕ} (h : AgreeBelow bound all all') :
    AgreeBelow (bound + 1) (parseUnary u all) (parseUnary u all') := by
  intro tokens
  induction tokens with
  | nil => exact fun _ => rfl
  | cons tok tokens ih =>
      intro hlen
      have hatom := parseAtom_agree (u := u) h (tok :: tokens) hlen
      rw [List.length_cons] at hlen
      rw [parseUnary, parseUnary, ih (by omega), hatom]

theorem chain_agree {next next' : Parser F} {opOf : Text → Option BinOp} {bound : ℕ}
    (hnext : Takes u next) (h : AgreeBelow bound next next') (rounds : ℕ) (lhs : Expr F)
    {tokens : List Text} (hlen : tokens.length < bound) :
    chain next opOf rounds lhs tokens = chain next' opOf rounds lhs tokens := by
  induction rounds generalizing lhs tokens with
  | zero => cases tokens <;> rfl
  | succ rounds ih =>
      cases tokens with
      | nil => rfl
      | cons tok tokens =>
          rw [List.length_cons] at hlen
          rw [chain, chain]
          cases hop : opOf tok with
          | none => rfl
          | some op =>
              dsimp only
              rw [← h tokens (by omega)]
              cases hrhs : next tokens with
              | error err => rfl
              | ok result =>
                  have hfewer := (hnext tokens result.1 result.2 hrhs).fewer
                  simp only [ok_bind]
                  exact ih _ (by omega)

theorem leftAssoc_agree {next next' : Parser F} {opOf : Text → Option BinOp} {bound : ℕ}
    (hnext : Takes u next) (h : AgreeBelow bound next next') :
    AgreeBelow bound (leftAssoc next opOf) (leftAssoc next' opOf) := by
  intro tokens hlen
  rw [leftAssoc, leftAssoc, ← h tokens hlen]
  cases hlhs : next tokens with
  | error err => rfl
  | ok result =>
      have hfewer := (hnext tokens result.1 result.2 hlhs).fewer
      simp only [ok_bind]
      exact chain_agree hnext h _ _ (by omega)

theorem parseCmp_agree {all all' : Parser F} {bound : ℕ} (hadd : Takes u (parseAdd u all))
    (h : AgreeBelow bound (parseAdd u all) (parseAdd u all')) :
    AgreeBelow bound (parseCmp u all) (parseCmp u all') := by
  intro tokens hlen
  rw [parseCmp, parseCmp, ← h tokens hlen]
  cases hlhs : parseAdd u all tokens with
  | error err => rfl
  | ok result =>
      obtain ⟨lhs, tail⟩ := result
      have hfewer := (hadd tokens lhs tail hlhs).fewer
      simp only [ok_bind]
      cases tail with
      | nil => rfl
      | cons tok tail =>
          rw [List.length_cons] at hfewer
          dsimp only
          rw [h tail (by omega)]

theorem parseOr_agree {all all' : Parser F} {bound : ℕ} (hall : Takes u all)
    (h : AgreeBelow bound all all') :
    AgreeBelow (bound + 1) (parseOr u all) (parseOr u all') := by
  have hunary := parseUnary_takes hall
  have hmul : AgreeBelow (bound + 1) (parseMul u all) (parseMul u all') :=
    leftAssoc_agree hunary (parseUnary_agree h)
  have hadd : AgreeBelow (bound + 1) (parseAdd u all) (parseAdd u all') :=
    leftAssoc_agree (leftAssoc_takes hunary) hmul
  have hcmp := parseCmp_agree (parseAdd_takes hall) hadd
  have hcmp_takes := parseCmp_takes (parseAdd_takes hall)
  exact leftAssoc_agree (leftAssoc_takes hcmp_takes) (leftAssoc_agree hcmp_takes hcmp)

/-- **The depth suffices.** Deeper than there are tokens, the parser returns
the same. -/
theorem parseAll_depth {depth depth' : ℕ} {tokens : List Text} (h : tokens.length < depth)
    (h' : tokens.length < depth') :
    parseAll (F := F) u depth tokens = parseAll u depth' tokens := by
  induction depth generalizing depth' tokens with
  | zero => omega
  | succ depth ih =>
      obtain ⟨depth', rfl⟩ := Nat.exists_eq_succ_of_ne_zero (by omega : depth' ≠ 0)
      have hall : AgreeBelow tokens.length (parseAll (F := F) u depth) (parseAll u depth') :=
        fun shorter hshorter => ih (by omega) (by omega)
      exact parseOr_agree (parseAll_takes depth) hall tokens (Nat.lt_succ_self _)

end Dsline
