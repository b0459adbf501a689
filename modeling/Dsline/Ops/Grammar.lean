import Dsline.Ops.ParserSpec
/-!
# The grammar

The words of an expression and its syntax tree, by the grammar of the crate.
What an atom is beside a parenthesised expression is a parameter: the
documented grammar and the printer differ in it. A parser that reads the
atoms reads every expression of the grammar, with the tree it stands for.
-/

namespace Dsline

open Outcome

/-- The levels of the grammar, the loosest first. -/
inductive Level where
  | or
  | and
  | cmp
  | add
  | mul
  | unary
  | atom
  deriving DecidableEq, Repr

/-- How tightly a level binds. -/
def Level.rank : Level → ℕ
  | .or => 0
  | .and => 1
  | .cmp => 2
  | .add => 3
  | .mul => 4
  | .unary => 5
  | .atom => 6

/-- The level of the operands of a level. -/
def Level.next : Level → Level
  | .or => .and
  | .and => .cmp
  | .cmp => .add
  | .add => .mul
  | .mul => .unary
  | .unary => .atom
  | .atom => .atom

/-- The level an operator belongs to. -/
def BinOp.level : BinOp → Level
  | .or => .or
  | .and => .and
  | .eq | .neq | .lt | .le | .gt | .ge => .cmp
  | .add | .sub => .add
  | .mul | .div => .mul

/-- The word of a unary operator. -/
def UnaryOp.word : UnaryOp → Text
  | .neg => ['-']
  | .not => notText

variable {F : Type} [F64 F] {u : Unicode}

/-- **The grammar**: the words of an expression at a level, and its tree. A
unary operator stands before an atom, a comparison between two sums, and the
operators of the other levels associate to the left. -/
inductive Derives (leaf : Text → Expr F → Prop) : Level → List Text → Expr F → Prop
  | leaf {tok : Text} {e : Expr F} (h : leaf tok e) : Derives leaf .atom [tok] e
  | paren {words : List Text} {e : Expr F} (h : Derives leaf .or words e) :
      Derives leaf .atom (['('] :: words ++ [[')']]) e
  | unary {op : UnaryOp} {words : List Text} {e : Expr F} (h : Derives leaf .atom words e) :
      Derives leaf .unary (op.word :: words) (.unary op e)
  | comparison {op : BinOp} {words words' : List Text} {e e' : Expr F} (hop : op.level = .cmp)
      (h : Derives leaf .add words e) (h' : Derives leaf .add words' e') :
      Derives leaf .cmp (words ++ op.display :: words') (.binary e op e')
  | binary {op : BinOp} {words words' : List Text} {e e' : Expr F} (hop : op.level ≠ .cmp)
      (h : Derives leaf op.level words e) (h' : Derives leaf op.level.next words' e') :
      Derives leaf op.level (words ++ op.display :: words') (.binary e op e')
  | operand {level : Level} {words : List Text} {e : Expr F} (hlevel : level ≠ .atom)
      (h : Derives leaf level.next words e) : Derives leaf level words e

/-- The parser of a level. -/
def parseLevel (u : Unicode) (all : Parser F) : Level → Parser F
  | .or => parseOr u all
  | .and => parseAnd u all
  | .cmp => parseCmp u all
  | .add => parseAdd u all
  | .mul => parseMul u all
  | .unary => parseUnary u all
  | .atom => parseAtom u all

/-- The operators a level's loop looks for. -/
def opOf : Level → Text → Option BinOp
  | .or => orOp
  | .and => andOp
  | .cmp => cmpOp
  | .add => addOp
  | .mul => mulOp
  | _ => fun _ => none

/-- **Each level looks for its own operators.** -/
theorem opOf_eq_some {level : Level} {tok : Text} {op : BinOp} :
    opOf level tok = some op ↔ op.level = level ∧ tok = op.display := by
  constructor
  · intro h
    cases level with
    | or =>
        rw [opOf, orOp] at h
        split_ifs at h with h₁
        obtain rfl := Option.some.inj h
        exact ⟨rfl, h₁⟩
    | and =>
        rw [opOf, andOp] at h
        split_ifs at h with h₁
        obtain rfl := Option.some.inj h
        exact ⟨rfl, h₁⟩
    | cmp =>
        rw [opOf, cmpOp] at h
        split_ifs at h with h₁ h₂ h₃ h₄ h₅ h₆ <;> obtain rfl := Option.some.inj h <;>
          exact ⟨rfl, by assumption⟩
    | add =>
        rw [opOf, addOp] at h
        split_ifs at h with h₁ h₂ <;> obtain rfl := Option.some.inj h <;>
          exact ⟨rfl, by assumption⟩
    | mul =>
        rw [opOf, mulOp] at h
        split_ifs at h with h₁ h₂ <;> obtain rfl := Option.some.inj h <;>
          exact ⟨rfl, by assumption⟩
    | unary => cases h
    | atom => cases h
  · rintro ⟨rfl, rfl⟩
    cases op <;> decide

/-- The tokens do not go on with an operator of a level, or a tighter one. -/
def Ends (level : Level) (rest : List Text) : Prop :=
  ∀ tok ∈ rest.head?, ∀ op : BinOp, tok = op.display → op.level.rank < level.rank

theorem Ends.nil (level : Level) : Ends level [] := by
  intro tok htok
  cases htok

theorem Ends.tighter {level level' : Level} {rest : List Text} (h : Ends level rest)
    (hrank : level.rank ≤ level'.rank) : Ends level' rest :=
  fun tok htok op hop => lt_of_lt_of_le (h tok htok op hop) hrank

theorem Level.rank_next_le (level : Level) : level.rank ≤ level.next.rank := by
  cases level <;> decide

theorem display_injective {op op' : BinOp} (h : op.display = op'.display) : op = op' := by
  revert h
  cases op <;> cases op' <;> decide

/-- Nothing ends an operand but an operator of its level. -/
theorem Ends.operator {op : BinOp} {rest : List Text} :
    Ends op.level.next (op.display :: rest) := by
  intro tok htok op' hop'
  obtain rfl := Option.some.inj htok
  obtain rfl := display_injective hop'
  cases op <;> decide

/-- A closing parenthesis ends everything. -/
theorem Ends.close (level : Level) (rest : List Text) : Ends level ([')'] :: rest) := by
  intro tok htok op hop
  obtain rfl := Option.some.inj htok
  cases op <;> cases hop

theorem Ends.opOf_none {level : Level} {tok : Text} {rest : List Text}
    (h : Ends level (tok :: rest)) : opOf level tok = none := by
  cases hop : opOf level tok with
  | none => rfl
  | some op =>
      obtain ⟨rfl, rfl⟩ := opOf_eq_some.1 hop
      exact absurd (h _ rfl op rfl) (lt_irrefl _)

omit [F64 F] in
/-- A loop stops where its level ends. -/
theorem chain_of_ends {next : Parser F} {level : Level} {rest : List Text} (h : Ends level rest)
    (rounds : ℕ) (lhs : Expr F) : chain next (opOf level) rounds lhs rest = .ok (lhs, rest) := by
  cases rest with
  | nil => cases rounds <;> rfl
  | cons tok rest =>
      cases rounds with
      | zero => rfl
      | succ rounds => rw [chain, h.opOf_none]

/-- **A word the parser reads as an atom**: neither a parenthesis nor a unary
operator, and a number or else an identifier. -/
structure ReadsAs (u : Unicode) (tok : Text) (e : Expr F) : Prop where
  not_open : tok ≠ ['(']
  not_neg : tok ≠ ['-']
  not_not : tok ≠ notText
  atom : (∃ v, parseF64 tok = some v ∧ e = .literal v) ∨
    (parseF64 (F := F) tok = none ∧ isIdent u tok ∧ e = .column tok)

theorem ReadsAs.parseAtom {tok : Text} {e : Expr F} (h : ReadsAs u tok e) (all : Parser F)
    (rest : List Text) : parseAtom u all (tok :: rest) = .ok (e, rest) := by
  rw [Dsline.parseAtom, if_neg h.not_open]
  rcases h.atom with ⟨v, hv, rfl⟩ | ⟨hnum, hident, rfl⟩
  · rw [hv]
  · rw [hnum]
    dsimp only
    rw [if_pos hident]

/-- An atom does not start with a unary operator. -/
theorem Derives.atom_head {level : Level} {words : List Text} {e : Expr F}
    (h : Derives (ReadsAs u) level words e) (hlevel : level = .atom) :
    ∃ tok tail, words = tok :: tail ∧ tok ≠ ['-'] ∧ tok ≠ notText := by
  cases h with
  | leaf h => exact ⟨_, [], rfl, h.not_neg, h.not_not⟩
  | paren h => exact ⟨_, _, rfl, by decide, by decide⟩
  | unary h => cases hlevel
  | comparison hop h h' => cases hlevel
  | @binary op _ _ _ _ hop h h' => cases op <;> cases hlevel
  | operand hne h => exact absurd hlevel hne

theorem Derives.parseUnary_eq {words : List Text} {e : Expr F}
    (h : Derives (ReadsAs u) .atom words e) (all : Parser F) (rest : List Text) :
    parseUnary u all (words ++ rest) = parseAtom u all (words ++ rest) := by
  obtain ⟨tok, tail, rfl, hneg, hnot⟩ := h.atom_head rfl
  rw [List.cons_append, parseUnary, if_neg hneg, if_neg hnot]

theorem parseLevel_takes (depth : ℕ) {level : Level} (hlevel : level ≠ .atom) :
    Takes u (parseLevel (F := F) u (parseAll u depth) level) := by
  have hunary := parseUnary_takes (parseAll_takes (F := F) (u := u) depth)
  have hadd := parseAdd_takes (parseAll_takes (F := F) (u := u) depth)
  cases level with
  | or => exact parseOr_takes (parseAll_takes depth)
  | and => exact leftAssoc_takes (parseCmp_takes hadd)
  | cmp => exact parseCmp_takes hadd
  | add => exact hadd
  | mul => exact leftAssoc_takes hunary
  | unary => exact hunary
  | atom => exact absurd rfl hlevel

/-- A level with a loop. -/
def Level.Loops (level : Level) : Prop := level ≠ .cmp ∧ level ≠ .unary ∧ level ≠ .atom

theorem parseLevel_loops {level : Level} (h : level.Loops) (all : Parser F) :
    parseLevel u all level = leftAssoc (parseLevel u all level.next) (opOf level) := by
  cases level with
  | or => rfl
  | and => rfl
  | add => rfl
  | mul => rfl
  | cmp => exact absurd rfl h.1
  | unary => exact absurd rfl h.2.1
  | atom => exact absurd rfl h.2.2

theorem BinOp.level_loops {op : BinOp} (hop : op.level ≠ .cmp) : op.level.Loops := by
  cases op <;> first | exact absurd rfl hop | exact ⟨by decide, by decide, by decide⟩

theorem Level.Loops.next_ne_atom {level : Level} (h : level.Loops) : level.next ≠ .atom := by
  cases level <;> first | exact absurd rfl h.2.1 | exact absurd rfl h.2.2 | decide

/-- What the parser of a level makes of some words: the tree, where the level
ends; and, at a level with a loop, the state of the loop behind them. -/
structure LevelReads (u : Unicode) (depth : ℕ) (level : Level) (words : List Text) (e : Expr F) :
    Prop where
  result : ∀ rest, Ends level rest →
    parseLevel u (parseAll u depth) level (words ++ rest) = .ok (e, rest)
  loop : level.Loops → ∀ rest, Ends level.next rest →
    parseLevel u (parseAll u depth) level (words ++ rest)
      = chain (parseLevel u (parseAll u depth) level.next) (opOf level) rest.length e rest

/-- The state of the loop is enough. -/
theorem LevelReads.of_loop {depth : ℕ} {level : Level} {words : List Text} {e : Expr F}
    (h : ∀ rest, Ends level.next rest → parseLevel u (parseAll u depth) level (words ++ rest)
      = chain (parseLevel u (parseAll u depth) level.next) (opOf level) rest.length e rest) :
    LevelReads u depth level words e where
  result rest hends := by
    rw [h rest (hends.tighter level.rank_next_le), chain_of_ends hends]
  loop _ := h

/-- A level without a loop has its result alone. -/
theorem LevelReads.of_result {depth : ℕ} {level : Level} {words : List Text} {e : Expr F}
    (hloops : ¬ level.Loops) (h : ∀ rest, Ends level rest →
      parseLevel u (parseAll u depth) level (words ++ rest) = .ok (e, rest)) :
    LevelReads u depth level words e where
  result := h
  loop hl := absurd hl hloops

/-- A parenthesis is read one level of nesting down. -/
theorem LevelReads.paren {depth : ℕ} {words : List Text} {e : Expr F}
    (h : LevelReads u depth .or words e) :
    LevelReads u (depth + 1) .atom (['('] :: words ++ [[')']]) e := by
  refine .of_result (fun hloops => hloops.2.2 rfl) fun rest _ => ?_
  have hinner := h.result ([')'] :: rest) (Ends.close _ rest)
  have hwords : ['('] :: words ++ [[')']] ++ rest = ['('] :: (words ++ [')'] :: rest) := by simp
  rw [hwords, parseLevel, parseAtom, if_pos rfl]
  change (parseLevel u (parseAll u depth) .or (words ++ [')'] :: rest) >>= _) = _
  rw [hinner]
  rfl

theorem LevelReads.unary {depth : ℕ} {op : UnaryOp} {words : List Text} {e : Expr F}
    (hatom : Derives (ReadsAs u) .atom words e) (h : LevelReads u depth .atom words e) :
    LevelReads u depth .unary (op.word :: words) (.unary op e) := by
  refine .of_result (fun hloops => hloops.2.1 rfl) fun rest _ => ?_
  have hinner := h.result rest (fun tok _ op _ => by cases op <;> decide)
  change parseAtom u _ (words ++ rest) = _ at hinner
  change parseUnary u _ (op.word :: words ++ rest) = _
  rw [List.cons_append, parseUnary, hatom.parseUnary_eq, hinner]
  cases op with
  | neg => rfl
  | not => rfl

theorem LevelReads.comparison {depth : ℕ} {op : BinOp} {words words' : List Text} {e e' : Expr F}
    (hop : op.level = .cmp) (h : LevelReads u depth .add words e)
    (h' : LevelReads u depth .add words' e') :
    LevelReads u depth .cmp (words ++ op.display :: words') (.binary e op e') := by
  refine .of_result (fun hloops => hloops.1 rfl) fun rest hends => ?_
  -- the left operand stops at the operator, which no level below looks for
  have hoperator : Ends op.level.next (op.display :: (words' ++ rest)) := Ends.operator
  rw [hop] at hoperator
  have hlhs := h.result _ hoperator
  have hrhs := h'.result rest (hends.tighter (by decide))
  have hcmp : opOf .cmp op.display = some op := opOf_eq_some.2 ⟨hop, rfl⟩
  change cmpOp op.display = some op at hcmp
  change parseAdd u _ _ = _ at hlhs hrhs
  change parseCmp u _ _ = _
  rw [List.append_assoc, List.cons_append, parseCmp, hlhs]
  simp only [ok_bind, hcmp, hrhs]

/-- An operator of a level with a loop is one more round of the loop. -/
theorem LevelReads.binary {depth : ℕ} {op : BinOp} {words words' : List Text} {e e' : Expr F}
    (hop : op.level ≠ .cmp) (h : LevelReads u depth op.level words e)
    (h' : LevelReads u depth op.level.next words' e') :
    LevelReads u depth op.level (words ++ op.display :: words') (.binary e op e') := by
  have hloops := BinOp.level_loops hop
  refine .of_loop fun rest hends => ?_
  have hlhs := h.loop hloops (op.display :: (words' ++ rest)) Ends.operator
  have hrhs := h'.result rest hends
  have hfewer : rest.length ≤ (words' ++ rest).length := by simp
  rw [List.append_assoc, List.cons_append, hlhs, List.length_cons, chain,
    opOf_eq_some.2 ⟨rfl, rfl⟩]
  simp only [hrhs, ok_bind]
  -- the loop has the rounds of a longer rest left, which makes no difference to it
  exact chain_rounds (parseLevel_takes depth hloops.next_ne_atom) hfewer

/-- An operand of the next level. -/
theorem LevelReads.operand {depth : ℕ} {level : Level} {words : List Text} {e : Expr F}
    (hlevel : level ≠ .atom) (hnext : Derives (ReadsAs u) level.next words e)
    (h : LevelReads u depth level.next words e) : LevelReads u depth level words e := by
  by_cases hloops : level.Loops
  · refine .of_loop fun rest hends => ?_
    rw [parseLevel_loops hloops, leftAssoc, h.result rest hends]
    rfl
  · refine .of_result hloops fun rest hends => ?_
    have hresult := h.result rest (hends.tighter level.rank_next_le)
    cases level with
    | cmp =>
        change parseAdd u _ _ = _ at hresult
        change parseCmp u _ _ = _
        rw [parseCmp, hresult]
        cases rest with
        | nil => rfl
        | cons tok rest =>
            have hcmp : cmpOp tok = none := hends.opOf_none
            simp only [ok_bind, hcmp]
    | unary =>
        change parseAtom u _ _ = _ at hresult
        change parseUnary u _ _ = _
        rw [hnext.parseUnary_eq, hresult]
    | atom => exact absurd rfl hlevel
    -- the levels with a loop were the first case
    | or => exact absurd ⟨by decide, by decide, by decide⟩ hloops
    | and => exact absurd ⟨by decide, by decide, by decide⟩ hloops
    | add => exact absurd ⟨by decide, by decide, by decide⟩ hloops
    | mul => exact absurd ⟨by decide, by decide, by decide⟩ hloops

/-- **The parser reads the grammar.** By induction on the expression: a level
with a loop is read up to the state of the loop, so that the operators that
follow are taken by the same loop. -/
theorem Derives.reads {level : Level} {words : List Text} {e : Expr F}
    (h : Derives (ReadsAs u) level words e) :
    ∀ depth, words.length ≤ depth → LevelReads u depth level words e := by
  induction h with
  | leaf h =>
      intro depth hdepth
      exact .of_result (fun hloops => hloops.2.2 rfl) fun rest _ => h.parseAtom _ rest
  | @paren words e h ih =>
      intro depth hdepth
      rw [List.length_append, List.length_cons] at hdepth
      -- the parentheses are two of the words, so some depth is left for what is in them
      obtain ⟨depth, rfl⟩ := Nat.exists_eq_succ_of_ne_zero (by omega : depth ≠ 0)
      exact .paren (ih depth (by omega))
  | @unary op words e h ih =>
      intro depth hdepth
      rw [List.length_cons] at hdepth
      exact .unary h (ih depth (by omega))
  | @comparison op words words' e e' hop h h' ih ih' =>
      intro depth hdepth
      rw [List.length_append, List.length_cons] at hdepth
      exact .comparison hop (ih depth (by omega)) (ih' depth (by omega))
  | @binary op words words' e e' hop h h' ih ih' =>
      intro depth hdepth
      rw [List.length_append, List.length_cons] at hdepth
      exact .binary hop (ih depth (by omega)) (ih' depth (by omega))
  | operand hlevel h ih => exact fun depth hdepth => .operand hlevel h (ih depth hdepth)

/-- **An expression of the grammar is parsed as its tree**, in whatever
source its words are the tokens of. -/
theorem Derives.parseExpr_eq {words : List Text} {e : Expr F} {source : Text}
    (h : Derives (ReadsAs u) .or words e) (htokens : tokenize u source = words) :
    parseExpr u source = .ok e := by
  have hread := (h.reads words.length le_rfl).result [] (Ends.nil _)
  rw [List.append_nil, parseLevel] at hread
  rw [parseExpr, htokens, parseAll, hread]
  rfl

end Dsline
