import Dsline.Library.Outcome
import Dsline.Ops.Expr
import Dsline.Ops.Tokenizer
/-!
# The parser

Recursive descent over the tokens that are left. Each level takes the parser
of a parenthesised expression as a parameter; `parseAll` ties the knot, by
the depth it may still descend.
-/

namespace Dsline

inductive ParseError where
  | unexpectedEnd
  | unexpectedToken (tok : Text)
  | expectedExpression
  deriving DecidableEq, Repr

/-- A parser: an expression and the tokens behind it, or an error. -/
abbrev Parser (F : Type) := List Text → Except ParseError (Expr F × List Text)

variable {F : Type} [F64 F] (u : Unicode)

/-- `Parser::expect`. -/
def expect (expected : Text) : List Text → Except ParseError (List Text)
  | [] => .error .unexpectedEnd
  | tok :: rest => if tok = expected then .ok rest else .error (.unexpectedToken tok)

/-- `Parser::parse_atom`. -/
def parseAtom (all : Parser F) : Parser F
  | [] => .error .unexpectedEnd
  | tok :: rest =>
      if tok = ['('] then do
        let (inner, rest) ← all rest
        let rest ← expect [')'] rest
        .ok (inner, rest)
      -- a number first: `inf`, `infinity` and `nan` never get to be columns
      else match parseF64 tok with
        | some num => .ok (.literal num, rest)
        | none =>
            if isIdent u tok then .ok (.column tok, rest) else .error (.unexpectedToken tok)

/-- `Parser::parse_unary`. -/
def parseUnary (all : Parser F) : Parser F
  -- no token is no operator: the atom reports the end
  | [] => parseAtom u all []
  | tok :: rest =>
      if tok = ['-'] then do
        let (inner, rest) ← parseUnary all rest
        .ok (.unary .neg inner, rest)
      else if tok = notText then do
        let (inner, rest) ← parseUnary all rest
        .ok (.unary .not inner, rest)
      else parseAtom u all (tok :: rest)

/-- The loop of the left-associative levels: while an operator of the level
comes next, its right operand is parsed and the two are joined. -/
def chain (next : Parser F) (opOf : Text → Option BinOp) : ℕ → Expr F → Parser F
  | _, lhs, [] => .ok (lhs, [])
  | 0, lhs, tokens => .ok (lhs, tokens)
  | rounds + 1, lhs, tok :: rest =>
      match opOf tok with
      -- any other token is left to the levels around this one
      | none => .ok (lhs, tok :: rest)
      | some op => do
          let (rhs, rest) ← next rest
          chain next opOf rounds (.binary lhs op rhs) rest

/-- A left-associative level: an operand of the next one, and the loop. -/
def leftAssoc (next : Parser F) (opOf : Text → Option BinOp) (tokens : List Text) :
    Except ParseError (Expr F × List Text) := do
  let (lhs, rest) ← next tokens
  chain next opOf rest.length lhs rest

def mulOp (tok : Text) : Option BinOp :=
  if tok = ['*'] then some .mul else if tok = ['/'] then some .div else none

def addOp (tok : Text) : Option BinOp :=
  if tok = ['+'] then some .add else if tok = ['-'] then some .sub else none

def cmpOp (tok : Text) : Option BinOp :=
  if tok = ['=', '='] then some .eq
  else if tok = ['!', '='] then some .neq
  else if tok = ['<'] then some .lt
  else if tok = ['<', '='] then some .le
  else if tok = ['>'] then some .gt
  else if tok = ['>', '='] then some .ge
  else none

def andOp (tok : Text) : Option BinOp := if tok = andText then some .and else none

def orOp (tok : Text) : Option BinOp := if tok = orText then some .or else none

/-- `Parser::parse_mul`. -/
def parseMul (all : Parser F) : Parser F :=
  leftAssoc (parseUnary u all) mulOp

/-- `Parser::parse_add`. -/
def parseAdd (all : Parser F) : Parser F :=
  leftAssoc (parseMul u all) addOp

/-- `Parser::parse_cmp`: one comparison at most. -/
def parseCmp (all : Parser F) (tokens : List Text) :
    Except ParseError (Expr F × List Text) := do
  let (lhs, rest) ← parseAdd u all tokens
  match rest with
  | [] => .ok (lhs, [])
  | tok :: rest =>
      match cmpOp tok with
      | none => .ok (lhs, tok :: rest)
      | some op => do
          let (rhs, rest) ← parseAdd u all rest
          .ok (.binary lhs op rhs, rest)

/-- `Parser::parse_and`. -/
def parseAnd (all : Parser F) : Parser F :=
  leftAssoc (parseCmp u all) andOp

/-- `Parser::parse_or`. -/
def parseOr (all : Parser F) : Parser F :=
  leftAssoc (parseAnd u all) orOp

/-- `Parser::parse_all`, by the depth of parentheses it may descend. -/
def parseAll : ℕ → Parser F
  -- not reached from `parse_expr`, which grants more depth than there are tokens
  | 0, _ => .error .unexpectedEnd
  | depth + 1, tokens => parseOr u (parseAll depth) tokens

/-- `parse_expr`. A parenthesis takes a token, so the depth suffices
(`parseAll_depth`). -/
def parseExpr (source : Text) : Except ParseError (Expr F) := do
  let tokens := tokenize u source
  let (expr, rest) ← parseAll u (tokens.length + 1) tokens
  if rest = [] then .ok expr else .error (.unexpectedToken ([' '].intercalate rest))

end Dsline
