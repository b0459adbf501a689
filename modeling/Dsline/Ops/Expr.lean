import Dsline.Ops.Float
/-!
# Expressions

The syntax tree of the expression engine, its printer, and its evaluator.
-/

namespace Dsline

inductive BinOp where
  | add
  | sub
  | mul
  | div
  | eq
  | neq
  | lt
  | le
  | gt
  | ge
  | and
  | or
  deriving DecidableEq, Repr

inductive UnaryOp where
  | neg
  | not
  deriving DecidableEq, Repr

inductive Expr (F : Type) where
  | literal (v : F)
  | column (name : Text)
  | binary (lhs : Expr F) (op : BinOp) (rhs : Expr F)
  | unary (op : UnaryOp) (inner : Expr F)
  deriving DecidableEq, Repr

def andText : Text := ['a', 'n', 'd']

def orText : Text := ['o', 'r']

def notText : Text := ['n', 'o', 't']

/-- `BinOp::fmt`. -/
def BinOp.display : BinOp → Text
  | .add => ['+']
  | .sub => ['-']
  | .mul => ['*']
  | .div => ['/']
  | .eq => ['=', '=']
  | .neq => ['!', '=']
  | .lt => ['<']
  | .le => ['<', '=']
  | .gt => ['>']
  | .ge => ['>', '=']
  | .and => andText
  | .or => orText

/-- `UnaryOp::fmt`. -/
def UnaryOp.display : UnaryOp → Text
  | .neg => ['-']
  | .not => notText ++ [' ']

variable {F : Type} [F64 F]

namespace Expr

/-- The text of a literal: an integral value without decimals. -/
def displayLiteral (v : F) : Text :=
  if F64.eq v (F64.trunc v) && F64.isFinite v then F64.displayWhole v else F64.display v

/-- `Expr::fmt`. -/
def display : Expr F → Text
  | .literal v => displayLiteral v
  | .column name => name
  | .binary lhs op rhs => '(' :: lhs.display ++ ' ' :: op.display ++ ' ' :: rhs.display ++ [')']
  | .unary op inner => '(' :: op.display ++ inner.display ++ [')']

end Expr

/-- `Record::column`. -/
abbrev Record (F : Type) := Text → Option F

/-- `bool_f64`. -/
def boolF64 (b : Bool) : F := if b then F64.one else F64.zero

/-- A binary operator on two values. Only a division by zero has no
result. -/
def BinOp.apply (op : BinOp) (l r : F) : Option F :=
  match op with
  | .add => some (F64.add l r)
  | .sub => some (F64.sub l r)
  | .mul => some (F64.mul l r)
  | .div => if F64.eq r F64.zero then none else some (F64.div l r)
  | .eq => some (boolF64 (F64.lt (F64.abs (F64.sub l r)) F64.epsilon))
  | .neq => some (boolF64 (F64.le F64.epsilon (F64.abs (F64.sub l r))))
  | .lt => some (boolF64 (F64.lt l r))
  | .le => some (boolF64 (F64.le l r))
  | .gt => some (boolF64 (F64.lt r l))
  | .ge => some (boolF64 (F64.le r l))
  | .and => some (boolF64 (! F64.eq l F64.zero && ! F64.eq r F64.zero))
  | .or => some (boolF64 (! F64.eq l F64.zero || ! F64.eq r F64.zero))

/-- A unary operator on a value. -/
def UnaryOp.apply (op : UnaryOp) (v : F) : F :=
  match op with
  | .neg => F64.neg v
  | .not => boolF64 (F64.eq v F64.zero)

/-- `eval`. -/
def eval : Expr F → Record F → Option F
  | .literal v, _ => some v
  | .column name, rec => rec name
  | .binary lhs op rhs, rec => do
      let l ← eval lhs rec
      let r ← eval rhs rec
      op.apply l r
  | .unary op inner, rec => do
      let v ← eval inner rec
      some (op.apply v)

/-- `eval_bool`. -/
def evalBool (expr : Expr F) (rec : Record F) : Option Bool :=
  (eval expr rec).map fun v => ! F64.eq v F64.zero

end Dsline
