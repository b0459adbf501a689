import Dsline.Core.Text
/-!
# The tokenizer

Source text to tokens. Words are lower-cased, whatever they are. The
character classes beyond ASCII are a parameter: what they hold of is fixed
on ASCII only.
-/

namespace Dsline

/-- A string of ASCII characters. -/
def IsAscii (text : Text) : Prop := ∀ c ∈ text, c.toNat < 128

-- by the text's own characters: the general instance tries every character there is
instance (text : Text) : Decidable (IsAscii text) :=
  List.decidableBAll _ text

/-- The character tables: `char::is_alphabetic`, `char::is_numeric`, and
`str::to_lowercase`. -/
structure Unicode where
  isAlphabetic : Char → Bool
  isNumeric : Char → Bool
  toLowercase : Text → Text
  isAlphabetic_ascii : ∀ c : Char, c.toNat < 128 → isAlphabetic c = c.isAlpha
  isNumeric_ascii : ∀ c : Char, c.toNat < 128 → isNumeric c = c.isDigit
  toLowercase_ascii : ∀ text, IsAscii text → toLowercase text = text.map Char.toLower

/-- The tables of ASCII alone. -/
def asciiOnly : Unicode where
  isAlphabetic := Char.isAlpha
  isNumeric := Char.isDigit
  toLowercase := List.map Char.toLower
  isAlphabetic_ascii _ _ := rfl
  isNumeric_ascii _ _ := rfl
  toLowercase_ascii _ _ := rfl

variable (u : Unicode)

/-- A character that starts a word. -/
def isWordStart (c : Char) : Bool := u.isAlphabetic c || c = '_'

/-- A character of a word: `char::is_alphanumeric`, or an underscore. -/
def isWordChar (c : Char) : Bool := u.isAlphabetic c || u.isNumeric c || c = '_'

/-- A character of a number. -/
def isNumberChar (c : Char) : Bool := c.isDigit || c = '.'

def isSpace (c : Char) : Bool := c = ' ' || c = '\t' || c = '\n' || c = '\r'

/-- An operator character that an equals sign extends. -/
def isRelation (c : Char) : Bool := c = '<' || c = '>' || c = '=' || c = '!'

def isArithmetic (c : Char) : Bool := c = '+' || c = '-' || c = '*' || c = '/'

/-- One round of the loop of `tokenize`: the token found at a character, if
any, and what is left. -/
def nextToken (ch : Char) (rest : Text) : Option Text × Text :=
  if isSpace ch then (none, rest)
  else if ch = '(' ∨ ch = ')' then (some [ch], rest)
  else if isRelation ch then
    match rest with
    | '=' :: rest => (some [ch, '='], rest)
    | rest => (some [ch], rest)
  else if isArithmetic ch then (some [ch], rest)
  -- any run of digits and dots: whether it is a number is for the parser to say
  else if isNumberChar ch then
    (some ((ch :: rest).takeWhile isNumberChar), (ch :: rest).dropWhile isNumberChar)
  -- keywords and column names alike are lower-cased
  else if isWordStart u ch then
    (some (u.toLowercase ((ch :: rest).takeWhile (isWordChar u))),
      (ch :: rest).dropWhile (isWordChar u))
  else (some [ch], rest)

/-- The loop of `tokenize`, by the number of rounds it has left. -/
def tokenizeLoop : ℕ → Text → List Text
  | _, [] => []
  | 0, _ => []
  | rounds + 1, ch :: rest =>
      match nextToken u ch rest with
      | (some tok, rest) => tok :: tokenizeLoop rounds rest
      | (none, rest) => tokenizeLoop rounds rest

/-- `tokenize`. A round takes a character at least, so there are rounds
enough (`tokenizeLoop_rounds`). -/
def tokenize (source : Text) : List Text := tokenizeLoop u source.length source

/-- `is_ident`. -/
def isIdent (text : Text) : Bool := text.head?.any (isWordStart u)

end Dsline
