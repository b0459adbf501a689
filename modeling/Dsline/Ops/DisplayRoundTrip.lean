import Dsline.Ops.Grammar
import Dsline.Ops.Spelling
import Dsline.Ops.Whole
/-!
# Printing an expression and parsing it

A printed expression spells words of the grammar: every operation is in
parentheses, so its operands are atoms, and each leaf is a word that reads as
that leaf. What the parser returns for an ASCII source has such leaves, a
literal that is not a number apart.
-/

namespace Dsline

open Outcome

variable {F : Type} [F64 F] {u : Unicode}

/-- No literal of the expression is a NaN. -/
def Expr.NoNaN : Expr F → Prop
  | .literal v => F64.isNaN v = false
  | .column _ => True
  | .binary lhs _ rhs => lhs.NoNaN ∧ rhs.NoNaN
  | .unary _ inner => inner.NoNaN

/-- The leaves that read back: a literal that is not negative, and a column
whose name is an identifier in lower case, no number and not `not`. -/
def Expr.Printable : Expr F → Prop
  | .literal v => F64.isNaN v = false ∧ F64.isSignNegative v = false
  | .column name =>
      IsIdentifier name ∧ lower name = name ∧ parseF64 (F := F) name = none ∧ name ≠ notText
  | .binary lhs _ rhs => lhs.Printable ∧ rhs.Printable
  | .unary _ inner => inner.Printable

/-- The words an expression is printed with. -/
def Expr.words : Expr F → List Text
  | .literal v => [displayLiteral v]
  | .column name => [name]
  | .binary lhs op rhs => ['('] :: lhs.words ++ op.display :: rhs.words ++ [[')']]
  | .unary op inner => ['('] :: op.word :: inner.words ++ [[')']]

/-! ## What the parser returns is printable -/

/-- What is known of a token of an ASCII source. -/
structure TokenShape (tok : Text) : Prop where
  ascii : IsAscii tok
  identifier : tok.head?.any (isWordStart asciiOnly) = true → IsIdentifier tok ∧ lower tok = tok
  minus : tok.head? = some '-' → tok = ['-']

theorem isWordStart_lower {c : Char} (h : isWordStart asciiOnly c = true) :
    isWordStart asciiOnly c.toLower = true := by
  have hclass : ∀ n < 128, isWordStart asciiOnly (Char.ofNat n) = true →
      isWordStart asciiOnly (Char.ofNat n).toLower = true := by
    decide +kernel
  exact forall_ascii (P := fun c => isWordStart asciiOnly c = true →
    isWordStart asciiOnly c.toLower = true) hclass (isWordChar_lt (isWordChar_of_start h)) h

theorem isWordChar_lower {c : Char} (h : isWordChar asciiOnly c = true) :
    isWordChar asciiOnly c.toLower = true ∧ c.toLower.toLower = c.toLower := by
  have hclass : ∀ n < 128, isWordChar asciiOnly (Char.ofNat n) = true →
      isWordChar asciiOnly (Char.ofNat n).toLower = true ∧
        (Char.ofNat n).toLower.toLower = (Char.ofNat n).toLower := by
    decide +kernel
  exact forall_ascii (P := fun c => isWordChar asciiOnly c = true →
    isWordChar asciiOnly c.toLower = true ∧ c.toLower.toLower = c.toLower) hclass
    (isWordChar_lt h) h

/-- **Lower-casing keeps an identifier one**, and does nothing twice. -/
theorem IsIdentifier.lower {name : Text} (h : IsIdentifier name) :
    IsIdentifier (Dsline.lower name) ∧ Dsline.lower (Dsline.lower name) = Dsline.lower name := by
  refine ⟨⟨?_, ?_⟩, ?_⟩
  · cases name with
    | nil => cases h.1
    | cons c name =>
        exact isWordStart_lower (c := c) h.1
  · intro c hc
    obtain ⟨d, hd, rfl⟩ := List.mem_map.1 hc
    exact (isWordChar_lower (h.2 d hd)).1
  · rw [Dsline.lower, Dsline.lower, List.map_map]
    exact List.map_congr_left fun c hc => (isWordChar_lower (h.2 c hc)).2

/-- A token of one character that starts no word. -/
theorem TokenShape.single {c : Char} (hascii : c.toNat < 128)
    (hc : isWordStart asciiOnly c = false) : TokenShape [c] where
  ascii d hd := List.mem_singleton.1 hd ▸ hascii
  identifier h := by
    rw [List.head?_cons, Option.any_some, hc] at h
    cases h
  minus h := by
    obtain rfl := Option.some.inj h
    rfl

theorem TokenShape.identifier_of {name : Text} (h : IsIdentifier name)
    (hlower : lower name = name) : TokenShape name where
  ascii c hc := isWordChar_lt (h.2 c hc)
  identifier _ := ⟨h, hlower⟩
  minus hminus := by
    cases name with
    | nil => cases hminus
    | cons c name =>
        obtain rfl := Option.some.inj hminus
        have hstart : isWordStart asciiOnly '-' = true := h.1
        exact absurd hstart (by decide)

theorem TokenShape.number_of {c : Char} {tok : Text}
    (h : ∀ d ∈ c :: tok, isNumberChar d = true) : TokenShape (c :: tok) := by
  have hclass : ∀ n < 128, isNumberChar (Char.ofNat n) = true →
      isWordStart asciiOnly (Char.ofNat n) = false ∧ Char.ofNat n ≠ '-' := by
    decide +kernel
  have hc := h c List.mem_cons_self
  obtain ⟨hstart, hne⟩ := forall_ascii (P := fun c => isNumberChar c = true →
    isWordStart asciiOnly c = false ∧ c ≠ '-') hclass (isNumberChar_lt hc) hc
  refine ⟨fun d hd => isNumberChar_lt (h d hd), fun hhead => ?_, fun hhead => ?_⟩
  · rw [List.head?_cons, Option.any_some, hstart] at hhead
    cases hhead
  · exact absurd (Option.some.inj hhead) hne

/-- **A round of the tokenizer finds a token of that shape.** -/
theorem nextToken_shape {ch : Char} {rest tok rest' : Text} (hascii : IsAscii (ch :: rest))
    (h : nextToken asciiOnly ch rest = (some tok, rest')) : TokenShape tok := by
  have hch := hascii ch List.mem_cons_self
  have hsymbol : ∀ n < 128, (Char.ofNat n = '(' ∨ Char.ofNat n = ')' ∨
      isRelation (Char.ofNat n) = true ∨ isArithmetic (Char.ofNat n) = true) →
      isWordStart asciiOnly (Char.ofNat n) = false := by
    decide +kernel
  have hstart := forall_ascii (P := fun c => (c = '(' ∨ c = ')' ∨ isRelation c = true ∨
    isArithmetic c = true) → isWordStart asciiOnly c = false) hsymbol hch
  unfold nextToken at h
  split_ifs at h with hspace hparen hrel harith hnum hword
  · cases h
  · obtain rfl := Option.some.inj (Prod.mk.inj h).1
    exact .single hch (hstart (hparen.imp_right .inl))
  · split at h
    · obtain rfl := Option.some.inj (Prod.mk.inj h).1
      refine ⟨?_, fun hhead => ?_, fun hhead => ?_⟩
      · exact fun c hc => hascii c (List.mem_of_mem_take (i := 2) hc)
      · rw [List.head?_cons, Option.any_some, hstart (.inr (.inr (.inl hrel)))] at hhead
        cases hhead
      · obtain rfl := Option.some.inj hhead
        exact absurd hrel (by decide)
    · obtain rfl := Option.some.inj (Prod.mk.inj h).1
      exact .single hch (hstart (.inr (.inr (.inl hrel))))
  · obtain rfl := Option.some.inj (Prod.mk.inj h).1
    exact .single hch (hstart (.inr (.inr (.inr harith))))
  · obtain rfl := Option.some.inj (Prod.mk.inj h).1
    rw [List.takeWhile_cons_of_pos hnum]
    refine .number_of fun d hd => ?_
    rw [← List.takeWhile_cons_of_pos (p := isNumberChar) hnum] at hd
    exact List.mem_takeWhile_imp hd
  · obtain rfl := Option.some.inj (Prod.mk.inj h).1
    -- lower-casing leaves the shape of an identifier as it is
    have hident : IsIdentifier ((ch :: rest).takeWhile (isWordChar asciiOnly)) := by
      refine ⟨?_, fun d hd => List.mem_takeWhile_imp hd⟩
      rw [List.takeWhile_cons_of_pos (isWordChar_of_start hword)]
      exact hword
    exact .identifier_of hident.lower.1 hident.lower.2
  · obtain rfl := Option.some.inj (Prod.mk.inj h).1
    exact .single hch (by simpa using hword)

theorem tokenize_shape {source : Text} (hascii : IsAscii source) :
    ∀ tok ∈ tokenize u source, TokenShape tok := by
  rw [tokenize_ascii hascii]
  refine IsAscii.rounds (P := fun source => ∀ tok ∈ tokenize asciiOnly source, TokenShape tok)
    (fun tok htok => by cases htok) (fun ch rest rest' hascii hnext ih tok htok => ?_)
    (fun ch rest first rest' hascii hnext ih tok htok => ?_) hascii
  · rw [tokenize_cons_none hnext] at htok
    exact ih tok htok
  · rw [tokenize_cons_some hnext] at htok
    rcases List.mem_cons.1 htok with rfl | htok
    · exact nextToken_shape hascii hnext
    · exact ih tok htok

variable [LawfulF64 F]

/-- A number without a sign is not negative. -/
theorem parseUnsigned_nonneg {text : Text} {v : F} (h : parseUnsigned text = some v)
    (hnan : F64.isNaN v = false) : F64.isSignNegative v = false := by
  unfold parseUnsigned at h
  dsimp only at h
  split_ifs at h with hinf hnan'
  · obtain rfl := Option.some.inj h
    exact LawfulF64.isSignNegative_infinity
  · obtain rfl := Option.some.inj h
    rw [LawfulF64.isNaN_nan] at hnan
    cases hnan
  · rw [parseDecimal] at h
    split at h
    · obtain ⟨mantissa, -, rfl⟩ := Option.map_eq_some_iff.1 h
      exact LawfulF64.isSignNegative_ofDecimal _ _
    · obtain ⟨mantissa, -, h⟩ := Option.bind_eq_some_iff.1 h
      obtain ⟨power, -, rfl⟩ := Option.map_eq_some_iff.1 h
      exact LawfulF64.isSignNegative_ofDecimal _ _

omit [LawfulF64 F] in
theorem parseUnsigned_nil : parseUnsigned (F := F) [] = none := rfl

theorem TokenShape.parse_nonneg {tok : Text} {v : F} (hshape : TokenShape tok)
    (h : parseF64 tok = some v) (hnan : F64.isNaN v = false) : F64.isSignNegative v = false := by
  unfold parseF64 at h
  split at h
  · obtain rfl := (List.cons.inj (hshape.minus rfl)).2
    rw [parseUnsigned_nil] at h
    cases h
  · exact parseUnsigned_nonneg h hnan
  · exact parseUnsigned_nonneg h hnan

omit [LawfulF64 F] in
theorem isIdent_ascii {tok : Text} (h : IsAscii tok) : isIdent u tok = isIdent asciiOnly tok := by
  cases tok with
  | nil => rfl
  | cons c tok => exact isWordStart_ascii (h c List.mem_cons_self)

/-- **What is parsed from an ASCII source is printable.** -/
theorem parseExpr_printable {source : Text} {e : Expr F} (hascii : IsAscii source)
    (h : parseExpr u source = .ok e) (hnan : e.NoNaN) : e.Printable := by
  have hshape := tokenize_shape (u := u) hascii
  have hleaves := parseExpr_leaves h
  clear h
  induction e with
  | literal v =>
      obtain ⟨tok, htok, hv⟩ := hleaves
      exact ⟨hnan, (hshape tok htok).parse_nonneg hv hnan⟩
  | column name =>
      obtain ⟨htok, hnum, hident, hnot⟩ := hleaves
      have hname := hshape name htok
      rw [isIdent_ascii hname.ascii] at hident
      obtain ⟨hidentifier, hlower⟩ := hname.identifier hident
      exact ⟨hidentifier, hlower, hnum, hnot⟩
  | binary lhs op rhs ihl ihr => exact ⟨ihl hnan.1 hleaves.1, ihr hnan.2 hleaves.2⟩
  | unary op inner ih => exact ih hnan hleaves

/-! ## A printable expression spells words of the grammar -/

/-- **The text of a literal parses to it**, printed with decimals or
without. -/
theorem parse_displayLiteral {v : F} (hnan : F64.isNaN v = false)
    (hneg : F64.isSignNegative v = false) : parseF64 (Expr.displayLiteral v) = some v := by
  rw [Expr.displayLiteral]
  split_ifs with hwhole
  · rw [Bool.and_eq_true] at hwhole
    exact LawfulF64.parse_displayWhole v hwhole.2 hwhole.1 hneg
  · exact LawfulF64.parse_display v hnan hneg

/-- **The text of a literal** is a word of a number, or the name of the
infinite one. -/
theorem displayLiteral_shape {v : F} (hnan : F64.isNaN v = false)
    (hneg : F64.isSignNegative v = false) :
    (Expr.displayLiteral v ≠ [] ∧ ∀ c ∈ Expr.displayLiteral v, isNumberChar c = true) ∨
      Expr.displayLiteral v = infText := by
  rw [Expr.displayLiteral]
  split_ifs with hwhole
  · rw [Bool.and_eq_true] at hwhole
    obtain ⟨hne, hdigits⟩ := LawfulF64.displayWhole_digits v hwhole.2 hneg
    refine .inl ⟨hne, fun c hc => ?_⟩
    simp [isNumberChar, hdigits c hc]
  cases hfinite : F64.isFinite v with
  | false => exact .inr (LawfulF64.display_infinite v hfinite hnan hneg)
  | true =>
      obtain ⟨hne, hchars⟩ := LawfulF64.display_finite v hfinite hneg
      refine .inl ⟨hne, fun c hc => ?_⟩
      simpa [isNumberChar] using hchars c hc

theorem displayLiteral_isWord {v : F} (hnan : F64.isNaN v = false)
    (hneg : F64.isSignNegative v = false) :
    IsWord (Expr.displayLiteral v) ∧ lower (Expr.displayLiteral v) = Expr.displayLiteral v := by
  rcases displayLiteral_shape hnan hneg with ⟨hne, hchars⟩ | hinf
  · exact ⟨.number hne hchars, lower_number hchars⟩
  · rw [hinf]
    exact ⟨.identifier (by decide), by decide⟩

omit [F64 F] [LawfulF64 F] in
/-- A number is no token with another character in it. -/
theorem ne_of_number {tok other : Text} {c : Char} (hchars : ∀ c ∈ tok, isNumberChar c = true)
    (hc : c ∈ other) (hnot : isNumberChar c = false) : tok ≠ other := by
  rintro rfl
  rw [hchars c hc] at hnot
  cases hnot

omit [LawfulF64 F] in
theorem number_readsAs {tok : Text} {v : F} (hchars : ∀ c ∈ tok, isNumberChar c = true)
    (hparse : parseF64 tok = some v) : ReadsAs u tok (.literal v) :=
  ⟨ne_of_number hchars (List.mem_singleton_self '(') (by decide),
    ne_of_number hchars (List.mem_singleton_self '-') (by decide),
    ne_of_number hchars (List.mem_cons_self : 'n' ∈ notText) (by decide), .inl ⟨v, hparse, rfl⟩⟩

theorem displayLiteral_readsAs {v : F} (hnan : F64.isNaN v = false)
    (hneg : F64.isSignNegative v = false) :
    ReadsAs u (Expr.displayLiteral v) (.literal v) := by
  have hparse := parse_displayLiteral hnan hneg
  rcases displayLiteral_shape hnan hneg with ⟨-, hchars⟩ | hinf
  · exact number_readsAs hchars hparse
  · rw [hinf] at hparse ⊢
    exact ⟨by decide, by decide, by decide, .inl ⟨v, hparse, rfl⟩⟩

omit [LawfulF64 F] in
/-- An identifier but `not` is a number or a column. -/
theorem identifier_readsAs {name : Text} {e : Expr F} (hname : IsIdentifier name)
    (hnot : name ≠ notText) (hatom : (∃ v, parseF64 name = some v ∧ e = .literal v) ∨
      (parseF64 (F := F) name = none ∧ e = .column name)) : ReadsAs u name e := by
  have hascii : IsAscii name := fun c hc => isWordChar_lt (hname.2 c hc)
  refine ⟨?_, ?_, hnot, hatom.imp_right fun h => ⟨h.1, ?_, h.2⟩⟩
  · rintro rfl
    exact absurd hname (by decide)
  · rintro rfl
    exact absurd hname (by decide)
  · rw [isIdent_ascii hascii]
    exact hname.1

omit [F64 F] [LawfulF64 F] in
/-- An atom is an expression of every level. -/
theorem Derives.of_atom {leaf : Text → Expr F → Prop} {words : List Text} {e : Expr F}
    (h : Derives leaf .atom words e) (level : Level) : Derives leaf level words e := by
  have hstep : ∀ level : Level, level ≠ .atom → Derives leaf level.next words e →
      Derives leaf level words e := fun _ hlevel h => .operand hlevel h
  have hunary := hstep .unary (by decide) h
  have hmul := hstep .mul (by decide) hunary
  have hadd := hstep .add (by decide) hmul
  have hcmp := hstep .cmp (by decide) hadd
  have hand := hstep .and (by decide) hcmp
  cases level with
  | atom => exact h
  | unary => exact hunary
  | mul => exact hmul
  | add => exact hadd
  | cmp => exact hcmp
  | and => exact hand
  | or => exact hstep .or (by decide) hand

omit [F64 F] [LawfulF64 F] in
/-- An expression of any level is one of the loosest. -/
theorem Derives.to_or {leaf : Text → Expr F → Prop} {level : Level} {words : List Text}
    {e : Expr F} (h : Derives leaf level words e) : Derives leaf .or words e := by
  have hstep : ∀ level : Level, level ≠ .atom → Derives leaf level.next words e →
      Derives leaf level words e := fun _ hlevel h => .operand hlevel h
  have hand := hstep .or (by decide)
  have hcmp := fun h => hand (hstep .and (by decide) h)
  have hadd := fun h => hcmp (hstep .cmp (by decide) h)
  have hmul := fun h => hadd (hstep .add (by decide) h)
  have hunary := fun h => hmul (hstep .mul (by decide) h)
  cases level with
  | or => exact h
  | and => exact hand h
  | cmp => exact hcmp h
  | add => exact hadd h
  | mul => exact hmul h
  | unary => exact hunary h
  | atom => exact hunary (hstep .unary (by decide) h)

/-- **The words of a printable expression are an atom of the grammar.** -/
theorem Expr.Printable.written {e : Expr F} (h : e.Printable) :
    Derives (ReadsAs u) .atom e.words e := by
  induction e with
  | literal v => exact .leaf (displayLiteral_readsAs h.1 h.2)
  | column name => exact .leaf (identifier_readsAs h.1 h.2.2.2 (.inr ⟨h.2.2.1, rfl⟩))
  | binary lhs op rhs ihl ihr =>
      have hl := ihl h.1
      have hr := ihr h.2
      -- a comparison has operands of one level on both sides, a loop on the right only
      by_cases hop : op.level = .cmp
      · exact .paren (Derives.comparison hop (hl.of_atom _) (hr.of_atom _)).to_or
      · exact .paren (Derives.binary hop (hl.of_atom _) (hr.of_atom _)).to_or
  | unary op inner ih => exact .paren (Derives.unary (ih h)).to_or

omit [F64 F] [LawfulF64 F] in
theorem BinOp.display_isWord (op : BinOp) :
    IsWord op.display ∧ lower op.display = op.display := by
  cases op with
  | and => exact ⟨.identifier (by decide), by decide⟩
  | or => exact ⟨.identifier (by decide), by decide⟩
  | _ => exact ⟨.symbol (by decide), by decide⟩

omit [F64 F] [LawfulF64 F] in
theorem UnaryOp.word_isWord (op : UnaryOp) : IsWord op.word ∧ lower op.word = op.word := by
  cases op with
  | neg => exact ⟨.symbol (by decide), by decide⟩
  | not => exact ⟨.identifier (by decide), by decide⟩

omit [F64 F] [LawfulF64 F] in
/-- Words in parentheses. -/
theorem forall_mem_paren {P : Text → Prop} {words : List Text}
    (hparen : ∀ tok ∈ [['('], [')']], P tok) (h : ∀ tok ∈ words, P tok) :
    ∀ tok ∈ ['('] :: words ++ [[')']], P tok := by
  rw [List.cons_append]
  refine List.forall_mem_cons.2 ⟨hparen _ (by simp), List.forall_mem_append.2 ⟨h, ?_⟩⟩
  exact List.forall_mem_singleton.2 (hparen _ (by simp))

omit [F64 F] [LawfulF64 F] in
/-- Words on both sides of an operator. -/
theorem forall_mem_operator {P : Text → Prop} {words words' : List Text} {op : Text} (hop : P op)
    (h : ∀ tok ∈ words, P tok) (h' : ∀ tok ∈ words', P tok) :
    ∀ tok ∈ words ++ op :: words', P tok :=
  List.forall_mem_append.2 ⟨h, List.forall_mem_cons.2 ⟨hop, h'⟩⟩

omit [F64 F] [LawfulF64 F] in
theorem paren_isWord : ∀ tok ∈ [['('], [')']], IsWord tok ∧ lower tok = tok := by
  intro tok htok
  refine ⟨.symbol ?_, ?_⟩
  · revert tok
    decide
  · revert tok
    decide

/-- The words of a printable expression are words, in lower case. -/
theorem Expr.Printable.words_isWord {e : Expr F} (h : e.Printable) :
    ∀ tok ∈ e.words, IsWord tok ∧ lower tok = tok := by
  induction e with
  | literal v => exact List.forall_mem_singleton.2 (displayLiteral_isWord h.1 h.2)
  | column name => exact List.forall_mem_singleton.2 ⟨.identifier h.1, h.2.1⟩
  | binary lhs op rhs ihl ihr =>
      exact forall_mem_paren paren_isWord
        (forall_mem_operator op.display_isWord (ihl h.1) (ihr h.2))
  | unary op inner ih =>
      exact forall_mem_paren paren_isWord (List.forall_mem_cons.2 ⟨op.word_isWord, ih h⟩)

/-- A text that no word runs on into: it starts with a space or a closing
parenthesis. -/
def Stops (rest : Text) : Prop := ∀ c ∈ rest.head?, c = ' ' ∨ c = ')'

omit [F64 F] [LawfulF64 F] in
theorem Stops.glues {rest : Text} (h : Stops rest) (tok : Text) :
    ∀ c ∈ rest.head?, glues tok c = false := by
  intro c hc
  cases tok with
  | nil => rfl
  | cons first tail =>
      rcases h c hc with rfl | rfl
      · simp [Dsline.glues, show isWordChar asciiOnly ' ' = false by decide,
          show isNumberChar ' ' = false by decide]
      · simp [Dsline.glues, show isWordChar asciiOnly ')' = false by decide,
          show isNumberChar ')' = false by decide]

omit [F64 F] [LawfulF64 F] in
/-- A word right behind a text that stops. -/
theorem Spells.word_stops {words : List Text} {rest : Text} (h : Spells words rest)
    (hstop : Stops rest) (tok : Text) : Spells (tok :: words) (tok ++ rest) :=
  @Spells.word [] tok rest words (fun _ hc => nomatch hc) (hstop.glues tok) h

omit [F64 F] [LawfulF64 F] in
/-- A parenthesis or a minus sign takes nothing in. -/
theorem Spells.symbol {words : List Text} {c : Char} {rest : Text} (h : Spells words rest)
    (hc : c = '(' ∨ c = ')' ∨ c = '-') : Spells ([c] :: words) (c :: rest) := by
  refine @Spells.word [] [c] rest words (fun _ hc => nomatch hc) (fun d _ => ?_) h
  have hclass : isWordStart asciiOnly c = false ∧ isNumberChar c = false ∧
      isRelation c = false := by
    rcases hc with rfl | rfl | rfl <;> decide
  rw [glues, hclass.1, hclass.2.1, hclass.2.2]
  rfl

omit [F64 F] [LawfulF64 F] in
theorem Spells.space {words : List Text} {rest : Text} (h : Spells words rest) :
    Spells words (' ' :: rest) := by
  have hgap : ∀ gap : Text, (∀ c ∈ gap, isSpace c = true) → ∀ c ∈ ' ' :: gap, isSpace c = true := by
    intro gap h c hc
    rcases List.mem_cons.1 hc with rfl | hc
    · decide
    · exact h c hc
  cases h with
  | done h => exact .done (hgap _ h)
  | @word gap tok rest words h hstop hrest =>
      exact @Spells.word (' ' :: gap) tok rest words (hgap _ h) hstop hrest

omit [LawfulF64 F] in
/-- **A printed expression spells its words**, in front of a text that
stops. -/
theorem Expr.spells_display (e : Expr F) {words : List Text} {rest : Text} (h : Spells words rest)
    (hstop : Stops rest) : Spells (e.words ++ words) (e.display ++ rest) := by
  have hspace : ∀ rest : Text, Stops (' ' :: rest) :=
    fun rest c hc => .inl (Option.some.inj hc).symm
  have hclose : ∀ rest : Text, Stops (')' :: rest) :=
    fun rest c hc => .inr (Option.some.inj hc).symm
  induction e generalizing words rest with
  | literal v => exact h.word_stops hstop _
  | column name => exact h.word_stops hstop _
  | binary lhs op rhs ihl ihr =>
      have hrhs := ihr (h.symbol (c := ')') (by decide)) (hclose rest)
      have hop := hrhs.space.word_stops (hspace _) op.display
      have hlhs := ihl hop.space (hspace _)
      have hopen := hlhs.symbol (c := '(') (by decide)
      simpa [Expr.words, display] using hopen
  | unary op inner ih =>
      have hinner := ih (h.symbol (c := ')') (by decide)) (hclose rest)
      cases op with
      | neg =>
          have hopen := (hinner.symbol (c := '-') (by decide)).symbol (c := '(') (by decide)
          simpa [Expr.words, display, UnaryOp.word, UnaryOp.display] using hopen
      | not =>
          have hword := hinner.space.word_stops (hspace _) notText
          have hopen := hword.symbol (c := '(') (by decide)
          simpa [Expr.words, display, UnaryOp.word, UnaryOp.display] using hopen

/-- **A printable expression parses back.** -/
theorem Expr.Printable.parse_display {e : Expr F} (h : e.Printable) :
    parseExpr u e.display = .ok e := by
  have hspells := e.spells_display spells_nil fun _ hc => nomatch hc
  rw [List.append_nil, List.append_nil] at hspells
  have hwords := h.words_isWord
  have htokens : tokenize u e.display = e.words := by
    rw [hspells.tokenize_eq fun tok htok => (hwords tok htok).1]
    exact (List.map_congr_left fun tok htok => (hwords tok htok).2).trans (List.map_id _)
  exact h.written.to_or.parseExpr_eq htokens

/-- **Printing and parsing.** What an ASCII source parses to, if no literal of
it is a NaN, is what its printed text parses to. -/
theorem parseExpr_display {source : Text} {e : Expr F} (hascii : IsAscii source)
    (h : parseExpr u source = .ok e) (hnan : e.NoNaN) : parseExpr u e.display = .ok e :=
  (parseExpr_printable hascii h hnan).parse_display

/-- `not Inf < -2 + And`. -/
theorem parseExpr_display_not :
    let source : Text := ['n', 'o', 't', ' ', 'I', 'n', 'f', ' ', '<', ' ', '-', '2', ' ', '+', ' ',
      'A', 'n', 'd']
    let e : Expr WholeF64 := .binary (.unary .not (.literal (.infinite false))) .lt
      (.binary (.unary .neg (.literal (.finite 2))) .add (.column andText))
    parseExpr asciiOnly source = .ok e ∧ parseExpr asciiOnly e.display = .ok e := by
  intro source e
  have hascii : IsAscii source := by decide
  have hparse : parseExpr asciiOnly source = .ok e := by decide +kernel
  have hnan : e.NoNaN := ⟨rfl, rfl, trivial⟩
  exact ⟨hparse, parseExpr_display hascii hparse hnan⟩

end Dsline
