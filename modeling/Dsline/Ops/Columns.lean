import Dsline.Ops.DisplayRoundTrip
/-!
# Column references

What a source of the documented grammar is parsed as: the tree it stands for,
with every identifier in lower case, and a literal where that is a name
`f64::from_str` knows. An identifier is a column under its own name when
neither changes it.
-/

namespace Dsline

open Split

variable {F : Type} [F64 F] {u : Unicode}

/-- The words the grammar keeps for itself. -/
def keywords : List Text := [andText, orText, notText]

/-- The names `f64::from_str` reads as numbers. -/
def numberNames : List Text := [infText, infinityText, nanText]

/-- NUMBER and IDENT: digits and dots that make a number, and an identifier
that is no keyword. -/
inductive DocumentedAtom : Text → Expr F → Prop
  | number {tok : Text} {v : F} (hchars : ∀ c ∈ tok, isNumberChar c = true)
      (hparse : parseF64 tok = some v) : DocumentedAtom tok (.literal v)
  | ident {name : Text} (hname : IsIdentifier name) (hkey : name ∉ keywords) :
      DocumentedAtom name (.column name)

/-- A step from an expression to one of its operands. -/
inductive Side where
  | left
  | right
  | inner
  deriving DecidableEq, Repr

namespace Expr

/-- The operand at a position. -/
def operandAt : List Side → Expr F → Option (Expr F)
  | [], e => some e
  | .left :: path, .binary lhs _ _ => operandAt path lhs
  | .right :: path, .binary _ _ rhs => operandAt path rhs
  | .inner :: path, .unary _ inner => operandAt path inner
  | _ :: _, _ => none

/-- The columns an expression refers to. -/
def columns : Expr F → List Text
  | .literal _ => []
  | .column name => [name]
  | .binary lhs _ rhs => lhs.columns ++ rhs.columns
  | .unary _ inner => inner.columns

/-- An identifier as the parser reads it. -/
def identAsParsed (name : Text) : Expr F :=
  match parseF64 (lower name) with
  | some v => .literal v
  | none => .column (lower name)

/-- **An expression as the parser reads it.** -/
def asParsed : Expr F → Expr F
  | .literal v => .literal v
  | .column name => identAsParsed name
  | .binary lhs op rhs => .binary lhs.asParsed op rhs.asParsed
  | .unary op inner => .unary op inner.asParsed

/-- An identifier keeps its position. -/
theorem operandAt_asParsed {e : Expr F} {path : List Side} {name : Text}
    (h : e.operandAt path = some (.column name)) :
    e.asParsed.operandAt path = some (identAsParsed name) := by
  induction path generalizing e with
  | nil =>
      obtain rfl := Option.some.inj h
      rfl
  | cons side path ih =>
      cases side with
      | left =>
          cases e with
          | binary lhs op rhs => exact ih h
          | _ => cases h
      | right =>
          cases e with
          | binary lhs op rhs => exact ih h
          | _ => cases h
      | inner =>
          cases e with
          | unary op inner => exact ih h
          | _ => cases h

end Expr

/-! ## The numbers among the identifiers -/

/-- A text that starts with neither a digit nor a dot has no mantissa. -/
theorem parseMantissa_cons {c : Char} {text : Text} (hdigit : c.isDigit = false) (hdot : c ≠ '.') :
    parseMantissa (c :: text) = none := by
  have hnot : ∀ tail : Text, ¬ IsDigits (c :: tail) := by
    intro tail h
    have := List.all_eq_true.1 h.2 c List.mem_cons_self
    rw [hdigit] at this
    cases this
  rw [parseMantissa]
  cases hsplit : splitOnce ['.'] (c :: text) with
  | none => exact if_neg (hnot text)
  | some halves =>
      obtain ⟨-, htext⟩ := splitOnce_single.1 hsplit
      obtain ⟨whole, fraction⟩ := halves
      cases whole with
      | nil => exact absurd (List.cons.inj htext).1 hdot
      | cons d whole =>
          rw [List.cons_append] at htext
          obtain ⟨rfl, -⟩ := List.cons.inj htext
          exact if_neg (hnot _)

theorem parseDecimal_cons {c : Char} {text : Text} (hdigit : c.isDigit = false) (hdot : c ≠ '.') :
    parseDecimal (F := F) (c :: text) = none := by
  rw [parseDecimal]
  split
  · rw [parseMantissa_cons hdigit hdot]
    rfl
  · cases hmark : isExponentMark c with
    | true =>
        rw [List.takeWhile_cons_of_neg (by simp [hmark])]
        rfl
    | false =>
        rw [List.takeWhile_cons_of_pos (by simp [hmark]), parseMantissa_cons hdigit hdot]
        rfl

/-- An identifier starts with no character a number or a sign starts with. -/
theorem IsIdentifier.starts {name : Text} (h : IsIdentifier name) :
    ∃ c text, name = c :: text ∧ c.isDigit = false ∧ c ≠ '.' ∧ c ≠ '-' ∧ c ≠ '+' := by
  have hclass : ∀ n < 128, isWordStart asciiOnly (Char.ofNat n) = true →
      (Char.ofNat n).isDigit = false ∧ Char.ofNat n ≠ '.' ∧ Char.ofNat n ≠ '-' ∧
        Char.ofNat n ≠ '+' := by
    decide +kernel
  cases name with
  | nil => cases h.1
  | cons c text =>
      have hstart : isWordStart asciiOnly c = true := h.1
      exact ⟨c, text, rfl, forall_ascii
        (P := fun c => isWordStart asciiOnly c = true →
          c.isDigit = false ∧ c ≠ '.' ∧ c ≠ '-' ∧ c ≠ '+')
        hclass (isWordChar_lt (isWordChar_of_start hstart)) hstart⟩

/-- **The identifiers that are numbers** are the three names, in any case. -/
theorem parseF64_identifier {name : Text} (h : IsIdentifier name) :
    parseF64 (F := F) (lower name) = none ↔ lower name ∉ numberNames := by
  obtain ⟨hident, htwice⟩ := h.lower
  obtain ⟨c, text, htext, hdigit, hdot, hminus, hplus⟩ := hident.starts
  -- no sign and no digit in front: only the three names are left to be numbers
  have hunsigned : parseF64 (F := F) (lower name) = parseUnsigned (lower name) := by
    rw [htext]
    unfold parseF64
    split
    · rename_i heq
      exact absurd (List.cons.inj heq).1 hminus
    · rename_i heq
      exact absurd (List.cons.inj heq).1 hplus
    · rfl
  have hmap : (lower name).map Char.toLower = lower name := htwice
  have hdecimal : parseDecimal (F := F) (lower name) = none := by
    rw [htext]
    exact parseDecimal_cons hdigit hdot
  rw [hunsigned, parseUnsigned, hmap, hdecimal]
  simp only [numberNames, List.mem_cons, List.not_mem_nil, or_false]
  split_ifs with hinf hnan
  · simp [hinf, ← or_assoc]
  · simp [hnan]
  · simp only [true_iff]
    rintro (h | h | h)
    · exact hinf (.inl h)
    · exact hinf (.inr h)
    · exact hnan h

/-! ## What a source of the grammar is parsed as -/

/-- The words of the documented grammar are words. -/
theorem Derives.isWord {level : Level} {words : List Text} {e : Expr F}
    (h : Derives DocumentedAtom level words e) : ∀ tok ∈ words, IsWord tok := by
  induction h with
  | leaf h =>
      refine List.forall_mem_singleton.2 ?_
      cases h with
      | number hchars hparse =>
          refine .number ?_ hchars
          rintro rfl
          cases hparse
      | ident hname hkey => exact .identifier hname
  | paren h ih => exact forall_mem_paren (fun tok htok => (paren_isWord tok htok).1) ih
  | @unary op words e h ih => exact List.forall_mem_cons.2 ⟨op.word_isWord.1, ih⟩
  | @comparison op words words' e e' hop h h' ih ih' =>
      exact forall_mem_operator op.display_isWord.1 ih ih'
  | @binary op words words' e e' hop h h' ih ih' =>
      exact forall_mem_operator op.display_isWord.1 ih ih'
  | operand hlevel h ih => exact ih

/-- An identifier reads as a number or a column; one that is `not` in another
case does not read as an operand at all. -/
theorem ident_readsAs {name : Text} (hname : IsIdentifier name) (hnot : lower name ≠ notText) :
    ReadsAs (F := F) u (lower name) (Expr.identAsParsed name) := by
  refine identifier_readsAs hname.lower.1 hnot ?_
  rw [Expr.identAsParsed]
  cases hparse : parseF64 (F := F) (lower name) with
  | some v => exact .inl ⟨v, rfl, rfl⟩
  | none => exact .inr ⟨rfl, rfl⟩

/-- **A source of the documented grammar, in lower case**, is one the parser
reads, as the tree it reads. -/
theorem Derives.asParsed {level : Level} {words : List Text} {e : Expr F}
    (h : Derives DocumentedAtom level words e) (hnot : ∀ name ∈ e.columns, lower name ≠ notText) :
    Derives (ReadsAs u) level (words.map lower) e.asParsed := by
  induction h with
  | leaf h =>
      cases h with
      | number hchars hparse =>
          rw [List.map_singleton, lower_number hchars]
          exact .leaf (number_readsAs hchars hparse)
      | ident hname hkey => exact .leaf (ident_readsAs hname (hnot _ List.mem_cons_self))
  | paren h ih =>
      have hinner := Derives.paren (ih hnot)
      rw [List.map_append, List.map_cons]
      exact hinner
  | @unary op words e h ih =>
      rw [List.map_cons, op.word_isWord.2]
      exact .unary (ih hnot)
  | @comparison op words words' e e' hop h h' ih ih' =>
      rw [List.map_append, List.map_cons, op.display_isWord.2]
      exact .comparison hop (ih fun name hname => hnot name (List.mem_append_left _ hname))
        (ih' fun name hname => hnot name (List.mem_append_right _ hname))
  | @binary op words words' e e' hop h h' ih ih' =>
      rw [List.map_append, List.map_cons, op.display_isWord.2]
      exact .binary hop (ih fun name hname => hnot name (List.mem_append_left _ hname))
        (ih' fun name hname => hnot name (List.mem_append_right _ hname))
  | operand hlevel h ih => exact .operand hlevel (ih hnot)

/-- **What a source of the documented grammar is parsed as.** -/
theorem Derives.parseExpr_asParsed {words : List Text} {source : Text} {e : Expr F}
    (h : Derives DocumentedAtom .or words e) (hspells : Spells words source)
    (hnot : ∀ name ∈ e.columns, lower name ≠ notText) : parseExpr u source = .ok e.asParsed :=
  (h.asParsed hnot).parseExpr_eq (hspells.tokenize_eq h.isWord)

/-! ## Which references resolve as written -/

/-- **The operand at a position is the column of that name**, and its value
is what the record has under it. -/
def ResolvesAt (parsed : Except ParseError (Expr F)) (path : List Side) (name : Text) : Prop :=
  ∃ e, parsed = .ok e ∧ e.operandAt path = some (.column name) ∧
    ∀ rec : Record F, (e.operandAt path).bind (eval · rec) = rec name

/-- The value of a source for a record. -/
def evalSource (u : Unicode) (source : Text) (rec : Record F) : Option F :=
  match parseExpr u source with
  | .ok e => eval e rec
  | .error _ => none

/-- A name that lower-casing leaves as it is and that is no number. -/
def ReadAsWritten (name : Text) : Prop := lower name = name ∧ name ∉ numberNames

theorem identAsParsed_eq_column {name : Text} (hname : IsIdentifier name) :
    Expr.identAsParsed name = (.column name : Expr F) ↔ ReadAsWritten name := by
  rw [Expr.identAsParsed, ReadAsWritten]
  have hnum := parseF64_identifier (F := F) hname
  cases hparse : parseF64 (F := F) (lower name) with
  | some v =>
      simp only [reduceCtorEq, false_iff, not_and, not_not]
      intro hlower
      rw [hparse] at hnum
      rw [← hlower]
      exact not_not.1 fun hmem => nomatch hnum.2 hmem
  | none =>
      rw [Expr.column.injEq]
      refine ⟨fun hlower => ⟨hlower, ?_⟩, fun h => h.1⟩
      rw [← hlower]
      exact hnum.1 hparse

/-- An identifier on its own, as a source. -/
theorem spells_name (name : Text) : Spells [name] name := by
  have hspells := spells_nil.word_stops (fun _ hc => nomatch hc) name
  rwa [List.append_nil] at hspells

theorem written_name {name : Text} (hname : IsIdentifier name) (hkey : name ∉ keywords) :
    Derives (F := F) DocumentedAtom .or [name] (.column name) :=
  (Derives.leaf (.ident hname hkey)).to_or

/-- A source that is `not` in another case is no expression. -/
theorem parseExpr_not {name : Text} (hname : IsIdentifier name) (hnot : lower name = notText) :
    parseExpr (F := F) u name = .error .unexpectedEnd := by
  have htokens : tokenize u name = [notText] := by
    rw [(spells_name name).tokenize_eq fun tok htok =>
      List.mem_singleton.1 htok ▸ IsWord.identifier hname, List.map_singleton, hnot]
  rw [parseExpr, htokens]
  rfl

/-- **A name evaluates to its column** for every record, when it is read as
written. -/
theorem evalSource_name_iff {name : Text} (hname : IsIdentifier name) (hkey : name ∉ keywords) :
    (∀ rec : Record F, evalSource u name rec = rec name) ↔ ReadAsWritten name := by
  by_cases hnot : lower name = notText
  · have hread : ¬ ReadAsWritten name := by
      rintro ⟨hlower, -⟩
      exact hkey (by rw [← hlower, hnot]; decide)
    refine iff_of_false (fun h => ?_) hread
    have hval := h fun _ => some F64.nan
    rw [evalSource, parseExpr_not hname hnot] at hval
    cases hval
  · have hparse := (written_name (F := F) hname hkey).parseExpr_asParsed (u := u) (spells_name name)
      fun other hother => List.mem_singleton.1 hother ▸ hnot
    have hvalue : ∀ rec : Record F, evalSource u name rec = eval (Expr.identAsParsed name) rec := by
      intro rec
      rw [evalSource, hparse]
      rfl
    rw [← identAsParsed_eq_column (F := F) hname]
    constructor
    · intro h
      cases hcase : Expr.identAsParsed (F := F) name with
      | column other =>
          have hval := h fun n => if n = name then some F64.nan else none
          rw [hvalue, hcase, if_pos rfl, eval] at hval
          split_ifs at hval with hother
          rw [hother]
      | literal v =>
          have hval := h fun _ => none
          rw [hvalue, hcase] at hval
          cases hval
      | binary lhs op rhs =>
          rw [Expr.identAsParsed] at hcase
          split at hcase <;> cases hcase
      | unary op inner =>
          rw [Expr.identAsParsed] at hcase
          split at hcase <;> cases hcase
    · intro h rec
      rw [hvalue, h]
      rfl

/-- **An operand is the column it is written as**, when its name is read as
written. -/
theorem resolvesAt_iff {words : List Text} {source : Text} {e : Expr F} {path : List Side}
    {name : Text} (hname : IsIdentifier name) (h : Derives DocumentedAtom .or words e)
    (hspells : Spells words source) (hat : e.operandAt path = some (.column name))
    (hnot : ∀ other ∈ e.columns, lower other ≠ notText) :
    ResolvesAt (F := F) (parseExpr u source) path name ↔ ReadAsWritten name := by
  rw [h.parseExpr_asParsed hspells hnot, ← identAsParsed_eq_column (F := F) hname]
  have hparsed := Expr.operandAt_asParsed hat
  constructor
  · rintro ⟨e', he', hcolumn, -⟩
    obtain rfl := Except.ok.inj he'
    rw [hparsed] at hcolumn
    exact Option.some.inj hcolumn
  · intro hcolumn
    refine ⟨_, rfl, by rw [hparsed, hcolumn], fun rec => ?_⟩
    rw [hparsed, hcolumn]
    rfl

omit [F64 F] in
/-- The columns of an expression are its operands that are columns. -/
theorem Expr.mem_columns_iff {e : Expr F} {name : Text} :
    name ∈ e.columns ↔ ∃ path, e.operandAt path = some (.column name) := by
  constructor
  · intro h
    induction e with
    | literal v => cases h
    | column other =>
        obtain rfl := List.mem_singleton.1 h
        exact ⟨[], rfl⟩
    | binary lhs op rhs ihl ihr =>
        rcases List.mem_append.1 h with h | h
        · obtain ⟨path, hpath⟩ := ihl h
          exact ⟨.left :: path, hpath⟩
        · obtain ⟨path, hpath⟩ := ihr h
          exact ⟨.right :: path, hpath⟩
    | unary op inner ih =>
        obtain ⟨path, hpath⟩ := ih h
        exact ⟨.inner :: path, hpath⟩
  · rintro ⟨path, hpath⟩
    induction path generalizing e with
    | nil =>
        obtain rfl := Option.some.inj hpath
        exact List.mem_singleton_self _
    | cons side path ih =>
        cases side with
        | left =>
            cases e with
            | binary lhs op rhs => exact List.mem_append_left _ (ih hpath)
            | _ => cases hpath
        | right =>
            cases e with
            | binary lhs op rhs => exact List.mem_append_right _ (ih hpath)
            | _ => cases hpath
        | inner =>
            cases e with
            | unary op inner => exact ih (e := inner) hpath
            | _ => cases hpath

/-- The columns of a source of the grammar are identifiers, and no
keywords. -/
theorem Derives.columns_ident {level : Level} {words : List Text} {e : Expr F}
    (h : Derives DocumentedAtom level words e) :
    ∀ name ∈ e.columns, IsIdentifier name ∧ name ∉ keywords := by
  induction h with
  | leaf h =>
      intro name hmem
      cases h with
      | number hchars hparse => cases hmem
      | ident hname hkey =>
          obtain rfl := List.mem_singleton.1 hmem
          exact ⟨hname, hkey⟩
  | paren h ih => exact ih
  | unary h ih => exact ih
  | comparison hop h h' ih ih' =>
      exact fun name hmem => (List.mem_append.1 hmem).elim (ih name) (ih' name)
  | binary hop h h' ih ih' =>
      exact fun name hmem => (List.mem_append.1 hmem).elim (ih name) (ih' name)
  | operand hlevel h ih => exact ih

/-- The columns of what the parser returns are tokens. -/
theorem Expr.LeavesFrom.of_mem_columns {tokens : List Text} {e : Expr F} {name : Text}
    (h : e.LeavesFrom u tokens) (hmem : name ∈ e.columns) :
    name ∈ tokens ∧ parseF64 (F := F) name = none ∧ isIdent u name = true := by
  induction e with
  | literal v => cases hmem
  | column other =>
      obtain rfl := List.mem_singleton.1 hmem
      exact ⟨h.1, h.2.1, h.2.2.1⟩
  | binary lhs op rhs ihl ihr =>
      exact (List.mem_append.1 hmem).elim (ihl h.1) (ihr h.2)
  | unary op inner ih => exact ih h hmem

/-- **No column of a parsed source has a name it would not be read by.** -/
theorem ResolvesAt.readAsWritten {source : Text} {path : List Side} {name : Text}
    (hascii : IsAscii source) (h : ResolvesAt (F := F) (parseExpr u source) path name) :
    ReadAsWritten name := by
  obtain ⟨e, hparse, hat, -⟩ := h
  obtain ⟨htok, hnum, hident⟩ :=
    (parseExpr_leaves hparse).of_mem_columns (Expr.mem_columns_iff.2 ⟨path, hat⟩)
  have hshape := tokenize_shape (u := u) hascii name htok
  rw [isIdent_ascii hshape.ascii] at hident
  obtain ⟨hname, hlower⟩ := hshape.identifier hident
  refine ⟨hlower, ?_⟩
  have hiff := parseF64_identifier (F := F) hname
  rw [hlower] at hiff
  exact hiff.1 hnum

/-- **Column references resolve as written** in the sources all of whose
identifiers are read as written, and in no others. Short of an operand that
is `not` in another case, each reference is a matter of its own name; so is
an identifier that is the whole source. -/
theorem columns_resolve_iff {words : List Text} {source : Text} {e : Expr F}
    (h : Derives DocumentedAtom .or words e) (hspells : Spells words source) :
    ((∀ path name, e.operandAt path = some (.column name) →
        ResolvesAt (F := F) (parseExpr u source) path name) ↔
      ∀ name ∈ e.columns, ReadAsWritten name) ∧
    (∀ path name, e.operandAt path = some (.column name) →
      (∀ other ∈ e.columns, lower other ≠ notText) →
      (ResolvesAt (F := F) (parseExpr u source) path name ↔ ReadAsWritten name)) ∧
    ∀ name, IsIdentifier name → name ∉ keywords →
      ((∀ rec : Record F, evalSource u name rec = rec name) ↔ ReadAsWritten name) := by
  have hident := h.columns_ident
  refine ⟨⟨fun hall name hmem => ?_, fun hall path name hat => ?_⟩, fun path name hat hnot => ?_,
    fun name hname hkey => evalSource_name_iff hname hkey⟩
  · obtain ⟨path, hat⟩ := Expr.mem_columns_iff.1 hmem
    exact (hall path name hat).readAsWritten (hspells.isAscii h.isWord)
  · have hmem := Expr.mem_columns_iff.2 ⟨path, hat⟩
    refine (resolvesAt_iff (hident name hmem).1 h hspells hat fun other hother => ?_).2
      (hall name hmem)
    rw [(hall other hother).1]
    exact fun heq => (hident other hother).2 (by rw [heq]; decide)
  · exact resolvesAt_iff (hident name (Expr.mem_columns_iff.2 ⟨path, hat⟩)).1 h hspells hat hnot

def tempText : Text := ['t', 'e', 'm', 'p']

/-- `temp`, as a source. -/
theorem columns_resolve_iff_temp :
    (∀ path name, (Expr.column tempText : Expr WholeF64).operandAt path = some (.column name) →
      ResolvesAt (parseExpr asciiOnly tempText : Except _ (Expr WholeF64)) path name) ∧
    ∀ rec : Record WholeF64, evalSource asciiOnly tempText rec = rec tempText := by
  have hread : ReadAsWritten tempText := by unfold ReadAsWritten; decide
  have h := columns_resolve_iff (F := WholeF64) (u := asciiOnly)
    (written_name (by decide : IsIdentifier tempText) (by decide)) (spells_name tempText)
  exact ⟨h.1.2 fun name hname => List.mem_singleton.1 hname ▸ hread,
    (h.2.2 tempText (by decide) (by decide)).2 hread⟩

/-- **`Temp` is read as `temp`**, and `inf` as a number: neither evaluates to
its column. -/
theorem columns_lowercased :
    ¬ ∀ name : Text, IsIdentifier name → name ∉ keywords →
      ResolvesAt (parseExpr asciiOnly name : Except _ (Expr WholeF64)) [] name ∧
        ∀ rec : Record WholeF64, evalSource asciiOnly name rec = rec name := by
  intro h
  obtain ⟨⟨e, hparse, hcolumn, -⟩, -⟩ := h ['T', 'e', 'm', 'p'] (by decide) (by decide)
  have htemp : (parseExpr asciiOnly ['T', 'e', 'm', 'p'] : Except ParseError (Expr WholeF64))
      = .ok (.column tempText) := by
    decide +kernel
  rw [htemp] at hparse
  obtain rfl := Except.ok.inj hparse
  exact absurd (Option.some.inj hcolumn) (by decide)

end Dsline
