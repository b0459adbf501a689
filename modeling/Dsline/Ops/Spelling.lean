import Dsline.Ops.Tokenizer
import Mathlib.Data.List.TakeWhile
import Mathlib.Data.Nat.Notation
import Mathlib.Tactic.SplitIfs
/-!
# Spelling

A source spells a list of words: the words one behind the other, with any
white space between them and at least some where two words would be one. The
tokenizer finds the words of what it spells, in lower case.
-/

namespace Dsline

/-! ## The rounds of the tokenizer -/

variable {u : Unicode}

theorem isWordChar_of_start {c : Char} (h : isWordStart u c = true) : isWordChar u c = true := by
  simp only [isWordStart, isWordChar, Bool.or_eq_true] at h ⊢
  exact h.elim (fun h => .inl (.inl h)) .inr

theorem length_dropWhile_cons {p : Char → Bool} {c : Char} (h : p c = true) (rest : Text) :
    ((c :: rest).dropWhile p).length ≤ rest.length := by
  rw [List.dropWhile_cons_of_pos h]
  exact (List.dropWhile_suffix p).length_le

/-- **A round takes a character at least.** -/
theorem length_nextToken_le (ch : Char) (rest : Text) :
    (nextToken u ch rest).2.length ≤ rest.length := by
  unfold nextToken
  split_ifs with hspace hparen hrel harith hnum hword
  · exact le_rfl
  · exact le_rfl
  · split
    · exact Nat.le_succ _
    · exact le_rfl
  · exact le_rfl
  · exact length_dropWhile_cons hnum rest
  · exact length_dropWhile_cons (isWordChar_of_start hword) rest
  · exact le_rfl

/-- **There are rounds enough.** -/
theorem tokenizeLoop_rounds {rounds : ℕ} {source : Text} (h : source.length ≤ rounds) :
    tokenizeLoop u rounds source = tokenize u source := by
  rw [tokenize]
  induction hlen : source.length using Nat.strong_induction_on generalizing rounds source with
  | h len ih =>
      cases source with
      | nil => cases rounds <;> cases len <;> rfl
      | cons ch rest =>
          rw [List.length_cons] at h hlen
          obtain ⟨rounds, rfl⟩ := Nat.exists_eq_succ_of_ne_zero (by omega : rounds ≠ 0)
          subst hlen
          have hle := length_nextToken_le (u := u) ch rest
          rw [Nat.succ_eq_add_one, tokenizeLoop, tokenizeLoop]
          cases hnext : nextToken u ch rest with
          | mk tok rest' =>
              rw [hnext] at hle
              dsimp only at hle
              have hagree : ∀ rounds, rest'.length ≤ rounds →
                  tokenizeLoop u rounds rest' = tokenizeLoop u rest'.length rest' :=
                fun rounds hrounds => ih rest'.length (by omega) hrounds rfl
              cases tok with
              | none => exact (hagree _ (by omega)).trans (hagree _ hle).symm
              | some tok =>
                  dsimp only
                  rw [hagree _ (by omega), hagree _ hle]

theorem tokenize_cons_some {ch : Char} {rest rest' tok : Text}
    (h : nextToken u ch rest = (some tok, rest')) :
    tokenize u (ch :: rest) = tok :: tokenize u rest' := by
  have hle := length_nextToken_le (u := u) ch rest
  rw [h] at hle
  rw [tokenize, List.length_cons, tokenizeLoop, h]
  dsimp only
  rw [tokenizeLoop_rounds hle]

theorem tokenize_cons_none {ch : Char} {rest rest' : Text}
    (h : nextToken u ch rest = (none, rest')) : tokenize u (ch :: rest) = tokenize u rest' := by
  have hle := length_nextToken_le (u := u) ch rest
  rw [h] at hle
  rw [tokenize, List.length_cons, tokenizeLoop, h]
  dsimp only
  rw [tokenizeLoop_rounds hle]

/-! ## ASCII sources -/

theorem IsAscii.tail {ch : Char} {rest : Text} (h : IsAscii (ch :: rest)) : IsAscii rest :=
  fun c hc => h c (List.mem_cons_of_mem _ hc)

theorem isWordStart_ascii {c : Char} (h : c.toNat < 128) :
    isWordStart u c = isWordStart asciiOnly c := by
  rw [isWordStart, isWordStart, u.isAlphabetic_ascii c h]
  rfl

theorem isWordChar_ascii {c : Char} (h : c.toNat < 128) :
    isWordChar u c = isWordChar asciiOnly c := by
  rw [isWordChar, isWordChar, u.isAlphabetic_ascii c h, u.isNumeric_ascii c h]
  rfl

theorem takeWhile_ascii {text : Text} (h : IsAscii text) :
    text.takeWhile (isWordChar u) = text.takeWhile (isWordChar asciiOnly) ∧
      text.dropWhile (isWordChar u) = text.dropWhile (isWordChar asciiOnly) := by
  induction text with
  | nil => exact ⟨rfl, rfl⟩
  | cons c text ih =>
      obtain ⟨htake, hdrop⟩ := ih h.tail
      have hc := isWordChar_ascii (u := u) (h c List.mem_cons_self)
      rw [List.takeWhile_cons, List.takeWhile_cons, List.dropWhile_cons, List.dropWhile_cons, hc,
        htake, hdrop]
      exact ⟨rfl, rfl⟩

theorem nextToken_ascii {ch : Char} {rest : Text} (h : IsAscii (ch :: rest)) :
    nextToken u ch rest = nextToken asciiOnly ch rest := by
  have hwords := takeWhile_ascii (u := u) h
  have hlower : u.toLowercase ((ch :: rest).takeWhile (isWordChar asciiOnly))
      = asciiOnly.toLowercase ((ch :: rest).takeWhile (isWordChar asciiOnly)) :=
    u.toLowercase_ascii _ fun c hc => h c ((List.takeWhile_prefix _).subset hc)
  unfold nextToken
  rw [isWordStart_ascii (h ch List.mem_cons_self), hwords.1, hwords.2, hlower]

theorem nextToken_ascii_rest {ch : Char} {rest : Text} (h : IsAscii (ch :: rest)) :
    IsAscii (nextToken asciiOnly ch rest).2 := by
  have hsub : ∀ p : Char → Bool, IsAscii ((ch :: rest).dropWhile p) :=
    fun p c hc => h c ((List.dropWhile_suffix p).subset hc)
  unfold nextToken
  split_ifs
  · exact h.tail
  · exact h.tail
  · split
    · exact h.tail.tail
    · exact h.tail
  · exact h.tail
  · exact hsub _
  · exact hsub _
  · exact h.tail

/-- **The rounds over an ASCII source**, as an induction: what is left of it
is ASCII again. -/
theorem IsAscii.rounds {P : Text → Prop} (hnil : P [])
    (hskip : ∀ ch rest rest', IsAscii (ch :: rest) →
      nextToken asciiOnly ch rest = (none, rest') → P rest' → P (ch :: rest))
    (htoken : ∀ ch rest tok rest', IsAscii (ch :: rest) →
      nextToken asciiOnly ch rest = (some tok, rest') → P rest' → P (ch :: rest))
    {source : Text} (h : IsAscii source) : P source := by
  induction hlen : source.length using Nat.strong_induction_on generalizing source with
  | h len ih =>
      cases source with
      | nil => exact hnil
      | cons ch rest =>
          rw [List.length_cons] at hlen
          have hle := length_nextToken_le (u := asciiOnly) ch rest
          have hrest := nextToken_ascii_rest h
          cases hnext : nextToken asciiOnly ch rest with
          | mk tok rest' =>
              rw [hnext] at hle hrest
              dsimp only at hle hrest
              have hleft := ih rest'.length (by omega) hrest rfl
              cases tok with
              | none => exact hskip ch rest rest' h hnext hleft
              | some tok => exact htoken ch rest tok rest' h hnext hleft

/-- **The tables of ASCII are enough for an ASCII source.** -/
theorem tokenize_ascii {source : Text} (h : IsAscii source) :
    tokenize u source = tokenize asciiOnly source := by
  refine IsAscii.rounds (P := fun source => tokenize u source = tokenize asciiOnly source) rfl
    (fun ch rest rest' hascii hnext ih => ?_) (fun ch rest tok rest' hascii hnext ih => ?_) h
  · rw [tokenize_cons_none ((nextToken_ascii hascii).trans hnext), tokenize_cons_none hnext, ih]
  · rw [tokenize_cons_some ((nextToken_ascii hascii).trans hnext), tokenize_cons_some hnext, ih]

/-! ## Words -/

/-- An identifier: a letter or an underscore, and letters, digits and
underscores behind it. -/
def IsIdentifier (name : Text) : Prop :=
  name.head?.any (isWordStart asciiOnly) = true ∧ ∀ c ∈ name, isWordChar asciiOnly c = true

instance (name : Text) : Decidable (IsIdentifier name) :=
  @instDecidableAnd _ _ inferInstance (List.decidableBAll _ name)

/-- The operators and parentheses. -/
def symbols : List Text :=
  [['('], [')'], ['+'], ['-'], ['*'], ['/'], ['<'], ['>'], ['<', '='], ['>', '='], ['=', '='],
    ['!', '=']]

/-- **A word of a source**: an operator or a parenthesis, digits and dots, or
an identifier. -/
inductive IsWord : Text → Prop
  | symbol {tok : Text} (h : tok ∈ symbols) : IsWord tok
  | number {tok : Text} (hne : tok ≠ []) (h : ∀ c ∈ tok, isNumberChar c = true) : IsWord tok
  | identifier {tok : Text} (h : IsIdentifier tok) : IsWord tok

/-- Whether a character right behind a word would be taken into it. -/
def glues : Text → Char → Bool
  | [], _ => false
  | first :: tail, c =>
      (isWordStart asciiOnly first && isWordChar asciiOnly c) ||
        (isNumberChar first && isNumberChar c) || (isRelation first && tail = [] && c = '=')

/-- **A source that spells words.** -/
inductive Spells : List Text → Text → Prop
  | done {gap : Text} (h : ∀ c ∈ gap, isSpace c = true) : Spells [] gap
  | word {gap tok rest : Text} {words : List Text} (hgap : ∀ c ∈ gap, isSpace c = true)
      (hstop : ∀ c ∈ rest.head?, glues tok c = false) (h : Spells words rest) :
      Spells (tok :: words) (gap ++ tok ++ rest)

theorem spells_nil : Spells [] [] := .done fun _ hc => nomatch hc

/-- Lower case, letter by letter. -/
def lower (text : Text) : Text := text.map Char.toLower

theorem isWordChar_lt {c : Char} (h : isWordChar asciiOnly c = true) : c.toNat < 128 := by
  have hclass : (((decide (c.val ≥ 'A'.val ∧ c.val ≤ 'Z'.val)) ||
      (c.val ≥ 'a'.val && c.val ≤ 'z'.val)) || (c.val ≥ '0'.val && c.val ≤ '9'.val) ||
      c = '_') = true := h
  simp only [Bool.or_eq_true, Bool.and_eq_true, decide_eq_true_eq, UInt32.le_iff_toNat_le] at hclass
  have hval : c.toNat = c.val.toNat := rfl
  rcases hclass with ((⟨-, h⟩ | ⟨-, h⟩) | ⟨-, h⟩) | rfl
  · exact lt_of_le_of_lt (hval ▸ h) (by decide)
  · exact lt_of_le_of_lt (hval ▸ h) (by decide)
  · exact lt_of_le_of_lt (hval ▸ h) (by decide)
  · decide

theorem isNumberChar_lt {c : Char} (h : isNumberChar c = true) : c.toNat < 128 := by
  simp only [isNumberChar, Char.isDigit, Bool.or_eq_true, Bool.and_eq_true, decide_eq_true_eq,
    UInt32.le_iff_toNat_le, ge_iff_le] at h
  have hval : c.toNat = c.val.toNat := rfl
  rcases h with ⟨-, h⟩ | rfl
  · exact lt_of_le_of_lt (hval ▸ h) (by decide)
  · decide

theorem isSpace_lt {c : Char} (h : isSpace c = true) : c.toNat < 128 := by
  simp only [isSpace, Bool.or_eq_true, decide_eq_true_eq] at h
  rcases h with ((rfl | rfl) | rfl) | rfl <;> decide

theorem IsWord.isAscii {tok : Text} (h : IsWord tok) : IsAscii tok := by
  cases h with
  | symbol h =>
      revert tok
      decide
  | number hne h => exact fun c hc => isNumberChar_lt (h c hc)
  | identifier h => exact fun c hc => isWordChar_lt (h.2 c hc)

theorem Spells.isAscii {words : List Text} {source : Text} (h : Spells words source)
    (hwords : ∀ tok ∈ words, IsWord tok) : IsAscii source := by
  induction h with
  | done h => exact fun c hc => isSpace_lt (h c hc)
  | word hgap hstop h ih =>
      intro c hc
      rcases List.mem_append.1 hc with hc | hc
      · rcases List.mem_append.1 hc with hc | hc
        · exact isSpace_lt (hgap c hc)
        · exact (hwords _ List.mem_cons_self).isAscii c hc
      · exact ih (fun tok htok => hwords tok (List.mem_cons_of_mem _ htok)) c hc

theorem takeWhile_stop {p : Char → Bool} {tok rest : Text} (h : ∀ c ∈ tok, p c = true)
    (hstop : ∀ c ∈ rest.head?, p c = false) :
    (tok ++ rest).takeWhile p = tok ∧ (tok ++ rest).dropWhile p = rest := by
  induction tok with
  | nil =>
      cases rest with
      | nil => exact ⟨rfl, rfl⟩
      | cons c rest =>
          have hc := hstop c rfl
          exact ⟨List.takeWhile_cons_of_neg (by simp [hc]),
            List.dropWhile_cons_of_neg (by simp [hc])⟩
  | cons c tok ih =>
      obtain ⟨htake, hdrop⟩ := ih fun d hd => h d (List.mem_cons_of_mem _ hd)
      have hc := h c List.mem_cons_self
      rw [List.cons_append, List.takeWhile_cons_of_pos hc, List.dropWhile_cons_of_pos hc, htake,
        hdrop]
      exact ⟨rfl, rfl⟩

/-- What holds of the 128 characters of ASCII, one by one. -/
theorem forall_ascii {P : Char → Prop} (h : ∀ n < 128, P (Char.ofNat n)) {c : Char}
    (hc : c.toNat < 128) : P c :=
  Char.ofNat_toNat c ▸ h c.toNat hc

/-- A character of a number is none of the characters looked for first. -/
theorem nextToken_number {c : Char} (hc : isNumberChar c = true) (rest : Text) :
    nextToken asciiOnly c rest
      = (some ((c :: rest).takeWhile isNumberChar), (c :: rest).dropWhile isNumberChar) := by
  have hclass : ∀ n < 128, isNumberChar (Char.ofNat n) = true →
      isSpace (Char.ofNat n) = false ∧ ¬ (Char.ofNat n = '(' ∨ Char.ofNat n = ')') ∧
        isRelation (Char.ofNat n) = false ∧ isArithmetic (Char.ofNat n) = false := by
    decide +kernel
  obtain ⟨hspace, hparen, hrel, harith⟩ :=
    forall_ascii (P := fun c => isNumberChar c = true → isSpace c = false ∧ ¬ (c = '(' ∨ c = ')') ∧
      isRelation c = false ∧ isArithmetic c = false) hclass (isNumberChar_lt hc) hc
  unfold nextToken
  rw [hspace, hrel, harith, hc, if_neg (by simp), if_neg hparen, if_neg (by simp),
    if_neg (by simp), if_pos rfl]

/-- Nor is the first character of an identifier. -/
theorem nextToken_identifier {c : Char} (hc : isWordStart asciiOnly c = true) (rest : Text) :
    nextToken asciiOnly c rest
      = (some (lower ((c :: rest).takeWhile (isWordChar asciiOnly))),
        (c :: rest).dropWhile (isWordChar asciiOnly)) := by
  have hclass : ∀ n < 128, isWordStart asciiOnly (Char.ofNat n) = true →
      isSpace (Char.ofNat n) = false ∧ ¬ (Char.ofNat n = '(' ∨ Char.ofNat n = ')') ∧
        isRelation (Char.ofNat n) = false ∧ isArithmetic (Char.ofNat n) = false ∧
        isNumberChar (Char.ofNat n) = false := by
    decide +kernel
  obtain ⟨hspace, hparen, hrel, harith, hnum⟩ :=
    forall_ascii (P := fun c => isWordStart asciiOnly c = true → isSpace c = false ∧
      ¬ (c = '(' ∨ c = ')') ∧ isRelation c = false ∧ isArithmetic c = false ∧
      isNumberChar c = false) hclass (isWordChar_lt (isWordChar_of_start hc)) hc
  unfold nextToken
  rw [hspace, hrel, harith, hnum, hc, if_neg (by simp), if_neg hparen, if_neg (by simp),
    if_neg (by simp), if_neg (by simp), if_pos rfl]
  rfl

/-- An operator character that no equals sign follows is a token. -/
theorem nextToken_relation {c : Char} (hc : c = '<' ∨ c = '>') {rest : Text}
    (hstop : ∀ d ∈ rest.head?, glues [c] d = false) :
    nextToken asciiOnly c rest = (some [c], rest) := by
  cases rest with
  | nil => rcases hc with rfl | rfl <;> rfl
  | cons d rest =>
      have hd : d ≠ '=' := by
        rintro rfl
        have := hstop '=' rfl
        rcases hc with rfl | rfl <;> exact absurd this (by decide)
      unfold nextToken
      rcases hc with rfl | rfl
      · rw [if_neg (by decide), if_neg (by decide), if_pos (by decide)]
        split
        · rename_i heq
          exact absurd (List.cons.inj heq).1 hd
        · rfl
      · rw [if_neg (by decide), if_neg (by decide), if_pos (by decide)]
        split
        · rename_i heq
          exact absurd (List.cons.inj heq).1 hd
        · rfl

/-- A character of a number has no other case. -/
theorem lower_number {tok : Text} (h : ∀ c ∈ tok, isNumberChar c = true) : lower tok = tok := by
  have hclass : ∀ n < 128, isNumberChar (Char.ofNat n) = true →
      (Char.ofNat n).toLower = Char.ofNat n := by
    decide +kernel
  refine (List.map_congr_left fun c hc => ?_).trans (List.map_id _)
  exact forall_ascii (P := fun c => isNumberChar c = true → c.toLower = c) hclass
    (isNumberChar_lt (h c hc)) (h c hc)

/-- **A word is found where it stands alone.** -/
theorem tokenize_word {tok rest : Text} (h : IsWord tok)
    (hstop : ∀ c ∈ rest.head?, glues tok c = false) :
    tokenize asciiOnly (tok ++ rest) = lower tok :: tokenize asciiOnly rest := by
  cases h with
  | symbol h =>
      simp only [symbols, List.mem_cons, List.not_mem_nil, or_false] at h
      rcases h with rfl | rfl | rfl | rfl | rfl | rfl | rfl | rfl | rfl | rfl | rfl | rfl
      · exact tokenize_cons_some rfl
      · exact tokenize_cons_some rfl
      · exact tokenize_cons_some rfl
      · exact tokenize_cons_some rfl
      · exact tokenize_cons_some rfl
      · exact tokenize_cons_some rfl
      · exact tokenize_cons_some (nextToken_relation (.inl rfl) hstop)
      · exact tokenize_cons_some (nextToken_relation (.inr rfl) hstop)
      · exact tokenize_cons_some rfl
      · exact tokenize_cons_some rfl
      · exact tokenize_cons_some rfl
      · exact tokenize_cons_some rfl
  | number hne h =>
      cases tok with
      | nil => exact absurd rfl hne
      | cons c tok =>
          have hc := h c List.mem_cons_self
          have hrest : ∀ d ∈ rest.head?, isNumberChar d = false := by
            intro d hd
            have := hstop d hd
            simp only [glues, hc, Bool.true_and, Bool.or_eq_false_iff] at this
            exact this.1.2
          obtain ⟨htake, hdrop⟩ := takeWhile_stop h hrest
          have hnext := nextToken_number hc (tok ++ rest)
          rw [← List.cons_append, htake, hdrop] at hnext
          rw [List.cons_append, tokenize_cons_some hnext, lower_number h]
  | identifier h =>
      cases tok with
      | nil => cases h.1
      | cons c tok =>
          have hc : isWordStart asciiOnly c = true := h.1
          have hrest : ∀ d ∈ rest.head?, isWordChar asciiOnly d = false := by
            intro d hd
            have := hstop d hd
            simp only [glues, hc, Bool.true_and, Bool.or_eq_false_iff] at this
            exact this.1.1
          obtain ⟨htake, hdrop⟩ := takeWhile_stop h.2 hrest
          have hnext := nextToken_identifier hc (tok ++ rest)
          rw [← List.cons_append, htake, hdrop] at hnext
          rw [List.cons_append, tokenize_cons_some hnext]

theorem tokenize_gap {gap : Text} (h : ∀ c ∈ gap, isSpace c = true) (rest : Text) :
    tokenize asciiOnly (gap ++ rest) = tokenize asciiOnly rest := by
  induction gap with
  | nil => rfl
  | cons c gap ih =>
      have hnext : nextToken asciiOnly c (gap ++ rest) = (none, gap ++ rest) := by
        unfold nextToken
        rw [if_pos (h c List.mem_cons_self)]
      rw [List.cons_append, tokenize_cons_none hnext]
      exact ih fun d hd => h d (List.mem_cons_of_mem _ hd)

/-- **The tokens of a source are the words it spells**, in lower case. -/
theorem Spells.tokenize_eq {words : List Text} {source : Text} (h : Spells words source)
    (hwords : ∀ tok ∈ words, IsWord tok) : tokenize u source = words.map lower := by
  rw [tokenize_ascii (h.isAscii hwords)]
  induction h with
  | @done gap h =>
      have hgap := tokenize_gap h []
      rw [List.append_nil] at hgap
      rw [hgap]
      rfl
  | word hgap hstop h ih =>
      rw [List.append_assoc, tokenize_gap hgap _, tokenize_word (hwords _ List.mem_cons_self) hstop,
        ih fun tok htok => hwords tok (List.mem_cons_of_mem _ htok)]
      rfl

end Dsline
