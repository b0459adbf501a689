import Mathlib.Data.List.Basic
/-!
# The words of a list

The maximal runs without a blank, in order. Words separated by blanks, one or
more, are read back as they were.
-/

namespace Words

variable {α : Type*} (blank : α → Bool)

/-- What lies between the blanks, less what is empty. -/
def words (xs : List α) : List (List α) := (xs.splitOnP blank).filter (· ≠ [])

/-- A word: not empty, and without a blank. -/
def IsWord (word : List α) : Prop := word ≠ [] ∧ ∀ x ∈ word, blank x = false

variable {blank} {word xs : List α} {x : α}

@[simp] theorem words_nil : words blank [] = [] := rfl

theorem words_blank (hx : blank x = true) (xs : List α) :
    words blank (x :: xs) = words blank xs := by
  rw [words, List.splitOnP_cons_eq_if_modifyHead, if_pos hx]
  rfl

theorem words_word (h : IsWord blank word) (hx : blank x = true) (xs : List α) :
    words blank (word ++ x :: xs) = word :: words blank xs := by
  rw [words, List.splitOnP_append_cons_of_forall_mem h.2 x hx,
    List.filter_cons_of_pos (by simpa using h.1)]
  rfl

/-- **Words with a blank before each, and one behind the last, are read
back.** -/
theorem words_flatMap {y : α} (hx : blank x = true) (hy : blank y = true) :
    ∀ {ws : List (List α)}, (∀ w ∈ ws, IsWord blank w) →
      words blank (ws.flatMap (x :: ·) ++ [y]) = ws := by
  intro ws
  induction ws with
  | nil => exact fun _ => words_blank hy []
  | cons w ws ih =>
      intro hws
      have hw := hws w List.mem_cons_self
      have hrest := ih fun v hv => hws v (List.mem_cons_of_mem w hv)
      rw [List.flatMap_cons, List.cons_append, List.cons_append, List.append_assoc, words_blank hx]
      cases ws with
      | nil => exact words_word hw hy []
      | cons v ws =>
          rw [List.flatMap_cons, List.cons_append, List.cons_append, words_blank hx] at hrest
          rw [List.flatMap_cons, List.cons_append, List.cons_append, words_word hw hx, hrest]

end Words
