import Mathlib.Data.PNat.Basic
/-!
# Consecutive groups

A list cut into groups of a size, the last of which may be smaller.
-/

namespace Chunks

variable {α : Type*}

/-- **The groups of a list**, by the rounds there are left: a group from the
front, then the groups of what remains. -/
def chunksUpto (size : ℕ+) : ℕ → List α → List (List α)
  | _, [] => []
  | 0, _ => []
  | rounds + 1, x :: xs => (x :: xs).take size :: chunksUpto size rounds ((x :: xs).drop size)

/-- The groups of a list. -/
def chunks (size : ℕ+) (xs : List α) : List (List α) := chunksUpto size xs.length xs

variable {size : ℕ+} {group xs : List α}

theorem chunks_nil : chunks size ([] : List α) = [] := rfl

theorem length_drop_le (size : ℕ+) (x : α) (xs : List α) :
    ((x :: xs).drop size).length ≤ xs.length := by
  have := size.pos
  rw [List.length_drop, List.length_cons]
  omega

/-- A group takes an element at least, so there are rounds enough. -/
theorem chunksUpto_rounds {rounds : ℕ} (h : xs.length ≤ rounds) :
    chunksUpto size rounds xs = chunks size xs := by
  rw [chunks]
  induction hlen : xs.length using Nat.strong_induction_on generalizing rounds xs with
  | h len ih =>
      cases xs with
      | nil => cases rounds <;> cases len <;> rfl
      | cons x xs =>
          rw [List.length_cons] at h hlen
          obtain ⟨rounds, rfl⟩ := Nat.exists_eq_succ_of_ne_zero (by omega : rounds ≠ 0)
          subst hlen
          have hle := length_drop_le size x xs
          have hagree : ∀ rounds, ((x :: xs).drop size).length ≤ rounds →
              chunksUpto size rounds ((x :: xs).drop size)
                = chunksUpto size ((x :: xs).drop size).length ((x :: xs).drop size) :=
            fun rounds hrounds => ih _ (by omega) hrounds rfl
          rw [Nat.succ_eq_add_one, chunksUpto, chunksUpto, hagree _ (by omega), hagree _ hle]

theorem chunks_cons (x : α) (xs : List α) :
    chunks size (x :: xs) = (x :: xs).take size :: chunks size ((x :: xs).drop size) := by
  rw [chunks, List.length_cons, chunksUpto, chunksUpto_rounds (length_drop_le size x xs)]

/-- **A full group comes first.** -/
theorem chunks_append (h : group.length = size) (xs : List α) :
    chunks size (group ++ xs) = group :: chunks size xs := by
  cases group with
  | nil => exact absurd h.symm size.ne_zero
  | cons x group =>
      rw [List.cons_append, chunks_cons, ← List.cons_append, ← h, List.take_left, List.drop_left]

/-- **What is left over is one partial group.** -/
theorem chunks_partial (hne : group ≠ []) (h : group.length ≤ size) :
    chunks size group = [group] := by
  cases group with
  | nil => exact absurd rfl hne
  | cons x group =>
      rw [chunks_cons, List.take_of_length_le h, List.drop_of_length_le h, chunks_nil]

end Chunks
