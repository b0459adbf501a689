import Mathlib.Algebra.BigOperators.Group.List.Basic
import Mathlib.Algebra.GroupWithZero.Nat
import Mathlib.Data.List.Infix
/-!
# Evicting the oldest

A bounded queue that makes room drops its oldest elements, whole, until what
is left fits. What is left is the longest suffix that fits (`suffix_trim`),
so nothing is dropped without need.
-/

namespace Eviction

variable {α β : Type} {weight : α → ℕ} {room : ℕ} {x : α} {xs ys : List α}

/-- What a list of elements takes. -/
def load (weight : α → ℕ) (xs : List α) : ℕ := (xs.map weight).sum

@[simp] theorem load_nil : load weight [] = 0 := rfl

@[simp] theorem load_cons : load weight (x :: xs) = weight x + load weight xs := by
  simp [load]

@[simp] theorem load_append : load weight (xs ++ ys) = load weight xs + load weight ys := by
  simp [load]

theorem load_map {f : β → α} {zs : List β} : load weight (zs.map f) = load (weight ∘ f) zs := by
  simp [load]

/-- Drop the oldest elements until the others fit. -/
def trim (weight : α → ℕ) (room : ℕ) : List α → List α
  | [] => []
  | x :: xs => if load weight (x :: xs) ≤ room then x :: xs else trim weight room xs

@[simp] theorem trim_nil : trim weight room [] = [] := rfl

theorem trim_of_le (h : load weight xs ≤ room) : trim weight room xs = xs := by
  cases xs with
  | nil => rfl
  | cons x xs => exact if_pos h

theorem trim_cons_of_gt (h : room < load weight (x :: xs)) :
    trim weight room (x :: xs) = trim weight room xs := if_neg (Nat.not_le.2 h)

/-- Elements that each take room are no more than the room they take. -/
theorem length_le_load (h : ∀ x ∈ xs, 0 < weight x) : xs.length ≤ load weight xs := by
  induction xs with
  | nil => exact Nat.le_refl 0
  | cons x xs ih =>
      have hx := h x List.mem_cons_self
      have hxs := ih fun y hy => h y (List.mem_cons_of_mem x hy)
      rw [List.length_cons, load_cons]
      omega

variable (weight room xs) in
/-- What is left fits. -/
theorem load_trim_le : load weight (trim weight room xs) ≤ room := by
  induction xs with
  | nil => exact Nat.zero_le _
  | cons x xs ih =>
      rcases Nat.lt_or_ge room (load weight (x :: xs)) with h | h
      · rw [trim_cons_of_gt h]
        exact ih
      · rw [trim_of_le h]
        exact h

/-- What is left is a suffix. -/
theorem trim_suffix : trim weight room xs <:+ xs := by
  induction xs with
  | nil => exact List.suffix_rfl
  | cons x xs ih =>
      rcases Nat.lt_or_ge room (load weight (x :: xs)) with h | h
      · rw [trim_cons_of_gt h]
        exact ih.trans (List.suffix_cons x xs)
      · rw [trim_of_le h]

/-- **What is left is the longest suffix that fits.** -/
theorem suffix_trim (hs : ys <:+ xs) (hfit : load weight ys ≤ room) :
    ys <:+ trim weight room xs := by
  induction xs with
  | nil => exact hs
  | cons x xs ih =>
      rcases Nat.lt_or_ge room (load weight (x :: xs)) with h | h
      · rw [trim_cons_of_gt h]
        rcases List.suffix_cons_iff.1 hs with rfl | hs
        · omega
        · exact ih hs
      · rw [trim_of_le h]
        exact hs

theorem load_congr {weight' : α → ℕ} (h : ∀ x ∈ xs, weight x = weight' x) :
    load weight xs = load weight' xs := by
  rw [load, load, List.map_congr_left h]

/-- The weights of the elements are all that counts. -/
theorem trim_congr {weight' : α → ℕ} (h : ∀ x ∈ xs, weight x = weight' x) :
    trim weight room xs = trim weight' room xs := by
  induction xs with
  | nil => rfl
  | cons x xs ih =>
      have hxs := ih fun y hy => h y (List.mem_cons_of_mem _ hy)
      simp only [trim, load_congr h, hxs]

theorem trim_map {f : β → α} {zs : List β} :
    trim weight room (zs.map f) = (trim (weight ∘ f) room zs).map f := by
  induction zs with
  | nil => rfl
  | cons z zs ih =>
      simp only [List.map_cons, trim, load_cons, load_map, Function.comp_apply]
      split
      · rfl
      · exact ih

end Eviction
