import Mathlib.Data.List.TakeWhile
import Mathlib.Data.List.Infix
/-!
# Splitting a list at a separator

At the first occurrence of a separator, at the last occurrence of an element,
and before the first one. Each split is characterised by what it leaves on
the side it searched: nothing that would have been found earlier.
-/

namespace Split

variable {α : Type*} [DecidableEq α]

/-- The list before the first occurrence of a separator, and after it. -/
def splitOnce (sep : List α) : List α → Option (List α × List α)
  | [] => if sep = [] then some ([], []) else none
  | x :: xs =>
      if sep <+: x :: xs then some ([], (x :: xs).drop sep.length)
      else (splitOnce sep xs).map fun halves => (x :: halves.1, halves.2)

/-- The list before the last occurrence of an element, and after it. -/
def splitLast (c : α) : List α → Option (List α × List α)
  | [] => none
  | x :: xs =>
      match splitLast c xs with
      | some (init, last) => some (x :: init, last)
      | none => if x = c then some ([], xs) else none

/-- The list up to the first occurrence of an element, or all of it. -/
def upTo (c : α) (xs : List α) : List α := xs.takeWhile (· ≠ c)

variable {sep xs ys init last : List α} {c : α}

/-- **A split loses nothing.** -/
theorem splitOnce_eq_append (h : splitOnce sep xs = some (init, last)) :
    xs = init ++ sep ++ last := by
  induction xs generalizing init with
  | nil =>
      rw [splitOnce] at h
      split at h
      · obtain ⟨rfl, rfl⟩ := Prod.mk.inj (Option.some.inj h)
        simp_all
      · cases h
  | cons x xs ih =>
      rw [splitOnce] at h
      split at h
      · rename_i hpre
        obtain ⟨rfl, rfl⟩ := Prod.mk.inj (Option.some.inj h)
        obtain ⟨rest, hrest⟩ := hpre
        simp [← hrest]
      · obtain ⟨halves, hsplit, hhalves⟩ := Option.map_eq_some_iff.1 h
        obtain ⟨rfl, rfl⟩ := Prod.mk.inj hhalves
        rw [ih hsplit]
        simp

/-- **A separator is found where its first element does not occur before
it.** -/
theorem splitOnce_append (sep last : List α) (hc : c ∉ init) :
    splitOnce (c :: sep) (init ++ (c :: sep) ++ last) = some (init, last) := by
  induction init with
  | nil => simp [splitOnce]
  | cons x init ih =>
      obtain ⟨hx, hc⟩ := not_or.1 (mt List.mem_cons.2 hc)
      have hpre : ¬ c :: sep <+: x :: (init ++ (c :: sep) ++ last) := by
        rw [List.cons_prefix_cons]
        exact fun h => hx h.1
      rw [List.cons_append, List.cons_append, splitOnce, if_neg hpre, ih hc]
      rfl

/-- A split at one element leaves it out of the first half. -/
theorem not_mem_of_splitOnce (h : splitOnce [c] xs = some (init, last)) : c ∉ init := by
  induction xs generalizing init with
  | nil => simp [splitOnce] at h
  | cons x xs ih =>
      rw [splitOnce] at h
      split at h
      · obtain ⟨rfl, -⟩ := Prod.mk.inj (Option.some.inj h)
        exact List.not_mem_nil
      · rename_i hpre
        obtain ⟨halves, hsplit, hhalves⟩ := Option.map_eq_some_iff.1 h
        obtain ⟨rfl, rfl⟩ := Prod.mk.inj hhalves
        have hx : c ≠ x := fun hcx => hpre ⟨xs, by simp [hcx]⟩
        exact fun hmem => (List.mem_cons.1 hmem).elim hx (ih hsplit)

/-- **The first occurrence of an element.** -/
theorem splitOnce_single :
    splitOnce [c] xs = some (init, last) ↔ c ∉ init ∧ xs = init ++ c :: last := by
  constructor
  · intro h
    refine ⟨not_mem_of_splitOnce h, ?_⟩
    rw [splitOnce_eq_append h]
    simp
  · rintro ⟨hc, rfl⟩
    have := splitOnce_append [] last hc
    simpa using this

theorem splitOnce_single_none : splitOnce [c] xs = none ↔ c ∉ xs := by
  constructor
  · intro h hmem
    obtain ⟨init, last, rfl, hc⟩ := List.eq_append_cons_of_mem hmem
    rw [splitOnce_single.2 ⟨hc, rfl⟩] at h
    cases h
  · intro hc
    cases h : splitOnce [c] xs with
    | none => rfl
    | some halves =>
        have hxs := (splitOnce_single.1 h).2
        exact absurd (hxs ▸ List.mem_append_right _ List.mem_cons_self) hc

/-- What comes before and does not hold the element stays in the first
half. -/
theorem splitOnce_append_left (h : c ∉ init) (xs : List α) :
    splitOnce [c] (init ++ xs)
      = (splitOnce [c] xs).map fun halves => (init ++ halves.1, halves.2) := by
  cases hsplit : splitOnce [c] xs with
  | none =>
      refine splitOnce_single_none.2 fun hmem => ?_
      exact (List.mem_append.1 hmem).elim h (splitOnce_single_none.1 hsplit)
  | some halves =>
      obtain ⟨hc, rfl⟩ := splitOnce_single.1 hsplit
      refine splitOnce_single.2 ⟨?_, by simp⟩
      exact fun hmem => (List.mem_append.1 hmem).elim h hc

theorem splitLast_none : splitLast c xs = none ↔ c ∉ xs := by
  induction xs with
  | nil => simp [splitLast]
  | cons x xs ih =>
      rw [splitLast]
      cases h : splitLast c xs with
      | none =>
          have hc := ih.1 h
          by_cases hx : x = c
          · simp [hx]
          · simp [hx, hc, Ne.symm hx]
      | some halves =>
          have hc : c ∈ xs := by
            by_contra hc
            rw [ih.2 hc] at h
            cases h
          simp [hc]

theorem splitLast_append (h : c ∉ last) (init : List α) :
    splitLast c (init ++ c :: last) = some (init, last) := by
  induction init with
  | nil =>
      rw [List.nil_append, splitLast, splitLast_none.2 h]
      exact if_pos rfl
  | cons x init ih => rw [List.cons_append, splitLast, ih]

theorem exists_last (h : c ∈ xs) : ∃ init last, xs = init ++ c :: last ∧ c ∉ last := by
  induction xs with
  | nil => cases h
  | cons x xs ih =>
      by_cases hmem : c ∈ xs
      · obtain ⟨init, last, rfl, hlast⟩ := ih hmem
        exact ⟨x :: init, last, rfl, hlast⟩
      · rcases List.mem_cons.1 h with rfl | h
        · exact ⟨[], xs, rfl, hmem⟩
        · exact absurd h hmem

/-- **The last occurrence of an element.** -/
theorem splitLast_eq_some :
    splitLast c xs = some (init, last) ↔ c ∉ last ∧ xs = init ++ c :: last := by
  constructor
  · intro h
    have hmem : c ∈ xs := by
      by_contra hc
      rw [splitLast_none.2 hc] at h
      cases h
    obtain ⟨init', last', rfl, hlast⟩ := exists_last hmem
    rw [splitLast_append hlast] at h
    obtain ⟨rfl, rfl⟩ := Prod.mk.inj (Option.some.inj h)
    exact ⟨hlast, rfl⟩
  · rintro ⟨h, rfl⟩
    exact splitLast_append h init

/-- **Where the last occurrence is, is unique.** -/
theorem append_cons_inj {init' last' : List α} (h : init ++ c :: last = init' ++ c :: last')
    (hc : c ∉ last) (hc' : c ∉ last') : init = init' ∧ last = last' := by
  have hsplit := splitLast_eq_some.2 ⟨hc, h.symm⟩
  rw [splitLast_eq_some.2 ⟨hc', rfl⟩] at hsplit
  obtain ⟨rfl, rfl⟩ := Prod.mk.inj (Option.some.inj hsplit)
  exact ⟨rfl, rfl⟩

theorem upTo_of_not_mem (h : c ∉ xs) : upTo c xs = xs := by
  refine List.takeWhile_eq_self_iff.2 fun x hx => ?_
  have : x ≠ c := fun hxc => h (hxc ▸ hx)
  simpa using this

theorem upTo_append (h : c ∉ xs) : upTo c (xs ++ c :: ys) = xs := by
  rw [upTo, List.takeWhile_append_of_pos]
  · simp
  · intro x hx
    have : x ≠ c := fun hxc => h (hxc ▸ hx)
    simpa using this

/-- What follows the part up to an element begins with it. -/
theorem upTo_append_rest (c : α) (xs : List α) :
    ∃ rest, xs = upTo c xs ++ rest ∧ (rest = [] ∨ ∃ tail, rest = c :: tail) := by
  induction xs with
  | nil => exact ⟨[], rfl, .inl rfl⟩
  | cons x xs ih =>
      by_cases hx : x = c
      · exact ⟨x :: xs, by simp [upTo, hx], .inr ⟨xs, by rw [hx]⟩⟩
      · obtain ⟨rest, hrest, hshape⟩ := ih
        refine ⟨rest, ?_, hshape⟩
        rw [upTo, List.takeWhile_cons_of_pos (by simpa using hx), List.cons_append]
        exact congrArg (x :: ·) hrest

/-- **No part of a split holds the separator.** -/
theorem not_mem_of_mem_splitOn {part : List α} (h : part ∈ xs.splitOn c) : c ∉ part := by
  induction xs generalizing part with
  | nil =>
      obtain rfl : part = [] := by simpa using h
      exact List.not_mem_nil
  | cons x xs ih =>
      rw [List.splitOn_cons_eq_if_modifyHead] at h
      split at h
      · rcases List.mem_cons.1 h with rfl | h
        · exact List.not_mem_nil
        · exact ih h
      · rename_i hx
        cases hsplit : xs.splitOn c with
        | nil => exact absurd hsplit (List.splitOn_ne_nil c xs)
        | cons head parts =>
            rw [hsplit, List.modifyHead_cons] at h
            rcases List.mem_cons.1 h with rfl | h
            · have hhead := ih (hsplit ▸ List.mem_cons_self)
              have hcx : c ≠ x := fun hcx => hx (by simp [hcx])
              exact fun hmem => (List.mem_cons.1 hmem).elim hcx hhead
            · exact ih (hsplit ▸ List.mem_cons_of_mem _ h)

end Split
