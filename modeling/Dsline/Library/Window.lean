import Mathlib.Data.Nat.ModEq
import Mathlib.Data.List.Perm.Basic
import Mathlib.Data.List.Nodup
import Mathlib.Data.List.Perm.Subperm
/-!
# Windows of a cyclic buffer

A ring of `n` places names them by unbounded cursors read modulo `n`. A
window of `n` consecutive cursors names each place exactly once, which is
the only arithmetic fact the ring arguments use: two cursors of one window
that fall on the same place are the same cursor, and every place has a
cursor in the window.
-/

namespace Window

variable {n t a b : ℕ}

/-- **Two cursors of one window on one place are one cursor.** -/
theorem eq_of_mod_eq (ha : t ≤ a) (ha' : a < t + n) (hb : t ≤ b) (hb' : b < t + n)
    (h : a % n = b % n) : a = b := by
  wlog hab : a ≤ b generalizing a b
  · exact (this hb hb' ha ha' h.symm (by omega)).symm
  have hdvd : n ∣ b - a := (Nat.modEq_iff_dvd' hab).1 h
  rcases Nat.eq_zero_or_pos (b - a) with h0 | hpos
  · omega
  · have := Nat.le_of_dvd hpos hdvd
    omega

/-- Distinct cursors of one window fall on distinct places. -/
theorem mod_ne (ha : t ≤ a) (ha' : a < t + n) (hb : t ≤ b) (hb' : b < t + n)
    (h : a ≠ b) : a % n ≠ b % n :=
  fun he => h (eq_of_mod_eq ha ha' hb hb' he)

/-- **Every place has a cursor in the window.** -/
theorem exists_cursor (t : ℕ) {i : ℕ} (hi : i < n) : ∃ c, t ≤ c ∧ c < t + n ∧ c % n = i := by
  have hn : 0 < n := by omega
  have hm := Nat.mod_lt t hn
  have hd := Nat.div_add_mod t n
  rcases Nat.lt_or_ge i (t % n) with h | h
  · refine ⟨n * (t / n) + (n + i), by omega, by omega, ?_⟩
    rw [Nat.mul_add_mod, Nat.add_mod_left, Nat.mod_eq_of_lt hi]
  · refine ⟨n * (t / n) + i, by omega, by omega, ?_⟩
    rw [Nat.mul_add_mod, Nat.mod_eq_of_lt hi]

/-- Stepping a place is stepping its cursor. -/
@[simp] theorem mod_succ_mod (c : ℕ) : (c % n + 1) % n = (c + 1) % n :=
  Nat.mod_add_mod c n 1

/-- Stepping a place back is stepping its cursor back. -/
theorem mod_pred_mod {c : ℕ} (hn : 0 < n) (hc : 0 < c) : (c % n + n - 1) % n = (c - 1) % n := by
  obtain ⟨d, rfl⟩ : ∃ d, c = d + 1 := ⟨c - 1, by omega⟩
  have h : ((d + 1) % n + (n - 1)) % n = (d + 1 + (n - 1)) % n := Nat.mod_add_mod _ _ _
  have e1 : (d + 1) % n + n - 1 = (d + 1) % n + (n - 1) := by omega
  have e2 : d + 1 + (n - 1) = d + n := by omega
  rw [e1, h, e2, Nat.add_mod_right, Nat.add_sub_cancel]

/-- Shifting the window by its own length changes no place. -/
@[simp] theorem add_length_mod (c : ℕ) : (c + n) % n = c % n := Nat.add_mod_right c n

/-- A window read from its first cursor on visits the places in a rotated
order. -/
theorem rotation_perm (t : ℕ) (n : ℕ) :
    ((List.range n).map fun k => (t + k) % n).Perm (List.range n) := by
  rcases Nat.eq_zero_or_pos n with rfl | hn
  · simp
  refine List.Subperm.perm_of_length_le (List.Nodup.subperm ?_ ?_) (by simp)
  · refine List.Nodup.map_on (fun x hx y hy h => ?_) List.nodup_range
    rw [List.mem_range] at hx hy
    have := eq_of_mod_eq (t := t) (by omega) (by omega) (by omega) (by omega) h
    omega
  · intro i hi
    obtain ⟨k, -, rfl⟩ := List.mem_map.1 hi
    exact List.mem_range.2 (Nat.mod_lt _ hn)

/-- **Counting places is counting cursors of a window.** -/
theorem countP_range (t : ℕ) (n : ℕ) (p : ℕ → Bool) :
    (List.range n).countP p = (List.range n).countP fun k => p ((t + k) % n) := by
  rw [← (rotation_perm t n).countP_eq p, List.countP_map]
  rfl

end Window
