import Mathlib.Data.List.Basic
/-!
# Byte areas

A byte area is a memory addressed from zero, read and written in ranges. A
write changes exactly the bytes of its range, so a read that lies inside
the last write returns it and a read that misses it is unchanged.
-/

/-- A memory of bytes addressed from zero. -/
def Area : Type := ℕ → UInt8

namespace Area

variable {a : Area} {off len m n : ℕ} {bs cs : List UInt8}

/-- The area of zeros. -/
def zero : Area := fun _ => 0

/-- The `len` bytes from `off` on. -/
def read (a : Area) (off len : ℕ) : List UInt8 := (List.range len).map fun k => a (off + k)

/-- Put `bs` at `off`. -/
def write (a : Area) (off : ℕ) (bs : List UInt8) : Area := fun i =>
  if off ≤ i then (bs[i - off]?).getD (a i) else a i

/-- Zero the first `len` bytes. -/
def clear (a : Area) (len : ℕ) : Area := fun i => if i < len then 0 else a i

@[simp] theorem length_read : (a.read off len).length = len := by simp [read]

@[simp] theorem read_zero_length : a.read off 0 = [] := rfl

/-- Reading two adjacent ranges is reading their union. -/
theorem read_add : a.read off (m + n) = a.read off m ++ a.read (off + m) n := by
  simp [read, List.range_add, List.map_append, Function.comp_def, Nat.add_assoc]

/-- A shorter read is a prefix of a longer one. -/
theorem take_read (h : m ≤ n) : (a.read off n).take m = a.read off m := by
  obtain ⟨k, rfl⟩ := Nat.exists_eq_add_of_le h
  rw [read_add, List.take_left' length_read]

/-- Dropping the front of a read is reading further on. -/
theorem drop_read (h : m ≤ n) : (a.read off n).drop m = a.read (off + m) (n - m) := by
  obtain ⟨k, rfl⟩ := Nat.exists_eq_add_of_le h
  rw [read_add, List.drop_left' length_read, Nat.add_sub_cancel_left]

/-- A read depends on the bytes of its range alone. -/
theorem read_congr {b : Area} (h : ∀ i, off ≤ i → i < off + len → a i = b i) :
    a.read off len = b.read off len := by
  refine List.map_congr_left fun k hk => h _ (by omega) ?_
  have := List.mem_range.1 hk
  omega

theorem write_apply_of_lt {i : ℕ} (h : i < off) : a.write off bs i = a i := by
  simp [write, Nat.not_le.2 h]

theorem write_apply_of_ge {i : ℕ} (h : off + bs.length ≤ i) : a.write off bs i = a i := by
  have hn : bs[i - off]? = none := List.getElem?_eq_none (by omega)
  simp [write, show off ≤ i by omega, hn]

/-- **A read of the last write returns it.** -/
@[simp] theorem read_write : (a.write off bs).read off bs.length = bs := by
  apply List.ext_getElem (by simp)
  intro i h1 h2
  simp [read, write, h2]

theorem read_write_of_length (h : bs.length = len) : (a.write off bs).read off len = bs := by
  subst h
  exact read_write

/-- A read inside the last write returns that part of it. -/
theorem read_write_prefix (h : n ≤ bs.length) : (a.write off bs).read off n = bs.take n := by
  rw [← take_read h, read_write]

/-- **A read that misses the write is unchanged.** -/
theorem read_write_disjoint {off' : ℕ} (h : off' + n ≤ off ∨ off + bs.length ≤ off') :
    (a.write off bs).read off' n = a.read off' n := by
  refine read_congr fun i h1 h2 => ?_
  rcases h with h | h
  · exact write_apply_of_lt (by omega)
  · exact write_apply_of_ge (by omega)

variable (a off bs cs) in
/-- **A write in two parts**, the second part first. -/
theorem write_append : (a.write (off + bs.length) cs).write off bs = a.write off (bs ++ cs) := by
  funext i
  rcases Nat.lt_or_ge i off with h | h
  · rw [write_apply_of_lt h, write_apply_of_lt (by omega), write_apply_of_lt h]
  rcases Nat.lt_or_ge i (off + bs.length) with h' | h'
  · simp only [write, if_pos h]
    rw [List.getElem?_append_left (by omega), List.getElem?_eq_getElem (by omega)]
    rfl
  · rw [write_apply_of_ge h']
    simp only [write, if_pos h, if_pos h']
    rw [List.getElem?_append_right (by omega), Nat.sub_sub]

/-- A write, seen through a window of another area. -/
theorem write_shifted {b : Area} {base k : ℕ} (h : b (base + k) = a k) :
    b.write (base + off) bs (base + k) = a.write off bs k := by
  simp only [write, Nat.add_le_add_iff_left, Nat.add_sub_add_left, h]

/-- Zeroing is writing zeros. -/
theorem write_replicate : a.write 0 (List.replicate len 0) = a.clear len := by
  funext i
  rcases Nat.lt_or_ge i len with h | h
  · simp [write, clear, h]
  · rw [write_apply_of_ge (by rw [List.length_replicate]; omega), clear, if_neg (by omega)]

/-- A write that is cleared again. -/
theorem clear_write (h : off + bs.length ≤ n) : (a.write off bs).clear n = a.clear n := by
  funext i
  unfold clear
  split
  · rfl
  · exact write_apply_of_ge (by omega)

end Area
