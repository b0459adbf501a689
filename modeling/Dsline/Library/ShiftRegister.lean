import Mathlib.Data.List.Basic
import Mathlib.Algebra.Group.Nat.Defs
/-!
# Reflected shift registers

A register of `w` bits takes its input one bit at a time: the bit goes into
the lowest place, the register is shifted down, and the polynomial is added
where a one falls out. If the polynomial's highest bit is set, a shift loses
nothing: the highest bit of what it leaves says what fell out. So two inputs
of one length no longer than the register, from one state, leave different
states (`run_inj`), and what follows keeps them different (`run_state_inj`).
-/

namespace ShiftRegister

variable {w : ℕ} {poly a b c c' : BitVec w} {k n : ℕ} {x y : List Bool}

/-- One shift. -/
def step (poly c : BitVec w) : BitVec w :=
  if c.getLsbD 0 then (c >>> 1) ^^^ poly else c >>> 1

/-- A bit in the lowest place. -/
def bit (w : ℕ) (b : Bool) : BitVec w := BitVec.setWidth w (BitVec.ofBool b)

/-- One bit of input. -/
def feed (poly c : BitVec w) (b : Bool) : BitVec w := step poly (c ^^^ bit w b)

/-- A whole input. -/
def run (poly c : BitVec w) (input : List Bool) : BitVec w := input.foldl (feed poly) c

/-- Two states agree from place `k` on. -/
def AgreeFrom (k : ℕ) (a b : BitVec w) : Prop := ∀ i, k ≤ i → i < w → a.getLsbD i = b.getLsbD i

@[simp] theorem getLsbD_bit (b : Bool) (i : ℕ) :
    (bit w b).getLsbD i = (decide (i < w) && (decide (i = 0) && b)) := by
  rw [bit, BitVec.getLsbD_setWidth, BitVec.getLsbD_ofBool]

theorem getLsbD_step (poly c : BitVec w) (i : ℕ) :
    (step poly c).getLsbD i = (c.getLsbD (i + 1) ^^ (c.getLsbD 0 && poly.getLsbD i)) := by
  unfold step
  split
  · rename_i h
    simp [h, Nat.add_comm 1 i]
  · rename_i h
    simp [h, Nat.add_comm 1 i]

/-! ## What a shift keeps -/

/-- **The highest bit says what fell out**, so agreement moves up by one. -/
theorem agreeFrom_of_step (hpoly : poly.getLsbD (w - 1) = true) (hk : k < w)
    (h : AgreeFrom k (step poly a) (step poly b)) :
    a.getLsbD 0 = b.getLsbD 0 ∧ AgreeFrom (k + 1) a b := by
  have hlow : a.getLsbD 0 = b.getLsbD 0 := by
    have htop := h (w - 1) (by omega) (by omega)
    rw [getLsbD_step, getLsbD_step, hpoly, BitVec.getLsbD_of_ge a _ (by omega),
      BitVec.getLsbD_of_ge b _ (by omega)] at htop
    simpa using htop
  refine ⟨hlow, fun i hi hlt => ?_⟩
  obtain ⟨j, rfl⟩ : ∃ j, i = j + 1 := ⟨i - 1, by omega⟩
  have hj := h j (by omega) (by omega)
  rw [getLsbD_step, getLsbD_step, hlow] at hj
  simpa using hj

theorem agreeFrom_zero : AgreeFrom 0 a b ↔ a = b := by
  constructor
  · intro h
    exact BitVec.eq_of_getLsbD_eq fun i hi => h i (Nat.zero_le i) hi
  · rintro rfl
    exact fun _ _ _ => rfl

/-- The input touches the lowest place only. -/
theorem agreeFrom_of_xor (b b' : Bool) (h : AgreeFrom (k + 1) (c ^^^ bit w b) (c' ^^^ bit w b')) :
    AgreeFrom (k + 1) c c' := by
  intro i hi hlt
  have hne : i ≠ 0 := by omega
  simpa [hne] using h i hi hlt

/-- **A run keeps the high places apart**: states that agree from `k` on
after `n` more bits agreed from `k + n` on. -/
theorem agreeFrom_of_run (hpoly : poly.getLsbD (w - 1) = true) (hlen : x.length = y.length)
    (hk : k + x.length ≤ w) (h : AgreeFrom k (run poly c x) (run poly c' y)) :
    AgreeFrom (k + x.length) c c' := by
  induction x generalizing c c' y with
  | nil =>
      obtain rfl : y = [] := List.length_eq_zero_iff.1 hlen.symm
      exact h
  | cons b x ih =>
      cases y with
      | nil => cases hlen
      | cons b' y =>
          rw [List.length_cons] at hk
          have hstep := ih (Nat.succ.inj hlen) (by omega) h
          have hagree := (agreeFrom_of_step hpoly (by omega) hstep).2
          rw [List.length_cons, ← Nat.add_assoc]
          exact agreeFrom_of_xor b b' hagree

/-! ## Runs -/

theorem run_append (poly c : BitVec w) (x y : List Bool) :
    run poly c (x ++ y) = run poly (run poly c x) y := List.foldl_append

theorem step_inj (hpoly : poly.getLsbD (w - 1) = true) (h : step poly a = step poly b) :
    a = b := by
  cases w with
  | zero => exact BitVec.eq_of_zero_length rfl
  | succ w =>
      obtain ⟨hlow, hhigh⟩ := agreeFrom_of_step hpoly (Nat.succ_pos w) (agreeFrom_zero.2 h)
      refine agreeFrom_zero.1 fun i _ hi => ?_
      cases i with
      | zero => exact hlow
      | succ i => exact hhigh (i + 1) (by omega) hi

/-- **No input brings two states together.** -/
theorem run_state_inj (hpoly : poly.getLsbD (w - 1) = true) (h : run poly c x = run poly c' x) :
    c = c' := by
  induction x generalizing c c' with
  | nil => exact h
  | cons b x ih => exact (BitVec.xor_left_inj _).1 (step_inj hpoly (ih h))

/-- **Inputs of one length, no longer than the register, leave different
states.** -/
theorem run_inj (hpoly : poly.getLsbD (w - 1) = true) (hlen : x.length = y.length)
    (hw : x.length ≤ w) (h : run poly c x = run poly c y) : x = y := by
  induction x generalizing c y with
  | nil => exact (List.length_eq_zero_iff.1 hlen.symm).symm
  | cons b x ih =>
      cases y with
      | nil => cases hlen
      | cons b' y =>
          rw [List.length_cons] at hw
          -- the bits behind the first leave the high places, which say what it was
          have hagree : AgreeFrom (0 + x.length) (feed poly c b) (feed poly c b') :=
            agreeFrom_of_run hpoly (Nat.succ.inj hlen) (by omega) (agreeFrom_zero.2 h)
          have hlow := (agreeFrom_of_step hpoly (by omega) hagree).1
          have hbit : b = b' := by
            have hpos : 0 < w := by omega
            rw [BitVec.getLsbD_xor, BitVec.getLsbD_xor, getLsbD_bit, getLsbD_bit] at hlow
            simpa [hpos] using hlow
          subst hbit
          rw [ih (Nat.succ.inj hlen) (by omega) h]

/-! ## Words as inputs -/

/-- The lowest `n` bits of a word, the lowest first. -/
def lowBits (n : ℕ) (v : BitVec w) : List Bool := (List.range n).map v.getLsbD

/-- A word added to the state is an input: its lowest bit now, the others
later. -/
theorem step_xor (poly c v : BitVec w) :
    step poly (c ^^^ v) = feed poly c (v.getLsbD 0) ^^^ (v >>> 1) := by
  refine BitVec.eq_of_getLsbD_eq fun i hi => ?_
  have hpos : 0 < w := by omega
  simp only [feed, getLsbD_step, BitVec.getLsbD_xor, BitVec.getLsbD_ushiftRight, getLsbD_bit, hpos,
    Nat.add_comm 1 i]
  cases c.getLsbD (i + 1) <;> cases v.getLsbD (i + 1) <;> cases c.getLsbD 0 <;>
    cases v.getLsbD 0 <;> simp

theorem lowBits_succ (n : ℕ) (v : BitVec w) :
    lowBits (n + 1) v = v.getLsbD 0 :: lowBits n (v >>> 1) := by
  rw [lowBits, List.range_succ_eq_map, List.map_cons, List.map_map, lowBits]
  refine congrArg _ (List.map_congr_left fun i _ => ?_)
  simp [Nat.add_comm 1 i]

theorem repeat_succ_apply {α : Type*} (f : α → α) (n : ℕ) (a : α) :
    Nat.repeat f (n + 1) a = Nat.repeat f n (f a) := by
  induction n with
  | zero => rfl
  | succ n ih => exact congrArg f ih

/-- **Shifting a word through is feeding its bits.** -/
theorem repeat_step_xor (poly : BitVec w) (n : ℕ) (c v : BitVec w) :
    Nat.repeat (step poly) n (c ^^^ v) = run poly c (lowBits n v) ^^^ (v >>> n) := by
  induction n generalizing c v with
  | zero => simp [run, lowBits, Nat.repeat]
  | succ n ih =>
      rw [repeat_succ_apply, step_xor, ih, lowBits_succ, ← BitVec.shiftRight_add, Nat.add_comm 1 n]
      rfl

end ShiftRegister
