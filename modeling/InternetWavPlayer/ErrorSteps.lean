import Mathlib.Tactic

/-!
# Steps of an error accumulator

A line is drawn by adding a distance along each axis to an error and taking a
step where the error exceeds a limit, which is then subtracted.  The error and
the number of steps after any number of passes have closed forms, from which
the shape of the line follows.
-/

namespace InternetWavPlayer.ErrorSteps

/-- The steps taken in `passes` passes. -/
def steps (limit delta passes : Nat) : Nat :=
  (passes * delta - 1) / limit

/-- The error left after `passes` passes. -/
def error (limit delta passes : Nat) : Nat :=
  passes * delta - limit * steps limit delta passes

section Passes

variable {limit delta : Nat}

theorem limit_mul_steps_le (passes : Nat) :
    limit * steps limit delta passes ≤ passes * delta :=
  (Nat.mul_div_le _ _).trans (Nat.sub_le _ _)

/-- Steps and error account for all that was added. -/
theorem balance (passes : Nat) :
    limit * steps limit delta passes + error limit delta passes =
      passes * delta :=
  Nat.add_sub_cancel' (limit_mul_steps_le passes)

/-- The error never exceeds the limit. -/
theorem error_le (bounded : delta ≤ limit) (passes : Nat) :
    error limit delta passes ≤ limit := by
  by_cases positive : 0 < limit
  · have remainder := Nat.mod_lt (passes * delta - 1) positive
    have parts := Nat.div_add_mod (passes * delta - 1) limit
    rw [error, steps]
    omega
  · have still : delta = 0 := by omega
    rw [error, still, Nat.mul_zero, Nat.zero_sub]
    exact Nat.zero_le _

/-- What a balance says about the steps in it. -/
theorem steps_unique
    {passes count rest : Nat} (positive : 0 < limit)
    (added : limit * count + rest = passes * delta)
    (bound : rest ≤ limit) (moved : 0 < rest) :
    steps limit delta passes = count := by
  rw [steps]
  apply Nat.div_eq_of_lt_le
  · rw [Nat.mul_comm count limit]
    omega
  · rw [Nat.add_mul, Nat.mul_comm count limit]
    omega

/-- One pass: a step is taken where the error exceeds the limit. -/
theorem steps_succ (bounded : delta ≤ limit) (passes : Nat) :
    steps limit delta (passes + 1) =
      if error limit delta passes + delta > limit then
        steps limit delta passes + 1
      else steps limit delta passes := by
  have added : limit * steps limit delta passes +
      error limit delta passes = passes * delta := balance passes
  have bound := error_le bounded passes
  by_cases still : delta = 0
  · rw [if_neg (by omega), steps, steps, still, Nat.mul_zero, Nat.mul_zero]
  · have positive : 0 < limit := by omega
    by_cases exceeds : error limit delta passes + delta > limit
    · rw [if_pos exceeds]
      apply steps_unique positive _ _ (Nat.sub_pos_of_lt exceeds)
      · rw [Nat.mul_add, Nat.mul_one, Nat.add_mul, Nat.one_mul]
        omega
      · omega
    · rw [if_neg exceeds]
      apply steps_unique positive _ (Nat.le_of_not_lt exceeds) (by omega)
      rw [Nat.add_mul, Nat.one_mul]
      omega

theorem error_succ (bounded : delta ≤ limit) (passes : Nat) :
    error limit delta (passes + 1) =
      if error limit delta passes + delta > limit then
        error limit delta passes + delta - limit
      else error limit delta passes + delta := by
  have added : limit * steps limit delta passes +
      error limit delta passes = passes * delta := balance passes
  have next : limit * steps limit delta (passes + 1) +
      error limit delta (passes + 1) = (passes + 1) * delta :=
    balance (passes + 1)
  rw [steps_succ bounded, Nat.add_mul, Nat.one_mul] at next
  by_cases exceeds : error limit delta passes + delta > limit
  · rw [if_pos exceeds] at next ⊢
    rw [Nat.mul_add, Nat.mul_one] at next
    omega
  · rw [if_neg exceeds] at next ⊢
    omega

end Passes

/-! ## Offsets along the line -/

/-- The steps taken when the axis of the full limit has taken `place`. -/
def offset (limit delta place : Nat) : Nat :=
  ((place + 1) * delta - 1) / limit

section Offsets

variable {limit delta : Nat}

/-- The first pass takes no step, the others follow the long axis. -/
theorem steps_eq_offset
    (positive : 0 < limit) (bounded : delta ≤ limit) (passes : Nat) :
    steps limit delta passes = offset limit delta (passes - 1) := by
  cases passes with
  | zero =>
      rw [steps, offset, Nat.zero_mul, Nat.div_eq_of_lt (by omega),
        Nat.div_eq_of_lt (by omega)]
  | succ passes => rfl

/-- The long axis takes one step at a place. -/
theorem offset_long (positive : 0 < limit) (place : Nat) :
    offset limit limit place = place := by
  rw [offset]
  apply Nat.div_eq_of_lt_le
  · rw [Nat.add_mul]
    omega
  · exact Nat.sub_lt (Nat.mul_pos (Nat.succ_pos _) positive) Nat.one_pos

theorem offset_zero (positive : 0 < limit) (bounded : delta ≤ limit) :
    offset limit delta 0 = 0 := by
  rw [offset]
  exact Nat.div_eq_of_lt (by omega)

/-- At the end of the long axis all steps are taken. -/
theorem offset_end (positive : 0 < limit) (bounded : delta ≤ limit) :
    offset limit delta limit = delta := by
  by_cases still : delta = 0
  · rw [offset, still, Nat.mul_zero, Nat.zero_sub, Nat.zero_div]
  · rw [offset]
    apply Nat.div_eq_of_lt_le
    · rw [Nat.add_mul, Nat.mul_comm]
      omega
    · rw [Nat.add_mul, Nat.add_mul, Nat.mul_comm]
      omega

theorem offset_mono {first second : Nat} (before : first ≤ second) :
    offset limit delta first ≤ offset limit delta second :=
  Nat.div_le_div_right
    (Nat.sub_le_sub_right
      (Nat.mul_le_mul_right _ (Nat.succ_le_succ before)) _)

/-- The short axis takes at most one step at a place. -/
theorem offset_succ_le
    (positive : 0 < limit) (bounded : delta ≤ limit) (place : Nat) :
    offset limit delta (place + 1) ≤ offset limit delta place + 1 := by
  have step := steps_succ bounded (place + 1)
  rw [steps_eq_offset positive bounded, steps_eq_offset positive bounded]
    at step
  simp only [Nat.add_sub_cancel] at step
  rw [step]
  split
  · exact le_rfl
  · exact Nat.le_succ _

/-- The steps stay within one of their share of the place. -/
theorem offset_near
    (positive : 0 < limit) (bounded : delta ≤ limit) (place : Nat) :
    limit * offset limit delta place < place * delta + limit ∧
      place * delta < limit * offset limit delta place + limit := by
  have parts := Nat.div_add_mod ((place + 1) * delta - 1) limit
  have remainder := Nat.mod_lt ((place + 1) * delta - 1) positive
  have grown : (place + 1) * delta = place * delta + delta :=
    Nat.succ_mul place delta
  rw [offset]
  by_cases still : delta = 0
  · rw [still, Nat.mul_zero, Nat.mul_zero, Nat.zero_sub, Nat.zero_div]
    omega
  · constructor <;> omega

end Offsets

end InternetWavPlayer.ErrorSteps
