import InternetWavPlayer.Run
import Mathlib.Tactic

/-!
# Contracts of computations that may fault

`Returns` says that a computation does not fault and that its value meets a
condition; `Yields` says the second only.  A computation is followed step by
step with the rules for `bind`, and two contracts of one computation combine.

Nothing here mentions a particular program.
-/

namespace InternetWavPlayer.Contract

universe u v

variable {Fault : Type u} {Value Outcome : Type v}

/-- The computation does not fault, and its value meets the condition. -/
def Returns (computation : Except Fault Value) (post : Value → Prop) : Prop :=
  ∃ value, computation = .ok value ∧ post value

/-- Unless the computation faults, its value meets the condition. -/
def Yields (computation : Except Fault Value) (post : Value → Prop) : Prop :=
  ∀ value, computation = .ok value → post value

section Returns

variable {computation : Except Fault Value} {post stronger : Value → Prop}
  {f : Value → Except Fault Outcome} {result : Outcome → Prop}

theorem returns_ok {value : Value} (meets : post value) :
    Returns (.ok value : Except Fault Value) post :=
  ⟨value, rfl, meets⟩

theorem returns_pure {value : Value} (meets : post value) :
    Returns (pure value : Except Fault Value) post :=
  returns_ok meets

/-- A value that is there is passed on. -/
theorem returns_ok_bind {value : Value} (next : Returns (f value) result) :
    Returns ((.ok value : Except Fault Value) >>= f) result :=
  next

/-- A computation whose value is known is passed on. -/
theorem returns_bind_of_eq {value : Value} (equation : computation = .ok value)
    (next : Returns (f value) result) : Returns (computation >>= f) result := by
  rw [equation]
  exact next

theorem Returns.bind (first : Returns computation post)
    (next : ∀ value, post value → Returns (f value) result) :
    Returns (computation >>= f) result := by
  obtain ⟨value, rfl, meets⟩ := first
  exact next value meets

theorem Returns.mono (returns : Returns computation stronger)
    (weaker : ∀ value, stronger value → post value) :
    Returns computation post := by
  obtain ⟨value, equation, meets⟩ := returns
  exact ⟨value, equation, weaker value meets⟩

theorem Returns.map {g : Value → Outcome} (returns : Returns computation post)
    (next : ∀ value, post value → result (g value)) :
    Returns (g <$> computation) result := by
  obtain ⟨value, rfl, meets⟩ := returns
  exact ⟨g value, rfl, next value meets⟩

end Returns

section Yields

variable {computation : Except Fault Value} {post stronger : Value → Prop}
  {f : Value → Except Fault Outcome} {result : Outcome → Prop}

theorem yields_ok {value : Value} (meets : post value) :
    Yields (.ok value : Except Fault Value) post := by
  rintro _ ⟨⟩
  exact meets

theorem yields_pure {value : Value} (meets : post value) :
    Yields (pure value : Except Fault Value) post :=
  yields_ok meets

theorem yields_error (fault : Fault) :
    Yields (.error fault : Except Fault Value) post := by
  rintro _ ⟨⟩

/-- Nothing need be known of the first computation. -/
theorem yields_any (computation : Except Fault Value) :
    Yields computation fun _ => True :=
  fun _ _ => trivial

/-- A value that is there is passed on. -/
theorem yields_ok_bind {value : Value} (next : Yields (f value) result) :
    Yields ((.ok value : Except Fault Value) >>= f) result :=
  next

theorem Yields.bind (first : Yields computation post)
    (next : ∀ value, post value → Yields (f value) result) :
    Yields (computation >>= f) result := by
  cases computation with
  | error fault => exact yields_error fault
  | ok value => exact next value (first value rfl)

theorem Yields.mono (yields : Yields computation stronger)
    (weaker : ∀ value, stronger value → post value) :
    Yields computation post :=
  fun value equation => weaker value (yields value equation)

end Yields

/-- A contract on values adds to one which excludes a fault. -/
theorem Returns.and {computation : Except Fault Value}
    {first second : Value → Prop} (returns : Returns computation first)
    (yields : Yields computation second) :
    Returns computation fun value => first value ∧ second value := by
  obtain ⟨value, equation, meets⟩ := returns
  exact ⟨value, equation, meets, yields value equation⟩

/-! ## Runs -/

/--
A machine each of whose steps keeps the invariant or stops in one fault does
so along every run.
-/
theorem run_returns {State : Type v} {Input : Type*}
    {step : Input → State → Except Fault State} {invariant : State → Prop}
    {fault : Fault}
    (kept : ∀ input state, invariant state →
      step input state = .error fault ∨ Returns (step input state) invariant)
    (inputs : List Input) {start : State} (initial : invariant start) :
    Run.run step inputs start = .error fault ∨
      Returns (Run.run step inputs start) invariant := by
  induction inputs generalizing start with
  | nil => exact .inr (returns_ok initial)
  | cons input rest induction =>
      rw [Run.run_cons]
      rcases kept input start initial with faults | ⟨next, stepped, after⟩
      · rw [faults]
        exact .inl rfl
      · rw [stepped]
        exact induction after

end InternetWavPlayer.Contract
