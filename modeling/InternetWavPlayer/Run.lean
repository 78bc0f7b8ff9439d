import Mathlib.Tactic

/-!
# Runs of a machine that may fault

A machine consumes one input at a time and either moves to a next state or
stops in a fault.  This file gives its finite runs, the rule which carries an
invariant along a run, and the notion of a run all of whose steps meet a
condition on the input and on the state before the step.

Nothing here mentions a particular program.
-/

namespace InternetWavPlayer.Run

universe u v w

variable {State : Type u} {Input : Type v} {Fault : Type w}

/-! ## Computations that may fault -/

section Computation

variable {Value Outcome : Type u} {Result : Type v}

theorem map_eq_ok_iff
    {first : Except Fault Value} {f : Value → Result} {result : Result} :
    first.map f = .ok result ↔
      ∃ value, first = .ok value ∧ f value = result := by
  cases first <;> simp [Except.map]

theorem map_eq_error_iff
    {first : Except Fault Value} {f : Value → Result} {fault : Fault} :
    first.map f = .error fault ↔ first = .error fault := by
  cases first <;> simp [Except.map]

theorem bind_eq_ok_iff
    {first : Except Fault Value} {f : Value → Except Fault Outcome}
    {result : Outcome} :
    first >>= f = .ok result ↔
      ∃ value, first = .ok value ∧ f value = .ok result := by
  cases first <;> simp [bind, Except.bind]

theorem bind_eq_error_iff
    {first : Except Fault Value} {f : Value → Except Fault Outcome}
    {fault : Fault} :
    first >>= f = .error fault ↔
      first = .error fault ∨
        ∃ value, first = .ok value ∧ f value = .error fault := by
  cases first <;> simp [bind, Except.bind]

theorem toOption_map_eq_some_iff
    {first : Except Fault Value} {f : Value → Result} {result : Result} :
    first.toOption.map f = some result ↔
      ∃ value, first = .ok value ∧ f value = result := by
  cases first <;> simp [Except.toOption]

end Computation

/-! ## Finite runs -/

/-- Feed a list of inputs to a machine, stopping at its first fault. -/
def run (step : Input → State → Except Fault State) :
    List Input → State → Except Fault State
  | [], state => .ok state
  | input :: rest, state => (step input state).bind (run step rest)

variable {step : Input → State → Except Fault State}

@[simp]
theorem run_nil (state : State) :
    run step [] state = .ok state :=
  rfl

@[simp]
theorem run_cons (input : Input) (rest : List Input) (state : State) :
    run step (input :: rest) state =
      (step input state).bind (run step rest) :=
  rfl

/-- Inversion of a run which starts with one known input. -/
theorem run_cons_eq_ok_iff
    (input : Input) (rest : List Input) (start finish : State) :
    run step (input :: rest) start = .ok finish ↔
      ∃ next, step input start = .ok next ∧
        run step rest next = .ok finish := by
  rw [run_cons]
  cases stepped : step input start with
  | error fault =>
      simp [Except.bind]
  | ok next =>
      simp [Except.bind]

theorem run_singleton {input : Input} {start next : State}
    (stepped : step input start = .ok next) :
    run step [input] start = .ok next := by
  rw [run_cons, stepped]
  rfl

/-- A run splits at every position. -/
theorem run_append
    (past future : List Input) (start : State) :
    run step (past ++ future) start =
      (run step past start).bind (run step future) := by
  induction past generalizing start with
  | nil => rfl
  | cons input rest induction =>
      rw [List.cons_append, run_cons, run_cons]
      cases step input start with
      | error fault => rfl
      | ok next => exact induction next

theorem run_append_eq_ok_iff
    (past future : List Input) (start finish : State) :
    run step (past ++ future) start = .ok finish ↔
      ∃ middle, run step past start = .ok middle ∧
        run step future middle = .ok finish := by
  rw [run_append]
  cases run step past start with
  | error fault => simp [Except.bind]
  | ok middle => simp [Except.bind]

/-- A state that some finite run reaches without a fault. -/
def Reachable (step : Input → State → Except Fault State)
    (start state : State) : Prop :=
  ∃ inputs, run step inputs start = .ok state

theorem Reachable.refl (start : State) :
    Reachable step start start :=
  ⟨[], rfl⟩

theorem Reachable.next
    {start state next : State} {input : Input}
    (reachable : Reachable step start state)
    (stepped : step input state = .ok next) :
    Reachable step start next := by
  obtain ⟨inputs, ran⟩ := reachable
  refine ⟨inputs ++ [input], ?_⟩
  rw [run_append_eq_ok_iff]
  exact ⟨state, ran, by simp [stepped, Except.bind]⟩

/-! ## Invariants -/

/-- One step out of a state with the invariant keeps it. -/
def Preserved (step : Input → State → Except Fault State)
    (invariant : State → Prop) : Prop :=
  ∀ input state next, invariant state →
    step input state = .ok next → invariant next

theorem run_invariant
    {invariant : State → Prop}
    (preserved : Preserved step invariant)
    {inputs : List Input} {start finish : State}
    (initial : invariant start)
    (ran : run step inputs start = .ok finish) :
    invariant finish := by
  induction inputs generalizing start with
  | nil =>
      cases ran
      exact initial
  | cons input rest induction =>
      obtain ⟨next, stepped, continued⟩ :=
        (run_cons_eq_ok_iff input rest start finish).mp ran
      exact induction
        (preserved input start next initial stepped) continued

theorem Reachable.invariant
    {invariant : State → Prop}
    (preserved : Preserved step invariant)
    {start state : State}
    (initial : invariant start)
    (reachable : Reachable step start state) :
    invariant state := by
  obtain ⟨inputs, ran⟩ := reachable
  exact run_invariant preserved initial ran

/-! ## Conditions along a run -/

/--
Every step that the run takes meets `condition`, including the step that
faults, if one does.
-/
def Throughout (step : Input → State → Except Fault State)
    (condition : Input → State → Prop) :
    List Input → State → Prop
  | [], _ => True
  | input :: rest, state =>
      condition input state ∧
        ∀ next, step input state = .ok next →
          Throughout step condition rest next

theorem throughout_cons_of_ok
    {condition : Input → State → Prop} {input : Input}
    {rest : List Input} {state next : State}
    (stepped : step input state = .ok next) :
    (condition input state ∧ Throughout step condition rest next) ↔
      Throughout step condition (input :: rest) state := by
  simp [Throughout, stepped]

theorem throughout_cons_of_error
    {condition : Input → State → Prop} {input : Input}
    {rest : List Input} {state : State} {fault : Fault}
    (stepped : step input state = .error fault) :
    condition input state ↔
      Throughout step condition (input :: rest) state := by
  simp [Throughout, stepped]

/-- A given run can be checked against a condition that can be decided. -/
instance Throughout.decide
    (condition : Input → State → Prop)
    [∀ input state, Decidable (condition input state)] :
    (inputs : List Input) → (state : State) →
      Decidable (Throughout step condition inputs state)
  | [], _ => .isTrue True.intro
  | input :: rest, state =>
      match stepped : step input state with
      | .ok next =>
          have := Throughout.decide condition rest next
          decidable_of_iff _ (throughout_cons_of_ok stepped)
      | .error _ =>
          decidable_of_iff _ (throughout_cons_of_error stepped)

/--
Under an invariant that steps meeting `guard` preserve, a guarded run has
every consequence that the invariant and the guard have at one step.
-/
theorem Throughout.imp_of_guarded
    (invariant : State → Prop) {guard condition : Input → State → Prop}
    (preserved : ∀ input state next, invariant state →
      guard input state → step input state = .ok next → invariant next)
    (consequence : ∀ input state, invariant state →
      guard input state → condition input state)
    {inputs : List Input} {start : State}
    (initial : invariant start)
    (guarded : Throughout step guard inputs start) :
    Throughout step condition inputs start := by
  induction inputs generalizing start with
  | nil => exact True.intro
  | cons input rest induction =>
      obtain ⟨headGuard, restGuard⟩ := guarded
      refine ⟨consequence input start initial headGuard, ?_⟩
      intro next stepped
      exact induction
        (preserved input start next initial headGuard stepped)
        (restGuard next stepped)

/-- The state at the end of a guarded run has the guarded invariant. -/
theorem Throughout.invariant
    {invariant : State → Prop} {guard : Input → State → Prop}
    (preserved : ∀ input state next, invariant state →
      guard input state → step input state = .ok next → invariant next)
    {inputs : List Input} {start finish : State}
    (initial : invariant start)
    (guarded : Throughout step guard inputs start)
    (ran : run step inputs start = .ok finish) :
    invariant finish := by
  induction inputs generalizing start with
  | nil =>
      cases ran
      exact initial
  | cons input rest induction =>
      obtain ⟨headGuard, restGuard⟩ := guarded
      obtain ⟨next, stepped, continued⟩ :=
        (run_cons_eq_ok_iff input rest start finish).mp ran
      exact induction
        (preserved input start next initial headGuard stepped)
        (restGuard next stepped) continued

/-- What an invariant implies at one step holds throughout every run. -/
theorem throughout_of_invariant
    {invariant : State → Prop} {condition : Input → State → Prop}
    (preserved : Preserved step invariant)
    (consequence : ∀ input state, invariant state →
      condition input state)
    {inputs : List Input} {start : State}
    (initial : invariant start) :
    Throughout step condition inputs start := by
  induction inputs generalizing start with
  | nil => exact True.intro
  | cons input rest induction =>
      refine ⟨consequence input start initial, ?_⟩
      intro next stepped
      exact induction (preserved input start next initial stepped)

/-- A condition on the inputs alone holds throughout if all inputs meet it. -/
theorem throughout_of_inputs
    {condition : Input → Prop} {inputs : List Input}
    (all : ∀ input ∈ inputs, condition input) (start : State) :
    Throughout step (fun input _ => condition input) inputs start := by
  induction inputs generalizing start with
  | nil => exact True.intro
  | cons input rest induction =>
      rw [List.forall_mem_cons] at all
      exact ⟨all.1, fun next _ => induction all.2 next⟩

/--
Two conditions which agree wherever an invariant holds hold throughout the
same runs.
-/
theorem throughout_iff_of_invariant
    {invariant : State → Prop} {left right : Input → State → Prop}
    (preserved : Preserved step invariant)
    (agree : ∀ input state, invariant state →
      (left input state ↔ right input state))
    {inputs : List Input} {start : State}
    (initial : invariant start) :
    Throughout step left inputs start ↔
      Throughout step right inputs start := by
  constructor
  · exact Throughout.imp_of_guarded invariant
      (fun input state next holds _ stepped =>
        preserved input state next holds stepped)
      (fun input state holds => (agree input state holds).mp)
      initial
  · exact Throughout.imp_of_guarded invariant
      (fun input state next holds _ stepped =>
        preserved input state next holds stepped)
      (fun input state holds => (agree input state holds).mpr)
      initial

/-! ## Simulation -/

/--
A machine is simulated step by step, under an invariant of its own, by one
that sees only part of its state.
-/
structure Simulates
    {View : Type*} (step : Input → State → Except Fault State)
    (viewStep : Input → View → Except Fault View)
    (view : State → View) (invariant : State → Prop) : Prop where
  preserved : Preserved step invariant
  commutes : ∀ input state, invariant state →
    (step input state).map view = viewStep input (view state)

section Simulation

variable {View : Type*} {viewStep : Input → View → Except Fault View}
  {view : State → View} {invariant : State → Prop}

/-- A simulated step is a step of the view. -/
theorem Simulates.viewed
    (simulates : Simulates step viewStep view invariant)
    {input : Input} {state next : State} (holds : invariant state)
    (stepped : step input state = .ok next) :
    viewStep input (view state) = .ok (view next) := by
  rw [← simulates.commutes input state holds, stepped]
  rfl

/-- A simulated run ends as the run of the views does. -/
theorem Simulates.run
    (simulates : Simulates step viewStep view invariant)
    {inputs : List Input} {start finish : State}
    (initial : invariant start)
    (ran : run step inputs start = .ok finish) :
    Run.run viewStep inputs (view start) = .ok (view finish) := by
  induction inputs generalizing start with
  | nil =>
      cases ran
      rfl
  | cons input rest induction =>
      obtain ⟨next, stepped, continued⟩ :=
        (run_cons_eq_ok_iff input rest start finish).mp ran
      rw [run_cons_eq_ok_iff]
      exact ⟨view next, simulates.viewed initial stepped, induction
        (simulates.preserved input start next initial stepped) continued⟩

/-- Conditions that agree through the view hold throughout together. -/
theorem Simulates.throughout_iff
    (simulates : Simulates step viewStep view invariant)
    {condition : Input → State → Prop}
    (viewCondition : Input → View → Prop)
    (agree : ∀ input state, invariant state →
      (condition input state ↔ viewCondition input (view state)))
    {inputs : List Input} {start : State}
    (initial : invariant start) :
    Throughout step condition inputs start ↔
      Throughout viewStep viewCondition inputs (view start) := by
  induction inputs generalizing start with
  | nil => exact Iff.rfl
  | cons input rest induction =>
      refine and_congr (agree input start initial) ?_
      have commutes := simulates.commutes input start initial
      constructor
      · intro later next viewStepped
        rw [viewStepped, map_eq_ok_iff] at commutes
        obtain ⟨finish, stepped, rfl⟩ := commutes
        exact (induction (simulates.preserved input start finish
          initial stepped)).mp (later finish stepped)
      · intro later next stepped
        exact (induction (simulates.preserved input start next
          initial stepped)).mpr
            (later (view next) (simulates.viewed initial stepped))

end Simulation

end InternetWavPlayer.Run
