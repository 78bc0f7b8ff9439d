import Mathlib.Data.Multiset.AddSub
import Mathlib.Data.Multiset.Count
import Mathlib.Tactic

/-!
# A ledger of acquired resources

A program acquires resources of several kinds and gives them back.  The ledger
keeps those that are live; each has a number that no other resource ever had,
so that a release which comes twice, or a use after the release, is told from
one of a later resource.

A part of a program is followed relative to what was live before it: `Owns`
says which resources it holds at a point, and the rules tell how acquiring and
releasing change them.  Nothing here mentions a particular program.
-/

namespace InternetWavPlayer.ResourceLedger

universe u v w

/-- An acquired resource: its kind, and a number of its own. -/
structure Resource (κ : Type u) where
  kind : κ
  number : Nat
deriving DecidableEq, Repr

/-- The live resources, all with numbers below the next one. -/
structure Ledger (κ : Type u) where
  live : Multiset (Resource κ)
  next : Nat
  distinct : live.Nodup
  below : ∀ resource ∈ live, resource.number < next

/-- Why a computation stops: an error of its own, or a resource not live. -/
inductive Failure (κ : Type u) (E : Type v) where
  | program (error : E)
  | dead (resource : Resource κ)
deriving DecidableEq, Repr

variable {κ : Type u} {E : Type v} {α : Type w}

/-- The ledger before anything was acquired. -/
def Ledger.empty : Ledger κ where
  live := 0
  next := 0
  distinct := Multiset.nodup_zero
  below := by simp

/-- A computation without resources. -/
def lift (computation : Except E α) : Except (Failure κ E) α :=
  computation.mapError .program

@[simp]
theorem lift_ok (value : α) :
    lift (.ok value : Except E α) = (.ok value : Except (Failure κ E) α) :=
  rfl

@[simp]
theorem lift_error (error : E) :
    lift (.error error : Except E α) =
      (.error (.program error) : Except (Failure κ E) α) :=
  rfl

/-- Acquire a new resource. -/
def Ledger.acquire (kind : κ) (ledger : Ledger κ) :
    Resource κ × Ledger κ :=
  (⟨kind, ledger.next⟩,
    { live := ⟨kind, ledger.next⟩ ::ₘ ledger.live
      next := ledger.next + 1
      distinct := by
        rw [Multiset.nodup_cons]
        refine ⟨fun member => ?_, ledger.distinct⟩
        exact Nat.lt_irrefl _ (ledger.below _ member)
      below := by
        intro resource member
        rcases Multiset.mem_cons.mp member with rfl | older
        · exact Nat.lt_succ_self _
        · exact Nat.lt_succ_of_lt (ledger.below _ older) })

section Operations

variable [DecidableEq κ]

/-- Use a resource. -/
def Ledger.use (resource : Resource κ) (ledger : Ledger κ) :
    Except (Failure κ E) Unit :=
  if resource ∈ ledger.live then .ok () else .error (.dead resource)

/-- Give a resource back. -/
def Ledger.release (resource : Resource κ) (ledger : Ledger κ) :
    Except (Failure κ E) (Ledger κ) :=
  if resource ∈ ledger.live then
    .ok
      { live := ledger.live.erase resource
        next := ledger.next
        distinct := ledger.distinct.erase resource
        below := fun _ member =>
          ledger.below _ (Multiset.mem_of_mem_erase member) }
  else .error (.dead resource)

/-- Give a resource back, if there is one. -/
def Ledger.releaseAny :
    Option (Resource κ) → Ledger κ → Except (Failure κ E) (Ledger κ)
  | none, ledger => .ok ledger
  | some resource, ledger => ledger.release resource

/-- How many resources of a kind are live. -/
def Ledger.number (kind : κ) (ledger : Ledger κ) : Nat :=
  ledger.live.countP fun resource => resource.kind = kind

end Operations

/-! ## Resources given back -/

/-- A resource that was acquired and is live no more. -/
def Dead (resource : Resource κ) (ledger : Ledger κ) : Prop :=
  resource ∉ ledger.live ∧ resource.number < ledger.next

section Dead

variable {ledger after : Ledger κ} {resource other : Resource κ}

theorem Dead.acquire (dead : Dead resource ledger) (kind : κ) :
    Dead resource (ledger.acquire kind).2 := by
  obtain ⟨gone, below⟩ := dead
  constructor
  · intro member
    rcases Multiset.mem_cons.mp member with rfl | older
    · exact Nat.lt_irrefl _ below
    · exact gone older
  · exact Nat.lt_succ_of_lt below

variable [DecidableEq κ]

theorem Dead.release_other
    (dead : Dead resource ledger)
    (released : (ledger.release other : Except (Failure κ E) (Ledger κ)) =
      .ok after) : Dead resource after := by
  rw [Ledger.release] at released
  split at released
  · cases released
    exact ⟨fun member => dead.1 (Multiset.mem_of_mem_erase member), dead.2⟩
  · cases released

theorem Dead.use (dead : Dead resource ledger) :
    (ledger.use resource : Except (Failure κ E) Unit) =
      .error (.dead resource) := by
  rw [Ledger.use, if_neg dead.1]

theorem Dead.release (dead : Dead resource ledger) :
    (ledger.release resource : Except (Failure κ E) (Ledger κ)) =
      .error (.dead resource) := by
  rw [Ledger.release, if_neg dead.1]

end Dead

/-! ## What a part of a program holds -/

/-- Beside what was live before, just the resources held are live. -/
def Owns (before held : Multiset (Resource κ)) (ledger : Ledger κ) : Prop :=
  ledger.live = held + before

section Owns

variable {before held frame : Multiset (Resource κ)} {ledger : Ledger κ}
  {resource : Resource κ}

theorem owns_start (ledger : Ledger κ) : Owns ledger.live 0 ledger :=
  (zero_add _).symm

/-- With nothing held, what is live is what was live before. -/
theorem owns_none_iff : Owns before 0 ledger ↔ ledger.live = before := by
  rw [Owns, zero_add]

/-- What a part of a program does not hold counts as live before it. -/
theorem owns_frame_iff :
    Owns (frame + before) held ledger ↔ Owns before (held + frame) ledger := by
  rw [Owns, Owns, add_assoc]

theorem owns_cons_iff :
    Owns before (resource ::ₘ held) ledger ↔
      Owns (held + before) {resource} ledger := by
  rw [owns_frame_iff, Multiset.singleton_add]

/-- What is held may be listed in another order. -/
theorem Owns.swap
    {first second : Resource κ}
    (owns : Owns before (first ::ₘ second ::ₘ held) ledger) :
    Owns before (second ::ₘ first ::ₘ held) ledger := by
  rw [Owns, Multiset.cons_swap]
  exact owns

theorem Owns.acquire (owns : Owns before held ledger) (kind : κ) :
    Owns before ((ledger.acquire kind).1 ::ₘ held)
      (ledger.acquire kind).2 := by
  show _ ::ₘ ledger.live = _
  rw [owns, Multiset.cons_add]
  rfl

variable [DecidableEq κ]

theorem Owns.use
    (owns : Owns before (resource ::ₘ held) ledger) :
    (ledger.use resource : Except (Failure κ E) Unit) = .ok () := by
  have live : resource ∈ ledger.live := by
    rw [owns]
    exact Multiset.mem_add.mpr (Or.inl (Multiset.mem_cons_self _ _))
  rw [Ledger.use, if_pos live]

/-- What is held can be given back, and then is dead. -/
theorem Owns.release
    (owns : Owns before (resource ::ₘ held) ledger) :
    ∃ after,
      (ledger.release resource : Except (Failure κ E) (Ledger κ)) =
        .ok after ∧ Owns before held after ∧ Dead resource after := by
  have live : resource ∈ ledger.live := by
    rw [owns]
    exact Multiset.mem_add.mpr (Or.inl (Multiset.mem_cons_self _ _))
  rw [Ledger.release, if_pos live]
  refine ⟨_, rfl, ?_, ?_, ledger.below _ live⟩
  · show ledger.live.erase resource = _
    rw [owns, Multiset.cons_add, Multiset.erase_cons_head]
  · intro member
    exact absurd rfl ((ledger.distinct.mem_erase_iff).mp member).1

/-- The same for a resource that there may be. -/
theorem Owns.releaseAny
    {resource : Option (Resource κ)}
    (owns : Owns before (resource.toList + held) ledger) :
    ∃ after,
      (ledger.releaseAny resource : Except (Failure κ E) (Ledger κ)) =
        .ok after ∧ Owns before held after := by
  cases resource with
  | none => exact ⟨ledger, rfl, by rwa [Owns, ← zero_add held]⟩
  | some resource =>
      obtain ⟨after, released, rest, -⟩ := owns.release
      exact ⟨after, released, rest⟩

/-- A resource held at the end is one more of its kind. -/
theorem Owns.number_one
    {start after : Ledger κ} (owns : Owns start.live {resource} after) :
    after.number resource.kind = start.number resource.kind + 1 := by
  rw [Ledger.number, owns, Multiset.countP_add, Ledger.number,
    Nat.add_comm]
  congr 1
  exact Multiset.countP_eq_card.mpr (by simp)

end Owns

end InternetWavPlayer.ResourceLedger
