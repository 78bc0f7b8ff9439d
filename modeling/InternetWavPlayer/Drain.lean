import Mathlib.Tactic

/-!
# Byte sources and the loops that drain them

A byte source answers a read of at most `n` bytes with at most `n` bytes; an
empty answer stands for the end of the data or an error.  Two loops read a
source: one asks for the same amount until an answer is empty, the other
counts towards a known total.  Each returns the non-empty answers in order.

A source has a measure which every non-empty answer decreases, so that the
loops end; they are written with fuel and the measure bounds the fuel needed.
-/

namespace InternetWavPlayer.Drain

universe u

/-- Something that is read a piece at a time. -/
structure ByteSource (σ : Type u) where
  read : σ → Nat → List UInt8 × σ
  bound : ∀ state size, (read state size).1.length ≤ size
  measure : σ → Nat
  decreases : ∀ state size, (read state size).1 ≠ [] →
    measure (read state size).2 < measure state

variable {σ : Type u} (source : ByteSource σ)

/-- Read `size` bytes at a time until a read comes back empty. -/
def drain (size : Nat) : Nat → σ → List (List UInt8)
  | 0, _ => []
  | fuel + 1, state =>
      if (source.read state size).1 = [] then []
      else
        (source.read state size).1 ::
          drain size fuel (source.read state size).2

/--
Read at most `size` bytes at a time until `total` bytes have been read or a
read comes back empty; `position` is the number of bytes read so far.
-/
def drainUpTo (size total : Nat) : Nat → Nat → σ → List (List UInt8)
  | 0, _, _ => []
  | fuel + 1, position, state =>
      let answer := source.read state (min size (total - position))
      if answer.1 = [] then []
      else
        answer.1 ::
          if position + answer.1.length < total then
            drainUpTo size total fuel (position + answer.1.length) answer.2
          else []

/-- Enough fuel for both loops. -/
def ByteSource.fuel (state : σ) : Nat :=
  source.measure state + 1

/-! ## What the pieces look like -/

theorem drain_pieces
    (size fuel : Nat) (state : σ) :
    ∀ piece ∈ drain source size fuel state,
      piece ≠ [] ∧ piece.length ≤ size := by
  induction fuel generalizing state with
  | zero => simp [drain]
  | succ fuel induction =>
      intro piece member
      simp only [drain] at member
      split at member
      · simp at member
      · rename_i nonempty
        rcases List.mem_cons.mp member with rfl | older
        · exact ⟨nonempty, source.bound state size⟩
        · exact induction _ piece older

theorem drainUpTo_pieces
    (size total fuel position : Nat) (state : σ) :
    ∀ piece ∈ drainUpTo source size total fuel position state,
      piece ≠ [] ∧ piece.length ≤ size := by
  induction fuel generalizing position state with
  | zero => simp [drainUpTo]
  | succ fuel induction =>
      intro piece member
      have bound := source.bound state (min size (total - position))
      simp only [drainUpTo] at member
      split at member
      · simp at member
      · rename_i nonempty
        rcases List.mem_cons.mp member with rfl | older
        · exact ⟨nonempty, bound.trans (Nat.min_le_left _ _)⟩
        · split at older
          · exact induction _ _ piece older
          · simp at older

/-! ## Sources that hand over a known body -/

/--
The source hands over exactly `body` to a loop which reads `size` bytes at a
time: no read comes back empty before the end, and the read after it does.
-/
inductive Delivers (size : Nat) : List UInt8 → σ → Prop where
  | done {state : σ}
      (ended : (source.read state size).1 = []) :
      Delivers size [] state
  | piece {state : σ} {answer rest : List UInt8}
      (nonempty : answer ≠ [])
      (answered : (source.read state size).1 = answer)
      (remaining : Delivers size rest (source.read state size).2) :
      Delivers size (answer ++ rest) state

/--
The source hands over `body`, all that is missing of a known total, to a
counting loop: no read comes back empty while bytes are missing.
-/
inductive DeliversUpTo (size : Nat) : List UInt8 → σ → Prop where
  | done {state : σ} : DeliversUpTo size [] state
  | piece {state : σ} {answer rest : List UInt8}
      (nonempty : answer ≠ [])
      (answered :
        (source.read state (min size (answer ++ rest).length)).1 = answer)
      (remaining : DeliversUpTo size rest
        (source.read state (min size (answer ++ rest).length)).2) :
      DeliversUpTo size (answer ++ rest) state

theorem drain_flatten_of_delivers
    {size : Nat} {body : List UInt8} {state : σ}
    (delivers : Delivers source size body state)
    {fuel : Nat} (enough : source.measure state < fuel) :
    (drain source size fuel state).flatten = body := by
  induction delivers generalizing fuel with
  | done ended =>
      cases fuel with
      | zero => rfl
      | succ fuel => simp [drain, ended]
  | @piece state answer rest nonempty answered remaining induction =>
      cases fuel with
      | zero => exact absurd enough (Nat.not_lt_zero _)
      | succ fuel =>
          have smaller := source.decreases state size
            (by rw [answered]; exact nonempty)
          simp only [drain, answered, if_neg nonempty,
            List.flatten_cons]
          rw [induction (by omega)]

theorem drainUpTo_flatten_of_delivers
    {size : Nat} {body : List UInt8} {state : σ}
    (delivers : DeliversUpTo source size body state)
    {total position : Nat}
    (remaining : total = position + body.length)
    {fuel : Nat} (enough : source.measure state < fuel) :
    (drainUpTo source size total fuel position state).flatten = body := by
  induction delivers generalizing fuel position with
  | @done state =>
      cases fuel with
      | zero => rfl
      | succ fuel =>
          have bound := source.bound state (min size (total - position))
          have empty :
              (source.read state (min size (total - position))).1 = [] := by
            apply List.eq_nil_of_length_eq_zero
            simp only [List.length_nil] at remaining
            omega
          simp [drainUpTo, empty]
  | @piece state answer rest nonempty answered later induction =>
      cases fuel with
      | zero => exact absurd enough (Nat.not_lt_zero _)
      | succ fuel =>
          have request : total - position = (answer ++ rest).length := by
            omega
          have smaller := source.decreases state
            (min size (answer ++ rest).length)
            (by rw [answered]; exact nonempty)
          simp only [drainUpTo, request, answered, if_neg nonempty,
            List.flatten_cons]
          rw [List.length_append] at remaining
          congr 1
          by_cases more : position + answer.length < total
          · rw [if_pos more]
            exact induction (by omega) (by omega)
          · have finished : rest = [] := by
              apply List.eq_nil_of_length_eq_zero
              omega
            rw [if_neg more, finished]
            rfl

/-! ## What a loop returns is what its source handed over -/

theorem delivers_of_drain
    {size fuel : Nat} {state : σ} (enough : source.measure state < fuel) :
    Delivers source size (drain source size fuel state).flatten state := by
  induction fuel generalizing state with
  | zero => exact absurd enough (Nat.not_lt_zero _)
  | succ fuel induction =>
      simp only [drain]
      split
      · rename_i ended
        exact .done ended
      · rename_i nonempty
        have smaller := source.decreases state size nonempty
        exact .piece nonempty rfl (induction (by omega))

theorem deliversUpTo_of_drainUpTo
    {size total fuel position : Nat} {state : σ} {body : List UInt8}
    (enough : source.measure state < fuel)
    (remaining : total = position + body.length)
    (drained :
      (drainUpTo source size total fuel position state).flatten = body) :
    DeliversUpTo source size body state := by
  induction fuel generalizing position state body with
  | zero => exact absurd enough (Nat.not_lt_zero _)
  | succ fuel induction =>
      have request : total - position = body.length := by omega
      simp only [drainUpTo, request] at drained
      split at drained
      · subst drained
        exact .done
      · rename_i nonempty
        have smaller :=
          source.decreases state (min size body.length) nonempty
        generalize read :
          (source.read state (min size body.length)).1 = answer
          at drained nonempty
        rw [List.flatten_cons] at drained
        obtain ⟨rest, whole⟩ : ∃ rest, body = answer ++ rest :=
          ⟨_, drained.symm⟩
        subst whole
        have later := List.append_cancel_left drained
        rw [List.length_append] at remaining
        apply DeliversUpTo.piece nonempty read
        split at later
        · exact induction (by omega) (by omega) later
        · subst later
          exact .done

end InternetWavPlayer.Drain
