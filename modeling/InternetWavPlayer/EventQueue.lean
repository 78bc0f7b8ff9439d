import InternetWavPlayer.LcdEvent
import InternetWavPlayer.MessageQueue

/-!
# The queue of key messages

`iotb_event_put` and `iotb_event_get` work on a queue whose pool is an array of
`IOTB_EVENT_MSG_NUM` messages.  Any number of calls may be under way, each
between the two critical sections of the kernel's send or receive.  What is
received is compared with what was accepted, message by message, and a full
queue with the number the pool was declared for.
-/

namespace InternetWavPlayer.EventQueue

open InternetWavPlayer.Run
open InternetWavPlayer.LcdEvent (IotbEventMsg)
open InternetWavPlayer.MessageQueue

/-- `IOTB_EVENT_MSG_NUM`. -/
def iotbEventMsgNum : Nat := 10

/--
The queue, the flag of `iotb_event_put`, and the calls under way: the node in
hand, with the message to copy into it or with the place of the message in the
order of receiving.  Two logs, oldest first, tell which messages were linked
and which were copied out.
-/
structure State (Message : Type) where
  mq : Mq Message
  putEnable : Bool
  putting : List (Nat × Message)
  getting : List (Nat × Nat)
  taken : Nat
  accepted : List Message
  received : List (Nat × Option Message)

/-- A step of one of the calls, or of the two functions for the flag. -/
inductive Input (Message : Type) where
  | putBegin (msg : Message)
  | putEnd (call : Nat)
  | getBegin
  | getEnd (call : Nat)
  | setEnable (value : Bool)

variable {Message : Type}

/-- `iotb_event_init`, for messages of `size` bytes. -/
def iotbEventInit (size : Nat) : State Message where
  mq := rtMqInit size (size * iotbEventMsgNum)
  putEnable := true
  putting := []
  getting := []
  taken := 0
  accepted := []
  received := []

/-- The nodes in the hands of calls. -/
def State.held (state : State Message) : List Nat :=
  state.putting.map Prod.fst ++ state.getting.map Prod.fst

/--
What `iotb_event_put` returns, unless it goes on with a node in hand and then
returns `RT_EOK`.
-/
def iotbEventPutResult (size : Nat) (state : State Message) :
    Option RtErr :=
  if state.putEnable = false then some .eok
  else
    match rtMqSendBegin size state.mq with
    | .error code => some code
    | .ok _ => none

/-- `iotb_event_put` up to the end of the first critical section. -/
def iotbEventPut (size : Nat) (msg : Message) (state : State Message) :
    State Message :=
  if state.putEnable = false then state
  else
    match rtMqSendBegin size state.mq with
    | .error _ => state
    | .ok (node, mq) =>
        { state with mq := mq, putting := (node, msg) :: state.putting }

/-- The rest of a call of `iotb_event_put`. -/
def putEnd (call : Nat) (state : State Message) : State Message :=
  match state.putting[call]? with
  | none => state
  | some (node, msg) =>
      { state with
        mq := rtMqSendEnd node msg state.mq
        putting := state.putting.eraseIdx call
        accepted := state.accepted ++ [msg] }

/-- `iotb_event_get` once it finds a message. -/
def iotbEventGet (state : State Message) :
    Except Fault (State Message) := do
  match ← rtMqRecvBegin state.mq with
  | none => return state
  | some (node, mq) =>
      return { state with
        mq := mq
        getting := (node, state.taken) :: state.getting
        taken := state.taken + 1 }

/-- The rest of a call of `iotb_event_get`. -/
def getEnd (call : Nat) (state : State Message) : State Message :=
  match state.getting[call]? with
  | none => state
  | some (node, place) =>
      { state with
        mq := (rtMqRecvEnd node state.mq).2
        getting := state.getting.eraseIdx call
        received :=
          state.received ++ [(place, (rtMqRecvEnd node state.mq).1)] }

def step (size : Nat) :
    Input Message → State Message → Except Fault (State Message)
  | .putBegin msg, state => .ok (iotbEventPut size msg state)
  | .putEnd call, state => .ok (putEnd call state)
  | .getBegin, state => iotbEventGet state
  | .getEnd call, state => .ok (getEnd call state)
  | .setEnable value, state => .ok { state with putEnable := value }

/-! ## What holds of the calls under way -/

/-- Every node holds the message of its place in the order of acceptance. -/
structure QueueInvariant (state : State Message) : Prop where
  sound : state.mq.Sound state.held
  waiting : state.mq.queued.map state.mq.contents =
    (state.accepted.drop state.taken).map some
  inside : state.taken ≤ state.accepted.length
  inHand : ∀ call ∈ state.getting,
    state.mq.contents call.1 = state.accepted[call.2]?
  copied : ∀ entry ∈ state.received,
    entry.2 = state.accepted[entry.1]? ∧ entry.2.isSome
  places : (state.received.map Prod.fst ++
    state.getting.map Prod.snd).Perm (List.range state.taken)

theorem queueInvariant_initial (size : Nat) :
    QueueInvariant (iotbEventInit size : State Message) where
  sound := sound_rtMqInit size (size * iotbEventMsgNum)
  waiting := rfl
  inside := Nat.le_refl _
  inHand := fun _ member => absurd member (List.not_mem_nil)
  copied := fun _ member => absurd member (List.not_mem_nil)
  places := List.Perm.nil

/-- Taking one call off the list of those under way. -/
theorem perm_eraseIdx {α : Type} {calls : List α} {index : Nat} {call : α}
    (found : calls[index]? = some call) :
    calls.Perm (call :: calls.eraseIdx index) := by
  obtain ⟨inside, rfl⟩ := List.getElem?_eq_some_iff.mp found
  exact (List.getElem_cons_eraseIdx_perm inside).symm

namespace QueueInvariant

variable {state : State Message}

/-- A place that a call has is a place of an accepted message. -/
theorem place_inside
    (invariant : QueueInvariant state) {call : Nat × Nat}
    (member : call ∈ state.getting) :
    call.2 < state.accepted.length := by
  have place : call.2 ∈ List.range state.taken :=
    invariant.places.mem_iff.mp
      (List.mem_append_right _ (List.mem_map_of_mem member))
  exact (List.mem_range.mp place).trans_le invariant.inside

theorem putBegin
    (invariant : QueueInvariant state) (size : Nat) (msg : Message) :
    QueueInvariant (iotbEventPut size msg state) := by
  rw [iotbEventPut]
  by_cases disabled : state.putEnable = false
  · rw [if_pos disabled]
    exact invariant
  · rw [if_neg disabled]
    cases began : rtMqSendBegin size state.mq with
    | error code => exact invariant
    | ok taken =>
        obtain ⟨sound, queued, contents⟩ :=
          invariant.sound.sendBegin began
        refine ⟨sound, ?_, invariant.inside, ?_, invariant.copied,
          invariant.places⟩
        · show taken.2.queued.map taken.2.contents = _
          rw [queued, contents]
          exact invariant.waiting
        · show ∀ call ∈ state.getting, taken.2.contents call.1 = _
          rw [contents]
          exact invariant.inHand

/-- The node that a put links is neither queued nor in another hand. -/
theorem putEnd
    (invariant : QueueInvariant state) (call : Nat) :
    QueueInvariant (EventQueue.putEnd call state) := by
  rw [EventQueue.putEnd]
  cases found : state.putting[call]? with
  | none => exact invariant
  | some pair =>
      obtain ⟨node, msg⟩ := pair
      have erased := perm_eraseIdx found
      have held : (node :: ((state.putting.eraseIdx call).map Prod.fst ++
          state.getting.map Prod.fst)).Perm state.held :=
        List.Perm.append_right _ (erased.map Prod.fst).symm
      have sound := invariant.sound.perm held
      have unqueued := sound.not_queued (List.mem_cons_self ..)
      have unheld : ∀ call ∈ state.getting, call.1 ≠ node := by
        intro call member same
        have nodup := (List.nodup_append.mp sound.nodup).2.1
        apply (List.nodup_cons.mp nodup).1
        rw [← same]
        exact List.mem_append_right _ (List.mem_map_of_mem member)
      constructor
      case sound => exact sound.sendEnd msg
      case waiting =>
        show (state.mq.queued ++ [node]).map
          (Function.update state.mq.contents node (some msg)) = _
        have others : state.mq.queued.map
              (Function.update state.mq.contents node (some msg)) =
            state.mq.queued.map state.mq.contents := by
          apply List.map_congr_left
          intro other member
          apply Function.update_of_ne
          rintro rfl
          exact unqueued member
        rw [List.map_append, others, invariant.waiting,
          List.drop_append_of_le_length invariant.inside,
          List.map_append, List.map_singleton, List.map_singleton,
          Function.update_self]
      case inside =>
        show state.taken ≤ (state.accepted ++ [msg]).length
        rw [List.length_append]
        exact Nat.le_add_right_of_le invariant.inside
      case inHand =>
        intro other member
        show Function.update state.mq.contents node (some msg) other.1 =
          (state.accepted ++ [msg])[other.2]?
        rw [Function.update_of_ne (unheld other member),
          invariant.inHand other member,
          List.getElem?_append_left (invariant.place_inside member)]
      case copied =>
        intro entry member
        obtain ⟨copy, some⟩ := invariant.copied entry member
        refine ⟨?_, some⟩
        rw [copy, Option.isSome_iff_exists] at some
        obtain ⟨message, accepted⟩ := some
        have inside := (List.getElem?_eq_some_iff.mp accepted).1
        show entry.2 = (state.accepted ++ [msg])[entry.1]?
        rw [copy, List.getElem?_append_left inside]
      case places => exact invariant.places

theorem getBegin
    (invariant : QueueInvariant state) :
    ∃ next, iotbEventGet state = .ok next ∧ QueueInvariant next := by
  rw [iotbEventGet, invariant.sound.recvBegin_eq]
  cases queued : state.mq.queued with
  | nil => exact ⟨state, rfl, invariant⟩
  | cons node rest =>
      refine ⟨_, rfl, ?_⟩
      have waiting := invariant.waiting
      rw [queued] at waiting
      have more : state.taken < state.accepted.length := by
        by_contra done
        rw [List.drop_eq_nil_of_le (Nat.le_of_not_lt done)] at waiting
        cases waiting
      rw [List.drop_eq_getElem_cons more, List.map_cons, List.map_cons,
        List.cons.injEq] at waiting
      have sound := invariant.sound.recvBegin queued
      constructor
      case sound => exact sound.perm List.perm_middle
      case waiting => exact waiting.2
      case inside => exact more
      case inHand =>
        intro call member
        rcases List.mem_cons.mp member with rfl | older
        · show state.mq.contents node = state.accepted[state.taken]?
          rw [waiting.1, List.getElem?_eq_getElem more]
        · exact invariant.inHand call older
      case copied => exact invariant.copied
      case places =>
        rw [List.range_succ]
        show (state.received.map Prod.fst ++
          state.taken :: state.getting.map Prod.snd).Perm _
        apply List.perm_middle.trans
        apply List.Perm.trans _ (List.perm_append_singleton _ _).symm
        exact invariant.places.cons state.taken

theorem getEnd
    (invariant : QueueInvariant state) (call : Nat) :
    QueueInvariant (EventQueue.getEnd call state) := by
  rw [EventQueue.getEnd]
  cases found : state.getting[call]? with
  | none => exact invariant
  | some pair =>
      obtain ⟨node, place⟩ := pair
      have erased := perm_eraseIdx found
      have member : (node, place) ∈ state.getting :=
        List.mem_of_getElem? found
      have held : (node :: (state.putting.map Prod.fst ++
          (state.getting.eraseIdx call).map Prod.fst)).Perm
            state.held := by
        apply List.perm_middle.symm.trans
        exact List.Perm.append_left _ (erased.map Prod.fst).symm
      have content := invariant.inHand _ member
      constructor
      case sound => exact (invariant.sound.perm held).recvEnd
      case waiting => exact invariant.waiting
      case inside => exact invariant.inside
      case inHand =>
        intro other kept
        exact invariant.inHand other (List.mem_of_mem_eraseIdx kept)
      case copied =>
        intro entry added
        rcases List.mem_append.mp added with older | newest
        · exact invariant.copied entry older
        · rw [List.mem_singleton.mp newest]
          refine ⟨content, ?_⟩
          show (state.mq.contents node).isSome
          rw [content, List.getElem?_eq_getElem
            (invariant.place_inside member)]
          rfl
      case places =>
        apply List.Perm.trans _ invariant.places
        show ((state.received ++ [(place, state.mq.contents node)]).map
          Prod.fst ++ (state.getting.eraseIdx call).map Prod.snd).Perm _
        rw [List.map_append, List.append_assoc]
        exact List.Perm.append_left _ (erased.map Prod.snd).symm

end QueueInvariant

/-- No step follows a null pointer, and every step keeps the invariant. -/
theorem queueInvariant_step
    (size : Nat) (input : Input Message) {state : State Message}
    (invariant : QueueInvariant state) :
    ∃ next, step size input state = .ok next ∧ QueueInvariant next := by
  cases input with
  | putBegin msg => exact ⟨_, rfl, invariant.putBegin size msg⟩
  | putEnd call => exact ⟨_, rfl, invariant.putEnd call⟩
  | getBegin => exact invariant.getBegin
  | getEnd call => exact ⟨_, rfl, invariant.getEnd call⟩
  | setEnable value =>
      exact ⟨_, rfl, invariant.sound, invariant.waiting,
        invariant.inside, invariant.inHand, invariant.copied,
        invariant.places⟩

theorem queueInvariant_preserved (size : Nat) :
    Preserved (step size) (@QueueInvariant Message) := by
  intro input state next invariant stepped
  obtain ⟨other, found, holds⟩ := queueInvariant_step size input invariant
  rw [stepped] at found
  cases found
  exact holds

/-! ## The size of the pool -/

/-- The queue keeps the sizes it was set up with. -/
def Sized (size : Nat) (state : State Message) : Prop :=
  state.mq.msgSize = rtAlign size % 65536 ∧
    state.mq.maxMsgs =
      size * iotbEventMsgNum /
        (rtAlign size % 65536 + rtMqMessageSize) % 65536

/-- Of messages that fit in a node the pool holds less than was declared. -/
theorem maxMsgs_lt
    {size : Nat} {state : State Message} (sized : Sized size state)
    (fits : size ≤ state.mq.msgSize) :
    state.mq.maxMsgs < iotbEventMsgNum := by
  rw [sized.1] at fits
  rw [sized.2]
  apply (Nat.mod_le _ _).trans_lt
  apply Nat.div_lt_of_lt_mul
  apply Nat.mul_lt_mul_of_pos_right _ (by decide)
  exact fits.trans_lt (Nat.lt_add_of_pos_right (by decide))

theorem sized_preserved (size : Nat) :
    Preserved (step size) (@Sized Message size) := by
  intro input state next sized stepped
  cases input with
  | putBegin msg =>
      cases stepped
      rw [iotbEventPut]
      split
      · exact sized
      · cases began : rtMqSendBegin size state.mq with
        | error code => exact sized
        | ok taken =>
            rw [rtMqSendBegin] at began
            split at began
            · cases began
            · split at began
              · cases began
              · cases began
                exact sized
  | putEnd call =>
      cases stepped
      rw [putEnd]
      cases state.putting[call]? <;> exact sized
  | getBegin =>
      simp only [step, iotbEventGet, bind_eq_ok_iff] at stepped
      obtain ⟨found, began, returned⟩ := stepped
      rw [rtMqRecvBegin] at began
      split at began
      · cases began
        cases returned
        exact sized
      · split at began
        · cases began
        · cases began
          cases returned
          exact sized
  | getEnd call =>
      cases stepped
      rw [getEnd]
      cases state.getting[call]? <;> exact sized
  | setEnable value =>
      cases stepped
      exact sized

/-! ## Order and room -/

/--
Receives take the places in the order of acceptance one after the other, and
what one of them returns is the message accepted at its place.
-/
structure InOrder (state : State Message) : Prop where
  places : (state.received.map Prod.fst ++
    state.getting.map Prod.snd).Perm (List.range state.taken)
  unchanged : ∀ entry ∈ state.received,
    entry.2 = state.accepted[entry.1]? ∧ entry.2.isSome

/-- The messages copied out are the first ones accepted. -/
def ReceivesPrefix (state : State Message) : Prop :=
  state.received.map Prod.snd =
    (state.accepted.take state.received.length).map some

/-- A put that returns `-RT_EFULL` finds the declared number waiting. -/
def FullOnlyWhenWaiting (size : Nat) (input : Input Message)
    (state : State Message) : Prop :=
  ∀ msg, input = .putBegin msg →
    iotbEventPutResult size state = some .efull →
    iotbEventMsgNum ≤ state.mq.entry

/--
A put finds fewer messages waiting or being copied than the pool has nodes
for, or is refused for another reason.
-/
def HasRoom (size : Nat) (input : Input Message) (state : State Message) :
    Prop :=
  ∀ msg, input = .putBegin msg → state.putEnable = true →
    size ≤ state.mq.msgSize →
    state.mq.entry + state.held.length < state.mq.maxMsgs

theorem fullOnlyWhenWaiting_iff
    {size : Nat} {state : State Message} (input : Input Message)
    (invariant : QueueInvariant state) (sized : Sized size state) :
    FullOnlyWhenWaiting size input state ↔ HasRoom size input state := by
  have entry := invariant.sound.entry
  have count := invariant.sound.count
  have full := invariant.sound.sendBegin_efull_iff size
  constructor
  · intro waiting msg put enabled fits
    by_contra filled
    have efull := full.mpr ⟨fits, by omega⟩
    have result : iotbEventPutResult size state = some .efull := by
      rw [iotbEventPutResult, if_neg (by simp [enabled]), efull]
    have many := waiting msg put result
    have few := maxMsgs_lt sized fits
    omega
  · intro room msg put result
    rw [iotbEventPutResult] at result
    by_cases disabled : state.putEnable = false
    · rw [if_pos disabled] at result
      cases result
    · rw [if_neg disabled] at result
      cases began : rtMqSendBegin size state.mq with
      | error code =>
          rw [began] at result
          cases result
          obtain ⟨fits, filled⟩ := full.mp began
          have free := room msg put (by simpa using disabled) fits
          omega
      | ok taken =>
          rw [began] at result
          cases result

/-- In every run messages are received unchanged, in order. -/
theorem run_inOrder (size : Nat) (inputs : List (Input Message)) :
    ∃ final, run (step size) inputs (iotbEventInit size) = .ok final ∧
      InOrder final := by
  have goes : ∀ (inputs : List (Input Message)) (state : State Message),
      QueueInvariant state → ∃ final,
        run (step size) inputs state = .ok final ∧
          QueueInvariant final := by
    intro inputs
    induction inputs with
    | nil =>
        intro state invariant
        exact ⟨state, rfl, invariant⟩
    | cons input rest induction =>
        intro state invariant
        obtain ⟨next, stepped, kept⟩ :=
          queueInvariant_step size input invariant
        obtain ⟨final, ran, holds⟩ := induction next kept
        exact ⟨final, (run_cons_eq_ok_iff input rest state final).mpr
          ⟨next, stepped, ran⟩, holds⟩
  obtain ⟨final, ran, invariant⟩ :=
    goes inputs _ (queueInvariant_initial size)
  exact ⟨final, ran, invariant.places, invariant.copied⟩

/-- A receive starts only when none is under way, as in one thread. -/
def GetsInTurn (input : Input Message) (state : State Message) : Prop :=
  input = .getBegin → state.getting = []

/-- The places of the copies made come in order, and one call may follow. -/
def InTurn (state : State Message) : Prop :=
  state.received.map Prod.fst ++ state.getting.map Prod.snd =
      List.range state.taken ∧
    state.getting.length ≤ 1

theorem inTurn_preserved
    (size : Nat) (input : Input Message) (state next : State Message)
    (inTurn : InTurn state) (guard : GetsInTurn input state)
    (stepped : step size input state = .ok next) :
    InTurn next := by
  obtain ⟨places, single⟩ := inTurn
  cases input with
  | putBegin msg =>
      cases stepped
      rw [iotbEventPut]
      split
      · exact ⟨places, single⟩
      · cases rtMqSendBegin size state.mq <;> exact ⟨places, single⟩
  | putEnd call =>
      cases stepped
      rw [putEnd]
      cases state.putting[call]? <;> exact ⟨places, single⟩
  | getBegin =>
      have alone := guard rfl
      rw [alone, List.map_nil, List.append_nil] at places
      simp only [step, iotbEventGet, bind_eq_ok_iff] at stepped
      obtain ⟨found, -, returned⟩ := stepped
      cases found with
      | none =>
          cases returned
          exact ⟨by rw [alone, List.map_nil, List.append_nil, places],
            single⟩
      | some taken =>
          cases returned
          rw [InTurn, alone, List.range_succ, ← places]
          exact ⟨rfl, le_rfl⟩
  | getEnd call =>
      cases stepped
      rw [getEnd]
      cases found : state.getting[call]? with
      | none => exact ⟨places, single⟩
      | some pair =>
          obtain ⟨inside, rfl⟩ := List.getElem?_eq_some_iff.mp found
          obtain ⟨only, getting⟩ :=
            List.length_eq_one_iff.mp (show state.getting.length = 1 by
              omega)
          have first : call = 0 := by omega
          subst first
          simp only [getting] at places ⊢
          exact ⟨by simpa using places, Nat.zero_le _⟩
  | setEnable value =>
      cases stepped
      exact ⟨places, single⟩

/-- A single receiver gets a prefix of the accepted messages. -/
theorem received_prefix
    (size : Nat) (inputs : List (Input Message)) (final : State Message)
    (alone : Throughout (step size) GetsInTurn inputs
      (iotbEventInit size))
    (ran : run (step size) inputs (iotbEventInit size) = .ok final) :
    ReceivesPrefix final := by
  have inTurn : InTurn final :=
    Throughout.invariant (inTurn_preserved size)
      ⟨rfl, Nat.zero_le _⟩ alone ran
  have copied := (run_invariant (queueInvariant_preserved size)
    (queueInvariant_initial size) ran).copied
  apply List.ext_getElem?
  intro place
  rw [List.getElem?_map, List.getElem?_map, List.getElem?_take]
  by_cases inside : place < final.received.length
  · have ordered : (final.received[place]).1 = place := by
      have same := congrArg (fun places => places[place]?) inTurn.1
      have within : place < final.taken := by
        have length := congrArg List.length inTurn.1
        rw [List.length_append, List.length_map, List.length_range]
          at length
        omega
      simp only [List.getElem?_append_left (show place <
          (final.received.map Prod.fst).length by simpa using inside),
        List.getElem?_map, List.getElem?_eq_getElem inside,
        Option.map_some, List.getElem?_range within] at same
      exact Option.some_inj.mp same
    obtain ⟨copy, some⟩ := copied _ (List.getElem_mem inside)
    rw [ordered] at copy
    rw [copy, Option.isSome_iff_exists] at some
    obtain ⟨message, found⟩ := some
    rw [if_pos inside, List.getElem?_eq_getElem inside, Option.map_some,
      copy, found]
    rfl
  · rw [if_neg inside, List.getElem?_eq_none (Nat.le_of_not_lt inside)]
    rfl

/--
A run receives its messages in order, by one receiver as a prefix of what was
accepted, and is refused one only when the declared number is waiting, exactly
when every put finds room in the pool.
-/
theorem queue_keeps_iff (size : Nat) (inputs : List (Input Message)) :
    ((∃ final, run (step size) inputs (iotbEventInit size) = .ok final ∧
        InOrder final ∧
        (Throughout (step size) GetsInTurn inputs (iotbEventInit size) →
          ReceivesPrefix final)) ∧
      Throughout (step size) (FullOnlyWhenWaiting size) inputs
        (iotbEventInit size)) ↔
      Throughout (step size) (HasRoom size) inputs
        (iotbEventInit size) := by
  have preserved : Preserved (step size) fun state : State Message =>
      QueueInvariant state ∧ Sized size state :=
    fun input state next holds stepped =>
      ⟨queueInvariant_preserved size input state next holds.1 stepped,
        sized_preserved size input state next holds.2 stepped⟩
  have agree : Throughout (step size) (FullOnlyWhenWaiting size) inputs
        (iotbEventInit size) ↔
      Throughout (step size) (HasRoom size) inputs (iotbEventInit size) :=
    throughout_iff_of_invariant preserved
      (fun input state holds =>
        fullOnlyWhenWaiting_iff input holds.1 holds.2)
      ⟨queueInvariant_initial size, rfl, rfl⟩
  rw [← agree]
  apply and_iff_right
  obtain ⟨final, ran, inOrder⟩ := run_inOrder size inputs
  exact ⟨final, ran, inOrder,
    fun alone => received_prefix size inputs final alone ran⟩

/-! ## Messages of eight bytes -/

/-- A click of KEY0. -/
def key0Click : IotbEventMsg := ⟨.key0, .keyClick⟩

/-- Six puts one after the other, while nothing is received. -/
def sixPuts : List (Input IotbEventMsg) :=
  (List.replicate 6 [.putBegin key0Click, .putEnd 0]).flatten

/-- The seventh put is refused while six messages are waiting. -/
theorem seventhPut_refused :
    ∃ state, run (step 8) sixPuts (iotbEventInit 8) = .ok state ∧
      iotbEventPutResult 8 state = some .efull ∧ state.mq.entry = 6 := by
  have result :
      (run (step 8) sixPuts (iotbEventInit 8)).toOption.map
        (fun state => (iotbEventPutResult 8 state, state.mq.entry)) =
      some (some .efull, 6) := by
    decide +kernel
  obtain ⟨state, ran, seen⟩ := toOption_map_eq_some_iff.mp result
  exact ⟨state, ran, congrArg Prod.fst seen, congrArg Prod.snd seen⟩

end InternetWavPlayer.EventQueue
