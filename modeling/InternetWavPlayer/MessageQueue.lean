import InternetWavPlayer.Run

/-!
# The message queue of the kernel

A message queue keeps its messages in nodes of one pool, each a header and
room for a message of the aligned size.  A node is free, queued, or in the
hands of a call between its two critical sections: a sender copies its message
into the node before it links it, a receiver copies the message out after it
unlinked the node.  The lists stand for the links through the headers.
-/

namespace InternetWavPlayer.MessageQueue

/-- The error codes of `rt_mq_send` and `rt_mq_recv`. -/
inductive RtErr where
  | eok
  | error
  | efull
  | etimeout
deriving DecidableEq, Repr

/-- The receiver follows the null pointer of an empty queue. -/
inductive Fault where
  | nullMessage
deriving DecidableEq, Repr

/-- `RT_ALIGN(size, RT_ALIGN_SIZE)`. -/
def rtAlign (size : Nat) : Nat :=
  (size + 3) / 4 * 4

/-- `sizeof(struct rt_mq_message)`: the header is a pointer. -/
def rtMqMessageSize : Nat := 4

/-- `struct rt_messagequeue` with the contents of its nodes. -/
structure Mq (Message : Type) where
  msgSize : Nat
  maxMsgs : Nat
  entry : Nat
  /-- The nodes from `msg_queue_head` to `msg_queue_tail`. -/
  queued : List Nat
  /-- The nodes from `msg_queue_free` on. -/
  free : List Nat
  /-- What stands behind the header of a node. -/
  contents : Nat → Option Message

variable {Message : Type}

/-- `rt_mq_init`.  The sizes are kept in 16 bits. -/
def rtMqInit (msgSize poolSize : Nat) : Mq Message :=
  let size := rtAlign msgSize % 65536
  let maxMsgs := poolSize / (size + rtMqMessageSize) % 65536
  { msgSize := size
    maxMsgs := maxMsgs
    entry := 0
    queued := []
    free := (List.range maxMsgs).foldl (fun free temp => temp :: free) []
    contents := fun _ => none }

/--
`rt_mq_send` up to the end of its first critical section: it returns, or has
taken a node.
-/
def rtMqSendBegin (size : Nat) (mq : Mq Message) :
    Except RtErr (Nat × Mq Message) :=
  if size > mq.msgSize then .error .error
  else
    match mq.free with
    | [] => .error .efull
    | msg :: rest => .ok (msg, { mq with free := rest })

/-- The rest of `rt_mq_send`: the message is copied and the node linked. -/
def rtMqSendEnd (msg : Nat) (buffer : Message) (mq : Mq Message) :
    Mq Message :=
  { mq with
    contents := Function.update mq.contents msg (some buffer)
    queued := mq.queued ++ [msg]
    entry := (mq.entry + 1) % 65536 }

/--
`rt_mq_recv` once it finds a message, up to the end of that critical section.
An empty queue makes it wait or return `-RT_ETIMEOUT`.
-/
def rtMqRecvBegin (mq : Mq Message) :
    Except Fault (Option (Nat × Mq Message)) :=
  if mq.entry = 0 then .ok none
  else
    match mq.queued with
    | [] => .error .nullMessage
    | msg :: rest =>
        .ok (some (msg, { mq with queued := rest, entry := mq.entry - 1 }))

/-- The rest of `rt_mq_recv`: the message is copied and the node freed. -/
def rtMqRecvEnd (msg : Nat) (mq : Mq Message) :
    Option Message × Mq Message :=
  (mq.contents msg, { mq with free := msg :: mq.free })

/-! ## The nodes of a queue -/

/-- The nodes that are queued or free. -/
def Mq.nodes (mq : Mq Message) : List Nat :=
  mq.free ++ mq.queued

/--
Together with the nodes in the hands of calls these are the nodes of the pool,
each once, and `entry` counts the queued ones.
-/
structure Mq.Sound (mq : Mq Message) (held : List Nat) : Prop where
  nodes : (mq.nodes ++ held).Perm (List.range mq.maxMsgs)
  entry : mq.entry = mq.queued.length
  short : mq.maxMsgs < 65536

/-- The free list starts with the last node of the pool. -/
theorem rtMqInit_free (msgSize poolSize : Nat) :
    (rtMqInit msgSize poolSize : Mq Message).free =
      (List.range (rtMqInit msgSize poolSize : Mq Message).maxMsgs).reverse
    := by
  have pushes : ∀ (temps free : List Nat),
      temps.foldl (fun free temp => temp :: free) free =
        temps.reverse ++ free := by
    intro temps
    induction temps with
    | nil => intro free; rfl
    | cons temp rest induction =>
        intro free
        rw [List.foldl_cons, induction, List.reverse_cons,
          List.append_assoc]
        rfl
  simp only [rtMqInit, pushes, List.append_nil]

theorem sound_rtMqInit (msgSize poolSize : Nat) :
    (rtMqInit msgSize poolSize : Mq Message).Sound [] := by
  constructor
  · rw [List.append_nil, Mq.nodes, rtMqInit_free]
    exact (List.append_nil _).symm ▸ List.reverse_perm _
  · rfl
  · exact Nat.mod_lt _ (by decide)

namespace Mq.Sound

variable {mq : Mq Message} {held : List Nat}

theorem nodup (sound : mq.Sound held) : (mq.nodes ++ held).Nodup :=
  sound.nodes.nodup_iff.mpr List.nodup_range

theorem count (sound : mq.Sound held) :
    mq.free.length + mq.queued.length + held.length = mq.maxMsgs := by
  have length := sound.nodes.length_eq
  rw [List.length_append, Mq.nodes, List.length_append,
    List.length_range] at length
  exact length

/-- A node in the hands of a call is not queued. -/
theorem not_queued
    (sound : mq.Sound held) {msg : Nat} (member : msg ∈ held) :
    msg ∉ mq.queued := by
  intro queued
  have apart := (List.nodup_append.mp sound.nodup).2.2
  exact apart msg (List.mem_append_right _ queued) msg member rfl

/-- No free node: a send returns `-RT_EFULL` exactly then. -/
theorem sendBegin_efull_iff (sound : mq.Sound held) (size : Nat) :
    rtMqSendBegin size mq = .error .efull ↔
      size ≤ mq.msgSize ∧
        mq.queued.length + held.length = mq.maxMsgs := by
  have count := sound.count
  rw [rtMqSendBegin]
  by_cases long : size > mq.msgSize
  · rw [if_pos long]
    constructor
    · intro returned
      cases returned
    · rintro ⟨fits, -⟩
      omega
  · rw [if_neg long]
    cases free : mq.free with
    | nil =>
        rw [free, List.length_nil] at count
        constructor
        · intro
          exact ⟨Nat.le_of_not_lt long, by omega⟩
        · intro
          rfl
    | cons msg rest =>
        rw [free, List.length_cons] at count
        constructor
        · intro returned
          cases returned
        · rintro ⟨-, full⟩
          omega

/-- A send takes a node from the free list into its hands. -/
theorem sendBegin
    (sound : mq.Sound held) {size msg : Nat} {after : Mq Message}
    (began : rtMqSendBegin size mq = .ok (msg, after)) :
    after.Sound (msg :: held) ∧
      after.queued = mq.queued ∧ after.contents = mq.contents := by
  rw [rtMqSendBegin] at began
  by_cases long : size > mq.msgSize
  · rw [if_pos long] at began
    cases began
  · rw [if_neg long] at began
    cases free : mq.free with
    | nil =>
        rw [free] at began
        cases began
    | cons taken rest =>
        rw [free] at began
        cases began
        refine ⟨⟨?_, sound.entry, sound.short⟩, rfl, rfl⟩
        apply List.Perm.trans _ sound.nodes
        rw [Mq.nodes, Mq.nodes, free, List.cons_append, List.cons_append]
        exact List.perm_middle

/-- Linking a node moves it from the sender's hands into the queue. -/
theorem sendEnd
    {msg : Nat} (sound : mq.Sound (msg :: held)) (buffer : Message) :
    (rtMqSendEnd msg buffer mq).Sound held := by
  have count := sound.count
  rw [List.length_cons] at count
  constructor
  · apply List.Perm.trans _ sound.nodes
    rw [Mq.nodes, Mq.nodes, rtMqSendEnd]
    show (mq.free ++ (mq.queued ++ [msg]) ++ held).Perm _
    rw [List.append_assoc, List.append_assoc, List.append_assoc]
    exact List.Perm.refl _
  · show (mq.entry + 1) % 65536 = (mq.queued ++ [msg]).length
    have short := sound.short
    rw [sound.entry, List.length_append, List.length_singleton,
      Nat.mod_eq_of_lt (by omega)]
  · exact sound.short

/-- A receive finds a message exactly in a queue that is not empty. -/
theorem recvBegin_eq (sound : mq.Sound held) :
    rtMqRecvBegin mq = .ok
      (match mq.queued with
      | [] => none
      | msg :: rest =>
          some (msg, { mq with queued := rest, entry := mq.entry - 1 })) := by
  have entry := sound.entry
  rw [rtMqRecvBegin]
  cases queued : mq.queued with
  | nil =>
      rw [queued, List.length_nil] at entry
      rw [if_pos entry]
  | cons msg rest =>
      rw [queued, List.length_cons] at entry
      rw [if_neg (by omega)]

/-- Unlinking a node moves it from the queue into the receiver's hands. -/
theorem recvBegin
    (sound : mq.Sound held) {msg : Nat} {rest : List Nat}
    (queued : mq.queued = msg :: rest) :
    ({ mq with queued := rest, entry := mq.entry - 1 } :
      Mq Message).Sound (msg :: held) := by
  constructor
  · apply List.Perm.trans _ sound.nodes
    rw [Mq.nodes, Mq.nodes, queued, List.append_assoc, List.append_assoc]
    exact List.Perm.append_left _ List.perm_middle
  · show mq.entry - 1 = rest.length
    rw [sound.entry, queued]
    rfl
  · exact sound.short

/-- Freeing a node moves it back to the free list. -/
theorem recvEnd {msg : Nat} (sound : mq.Sound (msg :: held)) :
    (rtMqRecvEnd msg mq).2.Sound held := by
  refine ⟨?_, sound.entry, sound.short⟩
  apply List.Perm.trans _ sound.nodes
  rw [Mq.nodes, Mq.nodes, rtMqRecvEnd, List.append_assoc,
    List.append_assoc]
  show (msg :: mq.free ++ (mq.queued ++ held)).Perm _
  rw [← List.append_assoc, ← List.append_assoc]
  exact List.perm_middle.symm

/-- The order in which the nodes in hand are listed does not matter. -/
theorem perm
    {other : List Nat} (sound : mq.Sound held) (same : other.Perm held) :
    mq.Sound other :=
  ⟨(List.Perm.append_left _ same).trans sound.nodes, sound.entry,
    sound.short⟩

end Mq.Sound

end InternetWavPlayer.MessageQueue
