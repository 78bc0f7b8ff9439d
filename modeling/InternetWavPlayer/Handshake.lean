import InternetWavPlayer.Wavplayer

/-!
# The handshake between a caller and the playback thread

At most one message is outstanding, and only while the caller waits for it.
What the remaining calls of the caller make of the player's state is computed
from the calls alone; it stays true whatever the playback thread does in
between, because that thread changes the state of its own accord only to
`STOPED`.
-/

namespace InternetWavPlayer.Handshake

open InternetWavPlayer.Songlist
open InternetWavPlayer.Wavplayer

/-! ## One message at a time -/

/-- Calls in which every message is waited for. -/
inductive Orderly : List Control → Prop where
  | nil : Orderly []
  | exchange {type : MsgType} {rest : List Control}
      (later : Orderly rest) : Orderly (.send type :: .wait :: rest)
  | call {control : Control} {rest : List Control}
      (notSend : ∀ type, control ≠ .send type) (notWait : control ≠ .wait)
      (later : Orderly rest) : Orderly (control :: rest)

theorem Orderly.append
    {first second : List Control}
    (left : Orderly first) (right : Orderly second) :
    Orderly (first ++ second) := by
  induction left with
  | nil => exact right
  | exchange later induction => exact .exchange induction
  | call notSend notWait later induction =>
      exact .call notSend notWait induction

theorem orderly_request (type : MsgType) :
    Orderly (wavplayerRequest type) :=
  .call (by simp) (by simp) (.call (by simp) (by simp)
    (.call (by simp) (by simp) (.call (by simp) (by simp) .nil)))

theorem orderly_play (uri : List UInt8) : Orderly (wavplayerPlay uri) :=
  .call (by simp) (by simp) (.call (by simp) (by simp)
    (.call (by simp) (by simp) (.call (by simp) (by simp)
      (.exchange (.call (by simp) (by simp) .nil)))))

/-- The playback thread has received a message and not yet acknowledged it. -/
def Handling (pc : Pc) : Bool :=
  match pc with
  | .handling _ _ => true
  | .acking _ _ => true
  | _ => false

/-- No message is outstanding and none is acknowledged. -/
structure Idle (player : Player) : Prop where
  mq : player.mq = []
  pc : Handling player.pc = false
  ack : player.ack = false

/-- One message is outstanding, or has just been acknowledged. -/
inductive InFlight (player : Player) : Prop where
  | queued {type : MsgType} (mq : player.mq = [type])
      (pc : Handling player.pc = false) (ack : player.ack = false)
  | handling (mq : player.mq = []) (pc : Handling player.pc = true)
      (ack : player.ack = false)
  | answered (mq : player.mq = []) (pc : Handling player.pc = false)
      (ack : player.ack = true)

/-- A song is being opened, played or paused. -/
def Active : Pc → Bool
  | .opening => true
  | .polling => true
  | .reading => true
  | .pausing => true
  | _ => false

/-- What holds of a caller and the playback thread between two steps. -/
structure Synchronized (playback : Playback) : Prop where
  exchange :
    (Orderly playback.code ∧ Idle playback.player) ∨
      ∃ rest, playback.code = .wait :: rest ∧ Orderly rest ∧
        InFlight playback.player
  active : Active playback.player.pc = true →
    playback.player.state ≠ .stoped
  acking : ∀ type site, playback.player.pc = .acking type site →
    playback.player.state = type.state

theorem synchronized_initial : Synchronized ⟨[], .initial⟩ where
  exchange := Or.inl ⟨.nil, rfl, rfl, rfl⟩
  active := by simp [Player.initial, Active]
  acking := by simp [Player.initial]

/-! ## The playback thread -/

/-- What one step of the playback thread can do. -/
inductive PlayerMove (player : Player) : Player → Prop where
  /-- Nothing another thread looks at changes. -/
  | walk {pc : Pc} {lock : Option Nat}
      (before : Handling player.pc = false) (after : Handling pc = false)
      (active : Active pc = true →
        Active player.pc = true ∨ player.state ≠ .stoped) :
      PlayerMove player { player with pc := pc, lock := lock }
  /-- The file does not open, or ends. -/
  | halt {pc : Pc} (before : Handling player.pc = false)
      (after : Handling pc = false) (active : Active pc = false) :
      PlayerMove player { player with state := .stoped, pc := pc }
  | receive {type : MsgType} {rest : List MsgType} {site : Site}
      (before : Handling player.pc = false)
      (mq : player.mq = type :: rest) :
      PlayerMove player
        { player with mq := rest, pc := .handling type site }
  | handle {type : MsgType} {site : Site}
      (pc : player.pc = .handling type site) :
      PlayerMove player
        { player with state := type.state, pc := .acking type site }
  | acknowledge {type : MsgType} {site : Site}
      (pc : player.pc = .acking type site) :
      PlayerMove player
        { player with ack := true, pc := afterEvent type.event site }

theorem receive_move
    {player : Player} (site : Site)
    (before : Handling player.pc = false) :
    PlayerMove player (player.receive site) := by
  rw [Player.receive]
  cases mq : player.mq with
  | nil =>
      show PlayerMove player
        { player with pc := player.pc, lock := player.lock }
      exact .walk before before Or.inl
  | cons type rest => exact .receive before mq

theorem playerStep_move (outcome : Outcome) (player : Player) :
    PlayerMove player (playerStep outcome player) := by
  obtain ⟨pc, state, uri, mq, lock, ack⟩ := player
  cases pc with
  | start =>
      simp only [playerStep]
      split
      · exact .walk rfl rfl (by simp [Active])
      · exact .walk rfl rfl (by simp [Active])
  | waiting => exact receive_move .outer rfl
  | pausing => exact receive_move .paused rfl
  | polling =>
      cases mq with
      | nil => exact .walk rfl rfl fun _ => Or.inl rfl
      | cons type rest => exact .receive rfl rfl
  | handling type site => exact .handle rfl
  | acking type site => exact .acknowledge rfl
  | opening =>
      simp only [playerStep]
      split
      · exact .walk rfl rfl fun _ => Or.inl rfl
      · exact .halt rfl rfl rfl
  | reading =>
      simp only [playerStep]
      split
      · exact .walk rfl rfl (by simp [Active])
      · exact .halt rfl rfl rfl
  | checking =>
      simp only [playerStep]
      split
      · exact .walk rfl rfl (by simp [Active])
      · rename_i running
        exact .walk rfl rfl fun _ => Or.inr running
  | closing => exact .walk rfl rfl (by simp [Active])
  | ended => exact .walk rfl rfl (by simp [Active])

theorem afterEvent_not_handling (event : PlayerEvent) (site : Site) :
    Handling (afterEvent event site) = false := by
  cases event <;> cases site <;> rfl

/-- A song is opened or paused only on the message that asks for it. -/
theorem afterEvent_active
    {type : MsgType} {site : Site}
    (active : Active (afterEvent type.event site) = true) :
    type.state ≠ .stoped := by
  cases type with
  | stop => cases site <;> cases active
  | start => simp [MsgType.state]
  | pause => simp [MsgType.state]
  | resume => simp [MsgType.state]

theorem not_acking
    {pc : Pc} (quiet : Handling pc = false) (type : MsgType)
    (site : Site) : pc ≠ .acking type site := by
  rintro rfl
  cases quiet

/-- What was outstanding stays so while nothing is received. -/
theorem InFlight.carried
    {player after : Player} (flight : InFlight player)
    (before : Handling player.pc = false)
    (quiet : Handling after.pc = false)
    (sameQueue : after.mq = player.mq) (sameAck : after.ack = player.ack) :
    InFlight after := by
  cases flight with
  | queued mq pc ack =>
      exact .queued (sameQueue.trans mq) quiet (sameAck.trans ack)
  | handling mq pc ack =>
      rw [before] at pc
      cases pc
  | answered mq pc ack =>
      exact .answered (sameQueue.trans mq) quiet (sameAck.trans ack)

/-- The exchange stays where it is while nothing is received. -/
theorem Synchronized.carried
    {playback : Playback} (synchronized : Synchronized playback)
    {after : Player} (before : Handling playback.player.pc = false)
    (quiet : Handling after.pc = false)
    (sameQueue : after.mq = playback.player.mq)
    (sameAck : after.ack = playback.player.ack) :
    (Orderly playback.code ∧ Idle after) ∨
      ∃ rest, playback.code = .wait :: rest ∧ Orderly rest ∧
        InFlight after := by
  rcases synchronized.exchange with
    ⟨orderly, idle⟩ | ⟨rest, code, orderly, flight⟩
  · exact Or.inl ⟨orderly, sameQueue.trans idle.mq, quiet,
      sameAck.trans idle.ack⟩
  · exact Or.inr ⟨rest, code, orderly,
      flight.carried before quiet sameQueue sameAck⟩

/-- A thread that has a message in hand is waited for. -/
theorem Synchronized.handling
    {playback : Playback} (synchronized : Synchronized playback)
    (busy : Handling playback.player.pc = true) :
    ∃ rest, playback.code = .wait :: rest ∧ Orderly rest ∧
      playback.player.mq = [] ∧ playback.player.ack = false := by
  rcases synchronized.exchange with
    ⟨orderly, idle⟩ | ⟨rest, code, orderly, flight⟩
  · have quiet := idle.pc
    rw [busy] at quiet
    cases quiet
  · refine ⟨rest, code, orderly, ?_⟩
    cases flight with
    | queued mq pc ack =>
        rw [busy] at pc
        cases pc
    | handling mq pc ack => exact ⟨mq, ack⟩
    | answered mq pc ack =>
        rw [busy] at pc
        cases pc

/-- A queued message is the only one, and is waited for. -/
theorem Synchronized.queued
    {playback : Playback} (synchronized : Synchronized playback)
    {type : MsgType} {more : List MsgType}
    (mq : playback.player.mq = type :: more) :
    more = [] ∧ ∃ rest, playback.code = .wait :: rest ∧ Orderly rest ∧
      playback.player.ack = false := by
  rcases synchronized.exchange with
    ⟨orderly, idle⟩ | ⟨rest, code, orderly, flight⟩
  · rw [idle.mq] at mq
    cases mq
  · cases flight with
    | queued single pc ack =>
        rw [single] at mq
        cases mq
        exact ⟨rfl, rest, code, orderly, ack⟩
    | handling empty pc ack =>
        rw [empty] at mq
        cases mq
    | answered empty pc ack =>
        rw [empty] at mq
        cases mq

/-- Steps of the playback thread keep the handshake. -/
theorem Synchronized.player
    {playback : Playback} {player : Player}
    (synchronized : Synchronized playback)
    (moves : PlayerMove playback.player player) :
    Synchronized ⟨playback.code, player⟩ := by
  cases moves with
  | @walk pc lock before after awake =>
      refine ⟨?_, ?_, ?_⟩
      · exact synchronized.carried before after rfl rfl
      · intro now
        rcases awake now with earlier | running
        · exact synchronized.active earlier
        · exact running
      · intro type site equal
        exact absurd equal (not_acking after type site)
  | @halt pc before after quiet =>
      refine ⟨?_, ?_, ?_⟩
      · exact synchronized.carried before after rfl rfl
      · intro now
        rw [quiet] at now
        cases now
      · intro type site equal
        exact absurd equal (not_acking after type site)
  | @receive type rest site before mq =>
      obtain ⟨single, later, code, orderly, ack⟩ := synchronized.queued mq
      refine ⟨Or.inr ⟨later, code, orderly, ?_⟩, by simp [Active], by simp⟩
      exact .handling single rfl ack
  | @handle type site pc =>
      obtain ⟨rest, code, orderly, mq, ack⟩ :=
        synchronized.handling (by rw [pc]; rfl)
      refine ⟨Or.inr ⟨rest, code, orderly, .handling mq rfl ack⟩,
        by simp [Active], ?_⟩
      intro other place equal
      cases equal
      rfl
  | @acknowledge type site pc =>
      obtain ⟨rest, code, orderly, mq, ack⟩ :=
        synchronized.handling (by rw [pc]; rfl)
      have quiet := afterEvent_not_handling type.event site
      refine ⟨Or.inr ⟨rest, code, orderly, .answered mq quiet rfl⟩, ?_, ?_⟩
      · intro now
        rw [synchronized.acking type site pc]
        exact afterEvent_active now
      · intro other place equal
        exact absurd equal (not_acking quiet other place)

/-! ## The caller -/

/-- An idle queue has room. -/
theorem Idle.send
    {player : Player} (idle : Idle player) (type : MsgType) :
    rtMqSend player.mq type = [type] := by
  rw [idle.mq]
  rfl

/-- Steps of the caller keep the handshake. -/
theorem Synchronized.control
    {playback next : Playback} (synchronized : Synchronized playback)
    (stepped : controlStep playback = .ok next) :
    Synchronized next := by
  obtain ⟨code, player⟩ := playback
  have active := synchronized.active
  have acking := synchronized.acking
  rcases synchronized.exchange with
    ⟨orderly, idle⟩ | ⟨rest, waits, orderly, flight⟩
  · cases orderly with
    | nil =>
        cases stepped
        exact synchronized
    | @exchange type rest later =>
        cases stepped
        refine ⟨Or.inr ⟨rest, rfl, later, ?_⟩, active, acking⟩
        exact .queued (idle.send type) idle.pc idle.ack
    | @call control rest notSend notWait later =>
        cases control with
        | completionInit =>
            cases stepped
            exact ⟨Or.inl ⟨later, idle.mq, idle.pc, rfl⟩, active, acking⟩
        | playLock =>
            simp only [controlStep] at stepped
            split at stepped
            · cases stepped
            · cases stepped
              exact ⟨Or.inl ⟨later, idle.mq, idle.pc, idle.ack⟩,
                active, acking⟩
        | stopUnlessStoped =>
            simp only [controlStep] at stepped
            split at stepped
            · cases stepped
              exact ⟨Or.inl ⟨(orderly_request .stop).append later, idle⟩,
                active, acking⟩
            · cases stepped
              exact ⟨Or.inl ⟨later, idle⟩, active, acking⟩
        | setUri uri =>
            cases stepped
            exact ⟨Or.inl ⟨later, idle.mq, idle.pc, idle.ack⟩,
              active, acking⟩
        | request type =>
            simp only [controlStep] at stepped
            split at stepped
            · cases stepped
              exact ⟨Or.inl ⟨.exchange later, idle⟩, active, acking⟩
            · cases stepped
              exact ⟨Or.inl ⟨later, idle⟩, active, acking⟩
        | send type => exact absurd rfl (notSend type)
        | wait => exact absurd rfl notWait
        | playUnlock =>
            cases stepped
            exact ⟨Or.inl ⟨later, idle.mq, idle.pc, idle.ack⟩,
              active, acking⟩
  · simp only at waits
    subst waits
    simp only [controlStep] at stepped
    split at stepped
    · rename_i acknowledged
      cases stepped
      refine ⟨Or.inl ⟨orderly, ?_⟩, active, acking⟩
      cases flight with
      | queued mq pc ack =>
          rw [ack] at acknowledged
          cases acknowledged
      | handling mq pc ack =>
          rw [ack] at acknowledged
          cases acknowledged
      | answered mq pc ack => exact ⟨mq, pc, rfl⟩
    · cases stepped
      exact synchronized

/-! ## What the remaining calls make of the state -/

/-- The state once the outstanding message, if any, has been handled. -/
def expected (player : Player) : PlayerState :=
  match player.mq with
  | type :: _ => type.state
  | [] =>
      match player.pc with
      | .handling type _ => type.state
      | _ => player.state

/--
The state in which the remaining calls end, when they start from a given one.
A song may end by itself after a message has been handled.
-/
def Ends (goal : PlayerState → Prop) : List Control → PlayerState → Prop
  | [], state => goal state
  | .completionInit :: rest, state => Ends goal rest state
  | .playLock :: rest, state => Ends goal rest state
  | .stopUnlessStoped :: rest, _ => Ends goal rest .stoped
  | .setUri _ :: rest, state => Ends goal rest state
  | .request type :: rest, state =>
      if type.wanted state then
        Ends goal rest type.state ∧ Ends goal rest .stoped
      else Ends goal rest state
  | .send type :: rest, _ =>
      Ends goal rest type.state ∧ Ends goal rest .stoped
  | .wait :: rest, state => Ends goal rest state
  | .playUnlock :: rest, state => Ends goal rest state

/-- The remaining calls end in a goal, also if the song ends before. -/
def Settles (goal : PlayerState → Prop) (code : List Control)
    (state : PlayerState) : Prop :=
  Ends goal code state ∧ Ends goal code .stoped

theorem expected_queued
    {player : Player} {type : MsgType} {rest : List MsgType}
    (mq : player.mq = type :: rest) : expected player = type.state := by
  rw [expected, mq]

theorem expected_quiet
    {player : Player} (mq : player.mq = [])
    (quiet : Handling player.pc = false) :
    expected player = player.state := by
  rw [expected, mq]
  cases pc : player.pc with
  | handling type site =>
      rw [pc] at quiet
      cases quiet
  | _ => rfl

theorem Idle.expected
    {player : Player} (idle : Idle player) :
    expected player = player.state :=
  expected_quiet idle.mq idle.pc

/-- Handling a message leaves what is expected, or ends the song. -/
theorem expected_player
    {playback : Playback} {player : Player}
    (synchronized : Synchronized playback)
    (moves : PlayerMove playback.player player) :
    expected player = expected playback.player ∨
      expected player = .stoped := by
  cases moves with
  | @walk pc lock before after awake =>
      left
      cases mq : playback.player.mq with
      | nil =>
          rw [expected_quiet mq before]
          exact expected_quiet rfl after
      | cons type rest =>
          rw [expected_queued mq]
          exact expected_queued rfl
  | @halt pc before after quiet =>
      cases mq : playback.player.mq with
      | nil =>
          right
          exact expected_quiet rfl after
      | cons type rest =>
          left
          rw [expected_queued mq]
          exact expected_queued rfl
  | @receive type rest site before mq =>
      obtain ⟨rfl, -⟩ := synchronized.queued mq
      left
      rw [expected_queued mq]
      rfl
  | @handle type site pc =>
      obtain ⟨rest, code, orderly, mq, ack⟩ :=
        synchronized.handling (by rw [pc]; rfl)
      exact Or.inl (by simp [expected, mq, pc])
  | @acknowledge type site pc =>
      obtain ⟨rest, code, orderly, mq, ack⟩ :=
        synchronized.handling (by rw [pc]; rfl)
      left
      have quiet := afterEvent_not_handling type.event site
      have after : expected { playback.player with
          ack := true, pc := afterEvent type.event site } =
            playback.player.state :=
        expected_quiet mq quiet
      rw [after, expected, mq, pc]

/-- Steps of the playback thread change nothing about the end. -/
theorem Settles.player
    {goal : PlayerState → Prop} {playback : Playback} {player : Player}
    (settles : Settles goal playback.code (expected playback.player))
    (synchronized : Synchronized playback)
    (moves : PlayerMove playback.player player) :
    Settles goal playback.code (expected player) := by
  rcases expected_player synchronized moves with same | ended
  · rw [same]
    exact settles
  · rw [ended]
    exact ⟨settles.2, settles.2⟩

/-- After `wavplayer_stop` the player is stopped. -/
theorem ends_stop
    {goal : PlayerState → Prop} {rest : List Control}
    (ended : Ends goal rest .stoped) (state : PlayerState) :
    Ends goal (wavplayerStop ++ rest) state := by
  cases state with
  | stoped => exact ended
  | playing => exact ⟨ended, ended⟩
  | paused => exact ⟨ended, ended⟩

/-- A request settles what it asks for. -/
theorem settles_request
    {goal : PlayerState → Prop} {type : MsgType} {rest : List Control}
    {state : PlayerState}
    (settles : Settles goal (.request type :: rest) state) :
    (type.wanted state = true →
      Ends goal rest type.state ∧ Ends goal rest .stoped) ∧
    (type.wanted state = false → Settles goal rest state) := by
  obtain ⟨now, ended⟩ := settles
  rw [Ends] at now ended
  constructor
  · intro wanted
    rw [if_pos wanted] at now
    exact now
  · intro unwanted
    rw [if_neg (by rw [unwanted]; simp)] at now
    refine ⟨now, ?_⟩
    split at ended
    · exact ended.2
    · exact ended

/-- Steps of the caller change nothing about the end. -/
theorem Settles.control
    {goal : PlayerState → Prop} {playback next : Playback}
    (settles : Settles goal playback.code (expected playback.player))
    (synchronized : Synchronized playback)
    (stepped : controlStep playback = .ok next) :
    Settles goal next.code (expected next.player) := by
  obtain ⟨code, player⟩ := playback
  rcases synchronized.exchange with
    ⟨orderly, idle⟩ | ⟨rest, waits, orderly, flight⟩
  · have expects := idle.expected
    cases orderly with
    | nil =>
        cases stepped
        exact settles
    | @exchange type rest later =>
        cases stepped
        have sent : expected { player with
            mq := rtMqSend player.mq type } = type.state :=
          expected_queued (idle.send type)
        show Settles goal (.wait :: rest) _
        rw [sent]
        exact settles.1
    | @call control rest notSend notWait later =>
        cases control with
        | completionInit =>
            cases stepped
            exact settles
        | playLock =>
            simp only [controlStep] at stepped
            split at stepped
            · cases stepped
            · cases stepped
              exact settles
        | stopUnlessStoped =>
            simp only [controlStep] at stepped
            split at stepped
            · cases stepped
              have ended : Ends goal rest .stoped := settles.2
              exact ⟨ends_stop ended _, ends_stop ended _⟩
            · rename_i stoped
              cases stepped
              rw [expects, not_not.mp stoped]
              exact ⟨settles.2, settles.2⟩
        | setUri uri =>
            cases stepped
            exact settles
        | request type =>
            simp only [controlStep] at stepped
            split at stepped
            · rename_i wanted
              cases stepped
              have both := (settles_request settles).1
                (by rw [expects]; exact wanted)
              exact ⟨both, both⟩
            · rename_i unwanted
              cases stepped
              exact (settles_request settles).2
                (by rw [expects]; exact Bool.not_eq_true _ ▸ unwanted)
        | send type => exact absurd rfl (notSend type)
        | wait => exact absurd rfl notWait
        | playUnlock =>
            cases stepped
            exact settles
  · simp only at waits
    subst waits
    simp only [controlStep] at stepped
    split at stepped
    · cases stepped
      exact settles
    · cases stepped
      exact settles

end InternetWavPlayer.Handshake
