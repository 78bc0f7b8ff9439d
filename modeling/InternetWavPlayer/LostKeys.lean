import InternetWavPlayer.Reactions

/-!
# Which key messages are lost

A message that `iotb_event_put` answered with `RT_EOK` can be lost in four
places: the flag of `iotb_event_put` is off, another message sets the same bit
before the poll, another bit of the same poll is served in its place, or a
branch overwrites the event that waits in the active page.  In every run
without these, each accepted message is on its way, was applied, or was received
on a page that does not react to it.
-/

namespace InternetWavPlayer.LostKeys

open InternetWavPlayer.Run
open InternetWavPlayer.LcdEvent
open InternetWavPlayer.Webclient
open InternetWavPlayer.Pages
open InternetWavPlayer.LcdThread
open InternetWavPlayer.Dispatch
open InternetWavPlayer.Scene
open InternetWavPlayer.KeyPipeline
open InternetWavPlayer.Provenance
open InternetWavPlayer.Reactions

/-! ## What becomes of a message -/

/-- A message that some page reacts to. -/
def Reactive (msg : IotbEventMsg) : Prop :=
  ∃ page bit, iotbEventProcess msg = some bit ∧ Reacts page bit = true

/-- A message is at the LCD thread, or the LCD thread is done with it. -/
def Known (scene : View) (tags : Tags) (place : Nat) : Prop :=
  place ∈ tags.bits.map Prod.snd ∨
    place ∈ tags.polled.map Prod.snd ∨
    waiting scene tags = some place ∨
    place ∈ tags.applied ∨
    place ∈ tags.ignored.map Prod.fst

/-- A message is on the queue, at one of the threads, or done with. -/
def Accounted (tagged : Tagged) (place : Nat) : Prop :=
  tagged.threads.queue.received.length ≤ place ∨
    (∃ msg, tagged.threads.hand = some (place, msg)) ∨
    Known (view tagged.threads.lcd) tagged.tags place

/-- A message that was ignored has no bit that its page reacts to. -/
def Unwanted (accepted : List IotbEventMsg) (entry : Nat × Nat) : Prop :=
  ∃ msg, accepted[entry.1]? = some msg ∧
    ∀ bit, iotbEventProcess msg = some bit → Reacts entry.2 bit = false

/-- An event waits in the active page for the next call of its handler. -/
def Waits (scene : View) : Prop :=
  scene.content = .dynamicContent ∧
    Handles scene.page scene.event = true

/-- What a poll received can be served without loss. -/
structure Serves (event : EventSet) (scene : View) (tags : Tags) :
    Prop where
  free : served event scene.page ≠ .nothing → ¬ Waits scene
  alone : ∀ bit place, (bit, place) ∈ tags.polled →
    Reacts scene.page bit = true →
      servedBit event scene.page = some bit ∧
        ∀ other, (bit, other) ∈ tags.polled → other = place

/--
A step loses no message: a message that a page reacts to is put with the flag
on; when a poll is served, no branch overwrites an event that waits, and each
bit the active page reacts to is the one that is served and was set by one
message only.
-/
structure Keeps (input : KeyPipeline.Input) (tagged : Tagged) : Prop where
  enabled : ∀ msg, input = .put msg → Reactive msg →
    tagged.threads.queue.putEnable = true
  serves : ∀ env event, input = .lcd env →
    tagged.threads.lcd.pc = .dispatch event →
      Serves event (view tagged.threads.lcd) tagged.tags

/-! ## Checking a step and a state -/

instance (scene : View) : Decidable (Waits scene) :=
  inferInstanceAs (Decidable (_ ∧ _))

theorem serves_iff (event : EventSet) (scene : View) (tags : Tags) :
    ((served event scene.page ≠ .nothing → ¬ Waits scene) ∧
      ∀ entry ∈ tags.polled, Reacts scene.page entry.1 = true →
        servedBit event scene.page = some entry.1 ∧
          ∀ other ∈ tags.polled, other.1 = entry.1 →
            other.2 = entry.2) ↔
      Serves event scene tags := by
  constructor
  · rintro ⟨free, alone⟩
    refine ⟨free, fun bit place member reacts => ?_⟩
    obtain ⟨found, same⟩ := alone (bit, place) member reacts
    exact ⟨found, fun other among => same (bit, other) among rfl⟩
  · rintro ⟨free, alone⟩
    refine ⟨free, fun entry member reacts => ?_⟩
    obtain ⟨found, same⟩ := alone entry.1 entry.2 member reacts
    refine ⟨found, fun other among equal => same other.2 ?_⟩
    rw [← equal]
    exact among

instance (event : EventSet) (scene : View) (tags : Tags) :
    Decidable (Serves event scene tags) :=
  decidable_of_iff _ (serves_iff event scene tags)

/-- Page 1 or page 2 reacts to every bit that some page reacts to. -/
theorem reactive_iff (msg : IotbEventMsg) :
    (∃ bit ∈ (iotbEventProcess msg).toList,
      Reacts 1 bit = true ∨ Reacts 2 bit = true) ↔ Reactive msg := by
  constructor
  · rintro ⟨bit, member, one | two⟩
    · exact ⟨1, bit, Option.mem_toList.mp member, one⟩
    · exact ⟨2, bit, Option.mem_toList.mp member, two⟩
  · rintro ⟨page, bit, processed, reacts⟩
    refine ⟨bit, Option.mem_toList.mpr processed, ?_⟩
    rw [Reacts.eq_def] at reacts
    split at reacts <;>
      first | exact Or.inl rfl | exact Or.inr rfl | cases reacts

instance (msg : IotbEventMsg) : Decidable (Reactive msg) :=
  decidable_of_iff _ (reactive_iff msg)

/-- The message that a step puts. -/
def putMessage : KeyPipeline.Input → Option IotbEventMsg
  | .put msg => some msg
  | _ => none

/-- The set that a step serves. -/
def dispatched (input : KeyPipeline.Input) (pc : Pc) : Option EventSet :=
  match input, pc with
  | .lcd _, .dispatch event => some event
  | _, _ => none

theorem keeps_iff (input : KeyPipeline.Input) (tagged : Tagged) :
    ((∀ msg ∈ putMessage input, Reactive msg →
        tagged.threads.queue.putEnable = true) ∧
      ∀ event ∈ dispatched input tagged.threads.lcd.pc,
        Serves event (view tagged.threads.lcd) tagged.tags) ↔
      Keeps input tagged := by
  constructor
  · rintro ⟨enabled, serves⟩
    constructor
    · rintro msg rfl
      exact enabled msg rfl
    · rintro env event rfl pc
      refine serves event ?_
      rw [pc]
      rfl
  · rintro ⟨enabled, serves⟩
    constructor
    · intro msg put
      cases input <;> cases put
      exact enabled _ rfl
    · intro event served
      cases input with
      | lcd env =>
          cases pc : tagged.threads.lcd.pc <;> rw [pc] at served <;>
            cases served
          exact serves env event rfl pc
      | put | putEnd | setEnable | event => cases served

/-- A step is checked by its one message and its one set. -/
instance (input : KeyPipeline.Input) (tagged : Tagged) :
    Decidable (Keeps input tagged) :=
  have := Option.decidableForallMem (putMessage input)
    (p := fun msg => Reactive msg →
      tagged.threads.queue.putEnable = true)
  have := Option.decidableForallMem
    (dispatched input tagged.threads.lcd.pc)
    (p := fun event =>
      Serves event (view tagged.threads.lcd) tagged.tags)
  decidable_of_iff _ (keeps_iff input tagged)

instance (scene : View) (tags : Tags) (place : Nat) :
    Decidable (Known scene tags place) :=
  inferInstanceAs (Decidable (_ ∨ _ ∨ _ ∨ _ ∨ _))

theorem accounted_iff (tagged : Tagged) (place : Nat) :
    (tagged.threads.queue.received.length ≤ place ∨
      tagged.threads.hand.map Prod.fst = some place ∨
      Known (view tagged.threads.lcd) tagged.tags place) ↔
        Accounted tagged place := by
  have held : tagged.threads.hand.map Prod.fst = some place ↔
      ∃ msg, tagged.threads.hand = some (place, msg) := by
    cases tagged.threads.hand <;> simp [Prod.ext_iff]
  rw [held]
  exact Iff.rfl

instance (tagged : Tagged) (place : Nat) :
    Decidable (Accounted tagged place) :=
  decidable_of_iff _ (accounted_iff tagged place)

/-! ## The bit that is served -/

/-- A bit a page reacts to is served by a switch or leaves its own event. -/
theorem chain_reacts
    {event : EventSet} {page : Nat} {bit : IotbLcdEvent}
    (found : servedBit event page = some bit)
    (reacts : Reacts page bit = true) :
    (∃ target, served event page = .switch target) ∨
      ∃ left, served event page = .leave left ∧
        Handles page left = true := by
  have branch := chain event page
  rw [found] at branch
  generalize served event page = result at branch ⊢
  cases branch with
  | next set => exact Or.inl ⟨_, rfl⟩
  | play set one => exact Or.inl ⟨_, rfl⟩
  | back set two => exact Or.inl ⟨_, rfl⟩
  | download set one =>
      subst one
      cases reacts
  | nextsong set one =>
      subst one
      exact Or.inr ⟨_, rfl, rfl⟩
  | lastsong set one =>
      subst one
      exact Or.inr ⟨_, rfl, rfl⟩
  | volume set two click =>
      subst two
      rcases click with rfl | rfl <;> exact Or.inr ⟨_, rfl, rfl⟩
  | double set click =>
      refine Or.inr ⟨_, rfl, ?_⟩
      rw [Reacts.eq_def] at reacts
      rcases click with rfl | rfl | rfl <;> split at reacts <;>
        first | rfl | contradiction

/-- The message of a bit that only one message set. -/
theorem sender_of_alone
    {tags : Tags} {bit : IotbLcdEvent} {place : Nat}
    (member : (bit, place) ∈ tags.polled)
    (alone : ∀ other, (bit, other) ∈ tags.polled → other = place) :
    tags.sender bit = some place := by
  rw [Tags.sender]
  cases found : tags.polled.find? fun entry => entry.1 = bit with
  | none =>
      have absent := List.find?_eq_none.mp found (bit, place) member
      simp at absent
  | some entry =>
      have same : entry.1 = bit := by simpa using List.find?_some found
      have among : (bit, entry.2) ∈ tags.polled := by
        rw [← same]
        exact List.mem_of_find?_eq_some found
      rw [Option.map_some, alone entry.2 among]

/-! ## What a poll does with its messages -/

section Serving

variable {event : EventSet} {scene : View} {tags : Tags}

/-- A received message is served, or its page does not react to it. -/
theorem Serves.polled
    (serves : Serves event scene tags) {place : Nat}
    (member : place ∈ tags.polled.map Prod.snd) :
    ((servedBit event scene.page).bind tags.sender = some place ∧
        ((∃ target, served event scene.page = .switch target) ∨
          ∃ left, served event scene.page = .leave left ∧
            Handles scene.page left = true)) ∨
      place ∈ (tags.unanswered scene.page).map Prod.fst := by
  obtain ⟨⟨bit, other⟩, among, rfl⟩ := List.mem_map.mp member
  by_cases reacts : Reacts scene.page bit = true
  · obtain ⟨found, alone⟩ := serves.alone bit other among reacts
    refine Or.inl ⟨?_, chain_reacts found reacts⟩
    rw [found]
    exact sender_of_alone among alone
  · refine Or.inr (List.mem_map.mpr ⟨(other, scene.page), ?_, rfl⟩)
    exact List.mem_map.mpr ⟨(bit, other), List.mem_filter.mpr
      ⟨among, by simpa using reacts⟩, rfl⟩

theorem Known.bits {place : Nat}
    (member : place ∈ tags.bits.map Prod.snd) : Known scene tags place :=
  Or.inl member

theorem Known.polled {place : Nat}
    (member : place ∈ tags.polled.map Prod.snd) :
    Known scene tags place :=
  Or.inr (Or.inl member)

theorem Known.waiting {place : Nat}
    (waits : waiting scene tags = some place) : Known scene tags place :=
  Or.inr (Or.inr (Or.inl waits))

theorem Known.applied {place : Nat} (done : place ∈ tags.applied) :
    Known scene tags place :=
  Or.inr (Or.inr (Or.inr (Or.inl done)))

theorem Known.ignored {place : Nat}
    (unwanted : place ∈ tags.ignored.map Prod.fst) :
    Known scene tags place :=
  Or.inr (Or.inr (Or.inr (Or.inr unwanted)))

/-- Serving a poll ignores the messages its page does not react to. -/
theorem ignored_serve
    (event : EventSet) (scene : View) (done : List Action)
    (tags : Tags) :
    (tags.serve event scene done).ignored =
      tags.unanswered scene.page ++ tags.ignored := by
  rw [Tags.serve]
  cases served event scene.page <;> rfl

/-- Serving a poll knows what was ignored and what its page leaves. -/
theorem Known.unanswered
    (event : EventSet) (scene : View) (tags : Tags) (done : List Action)
    (place : Nat)
    (member : place ∈ (tags.unanswered scene.page).map Prod.fst ∨
      place ∈ tags.ignored.map Prod.fst) (next : View) :
    Known next (tags.serve event scene done) place := by
  refine .ignored ?_
  rw [ignored_serve, List.map_append]
  exact List.mem_append.mpr member

/-- A message that waits is the one that left the event. -/
theorem waits_of_waiting {place : Nat}
    (here : waiting scene tags = some place) :
    Waits scene ∧ tags.current = some place := by
  rw [Provenance.waiting] at here
  split at here
  · rename_i waits
    exact ⟨waits, here⟩
  · cases here

/-- A switch applies the message of its bit. -/
theorem Known.switched
    {target place : Nat} {done : List Action} {next : View}
    (serves : Serves event scene tags)
    (branch : served event scene.page = .switch target)
    (known : Known scene tags place) :
    Known next (tags.serve event scene done) place := by
  have ignores := Known.unanswered event scene tags done place
  rw [Tags.serve_switch branch] at ignores ⊢
  rcases known with bit | received | waits | done | unwanted
  · exact .bits bit
  · rcases serves.polled received with ⟨sender, -⟩ | unanswered
    · refine .applied ?_
      dsimp only
      rw [sender]
      exact List.mem_append_left _ (List.mem_singleton_self _)
    · exact ignores (Or.inl unanswered) _
  · exact absurd (waits_of_waiting waits).1
      (serves.free (by rw [branch]; simp))
  · exact .applied (List.mem_append_right _ done)
  · exact ignores (Or.inr unwanted) _

/-- An event left in the page makes its message wait. -/
theorem Known.left
    {left : IotbLcdEvent} {place : Nat} {done : List Action}
    (serves : Serves event scene tags)
    (branch : served event scene.page = .leave left)
    (known : Known scene tags place) :
    Known
      { scene with
        pc := .refresh, content := .dynamicContent, event := left }
      (tags.serve event scene done) place := by
  have ignores := Known.unanswered event scene tags done place
  rw [Tags.serve_leave branch] at ignores ⊢
  rcases known with bit | received | waits | done | unwanted
  · exact .bits bit
  · rcases serves.polled received with ⟨sender, effect⟩ | unanswered
    · have handles : Handles scene.page left = true := by
        rcases effect with ⟨target, switched⟩ | ⟨other, leaves, handles⟩
        · rw [branch] at switched
          cases switched
        · rw [branch] at leaves
          cases leaves
          exact handles
      refine .waiting ?_
      rw [Provenance.waiting]
      exact (if_pos ⟨rfl, handles⟩).trans sender
    · exact ignores (Or.inl unanswered) _
  · exact absurd (waits_of_waiting waits).1
      (serves.free (by rw [branch]; simp))
  · exact .applied done
  · exact ignores (Or.inr unwanted) _

/-- A poll without a branch leaves what waits alone. -/
theorem Known.unserved
    {place : Nat} {done : List Action}
    (serves : Serves event scene tags)
    (branch : served event scene.page = .nothing)
    (known : Known scene tags place) :
    Known { scene with pc := .refresh } (tags.serve event scene done)
      place := by
  have ignores := Known.unanswered event scene tags done place
  rw [Tags.serve_nothing branch] at ignores ⊢
  rcases known with bit | received | waits | done | unwanted
  · exact .bits bit
  · rcases serves.polled received with ⟨-, effect⟩ | unanswered
    · rcases effect with ⟨target, switched⟩ | ⟨other, leaves, -⟩
      · rw [branch] at switched
        cases switched
      · rw [branch] at leaves
        cases leaves
    · exact ignores (Or.inl unanswered) _
  · exact .waiting waits
  · exact .applied done
  · exact ignores (Or.inr unwanted) _

end Serving

section Moving

variable {scene next : View} {tags : Tags} {place : Nat}

/-- The call of a handler applies the message that waits for it. -/
theorem Known.handled
    (known : Known scene tags place) (done : List Action) :
    Known next (tags.handle scene done) place := by
  rw [Tags.handle]
  by_cases handles : Handles scene.page scene.event = true
  · rw [if_pos handles]
    rcases known with bit | received | waits | done | unwanted
    · exact .bits bit
    · exact .polled received
    · refine .applied ?_
      dsimp only
      rw [(waits_of_waiting waits).2]
      exact List.mem_append_left _ (List.mem_singleton_self _)
    · exact .applied (List.mem_append_right _ done)
    · exact .ignored unwanted
  · rw [if_neg handles]
    rcases known with bit | received | waits | done | unwanted
    · exact .bits bit
    · exact .polled received
    · exact absurd (waits_of_waiting waits).1.2 handles
    · exact .applied done
    · exact .ignored unwanted

/-- A move that changes neither the active page nor the tags. -/
theorem Known.stays
    (known : Known scene tags place)
    (same : Provenance.waiting next tags =
      Provenance.waiting scene tags) :
    Known next tags place := by
  rw [Known, same]
  exact known

/-- The LCD thread loses no message that it has. -/
theorem Known.move
    {input : LcdThread.Input}
    (fresh : scene.pc = .start → scene.content = .contentNone)
    (quiet : (∀ event, scene.pc ≠ .dispatch event) → tags.polled = [])
    (serves : ∀ event, scene.pc = .dispatch event →
      Serves event scene tags)
    (move : Move input scene next) (known : Known scene tags place) :
    Known next (tags.lcd input.events.set scene next) place := by
  cases move with
  | boot pc shows =>
      rw [Tags.lcd, pc]
      rcases known with bit | received | waits | done | unwanted
      · exact .bits bit
      · exact .polled received
      · have dynamic := (waits_of_waiting waits).1.1
        rw [fresh pc] at dynamic
        cases dynamic
      · exact .applied done
      · exact .ignored unwanted
  | poll pc got =>
      rw [Tags.lcd, pc]
      dsimp only
      rw [got]
      rcases known with bit | received | waits | done | unwanted
      · exact .polled bit
      · rw [quiet fun event => by rw [pc]; simp] at received
        exact absurd received (List.not_mem_nil)
      · exact .waiting waits
      · exact .applied done
      · exact .ignored unwanted
  | timeout pc empty =>
      rw [Tags.lcd, pc]
      dsimp only
      rw [empty]
      exact Known.stays known rfl
  | switch pc branch shows =>
      rw [Tags.lcd, pc]
      exact known.switched (serves _ pc) branch
  | leave pc branch =>
      rw [Tags.lcd, pc]
      exact known.left (serves _ pc) branch
  | ignore pc branch =>
      rw [Tags.lcd, pc]
      exact known.unserved (serves _ pc) branch
  | due pc due serves =>
      rw [Tags.lcd, pc]
      dsimp only
      rw [if_pos due]
      exact known.handled _
  | wait pc notDue =>
      rw [Tags.lcd, pc]
      dsimp only
      rw [if_neg notDue]
      exact Known.stays known rfl
  | tick pc =>
      rw [Tags.lcd, pc]
      refine Known.stays known ?_
      rw [View.tick]
      split <;> rfl

end Moving

/-! ## What is ignored -/

theorem Unwanted.grows
    {accepted : List IotbEventMsg} {entry : Nat × Nat}
    (unwanted : Unwanted accepted entry) (more : List IotbEventMsg) :
    Unwanted (accepted ++ more) entry := by
  obtain ⟨msg, found, none⟩ := unwanted
  exact ⟨msg, getElem?_grows found, none⟩

theorem Known.process
    {scene : View} {tags : Tags} {place : Nat}
    (known : Known scene tags place) (other : Nat) (msg : IotbEventMsg) :
    Known scene (tags.process other msg) place := by
  rw [Tags.process]
  rcases known with bit | received | waits | done | unwanted
  · cases iotbEventProcess msg with
    | none => exact .bits bit
    | some event => exact .bits (List.mem_cons_of_mem _ bit)
  · cases iotbEventProcess msg <;> exact .polled received
  · cases iotbEventProcess msg <;> exact .waiting waits
  · cases iotbEventProcess msg <;> exact .applied done
  · cases iotbEventProcess msg with
    | none => exact .ignored (List.mem_cons_of_mem _ unwanted)
    | some event => exact .ignored unwanted

end InternetWavPlayer.LostKeys
