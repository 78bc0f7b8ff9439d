import InternetWavPlayer.KeyPipeline

/-!
# Every action has a message of its own

The messages that wait for the event thread, those whose bits wait in
`lcd_event`, those of the bits just received, the one that left an event for the
next periodic call, and those that caused the actions performed so far form one
list of places, newest first.  No step puts a place into that list twice, so no
message causes two actions, however often a handler is called again.
-/

namespace InternetWavPlayer.Provenance

open InternetWavPlayer.Run
open InternetWavPlayer.LcdEvent
open InternetWavPlayer.Webclient
open InternetWavPlayer.Pages
open InternetWavPlayer.LcdThread
open InternetWavPlayer.Dispatch
open InternetWavPlayer.Scene
open InternetWavPlayer.Effects
open InternetWavPlayer.KeyPipeline

/-! ## Which messages ask for what -/

/-- The kinds of actions. -/
inductive Kind where
  | fetch
  | nextsong
  | lastsong
  | volumeDown
  | volumeUp
  | playStop
  | pauseResume
  | startPlayback
deriving DecidableEq, Repr

/-- The kind of an action. -/
def kindOf : Action → Kind
  | .fetch => .fetch
  | .nextsong => .nextsong
  | .lastsong => .lastsong
  | .volumeDown => .volumeDown
  | .volumeUp => .volumeUp
  | .playStop => .playStop
  | .pauseResume => .pauseResume
  | .startPlayback _ _ => .startPlayback

/--
The messages that ask for an action: the ones that enter page 1 for a fetch, the
one that enters page 2 for playback.
-/
def asking : Kind → List IotbEventMsg
  | .fetch => [⟨.key0, .keyDoubleClick⟩, ⟨.key2, .keyClick⟩]
  | .nextsong => [⟨.key1, .keyClick⟩]
  | .lastsong => [⟨.keywkup, .keyClick⟩]
  | .volumeDown => [⟨.key1, .keyClick⟩]
  | .volumeUp => [⟨.keywkup, .keyClick⟩]
  | .playStop => [⟨.keywkup, .keyDoubleClick⟩]
  | .pauseResume => [⟨.key1, .keyDoubleClick⟩]
  | .startPlayback => [⟨.key0, .keyClick⟩]

/-- A bit whose messages ask for an action of a kind. -/
def AskedBy (bit : IotbLcdEvent) (kind : Kind) : Prop :=
  ∀ msg, iotbEventProcess msg = some bit → msg ∈ asking kind

/-- The bit that leaves an event in a page. -/
def leftBy (page : Nat) (event : IotbLcdEvent) : IotbLcdEvent :=
  match page, event with
  | 1, .nextsong => .key1Click
  | 1, .lastsong => .wkupClick
  | _, event => event

/-- The message that `iotb_event_process` turns into a bit. -/
def messageOf : IotbLcdEvent → IotbEventMsg
  | .key2Click => ⟨.key2, .keyClick⟩
  | .key1Click => ⟨.key1, .keyClick⟩
  | .wkupClick => ⟨.keywkup, .keyClick⟩
  | .key2DoubleClick => ⟨.key2, .keyDoubleClick⟩
  | .key1DoubleClick => ⟨.key1, .keyDoubleClick⟩
  | .wkupDoubleClick => ⟨.keywkup, .keyDoubleClick⟩
  | .key2ShortPressed => ⟨.key2, .keyShortPressed⟩
  | .key1ShortPressed => ⟨.key1, .keyShortPressed⟩
  | .key0ShortPressed => ⟨.key0, .keyShortPressed⟩
  | .wkupShortPressed => ⟨.keywkup, .keyShortPressed⟩
  | .key2LongHold => ⟨.key2, .keyLongHold⟩
  | .key1LongHold => ⟨.key1, .keyLongHold⟩
  | .key0LongHold => ⟨.key0, .keyLongHold⟩
  | .wkupLongHold => ⟨.keywkup, .keyLongHold⟩
  | .next => ⟨.key0, .keyDoubleClick⟩
  | .musicPlay => ⟨.key0, .keyClick⟩
  | _ => ⟨.none, .none⟩

theorem eq_messageOf
    {msg : IotbEventMsg} {bit : IotbLcdEvent}
    (processed : iotbEventProcess msg = some bit) :
    msg = messageOf bit := by
  obtain ⟨source, kind⟩ := msg
  cases source <;> cases kind <;> cases processed <;> rfl

theorem askedBy_of
    {bit : IotbLcdEvent} {kind : Kind}
    (asks : messageOf bit ∈ asking kind) : AskedBy bit kind := by
  intro msg processed
  rw [eq_messageOf processed]
  exact asks

/-! ## The actions of one handler call -/

/-- Between two statics at most one action was performed. -/
structure Acts (asked : Action → Prop) (before after : Statics) :
    Prop where
  grown : actions after.trace =
    performed before after ++ actions before.trace
  single : (performed before after).length ≤ 1
  kind : ∀ action ∈ performed before after, asked action

theorem performed_eq
    {before after : Statics} {done : List Action}
    (grown : actions after.trace = done ++ actions before.trace) :
    performed before after = done := by
  rw [performed, grown, List.length_append, Nat.add_sub_cancel]
  exact List.take_left ..

theorem acts_none
    {asked : Action → Prop} {before after : Statics}
    (same : actions after.trace = actions before.trace) :
    Acts asked before after := by
  have none : performed before after = [] := performed_eq same
  constructor
  · rw [none]
    exact same
  · rw [none]
    exact Nat.zero_le _
  · rw [none]
    exact fun action member => absurd member (List.not_mem_nil)

theorem acts_one
    {asked : Action → Prop} {before after : Statics} {action : Action}
    (grown : actions after.trace = action :: actions before.trace)
    (meets : asked action) :
    Acts asked before after := by
  have one : performed before after = [action] := performed_eq grown
  constructor
  · rw [one]
    exact grown
  · rw [one]
    exact Nat.le_refl _
  · rw [one]
    intro other member
    rw [List.mem_singleton.mp member]
    exact meets

theorem Acts.mono
    {asked other : Action → Prop} {before after : Statics}
    (acts : Acts asked before after)
    (weaker : ∀ action, asked action → other action) :
    Acts other before after :=
  ⟨acts.grown, acts.single, fun action member =>
    weaker action (acts.kind action member)⟩

/-- Entries that are no actions may come first. -/
theorem Acts.after
    {asked : Action → Prop} {before middle after : Statics}
    (acts : Acts asked middle after)
    (same : actions middle.trace = actions before.trace) :
    Acts asked before after := by
  have done : performed before after = performed middle after := by
    rw [performed, performed, same]
  constructor
  · rw [done, ← same]
    exact acts.grown
  · rw [done]
    exact acts.single
  · rw [done]
    exact acts.kind

theorem actions_exit
    (env : Env) (page : Nat) (statics : Statics) :
    actions (exitStatics env page statics).trace =
      actions statics.trace := by
  rw [exitStatics.eq_def]
  split <;> rfl

/-- Showing page 1 fetches the playlist, once. -/
theorem actions_page1
    {env : Env} {event : IotbLcdEvent} {statics shown : Statics}
    (shows : showStatics env 1 event statics = .ok shown) :
    actions shown.trace = .fetch :: actions statics.trace := by
  simp only [showStatics, map_eq_ok_iff] at shows
  obtain ⟨⟨reached, fetched⟩, fetches, rfl⟩ := shows
  obtain ⟨playlist, panel, listing, shape, rfl⟩ :=
    fetchPlaylist_changes fetches
  rcases shape with rfl | ⟨songs, rfl⟩ <;> rfl

/-- Entering page 2 starts playback, at most once. -/
theorem acts_page2
    {env : Env} {statics shown : Statics}
    (shows : showStatics env 2 .enter statics = .ok shown) :
    Acts (fun action => kindOf action = .startPlayback) statics shown := by
  rw [showStatics] at shows
  have requests : ∀ download name trace,
      actions (requestEntries download name ++ trace) = actions trace := by
    intro download name trace
    rw [requestEntries]
    split <;> rfl
  cases enterMusic_entered shows with
  | cached read opens => exact acts_one rfl rfl
  | @played name card panel read missing downloaded =>
      have grown : actions (startEntries card name ++
          requestEntries env.download name ++ statics.trace) =
          .startPlayback name (card name) :: actions statics.trace :=
        congrArg (_ :: ·) (requests env.download name statics.trace)
      exact acts_one grown rfl
  | failed read missing downloaded failure => exact acts_none (requests ..)

/-- Entering page 3 performs nothing. -/
theorem actions_page3
    {env : Env} {event : IotbLcdEvent} {statics shown : Statics}
    (shows : showStatics env 3 event statics = .ok shown) :
    actions shown.trace = actions statics.trace := by
  obtain ⟨playlist, panel, -, rfl⟩ := showSdcard_changes shows
  rfl

/-- A due page performs what the event in it asks for, or nothing. -/
theorem acts_due
    {env : Env} {page : Nat} {event : IotbLcdEvent}
    {statics done : Statics}
    (serves : dueStatics env page event statics = .ok done) :
    Acts (fun action => Handles page event = true ∧
      AskedBy (leftBy page event) (kindOf action)) statics done := by
  rw [dueStatics.eq_def] at serves
  split at serves
  · obtain ⟨_, _, rfl⟩ := nextsong_changes serves
    exact acts_one rfl ⟨rfl, askedBy_of (by decide)⟩
  · obtain ⟨_, _, rfl⟩ := lastsong_changes serves
    exact acts_one rfl ⟨rfl, askedBy_of (by decide)⟩
  · cases serves
    exact acts_none rfl
  · rcases playStop_ok serves with ⟨-, rfl⟩ | ⟨_, -, -, rfl⟩
    · exact acts_one rfl ⟨rfl, askedBy_of (by decide)⟩
    · exact acts_one rfl ⟨rfl, askedBy_of (by decide)⟩
  · cases serves
    rw [pauseResume]
    split
    · exact acts_one rfl ⟨rfl, askedBy_of (by decide)⟩
    · exact acts_one rfl ⟨rfl, askedBy_of (by decide)⟩
  · cases serves
    rw [volumeDown]
    split
    · exact acts_one rfl ⟨rfl, askedBy_of (by decide)⟩
    · exact acts_none rfl
  · cases serves
    rw [volumeUp]
    split
    · exact acts_one rfl ⟨rfl, askedBy_of (by decide)⟩
    · exact acts_none rfl
  · cases serves
    exact acts_none rfl
  · cases serves
    exact acts_none rfl

/-! ## The bit that is served -/

/-- A switch is served by the bit of a message that asks for the page. -/
theorem switch_bit
    {event : EventSet} {page target : Nat}
    (range : page = 1 ∨ page = 2 ∨ page = 3)
    (branch : served event page = .switch target) :
    ∃ bit, servedBit event page = some bit ∧ event.test bit = true ∧
      (target = 1 → AskedBy bit .fetch) ∧
      (target = 2 → AskedBy bit .startPlayback) := by
  have found := chain event page
  rw [branch] at found
  generalize servedBit event page = serves at found ⊢
  cases found with
  | next set =>
      refine ⟨.next, rfl, set, fun _ => askedBy_of (by decide), ?_⟩
      rcases range with rfl | rfl | rfl <;> intro same <;> cases same
  | play set one =>
      refine ⟨.musicPlay, rfl, set, ?_, fun _ => askedBy_of (by decide)⟩
      intro same
      cases same
  | back set two =>
      refine ⟨.key2Click, rfl, set, fun _ => askedBy_of (by decide), ?_⟩
      intro same
      cases same

/-- What is left in a page is left by a bit, known if the page handles it. -/
theorem leave_bit
    {event : EventSet} {page : Nat} {left : IotbLcdEvent}
    (branch : served event page = .leave left) :
    ∃ bit, servedBit event page = some bit ∧ event.test bit = true ∧
      (Handles page left = true → leftBy page left = bit) := by
  have found := chain event page
  rw [branch] at found
  generalize servedBit event page = serves at found ⊢
  cases found with
  | download set one =>
      subst one
      exact ⟨_, rfl, set, fun handles => nomatch handles⟩
  | nextsong set one =>
      subst one
      exact ⟨_, rfl, set, fun _ => rfl⟩
  | lastsong set one =>
      subst one
      exact ⟨_, rfl, set, fun _ => rfl⟩
  | volume set two click =>
      subst two
      exact ⟨_, rfl, set, fun _ => rfl⟩
  | double set click =>
      refine ⟨_, rfl, set, fun _ => ?_⟩
      rcases click with rfl | rfl | rfl <;> simp [leftBy]

/-- What a switch performs is asked for by the bit that is served. -/
theorem acts_switch
    {env : Env} {event : EventSet} {target : Nat} {scene : View}
    {shown : Statics}
    (range : scene.page = 1 ∨ scene.page = 2 ∨ scene.page = 3)
    (branch : served event scene.page = .switch target)
    (shows : showStatics env target .enter
      ((scene.left env).log (.handler target .staticContent .enter)) =
        .ok shown) :
    ∃ bit, servedBit event scene.page = some bit ∧
      event.test bit = true ∧
      Acts (fun action => AskedBy bit (kindOf action)) scene.statics
        shown := by
  obtain ⟨bit, found, set, fetches, plays⟩ := switch_bit range branch
  refine ⟨bit, found, set, ?_⟩
  have left : actions
      ((scene.left env).log (.handler target .staticContent .enter)).trace =
        actions scene.statics.trace :=
    actions_exit env scene.page
      (scene.statics.log (.handler scene.page .contentNone .exit))
  obtain ⟨targets, -, -⟩ := served_switch range branch
  rcases targets with rfl | rfl | rfl
  · exact (acts_one (actions_page1 shows) (fetches rfl)).after left
  · refine ((acts_page2 shows).mono ?_).after left
    intro action kind
    rw [kind]
    exact plays rfl
  · exact acts_none ((actions_page3 shows).trans left)

/-! ## One list of places -/

/-- The message whose event waits for the next call of the handler. -/
def waiting (scene : View) (tags : Tags) : Option Nat :=
  if scene.content = .dynamicContent ∧
      Handles scene.page scene.event = true then
    tags.current
  else none

/-- The messages that caused actions. -/
def causing (causes : List (Action × Option Nat)) : List Nat :=
  causes.filterMap Prod.snd

/-- The messages of bits, set or received, and those the LCD thread serves. -/
def scenePlaces (scene : View) (tags : Tags) : List Nat :=
  tags.bits.map Prod.snd ++
    (tags.polled.map Prod.snd ++
      ((waiting scene tags).toList ++ causing tags.causes))

/-- All messages in the hands of the event thread or beyond. -/
def places (tagged : Tagged) : List Nat :=
  tagged.threads.hand.toList.map Prod.fst ++
    scenePlaces (view tagged.threads.lcd) tagged.tags

theorem sender_sublist (tags : Tags) (bit : IotbLcdEvent) :
    (tags.sender bit).toList.Sublist (tags.polled.map Prod.snd) := by
  rw [Tags.sender]
  cases found : tags.polled.find? fun entry => entry.1 = bit with
  | none => exact List.nil_sublist _
  | some entry =>
      exact List.singleton_sublist.mpr
        (List.mem_map_of_mem (List.mem_of_find?_eq_some found))

theorem served_sublist (event : EventSet) (page : Nat) (tags : Tags) :
    ((servedBit event page).bind tags.sender).toList.Sublist
      (tags.polled.map Prod.snd) := by
  cases servedBit event page with
  | none => exact List.nil_sublist _
  | some bit => exact sender_sublist tags bit

theorem causing_append (newer older : List (Action × Option Nat)) :
    causing (newer ++ older) = causing newer ++ causing older :=
  List.filterMap_append ..

theorem causing_none (done : List Action) :
    causing (done.map fun action => (action, none)) = [] := by
  induction done with
  | nil => rfl
  | cons action rest induction => exact induction

/-- One action has at most one cause. -/
theorem causing_sublist
    {done : List Action} (single : done.length ≤ 1) (place : Option Nat) :
    (causing (done.map fun action => (action, place))).Sublist
      place.toList := by
  cases done with
  | nil => exact List.nil_sublist _
  | cons action rest =>
      have alone : rest = [] := by
        rw [List.length_cons] at single
        exact List.length_eq_zero_iff.mp (by omega)
      subst alone
      cases place <;> exact List.Sublist.refl _

/-- A message that waits is the one that left the event. -/
theorem waiting_sublist (scene : View) (tags : Tags) :
    (waiting scene tags).toList.Sublist tags.current.toList := by
  rw [waiting]
  split
  · exact List.Sublist.refl _
  · exact List.nil_sublist _

theorem waiting_static
    {scene : View} (content : scene.content = .staticContent)
    (tags : Tags) : waiting scene tags = none := by
  rw [waiting, content]
  exact if_neg fun both => absurd both.1 (by simp)

theorem waiting_absent
    {tags : Tags} (absent : tags.current = none) (scene : View) :
    waiting scene tags = none := by
  rw [waiting, absent]
  exact ite_self _

theorem waiting_unhandled
    {scene : View} (idle : ¬ Handles scene.page scene.event = true)
    (tags : Tags) : waiting scene tags = none :=
  if_neg fun both => idle both.2

/-- An event that a page does not handle stays, and is not handled. -/
theorem not_handles_dueEvent
    {page : Nat} {event : IotbLcdEvent}
    (idle : ¬ Handles page event = true) :
    ¬ Handles page (dueEvent page event) = true := by
  rw [dueEvent, if_neg idle]
  exact idle

/-- Places at the LCD thread that are given up or go on. -/
theorem goesOn
    {bits polled old new past causes : List Nat}
    (served : (new ++ causes).Sublist (polled ++ (old ++ past))) :
    (bits ++ ([] ++ (new ++ causes))).Sublist
      (bits ++ (polled ++ (old ++ past))) :=
  List.Sublist.append_left served bits

section Moves

variable {input : LcdThread.Input} {scene next : View} {tags : Tags}

/-- No move of the LCD thread brings a place back. -/
theorem scenePlaces_sublist
    (range : scene.pc ≠ .start →
      scene.page = 1 ∨ scene.page = 2 ∨ scene.page = 3)
    (quiet : (∀ event, scene.pc ≠ .dispatch event) → tags.polled = [])
    (move : Move input scene next) :
    (scenePlaces next (tags.lcd input.events.set scene next)).Sublist
      (scenePlaces scene tags) := by
  cases move with
  | @boot shown pc shows =>
      rw [Tags.lcd, pc]
      refine List.Sublist.append_left (List.Sublist.append_left ?_ _) _
      rw [waiting_static rfl, causing_append, causing_none]
      exact List.sublist_append_right _ _
  | poll pc got =>
      have none : tags.polled = [] :=
        quiet fun event => by rw [pc]; exact fun same => absurd same (by simp)
      rw [Tags.lcd, pc]
      dsimp only
      rw [got]
      rw [scenePlaces, scenePlaces, none]
      exact List.Sublist.refl _
  | timeout pc empty =>
      rw [Tags.lcd, pc]
      dsimp only
      rw [empty]
      exact List.Sublist.refl _
  | @switch event target shown pc branch shows =>
      obtain ⟨bit, found, -, acts⟩ := acts_switch
        (range (by simp [pc])) branch shows
      rw [Tags.lcd, pc]
      dsimp only
      rw [Tags.serve_switch branch]
      refine goesOn ?_
      dsimp only
      rw [waiting_static rfl, causing_append]
      exact ((causing_sublist acts.single _).trans
        (served_sublist event scene.page tags)).append
          (List.sublist_append_right _ _)
  | @leave event left pc branch =>
      rw [Tags.lcd, pc]
      dsimp only
      rw [Tags.serve_leave branch]
      refine goesOn (((waiting_sublist _ _).trans ?_).append ?_)
      · exact served_sublist event scene.page tags
      · exact List.sublist_append_right _ _
  | @ignore event pc branch =>
      rw [Tags.lcd, pc]
      dsimp only
      rw [Tags.serve_nothing branch]
      exact goesOn (List.sublist_append_right _ _)
  | @due done pc due serves =>
      rw [Tags.lcd, pc]
      dsimp only
      rw [if_pos due]
      have acts : Acts _ scene.statics done := (acts_due serves).after rfl
      by_cases handles : Handles scene.page scene.event = true
      · have here : waiting scene tags = tags.current :=
          if_pos ⟨due.1, handles⟩
        rw [Tags.handle, if_pos handles, scenePlaces, scenePlaces,
          waiting_absent rfl, here]
        refine List.Sublist.append_left (List.Sublist.append_left ?_ _) _
        dsimp only
        rw [causing_append]
        exact (causing_sublist acts.single _).append
          (List.Sublist.refl _)
      · have idle : performed scene.statics done = [] :=
          List.eq_nil_iff_forall_not_mem.mpr fun action member =>
            handles (acts.kind action member).1
        rw [Tags.handle, if_neg handles, idle, scenePlaces, scenePlaces,
          waiting_unhandled (not_handles_dueEvent handles)]
        refine List.Sublist.append_left (List.Sublist.append_left ?_ _) _
        exact List.sublist_append_right _ _
  | wait pc notDue =>
      rw [Tags.lcd, pc]
      dsimp only
      rw [if_neg notDue]
      exact List.Sublist.refl _
  | tick pc =>
      rw [Tags.lcd, pc]
      have same : waiting { scene.tick with pc := .top } tags =
          waiting scene tags := by
        rw [View.tick]
        split <;> rfl
      rw [scenePlaces, scenePlaces, same]

end Moves

/-! ## What the tags say -/

/-- The message accepted at a place is turned into a bit. -/
def Sent (accepted : List IotbEventMsg) (bit : IotbLcdEvent)
    (place : Nat) : Prop :=
  ∃ msg, accepted[place]? = some msg ∧ iotbEventProcess msg = some bit

/-- The message accepted at the place of a cause asks for its action. -/
def Caused (accepted : List IotbEventMsg) (cause : Action × Nat) : Prop :=
  ∃ msg ∈ asking (kindOf cause.1), accepted[cause.2]? = some msg

theorem getElem?_grows
    {accepted more : List IotbEventMsg} {place : Nat} {msg : IotbEventMsg}
    (found : accepted[place]? = some msg) :
    (accepted ++ more)[place]? = some msg :=
  (List.getElem?_append_left
    (List.getElem?_eq_some_iff.mp found).1).trans found

theorem Sent.grows
    {accepted : List IotbEventMsg} {bit : IotbLcdEvent} {place : Nat}
    (sent : Sent accepted bit place) (more : List IotbEventMsg) :
    Sent (accepted ++ more) bit place := by
  obtain ⟨msg, found, processed⟩ := sent
  exact ⟨msg, getElem?_grows found, processed⟩

theorem Sent.causes
    {accepted : List IotbEventMsg} {bit : IotbLcdEvent} {place : Nat}
    {action : Action} (sent : Sent accepted bit place)
    (asked : AskedBy bit (kindOf action)) :
    Caused accepted (action, place) := by
  obtain ⟨msg, found, processed⟩ := sent
  exact ⟨msg, asked msg processed, found⟩

/-- The causes of the actions after start-up. -/
def Explained (accepted : List IotbEventMsg)
    (causes : List (Action × Option Nat)) : Prop :=
  ∃ caused : List (Action × Nat),
    causes = caused.map (fun cause => (cause.1, some cause.2)) ++
      [(.fetch, none)] ∧
    ∀ cause ∈ caused, Caused accepted cause

theorem Explained.grows
    {accepted : List IotbEventMsg} {causes : List (Action × Option Nat)}
    (explained : Explained accepted causes) (more : List IotbEventMsg) :
    Explained (accepted ++ more) causes := by
  obtain ⟨caused, same, each⟩ := explained
  refine ⟨caused, same, fun cause member => ?_⟩
  obtain ⟨msg, asks, found⟩ := each cause member
  exact ⟨msg, asks, getElem?_grows found⟩

/-- More actions with one message behind them. -/
theorem Explained.append
    {accepted : List IotbEventMsg} {causes : List (Action × Option Nat)}
    {bit : IotbLcdEvent} {place : Nat} {done : List Action}
    (explained : Explained accepted causes)
    (sent : Sent accepted bit place)
    (asked : ∀ action ∈ done, AskedBy bit (kindOf action)) :
    Explained accepted
      (done.map (fun action => (action, some place)) ++ causes) := by
  obtain ⟨caused, rfl, each⟩ := explained
  refine ⟨done.map (fun action => (action, place)) ++ caused, ?_, ?_⟩
  · rw [List.map_append, List.map_map, List.append_assoc]
    rfl
  · intro cause member
    rcases List.mem_append.mp member with new | old
    · obtain ⟨action, among, rfl⟩ := List.mem_map.mp new
      exact sent.causes (asked action among)
    · exact each cause old

/-- The tags agree with what the LCD thread and the set hold. -/
structure Tracks (accepted : List IotbEventMsg) (set : EventSet)
    (scene : View) (tags : Tags) : Prop where
  posted : ∀ entry ∈ tags.bits ++ tags.polled,
    Sent accepted entry.1 entry.2
  tested : ∀ bit, set.test bit = true → bit ∈ tags.bits.map Prod.fst
  received : ∀ event, scene.pc = .dispatch event →
    ∀ bit, event.test bit = true → bit ∈ tags.polled.map Prod.fst
  quiet : (∀ event, scene.pc ≠ .dispatch event) → tags.polled = []
  left : scene.content = .dynamicContent →
    Handles scene.page scene.event = true →
      ∃ place, tags.current = some place ∧
        Sent accepted (leftBy scene.page scene.event) place
  recorded : tags.causes.map Prod.fst = actions scene.statics.trace
  fresh : scene.pc = .start → tags.causes = []
  explained : scene.pc ≠ .start → Explained accepted tags.causes

/-- A received bit has a message. -/
theorem Tracks.sender
    {accepted : List IotbEventMsg} {set event : EventSet} {scene : View}
    {tags : Tags} {bit : IotbLcdEvent}
    (tracks : Tracks accepted set scene tags)
    (pc : scene.pc = .dispatch event) (received : event.test bit = true) :
    ∃ place, tags.sender bit = some place ∧ Sent accepted bit place := by
  obtain ⟨entry, member, same⟩ :=
    List.mem_map.mp (tracks.received event pc bit received)
  rw [Tags.sender]
  cases found : tags.polled.find? fun entry => entry.1 = bit with
  | none =>
      have absent := List.find?_eq_none.mp found entry member
      simp [same] at absent
  | some other =>
      have equal : other.1 = bit := by
        simpa using List.find?_some found
      have sent := tracks.posted other
        (List.mem_append_right _ (List.mem_of_find?_eq_some found))
      rw [equal] at sent
      exact ⟨other.2, rfl, sent⟩

theorem map_fst_causes (done : List Action) (place : Option Nat)
    (causes : List (Action × Option Nat)) :
    ((done.map fun action => (action, place)) ++ causes).map Prod.fst =
      done ++ causes.map Prod.fst := by
  rw [List.map_append, List.map_map]
  exact congrArg (· ++ _) (List.map_id done)

section Tracking

variable {accepted : List IotbEventMsg} {set event : EventSet}
  {scene : View} {tags : Tags}

theorem Tracks.booted
    {env : Env} {shown : Statics}
    (tracks : Tracks accepted set scene tags) (pc : scene.pc = .start)
    (shows : showStatics env 1 .none
      (scene.statics.log (.handler 1 .staticContent .none)) = .ok shown) :
    Tracks accepted set
      { scene with
        pc := .top, page := 1, content := .staticContent, event := .none,
        statics := shown }
      { tags with
        causes := (performed scene.statics shown).map
          (fun action => (action, none)) ++ tags.causes } := by
  have grown : actions shown.trace =
      .fetch :: actions scene.statics.trace := by
    have fetched := actions_page1 shows
    exact fetched
  have one : performed scene.statics shown = [.fetch] := performed_eq grown
  have before := tracks.fresh pc
  constructor
  · exact tracks.posted
  · exact tracks.tested
  · exact fun event same => absurd same (by simp)
  · exact fun _ => tracks.quiet fun event => by rw [pc]; simp
  · exact fun same => absurd same (by simp)
  · rw [map_fst_causes, one, tracks.recorded]
    exact grown.symm
  · exact fun same => absurd same (by simp)
  · intro _
    dsimp only
    rw [one, before]
    exact ⟨[], rfl, fun _ member => absurd member (List.not_mem_nil)⟩

theorem Tracks.polled
    {events : PostedSet} {kept : EventSet}
    (tracks : Tracks accepted events.set scene tags)
    (pc : scene.pc = .top)
    (got : iotbLcdEventGet events.set = some (event, kept)) :
    Tracks accepted (PostedSet.polled events).set
      { scene with pc := .dispatch event }
      { tags with bits := [], polled := tags.bits } := by
  have empty := tracks.quiet fun event => by rw [pc]; simp
  have running : scene.pc ≠ .start := by rw [pc]; simp
  constructor
  · intro entry member
    exact tracks.posted entry (List.mem_append_left _ member)
  · intro bit set
    rw [polled_of_some got, test_zero] at set
    cases set
  · intro other same bit received
    cases same
    rw [test_of_get got, Bool.and_eq_true] at received
    exact tracks.tested bit received.1
  · exact fun never => absurd rfl (never event)
  · exact tracks.left
  · exact tracks.recorded
  · exact fun same => absurd same (by simp)
  · exact fun _ => tracks.explained running

/-- A served set is given up, whatever its event did. -/
theorem Tracks.givenUp
    {next : View} {after : Tags} (tracks : Tracks accepted set scene tags)
    (ended : next.pc = .refresh) (bits : after.bits = tags.bits)
    (given : after.polled = [])
    (left : next.content = .dynamicContent →
      Handles next.page next.event = true →
        ∃ place, after.current = some place ∧
          Sent accepted (leftBy next.page next.event) place)
    (recorded : after.causes.map Prod.fst = actions next.statics.trace)
    (explained : Explained accepted after.causes) :
    Tracks accepted set next after := by
  constructor
  · intro entry member
    rw [bits, given, List.append_nil] at member
    exact tracks.posted entry (List.mem_append_left _ member)
  · rw [bits]
    exact tracks.tested
  · intro event same
    rw [ended] at same
    exact absurd same (by simp)
  · exact fun _ => given
  · exact left
  · exact recorded
  · intro same
    rw [ended] at same
    exact absurd same (by simp)
  · exact fun _ => explained

theorem Tracks.switched
    {env : Env} {target : Nat} {shown : Statics}
    (tracks : Tracks accepted set scene tags)
    (range : scene.page = 1 ∨ scene.page = 2 ∨ scene.page = 3)
    (pc : scene.pc = .dispatch event)
    (branch : served event scene.page = .switch target)
    (shows : showStatics env target .enter
      ((scene.left env).log (.handler target .staticContent .enter)) =
        .ok shown) :
    Tracks accepted set
      { pc := .refresh, page := target, content := .staticContent,
        event := shownEvent target .enter, cnt := menuRefreshTime target,
        statics := shown }
      (tags.serve event scene (performed scene.statics shown)) := by
  obtain ⟨bit, found, received, acts⟩ := acts_switch range branch shows
  obtain ⟨place, sender, sent⟩ := tracks.sender pc received
  have running : scene.pc ≠ .start := by rw [pc]; simp
  rw [Tags.serve_switch branch, found, Option.bind_some, sender]
  refine tracks.givenUp rfl rfl rfl ?_ ?_ ?_
  · exact fun same => absurd same (by simp)
  · rw [map_fst_causes, tracks.recorded]
    exact acts.grown.symm
  · exact (tracks.explained running).append sent acts.kind

theorem Tracks.leave
    {left : IotbLcdEvent} (tracks : Tracks accepted set scene tags)
    (pc : scene.pc = .dispatch event)
    (branch : served event scene.page = .leave left)
    (done : List Action) :
    Tracks accepted set
      { scene with
        pc := .refresh, content := .dynamicContent, event := left }
      (tags.serve event scene done) := by
  obtain ⟨bit, found, received, asked⟩ := leave_bit branch
  obtain ⟨place, sender, sent⟩ := tracks.sender pc received
  have running : scene.pc ≠ .start := by rw [pc]; simp
  rw [Tags.serve_leave branch, found, Option.bind_some, sender]
  refine tracks.givenUp rfl rfl rfl ?_ ?_ ?_
  · intro _ handles
    refine ⟨place, rfl, ?_⟩
    dsimp only at handles ⊢
    rw [asked handles]
    exact sent
  · exact tracks.recorded
  · exact tracks.explained running

theorem Tracks.ignored
    (tracks : Tracks accepted set scene tags)
    (pc : scene.pc = .dispatch event)
    (branch : served event scene.page = .nothing)
    (done : List Action) :
    Tracks accepted set { scene with pc := .refresh }
      (tags.serve event scene done) := by
  have running : scene.pc ≠ .start := by rw [pc]; simp
  rw [Tags.serve_nothing branch]
  exact tracks.givenUp rfl rfl rfl tracks.left tracks.recorded
    (tracks.explained running)

/-- The handler of a due page is called. -/
theorem Tracks.handled
    {env : Env} {done : Statics}
    (tracks : Tracks accepted set scene tags) (pc : scene.pc = .refresh)
    (due : scene.Due)
    (serves : dueStatics env scene.page scene.event
      (scene.statics.log
        (.handler scene.page .dynamicContent scene.event)) = .ok done) :
    Tracks accepted set
      { scene with
        pc := .delay, event := dueEvent scene.page scene.event, cnt := 0,
        statics := done }
      (tags.handle scene (performed scene.statics done)) := by
  have acts : Acts _ scene.statics done := (acts_due serves).after rfl
  have running : scene.pc ≠ .start := by rw [pc]; simp
  have quiet := tracks.quiet fun event => by rw [pc]; simp
  have idle : scene.content = .dynamicContent →
      Handles scene.page (dueEvent scene.page scene.event) = true →
        False := by
    intro _ handles
    rw [dueEvent] at handles
    split at handles
    · have none : Handles scene.page .none = false := by
        rw [Handles.eq_def]
        split <;> first | rfl | contradiction
      rw [none] at handles
      cases handles
    · contradiction
  have explained : Explained accepted
      ((performed scene.statics done).map
        (fun action => (action, tags.current)) ++ tags.causes) := by
    by_cases handles : Handles scene.page scene.event = true
    · obtain ⟨place, current, sent⟩ := tracks.left due.1 handles
      rw [current]
      exact (tracks.explained running).append sent
        fun action member => (acts.kind action member).2
    · have nothing : performed scene.statics done = [] :=
        List.eq_nil_iff_forall_not_mem.mpr fun action member =>
          handles (acts.kind action member).1
      rw [nothing]
      exact tracks.explained running
  have listed : ((performed scene.statics done).map
      (fun action => (action, tags.current)) ++ tags.causes).map
        Prod.fst = actions done.trace := by
    rw [map_fst_causes, tracks.recorded]
    exact acts.grown.symm
  have kept : ∀ current applied, Tracks accepted set
      { scene with
        pc := .delay, event := dueEvent scene.page scene.event, cnt := 0,
        statics := done }
      { tags with
        causes := (performed scene.statics done).map
          (fun action => (action, tags.current)) ++ tags.causes
        current := current
        applied := applied } := by
    intro current applied
    constructor
    · exact tracks.posted
    · exact tracks.tested
    · exact fun event same => absurd same (by simp)
    · exact fun _ => quiet
    · exact fun content handles => (idle content handles).elim
    · exact listed
    · exact fun same => absurd same (by simp)
    · exact fun _ => explained
  rw [Tags.handle]
  split
  · exact kept _ _
  · exact kept _ _

/-- What the tags say does not depend on the counter. -/
theorem Tracks.stays
    (tracks : Tracks accepted set scene tags)
    (running : scene.pc ≠ .start)
    (idle : ∀ event, scene.pc ≠ .dispatch event)
    (pc : Pc) (cnt : Nat) (goesOn : pc ≠ .start)
    (waits : ∀ event, pc ≠ .dispatch event) :
    Tracks accepted set { scene with pc := pc, cnt := cnt } tags := by
  constructor
  · exact tracks.posted
  · exact tracks.tested
  · exact fun event same => absurd same (waits event)
  · exact fun _ => tracks.quiet idle
  · exact tracks.left
  · exact tracks.recorded
  · exact fun same => absurd same goesOn
  · exact fun _ => tracks.explained running

end Tracking

/-- Every move of the LCD thread keeps the tags true. -/
theorem Tracks.move
    {accepted : List IotbEventMsg} {input : LcdThread.Input}
    {scene next : View} {tags : Tags}
    (tracks : Tracks accepted input.events.set scene tags)
    (range : scene.pc ≠ .start →
      scene.page = 1 ∨ scene.page = 2 ∨ scene.page = 3)
    (move : Move input scene next) :
    Tracks accepted
      (if scene.pc = .top then PostedSet.polled input.events
        else input.events).set
      next (tags.lcd input.events.set scene next) := by
  cases move with
  | boot pc shows =>
      rw [Tags.lcd, pc]
      exact tracks.booted pc shows
  | poll pc got =>
      rw [Tags.lcd, pc, if_pos rfl]
      dsimp only
      rw [got]
      exact tracks.polled pc got
  | timeout pc empty =>
      rw [Tags.lcd, pc, if_pos rfl, polled_of_none empty]
      dsimp only
      rw [empty]
      exact tracks.stays (by simp [pc]) (by simp [pc]) _ _ (by simp)
        (by simp)
  | switch pc branch shows =>
      rw [Tags.lcd, pc]
      exact tracks.switched (range (by rw [pc]; simp)) pc branch shows
  | leave pc branch =>
      rw [Tags.lcd, pc]
      exact tracks.leave pc branch _
  | ignore pc branch =>
      rw [Tags.lcd, pc]
      exact tracks.ignored pc branch _
  | due pc due serves =>
      rw [Tags.lcd, pc]
      dsimp only
      rw [if_pos due]
      exact tracks.handled pc due serves
  | wait pc notDue =>
      rw [Tags.lcd, pc]
      dsimp only
      rw [if_neg notDue]
      exact tracks.stays (by simp [pc]) (by simp [pc]) _ _ (by simp)
        (by simp)
  | tick pc =>
      rw [Tags.lcd, pc]
      have same : scene.tick = { scene with cnt := scene.tick.cnt } := by
        rw [View.tick]
        split <;> rfl
      rw [same]
      exact tracks.stays (by simp [pc]) (by simp [pc]) _ _ (by simp)
        (by simp)

/-! ## The invariant of the tagged threads -/

/-- The places go down, and all of them were received. -/
structure Descends (tagged : Tagged) : Prop where
  order : (places tagged).Pairwise (fun newer older => older < newer)
  below : ∀ place ∈ places tagged,
    place < tagged.threads.queue.received.length

/-- The tags are true, and their places go down. -/
structure Provenant (tagged : Tagged) : Prop where
  base : Base tagged.threads
  tracks : Tracks tagged.threads.queue.accepted
    tagged.threads.lcdEvent.set (view tagged.threads.lcd) tagged.tags
  descends : Descends tagged

theorem provenant_initial (size : Nat) (card : Card) :
    Provenant (.initial size card) where
  base := base_initial size card
  tracks := by
    constructor
    · exact fun entry member => absurd member (List.not_mem_nil)
    · intro bit set
      have none : EventSet.test 0#32 bit = true := set
      rw [test_zero] at none
      cases none
    · intro event same
      cases same
    · exact fun _ => rfl
    · intro same
      cases same
    · rfl
    · exact fun _ => rfl
    · exact fun running => absurd rfl running
  descends := ⟨List.Pairwise.nil,
    fun place member => absurd member (List.not_mem_nil)⟩

/-- Places that are only given up stay in order. -/
theorem Descends.sublist
    {before after : Tagged} (descends : Descends before)
    (fewer : (places after).Sublist (places before))
    (received : after.threads.queue.received =
      before.threads.queue.received) :
    Descends after := by
  refine ⟨descends.order.sublist fewer, fun place member => ?_⟩
  rw [received]
  exact descends.below place (fewer.subset member)

/-- A message that was processed set its bit. -/
theorem Tracks.process
    {accepted : List IotbEventMsg} {events : PostedSet} {scene : View}
    {tags : Tags} {place : Nat} {msg : IotbEventMsg}
    (tracks : Tracks accepted events.set scene tags)
    (message : accepted[place]? = some msg) :
    Tracks accepted (PostedSet.process msg events).set scene
      (tags.process place msg) := by
  rw [Tags.process]
  cases processed : iotbEventProcess msg with
  | none =>
      refine ⟨tracks.posted, ?_, tracks.received, tracks.quiet,
        tracks.left, tracks.recorded, tracks.fresh, tracks.explained⟩
      intro bit set
      rw [test_process, processed] at set
      exact tracks.tested bit (by simpa using set)
  | some event =>
      refine ⟨?_, ?_, tracks.received, tracks.quiet, tracks.left,
        tracks.recorded, tracks.fresh, tracks.explained⟩
      · intro entry member
        rcases List.mem_cons.mp member with rfl | old
        · exact ⟨msg, message, processed⟩
        · exact tracks.posted entry old
      · intro bit set
        rw [test_process, processed, Bool.or_eq_true] at set
        rcases set with old | new
        · exact List.mem_cons_of_mem _ (tracks.tested bit old)
        · have same : event = bit := by simpa using new
          rw [← same]
          exact List.mem_cons_self ..

theorem Tracks.grows
    {accepted : List IotbEventMsg} {set : EventSet} {scene : View}
    {tags : Tags} (tracks : Tracks accepted set scene tags)
    (more : List IotbEventMsg) (dropped : List IotbEventMsg) :
    Tracks (accepted ++ more) set scene
      { tags with dropped := dropped } := by
  refine ⟨?_, tracks.tested, tracks.received, tracks.quiet, ?_,
    tracks.recorded, tracks.fresh, ?_⟩
  · exact fun entry member => (tracks.posted entry member).grows more
  · intro content handles
    obtain ⟨place, current, sent⟩ := tracks.left content handles
    exact ⟨place, current, sent.grows more⟩
  · exact fun running => (tracks.explained running).grows more

theorem process_sublist (place : Nat) (msg : IotbEventMsg)
    (scene : View) (tags : Tags) :
    (scenePlaces scene (tags.process place msg)).Sublist
      (place :: scenePlaces scene tags) := by
  rw [Tags.process]
  cases iotbEventProcess msg with
  | none => exact List.sublist_cons_self _ _
  | some event => exact List.Sublist.refl _

/-- The message received next comes after all others. -/
theorem Descends.receive
    {before after : Tagged} (descends : Descends before)
    (newer : places after =
      before.threads.queue.received.length :: places before)
    (received : after.threads.queue.received.length =
      before.threads.queue.received.length + 1) :
    Descends after := by
  constructor
  · rw [newer, List.pairwise_cons]
    exact ⟨descends.below, descends.order⟩
  · intro place member
    rw [received]
    rw [newer] at member
    rcases List.mem_cons.mp member with rfl | old
    · exact Nat.lt_succ_self _
    · exact (descends.below place old).trans (Nat.lt_succ_self _)

theorem provenant_goes
    {size : Nat} {input : KeyPipeline.Input} {before after : Tagged}
    (provenant : Provenant before) (goes : Goes size before input after)
    (base : Base after.threads) :
    Provenant after := by
  obtain ⟨ground, tracks, descends⟩ := provenant
  cases goes with
  | queue accepted received =>
      obtain ⟨more, accepted⟩ := accepted
      refine ⟨base, ?_, descends.sublist (List.Sublist.refl _) received⟩
      dsimp only
      rw [accepted]
      exact tracks.grows more _
  | receive empty accepted received message =>
      refine ⟨base, ?_, descends.receive ?_ received⟩
      · dsimp only
        rw [accepted]
        exact tracks
      · rw [places, places, empty]
        rfl
  | @process place msg hand =>
      refine ⟨base, tracks.process (ground.hand place msg hand).1,
        descends.sublist ?_ rfl⟩
      rw [places, places, hand]
      exact process_sublist place msg _ _
  | @lcd env next stepped =>
      have move : Move ⟨before.threads.lcdEvent, env⟩
          (view before.threads.lcd) (view next) :=
        move_of_step (step_simulates.viewed ground.thread stepped)
      have range : (view before.threads.lcd).pc ≠ .start →
          (view before.threads.lcd).page = 1 ∨
            (view before.threads.lcd).page = 2 ∨
            (view before.threads.lcd).page = 3 :=
        fun running => (ground.thread.menus running).index_cases
      refine ⟨base, tracks.move range move, descends.sublist ?_ rfl⟩
      rw [places, places]
      exact List.Sublist.append_left
        (scenePlaces_sublist range tracks.quiet move) _

theorem provenant_preserved (size : Nat) :
    Preserved (taggedStep size) Provenant := by
  intro input before after provenant stepped
  obtain ⟨goes, base⟩ := goes_of_step provenant.base stepped
  exact provenant_goes provenant goes base

/-! ## Counting -/

theorem map_getElem?_range {α : Type} (list : List α) :
    (List.range list.length).map (fun index => list[index]?) =
      list.map some := by
  apply List.ext_getElem?
  intro index
  rw [List.getElem?_map, List.getElem?_map]
  by_cases inside : index < list.length
  · rw [List.getElem?_range inside, Option.map_some,
      List.getElem?_eq_getElem inside, Option.map_some]
  · rw [List.getElem?_eq_none (Nat.le_of_not_lt inside),
      List.getElem?_eq_none (by
        rw [List.length_range]
        exact Nat.le_of_not_lt inside)]
    rfl

/-- Items that point to entries of their own are no more than those entries. -/
theorem countP_le_of_distinct
    {α β : Type} {items : List (α × Nat)} {list : List β}
    (asks : α → Bool) (meets : β → Bool)
    (distinct : (items.map Prod.snd).Nodup)
    (each : ∀ item ∈ items, asks item.1 = true →
      ∃ entry, list[item.2]? = some entry ∧ meets entry = true) :
    items.countP (fun item => asks item.1) ≤ list.countP meets := by
  have pointed : ((items.filter fun item => asks item.1).map
      Prod.snd) ⊆ (List.range list.length).filter
        fun index => (list[index]?).any meets := by
    intro place member
    obtain ⟨item, kept, rfl⟩ := List.mem_map.mp member
    obtain ⟨among, wanted⟩ := List.mem_filter.mp kept
    obtain ⟨entry, found, fits⟩ := each item among wanted
    rw [List.mem_filter, List.mem_range]
    refine ⟨(List.getElem?_eq_some_iff.mp found).1, ?_⟩
    rw [found]
    exact fits
  have fewer := (List.Nodup.subperm (List.Nodup.sublist
    (List.Sublist.map _ List.filter_sublist) distinct)
      pointed).length_le
  have entries : (List.range list.length).countP
      (fun index => (list[index]?).any meets) = list.countP meets := by
    have same := congrArg (List.countP (Option.any meets))
      (map_getElem?_range list)
    rw [List.countP_map, List.countP_map] at same
    exact same
  rw [List.length_map, ← List.countP_eq_length_filter,
    ← List.countP_eq_length_filter, entries] at fewer
  exact fewer

/-! ## No action is replayed -/

/--
The actions performed so far are those of the causes.  All but the first, the
fetch at start-up, have a message that asks for them, each one of its own and
in the order of the messages, so there are no more actions of a kind than
messages that ask for it.
-/
structure OwnMessages (threads : Threads) (tags : Tags) : Prop where
  recorded :
    tags.causes.map Prod.fst = actions threads.lcd.statics.trace
  own : threads.lcd.pc = .start ∧ tags.causes = [] ∨
    ∃ caused : List (Action × Nat),
      tags.causes =
        caused.map (fun cause => (cause.1, some cause.2)) ++
          [(.fetch, none)] ∧
      (∀ cause ∈ caused, Caused threads.queue.accepted cause) ∧
      (caused.map Prod.snd).Pairwise fun newer older => older < newer
  counted : ∀ kind,
    (actions threads.lcd.statics.trace).countP
        (fun action => kindOf action = kind) ≤
      threads.queue.accepted.countP (fun msg => msg ∈ asking kind) +
        if kind = .fetch then 1 else 0

theorem causing_caused (caused : List (Action × Nat)) :
    causing (caused.map (fun cause => (cause.1, some cause.2)) ++
      [(.fetch, none)]) = caused.map Prod.snd := by
  rw [causing_append]
  induction caused with
  | nil => rfl
  | cons cause rest induction =>
      exact congrArg (cause.2 :: ·) induction

/-- The causes are the last of the places. -/
theorem causing_sublist_places (tagged : Tagged) :
    (causing tagged.tags.causes).Sublist (places tagged) :=
  (((List.sublist_append_right _ _).trans
    (List.sublist_append_right _ _)).trans
      (List.sublist_append_right _ _)).trans
        (List.sublist_append_right _ _)

theorem counted_of_caused
    {accepted : List IotbEventMsg} {caused : List (Action × Nat)}
    (each : ∀ cause ∈ caused, Caused accepted cause)
    (order : (caused.map Prod.snd).Pairwise
      fun newer older => older < newer) (kind : Kind) :
    caused.countP (fun cause => kindOf cause.1 = kind) ≤
      accepted.countP (fun msg => msg ∈ asking kind) := by
  have distinct : (caused.map Prod.snd).Nodup :=
    order.imp fun newer => Nat.ne_of_gt newer
  apply countP_le_of_distinct (fun action => kindOf action = kind)
    (fun msg => msg ∈ asking kind) distinct
  intro cause member same
  obtain ⟨msg, asks, found⟩ := each cause member
  have kinds : kindOf cause.1 = kind := by simpa using same
  rw [kinds] at asks
  exact ⟨msg, found, by simpa using asks⟩

theorem Provenant.ownMessages
    {tagged : Tagged} (provenant : Provenant tagged) :
    OwnMessages tagged.threads tagged.tags := by
  obtain ⟨base, tracks, descends⟩ := provenant
  have recorded : tagged.tags.causes.map Prod.fst =
      actions tagged.threads.lcd.statics.trace := tracks.recorded
  have order := descends.order.sublist (causing_sublist_places tagged)
  by_cases start : tagged.threads.lcd.pc = .start
  · have none := tracks.fresh start
    refine ⟨recorded, Or.inl ⟨start, none⟩, fun kind => ?_⟩
    have idle : actions tagged.threads.lcd.statics.trace = [] := by
      rw [none] at recorded
      exact recorded.symm
    rw [idle]
    exact Nat.zero_le _
  · obtain ⟨caused, same, each⟩ := tracks.explained start
    rw [same, causing_caused] at order
    refine ⟨recorded, Or.inr ⟨caused, same, each, order⟩, fun kind => ?_⟩
    have listed : actions tagged.threads.lcd.statics.trace =
        caused.map Prod.fst ++ [.fetch] := by
      rw [← recorded, same, List.map_append, List.map_map]
      rfl
    rw [listed, List.countP_append, List.countP_map]
    apply Nat.add_le_add (counted_of_caused each order kind)
    cases kind <;> decide

/-- A run of the threads is a run of the tagged threads. -/
theorem run_tagged
    {size : Nat} {inputs : List KeyPipeline.Input} {tagged : Tagged}
    {threads : Threads}
    (ran : run (step size) inputs tagged.threads = .ok threads) :
    ∃ tags, run (taggedStep size) inputs tagged = .ok ⟨threads, tags⟩ := by
  induction inputs generalizing tagged with
  | nil =>
      cases ran
      exact ⟨tagged.tags, rfl⟩
  | cons input rest induction =>
      obtain ⟨next, stepped, continued⟩ :=
        (run_cons_eq_ok_iff input rest _ threads).mp ran
      have moved : taggedStep size input tagged =
          .ok ⟨next, tagged.tags.next size input tagged.threads next⟩ := by
        rw [taggedStep, stepped]
        rfl
      obtain ⟨tags, reached⟩ := @induction
        ⟨next, tagged.tags.next size input tagged.threads next⟩ continued
      exact ⟨tags, (run_cons_eq_ok_iff input rest tagged _).mpr
        ⟨_, moved, reached⟩⟩

/--
In every run of the three threads each action has an accepted message of its
own, apart from the fetch at start-up.
-/
theorem no_action_replayed
    (size : Nat) (card : Card) (inputs : List KeyPipeline.Input)
    (threads : Threads)
    (ran : run (step size) inputs (.initial size card) = .ok threads) :
    ∃ tags,
      run (taggedStep size) inputs (.initial size card) =
        .ok ⟨threads, tags⟩ ∧
      OwnMessages threads tags := by
  obtain ⟨tags, tagged⟩ :=
    @run_tagged size inputs (.initial size card) threads ran
  exact ⟨tags, tagged, (run_invariant (provenant_preserved size)
    (provenant_initial size card) tagged).ownMessages⟩

/-- A list at start-up, then a click of KEY0 on its way to the LCD thread. -/
def clickInputs : List KeyPipeline.Input :=
  [.lcd (online [some songName]), .put ⟨.key0, .keyClick⟩, .putEnd 0,
    .event, .event, .event, .lcd offline, .lcd (online [])]

theorem no_action_replayed_click :
    ∃ threads tags,
      run (taggedStep 8) clickInputs (.initial 8 fun _ => some []) =
        .ok ⟨threads, tags⟩ ∧
      threads.lcd.menuIndex = 2 ∧ OwnMessages threads tags := by
  have reached : (run (step 8) clickInputs
      (.initial 8 fun _ => some [])).toOption.map
        (fun threads => threads.lcd.menuIndex) = some 2 := by
    decide +kernel
  obtain ⟨threads, ran, page⟩ := toOption_map_eq_some_iff.mp reached
  obtain ⟨tags, tagged, own⟩ :=
    no_action_replayed 8 (fun _ => some []) clickInputs threads ran
  exact ⟨threads, tags, tagged, page, own⟩

end InternetWavPlayer.Provenance
