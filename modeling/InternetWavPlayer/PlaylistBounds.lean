import InternetWavPlayer.Fetching

/-!
# Element accesses of the song list

Every run keeps the playlist sound up to its first fault.  An access outside
the array is that fault exactly when a step meets one of a few situations: a
move or an entry of page 2 without a list, a move in a list emptied by a later
fetch, a shorter list than the selection, or a second release.
-/

namespace InternetWavPlayer.PlaylistBounds

open InternetWavPlayer.Run
open InternetWavPlayer.LcdEvent
open InternetWavPlayer.Songlist
open InternetWavPlayer.Webclient
open InternetWavPlayer.Pages
open InternetWavPlayer.LcdThread
open InternetWavPlayer.Dispatch
open InternetWavPlayer.Scene
open InternetWavPlayer.Effects
open InternetWavPlayer.Playlists
open InternetWavPlayer.Listing
open InternetWavPlayer.Fetching

/-! ## Soundness along a run -/

@[simp]
theorem exitStatics_playlist
    (env : Env) (page : Nat) (statics : Statics) :
    (exitStatics env page statics).playlist = statics.playlist := by
  rw [exitStatics.eq_def]
  split <;> rfl

@[simp]
theorem left_playlist (env : Env) (scene : View) :
    (scene.left env).playlist = scene.statics.playlist := by
  rw [View.left, exitStatics_playlist, log_playlist]

/-- Showing page 1 is one playlist request. -/
theorem showStatics_one
    (env : Env) (event : IotbLcdEvent) (statics : Statics) :
    showStatics env 1 event statics =
      (fetchPlaylist env.fetch (statics.draw drawWebServer)).map
        Prod.snd := by
  rw [showStatics]

theorem Sound.emptied
    {playlist : Playlist} (sound : Sound playlist) :
    Sound { playlist with itemNum := 0 } where
  count := le_rfl
  selection := sound.selection
  fresh := sound.fresh
  saved array pointer :=
    { full := (sound.saved array pointer).full
      live := (sound.saved array pointer).live
      distinct := (sound.saved array pointer).distinct
      inside := (sound.saved array pointer).inside
      short := (sound.saved array pointer).short
      counted := Or.inr rfl }

theorem Sound.selected
    {playlist : Playlist} {songlistNum : Int} (sound : Sound playlist)
    (inside : Inside playlist songlistNum) :
    Sound { playlist with songlistNum := songlistNum } := by
  obtain ⟨found, known, low, high⟩ := inside
  refine ⟨sound.count, low, sound.fresh, ?_⟩
  intro array pointer
  have same : found = array :=
    Option.some.inj (known.symm.trans pointer)
  subst same
  have saved := sound.saved found known
  exact ⟨saved.full, saved.live, saved.distinct, high, saved.short,
    saved.counted⟩

theorem showPage1_sound
    {env : Env} {event : IotbLcdEvent} {statics after : Statics}
    (sound : Sound statics.playlist)
    (ran : showStatics env 1 event statics = .ok after) :
    Sound after.playlist := by
  have requested : Sound ((statics.draw drawWebServer).log
      (.action .fetch)).playlist := sound
  rw [showStatics_one, fetchPlaylist_eq] at ran
  split at ran
  · cases ran
  split at ran
  · cases ran
    exact sound
  · cases ran
    exact Sound.emptied sound
  · rename_i name rest fetched
    rw [listSongs_eq _ _ _ requested (by simp)] at ran
    split_ifs at ran with allocated savable selected
    cases ran
    exact sound_listed sound savable selected

/-- A move to the next song that returns has reselected its row. -/
theorem nextsong_ran
    {statics after : Statics} (sound : Sound statics.playlist)
    (ran : nextsong statics = .ok after) :
    Reselects .nextsong (nextRow statics.playlist) statics after := by
  rcases nextsong_cases sound with
    ⟨-, allocated, index, fault⟩ | ⟨-, result, equal, reselects⟩
  · rw [fault] at ran
    cases ran
  · rw [equal] at ran
    cases ran
    exact reselects

theorem nextsong_moves
    {statics after : Statics} (sound : Sound statics.playlist)
    (ran : nextsong statics = .ok after) :
    Moves .nextsong statics after :=
  (nextsong_ran sound ran).moves

/-- A move to the last song that returns has reselected its row. -/
theorem lastsong_ran
    {statics after : Statics} (sound : Sound statics.playlist)
    (ran : lastsong statics = .ok after) :
    Reselects .lastsong (lastRow statics.playlist) statics after := by
  rcases lastsong_cases sound with
    ⟨-, allocated, index, fault⟩ | ⟨-, result, equal, reselects⟩
  · rw [fault] at ran
    cases ran
  · rw [equal] at ran
    cases ran
    exact reselects

theorem lastsong_moves
    {statics after : Statics} (sound : Sound statics.playlist)
    (ran : lastsong statics = .ok after) :
    Moves .lastsong statics after :=
  (lastsong_ran sound ran).moves

theorem Moves.sound
    {action : Action} {before after : Statics}
    (moves : Moves action before after) (sound : Sound before.playlist) :
    Sound after.playlist := by
  obtain ⟨songlistNum, panel, rfl⟩ := moves.change
  exact Sound.selected sound moves.inside

/-- A due page changes the playlist by selection moves only. -/
theorem dueStatics_playlist
    {env : Env} {page : Nat} {event : IotbLcdEvent}
    {statics after : Statics} (sound : Sound statics.playlist)
    (ran : dueStatics env page event statics = .ok after) :
    after.playlist = statics.playlist ∨
      (page = 1 ∧ ∃ action, Moves action statics after) := by
  rw [dueStatics.eq_def] at ran
  split at ran
  · exact Or.inr ⟨rfl, _, nextsong_moves sound ran⟩
  · exact Or.inr ⟨rfl, _, lastsong_moves sound ran⟩
  · cases ran
    exact Or.inl rfl
  · rcases playStop_ok ran with ⟨-, rfl⟩ | ⟨name, -, -, rfl⟩
    · exact Or.inl rfl
    · exact Or.inl rfl
  · cases ran
    rw [pauseResume]
    split <;> exact Or.inl rfl
  · cases ran
    rw [volumeDown]
    split <;> exact Or.inl rfl
  · cases ran
    rw [volumeUp]
    split <;> exact Or.inl rfl
  · cases ran
    exact Or.inl rfl
  · cases ran
    exact Or.inl rfl

theorem Entered.playlist
    {env : Env} {before after : Statics}
    (entered : Entered env before after) :
    after.playlist = before.playlist ∧
      ∃ name, songText before.playlist before.playlist.songlistNum =
        .ok name := by
  cases entered with
  | cached read opens => exact ⟨rfl, _, read⟩
  | played read missing downloaded => exact ⟨rfl, _, read⟩
  | failed read missing downloaded failure => exact ⟨rfl, _, read⟩

/-- What holds of the playlist between two steps. -/
structure ListInvariant (scene : View) : Prop where
  coherent : Coherent scene
  sound : Sound scene.statics.playlist
  music : scene.page = 2 → scene.statics.playlist.songlist ≠ none

theorem listInvariant_initial (card : Card) :
    ListInvariant (.initial card) where
  coherent := coherent_initial card
  sound := sound_initial
  music page := by cases page

theorem songlist_of_text
    {playlist : Playlist} {index : Int} {text : List UInt8}
    (read : songText playlist index = .ok text) :
    playlist.songlist ≠ none := by
  intro null
  rw [songText, songlistRead, songlistElement, null] at read
  cases read

theorem Moves.songlist
    {action : Action} {before after : Statics}
    (moves : Moves action before after) :
    after.playlist.songlist = before.playlist.songlist := by
  obtain ⟨songlistNum, panel, rfl⟩ := moves.change
  rfl

theorem listInvariant_preserved :
    Preserved viewStep ListInvariant := by
  intro input scene next lists stepped
  have coherent := lists.coherent
  have sound := lists.sound
  have kept : Sound next.statics.playlist ∧
      (next.page = 2 → next.statics.playlist.songlist ≠ none) := by
    cases move_of_step stepped with
    | boot pc shows =>
        exact ⟨showPage1_sound (by exact sound) shows, by simp⟩
    | @switch event target shown pc branch shows =>
        obtain ⟨range, -, -⟩ := served_switch coherent.range branch
        have before : Sound ((scene.left input.env).log
            (.handler target .staticContent .enter)).playlist := by
          simpa using sound
        rcases range with rfl | rfl | rfl
        · exact ⟨showPage1_sound before shows, by simp⟩
        · obtain ⟨same, name, read⟩ :=
            Entered.playlist (enterMusic_entered shows)
          refine ⟨?_, fun _ => ?_⟩
          · simp only [same]
            exact before
          · simp only [same]
            exact songlist_of_text read
        · obtain ⟨playlist, panel, ran, rfl⟩ := showSdcard_changes shows
          exact ⟨before.release ran, by simp⟩
    | @due done pc due serves =>
        have before : Sound (scene.statics.log
            (.handler scene.page .dynamicContent
              scene.event)).playlist :=
          sound
        rcases dueStatics_playlist before serves with
          same | ⟨page, action, moves⟩
        · refine ⟨?_, fun page => ?_⟩
          · simp only [same]
            exact sound
          · simp only [same]
            exact lists.music page
        · exact ⟨Moves.sound moves before, by simp [page]⟩
    | poll pc got => exact ⟨sound, lists.music⟩
    | timeout pc empty => exact ⟨sound, lists.music⟩
    | leave pc branch => exact ⟨sound, lists.music⟩
    | ignore pc branch => exact ⟨sound, lists.music⟩
    | wait pc notDue => exact ⟨sound, lists.music⟩
    | tick pc =>
        rw [View.tick]
        split <;> exact ⟨sound, lists.music⟩
  exact ⟨coherent_preserved input scene next coherent stepped,
    kept.1, kept.2⟩

/-! ## The steps that keep to the array -/

/-- A result is the fault of an element access. -/
def AccessFault {α : Type} (result : Except Fault α) : Prop :=
  ∃ allocated index, result = .error (.songlistAccess allocated index)

/--
A fetched list is long enough for the selection, where it gets as far as
showing it.
-/
def FetchFits (fetch : Fetch) (songlistNum : Int) : Prop :=
  ¬ Redirected fetch → ∀ name rest,
    fetchedArray fetch = some (name :: rest) →
    if fetch.songlistAllocated = true then
      Savable fetch.nameAllocated 0 ((name :: rest).take 6) →
        songlistNum < ((name :: rest).take 6).length
    else name = none

/-- Entering a page finds the elements it accesses. -/
def EntryFits (fetch : Fetch) (target : Nat) (playlist : Playlist) :
    Prop :=
  match target with
  | 1 => FetchFits fetch playlist.songlistNum
  | 2 => playlist.songlist ≠ none
  | _ => playlist.songlist ≠ none ∨ playlist.itemNum = 0

/-- A selection move finds the elements it accesses. -/
def MoveFits (event : IotbLcdEvent) (playlist : Playlist) : Prop :=
  match event with
  | .nextsong => playlist.songlist ≠ none ∧ playlist.itemNum ≠ 0
  | .lastsong =>
      playlist.songlist ≠ none ∧
        (playlist.songlistNum ≠ 0 ∨ playlist.itemNum ≠ 0)
  | _ => True

/-- A step finds the elements it accesses. -/
def StepFits (input : Input) (scene : View) : Prop :=
  match scene.pc with
  | .start => EntryFits input.env.fetch 1 scene.statics.playlist
  | .dispatch event => ∀ target, served event scene.page = .switch target →
      EntryFits input.env.fetch target scene.statics.playlist
  | .refresh => scene.Due → scene.page = 1 →
      MoveFits scene.event scene.statics.playlist
  | _ => True

theorem fetchFits_iff
    {fetch : Fetch} {songlistNum : Int} {name : Option CString}
    {rest : List (Option CString)} (direct : ¬ Redirected fetch)
    (fetched : fetchedArray fetch = some (name :: rest)) :
    FetchFits fetch songlistNum ↔
      if fetch.songlistAllocated = true then
        Savable fetch.nameAllocated 0 ((name :: rest).take 6) →
          songlistNum < ((name :: rest).take 6).length
      else name = none := by
  constructor
  · intro fits
    exact fits direct name rest fetched
  · intro fits _ other others equal
    rw [fetched] at equal
    cases equal
    exact fits

theorem not_accessFault_ok {α : Type} (value : α) :
    ¬ AccessFault (.ok value) := by
  rintro ⟨allocated, index, equal⟩
  cases equal

/-- A request makes a bad access exactly when its list does not fit. -/
theorem accessFault_fetch
    (fetch : Fetch) (statics : Statics)
    (sound : Sound statics.playlist) :
    AccessFault ((fetchPlaylist fetch statics).map Prod.snd) ↔
      ¬ FetchFits fetch statics.playlist.songlistNum := by
  have requested : Sound (statics.log (.action .fetch)).playlist := sound
  rw [fetchPlaylist_eq]
  by_cases redirected : Redirected fetch
  · rw [if_pos redirected]
    refine iff_of_false ?_ fun unfit =>
      unfit fun direct => absurd redirected direct
    rintro ⟨allocated, index, equal⟩
    cases equal
  rw [if_neg redirected]
  cases fetched : fetchedArray fetch with
  | none =>
      refine iff_of_false (not_accessFault_ok _) fun unfit =>
        unfit fun _ name rest equal => ?_
      rw [fetched] at equal
      cases equal
  | some array =>
      cases array with
      | nil =>
          refine iff_of_false (not_accessFault_ok _) fun unfit =>
            unfit fun _ name rest equal => ?_
          rw [fetched] at equal
          cases equal
      | cons name rest =>
          dsimp only
          rw [listSongs_eq fetch (name :: rest) _ requested (by simp),
            fetchFits_iff redirected fetched, log_playlist]
          by_cases allocated : fetch.songlistAllocated = true
          · rw [if_pos allocated, if_pos allocated]
            by_cases savable :
                Savable fetch.nameAllocated 0 ((name :: rest).take 6)
            · rw [if_pos savable]
              by_cases selected : statics.playlist.songlistNum <
                  ((name :: rest).take 6).length
              · rw [if_pos selected]
                exact iff_of_false (not_accessFault_ok _)
                  fun unfit => unfit fun _ => selected
              · rw [if_neg selected]
                exact iff_of_true ⟨_, _, rfl⟩
                  fun fits => selected (fits savable)
            · rw [if_neg savable]
              refine iff_of_false ?_ fun unfit =>
                unfit fun saved => absurd saved savable
              rintro ⟨_, _, equal⟩
              cases equal
          · rw [if_neg allocated, if_neg allocated]
            cases name with
            | none =>
                refine iff_of_false ?_ fun unfit => unfit rfl
                rintro ⟨_, _, equal⟩
                cases equal
            | some name =>
                exact iff_of_true ⟨_, _, rfl⟩ (by simp)

/-- A download never touches the list. -/
theorem not_accessFault_download
    (env : Env) (name : List UInt8) (statics : Statics) :
    ¬ AccessFault (downloadSong env name statics) := by
  rintro ⟨allocated, index, equal⟩
  rw [downloadSong] at equal
  split at equal
  · cases equal
  · rw [bind_eq_error_iff] at equal
    rcases equal with refused | ⟨⟨result, card⟩, -, later⟩
    · rw [webclientGetFile] at refused
      split_ifs at refused
      cases refused
    · dsimp only at later
      split at later <;> cases later

theorem accessFault_enterMusic
    (env : Env) (statics : Statics) (sound : Sound statics.playlist) :
    AccessFault (enterMusic env statics) ↔
      statics.playlist.songlist = none := by
  cases pointer : statics.playlist.songlist with
  | none =>
      have read := songText_of_outside sound
        (not_inside_of_null pointer statics.playlist.songlistNum)
      refine iff_of_true ⟨statics.playlist.allocated,
        statics.playlist.songlistNum, ?_⟩ rfl
      rw [enterMusic, read]
      rfl
  | some array =>
      have read := songText_of_inside sound
        (inside_of_selected sound pointer)
      refine iff_of_false ?_ (by simp)
      rintro ⟨allocated, index, equal⟩
      rw [enterMusic, read] at equal
      simp only [bind, Except.bind] at equal
      split at equal
      · cases equal
      · exact not_accessFault_download _ _ _ ⟨_, _, equal⟩

/-- Entering a page makes a bad access exactly when it does not fit. -/
theorem accessFault_enter
    (env : Env) {target : Nat} (statics : Statics)
    (range : target = 1 ∨ target = 2 ∨ target = 3)
    (sound : Sound statics.playlist) :
    AccessFault (showStatics env target .enter statics) ↔
      ¬ EntryFits env.fetch target statics.playlist := by
  rcases range with rfl | rfl | rfl
  · rw [showStatics_one]
    exact accessFault_fetch env.fetch (statics.draw drawWebServer) sound
  · rw [EntryFits, not_not, showStatics]
    exact accessFault_enterMusic env
      (statics.draw (drawWavPlayer statics.volumeValue)) sound
  · simp only [EntryFits, showStatics, not_or, not_not]
    cases pointer : statics.playlist.songlist with
    | none =>
        have release := releasePlaylist_of_null
          (statics.draw drawFileSystem).playlist
          sound pointer
        rw [release]
        by_cases empty : statics.playlist.itemNum = 0
        · rw [if_pos (by exact empty)]
          exact iff_of_false (not_accessFault_ok _)
            fun fault => fault.2 empty
        · rw [if_neg (by exact empty)]
          exact iff_of_true ⟨_, _, rfl⟩ ⟨rfl, empty⟩
    | some array =>
        have release := releasePlaylist_of_saved
          (statics.draw drawFileSystem).playlist
          sound pointer
        rw [release]
        exact iff_of_false (not_accessFault_ok _)
          fun fault => by cases fault.1

theorem accessFault_boot
    (env : Env) (statics : Statics) (sound : Sound statics.playlist) :
    AccessFault (showStatics env 1 .none statics) ↔
      ¬ EntryFits env.fetch 1 statics.playlist := by
  rw [showStatics_one]
  exact accessFault_fetch env.fetch (statics.draw drawWebServer) sound

/-- A due page makes a bad access exactly when its move does not fit. -/
theorem accessFault_due
    (env : Env) {page : Nat} {event : IotbLcdEvent} (statics : Statics)
    (sound : Sound statics.playlist)
    (music : page = 2 → statics.playlist.songlist ≠ none) :
    AccessFault (dueStatics env page event statics) ↔
      page = 1 ∧ ¬ MoveFits event statics.playlist := by
  rw [dueStatics.eq_def]
  split
  · simp only [MoveFits, true_and]
    rcases nextsong_cases sound with
      ⟨outside, fault⟩ | ⟨inside, after, ran, -⟩
    · exact iff_of_true fault (by tauto)
    · rw [ran]
      exact iff_of_false (not_accessFault_ok _) (by tauto)
  · simp only [MoveFits, true_and]
    rcases lastsong_cases sound with
      ⟨outside, fault⟩ | ⟨inside, after, ran, -⟩
    · exact iff_of_true fault (by tauto)
    · rw [ran]
      exact iff_of_false (not_accessFault_ok _) (by tauto)
  · rename_i notNext notLast
    refine iff_of_false (not_accessFault_ok _) ?_
    rintro ⟨-, unfit⟩
    rw [MoveFits.eq_def] at unfit
    split at unfit
    · exact notNext rfl
    · exact notLast rfl
    · exact unfit True.intro
  · obtain ⟨array, pointer⟩ :=
      Option.ne_none_iff_exists'.mp (music rfl)
    have logged : Sound (statics.log (.action .playStop)).playlist :=
      sound
    have read := songText_of_inside logged
      (inside_of_selected logged pointer)
    refine iff_of_false ?_ (by simp)
    rintro ⟨allocated, index, equal⟩
    rw [playStop] at equal
    dsimp only at equal
    split at equal
    · cases equal
    · rw [read] at equal
      cases equal
  · exact iff_of_false (not_accessFault_ok _) (by simp)
  · exact iff_of_false (not_accessFault_ok _) (by simp)
  · exact iff_of_false (not_accessFault_ok _) (by simp)
  · exact iff_of_false (not_accessFault_ok _) (by simp)
  · refine iff_of_false (not_accessFault_ok _) ?_
    rintro ⟨one, -⟩
    contradiction

/-- The statics that a page is entered with have a sound playlist. -/
theorem entering_sound
    (env : Env) {scene : View} (sound : Sound scene.statics.playlist)
    (entry : Observation) :
    Sound ((scene.left env).log entry).playlist := by
  rw [log_playlist, left_playlist]
  exact sound

theorem accessFault_switch
    {env : Env} {scene : View} {target : Nat}
    (range : target = 1 ∨ target = 2 ∨ target = 3)
    (sound : Sound scene.statics.playlist) :
    AccessFault (showStatics env target .enter
        ((scene.left env).log (.handler target .staticContent .enter))) ↔
      ¬ EntryFits env.fetch target scene.statics.playlist := by
  have entering := entering_sound env sound
    (.handler target .staticContent .enter)
  have fits := accessFault_enter env _ range entering
  rw [log_playlist, left_playlist] at fits
  exact fits

/-- A step that does not fit makes a bad access. -/
theorem accessFault_of_not_fits
    {input : Input} {scene : View} (lists : ListInvariant scene)
    (unfit : ¬ StepFits input scene) :
    AccessFault (viewStep input scene) := by
  have sound := lists.sound
  cases pc : scene.pc with
  | start =>
      rw [StepFits, pc] at unfit
      obtain ⟨allocated, index, fault⟩ :=
        (accessFault_boot input.env (scene.statics.log _) sound).mpr
          unfit
      exact ⟨allocated, index, step_error_iff.mpr (.boot pc fault)⟩
  | dispatch event =>
      rw [StepFits, pc] at unfit
      push Not at unfit
      obtain ⟨target, branch, unfit⟩ := unfit
      obtain ⟨range, -, -⟩ := served_switch lists.coherent.range branch
      obtain ⟨allocated, index, fault⟩ :=
        (accessFault_switch range sound).mpr unfit
      exact ⟨allocated, index,
        step_error_iff.mpr (.switch pc branch fault)⟩
  | refresh =>
      rw [StepFits, pc] at unfit
      push Not at unfit
      obtain ⟨due, page, unfit⟩ := unfit
      obtain ⟨allocated, index, fault⟩ :=
        (accessFault_due input.env (scene.statics.log _) sound
          lists.music).mpr
            ⟨page, unfit⟩
      exact ⟨allocated, index, step_error_iff.mpr (.due pc due fault)⟩
  | top => exact absurd (by rw [StepFits, pc]; exact True.intro) unfit
  | delay => exact absurd (by rw [StepFits, pc]; exact True.intro) unfit

/-- A step that fits makes no bad access. -/
theorem StepFits.not_accessFault
    {input : Input} {scene : View} (fits : StepFits input scene)
    (lists : ListInvariant scene) :
    ¬ AccessFault (viewStep input scene) := by
  have sound := lists.sound
  rintro ⟨allocated, index, fault⟩
  rw [step_error_iff] at fault
  cases fault with
  | boot pc shows =>
      rw [StepFits, pc] at fits
      exact (accessFault_boot input.env (scene.statics.log _)
        sound).mp ⟨_, _, shows⟩ fits
  | switch pc branch shows =>
      obtain ⟨range, -, -⟩ := served_switch lists.coherent.range branch
      rw [StepFits, pc] at fits
      exact (accessFault_switch range sound).mp ⟨_, _, shows⟩
        (fits _ branch)
  | due pc due serves =>
      rw [StepFits, pc] at fits
      obtain ⟨page, unfit⟩ :=
        (accessFault_due input.env (scene.statics.log _) sound
          lists.music).mp ⟨_, _, serves⟩
      exact unfit (fits due page)

/-! ## Runs of the thread -/

/--
A run makes no element access outside the array exactly when each of its steps
finds the elements it accesses.
-/
theorem accesses_inside_iff (card : Card) (inputs : List Input) :
    Throughout step
        (fun input lcd => ∀ allocated index,
          step input lcd ≠ .error (.songlistAccess allocated index))
        inputs (.initial card) ↔
      Throughout step (fun input lcd => StepFits input (view lcd))
        inputs (.initial card) := by
  have initial := threadInvariant_initial card
  have seen : ∀ input lcd, ThreadInvariant lcd →
      ((∀ allocated index,
          step input lcd ≠ .error (.songlistAccess allocated index)) ↔
        ¬ AccessFault (viewStep input (view lcd))) := by
    intro input lcd thread
    have commutes := step_simulates.commutes input lcd thread
    simp only [AccessFault, ← commutes, map_eq_error_iff, not_exists]
  rw [step_simulates.throughout_iff
      (fun input scene => ¬ AccessFault (viewStep input scene)) seen
      initial,
    step_simulates.throughout_iff StepFits (fun _ _ _ => Iff.rfl)
      initial]
  exact throughout_iff_of_invariant listInvariant_preserved
    (fun input scene lists =>
      ⟨fun inside => by_contra fun unfit =>
          inside (accessFault_of_not_fits lists unfit),
        fun fits => fits.not_accessFault lists⟩)
    (listInvariant_initial card)

/-- A failed request at start-up, one click of KEY0, and the switch. -/
def firstClickInputs : List Input :=
  [⟨⟨0#32, .empty⟩, offline⟩,
    ⟨PostedSet.single ⟨.key0, .keyClick⟩ .musicPlay key0Click_processed,
      offline⟩,
    ⟨⟨0#32, .empty⟩, offline⟩]

theorem firstClick_reads_null :
    run step firstClickInputs (.initial fun _ => none) =
      .error (.songlistAccess none 0) :=
  rfl

end InternetWavPlayer.PlaylistBounds
