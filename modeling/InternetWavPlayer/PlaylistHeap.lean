import InternetWavPlayer.PlaylistBounds

/-!
# The heap blocks of the playlist

No block is ever freed twice or read after it was freed.  The live blocks are
those that `songlist` and `item_num` account for, in every run in which a
fetched array always finds `songlist` null: a second list, or an empty one,
drops the blocks of the first.
-/

namespace InternetWavPlayer.PlaylistHeap

open InternetWavPlayer.Run
open InternetWavPlayer.LcdEvent
open InternetWavPlayer.Songlist
open InternetWavPlayer.Webclient
open InternetWavPlayer.Pages
open InternetWavPlayer.LcdThread
open InternetWavPlayer.Dispatch
open InternetWavPlayer.Scene
open InternetWavPlayer.Effects
open InternetWavPlayer.Playlists
open InternetWavPlayer.Listing
open InternetWavPlayer.Fetching
open InternetWavPlayer.PlaylistBounds

/-! ## No block is misused -/

/-- A block is freed twice, or read after it was freed. -/
def Misuse : Fault → Prop
  | .doubleFree _ => True
  | .useAfterFree _ => True
  | _ => False

/-- A result is not the misuse of a block. -/
def Clean {α : Type} (result : Except Fault α) : Prop :=
  ∀ fault, result = .error fault → ¬ Misuse fault

theorem clean_ok {α : Type} (value : α) :
    Clean (.ok value) := by
  intro fault equal
  cases equal

theorem clean_error {α : Type} {fault : Fault} (other : ¬ Misuse fault) :
    Clean (.error fault : Except Fault α) := by
  intro actual equal
  cases equal
  exact other

theorem Clean.bind
    {α β : Type} {first : Except Fault α} {f : α → Except Fault β}
    (clean : Clean first)
    (later : ∀ value, first = .ok value → Clean (f value)) :
    Clean (first >>= f) := by
  intro fault equal
  rw [bind_eq_error_iff] at equal
  rcases equal with early | ⟨value, found, late⟩
  · exact clean fault early
  · exact later value found fault late

theorem songText_clean
    {playlist : Playlist} (sound : Sound playlist) (index : Int) :
    Clean (songText playlist index) := by
  by_cases inside : Inside playlist index
  · rw [songText_of_inside sound inside]
    exact clean_ok _
  · rw [songText_of_outside sound inside]
    exact clean_error (by simp [Misuse])

theorem fetch_clean
    (fetch : Fetch) (statics : Statics)
    (sound : Sound statics.playlist) :
    Clean ((fetchPlaylist fetch statics).map Prod.snd) := by
  have requested : Sound (statics.log (.action .fetch)).playlist := sound
  rw [fetchPlaylist_eq]
  split
  · exact clean_error (by simp [Misuse])
  split
  · exact clean_ok _
  · exact clean_ok _
  · rw [listSongs_eq _ _ _ requested (by simp)]
    split_ifs
    · exact clean_ok _
    · exact clean_error (by simp [Misuse])
    · exact clean_error (by simp [Misuse])
    · exact clean_error (by simp [Misuse])
    · exact clean_error (by simp [Misuse])

theorem nextsong_clean
    {statics : Statics} (sound : Sound statics.playlist) :
    Clean (nextsong statics) := by
  rcases nextsong_cases sound with
    ⟨-, allocated, index, fault⟩ | ⟨-, after, ran, -⟩
  · rw [fault]
    exact clean_error (by simp [Misuse])
  · rw [ran]
    exact clean_ok _

theorem lastsong_clean
    {statics : Statics} (sound : Sound statics.playlist) :
    Clean (lastsong statics) := by
  rcases lastsong_cases sound with
    ⟨-, allocated, index, fault⟩ | ⟨-, after, ran, -⟩
  · rw [fault]
    exact clean_error (by simp [Misuse])
  · rw [ran]
    exact clean_ok _

theorem download_clean
    (env : Env) (name : List UInt8) (statics : Statics) :
    Clean (downloadSong env name statics) := by
  rw [downloadSong]
  split
  · exact clean_error (by simp [Misuse])
  · refine Clean.bind ?_ ?_
    · rw [webclientGetFile]
      split_ifs
      · exact clean_ok _
      · exact clean_error (by simp [Misuse])
      · exact clean_ok _
      · exact clean_ok _
      · exact clean_ok _
      · exact clean_ok _
    · rintro ⟨result, card⟩ -
      dsimp only
      split <;> exact clean_ok _

theorem enterMusic_clean
    (env : Env) (statics : Statics) (sound : Sound statics.playlist) :
    Clean (enterMusic env statics) := by
  refine Clean.bind (songText_clean sound _) ?_
  intro name read
  dsimp only
  split
  · exact clean_ok _
  · exact download_clean env name _

theorem release_clean
    (playlist : Playlist) (sound : Sound playlist) :
    Clean (releasePlaylist playlist) := by
  cases pointer : playlist.songlist with
  | none =>
      rw [releasePlaylist_of_null _ sound pointer]
      split
      · exact clean_ok _
      · exact clean_error (by simp [Misuse])
  | some array =>
      rw [releasePlaylist_of_saved _ sound pointer]
      exact clean_ok _

theorem show_clean
    {env : Env} {page : Nat} {event : IotbLcdEvent} (statics : Statics)
    (sound : Sound statics.playlist) :
    Clean (showStatics env page event statics) := by
  rw [showStatics.eq_def]
  split
  · exact fetch_clean env.fetch (statics.draw drawWebServer) sound
  · exact enterMusic_clean env
      (statics.draw (drawWavPlayer statics.volumeValue)) sound
  · exact clean_ok _
  · exact (release_clean (statics.draw drawFileSystem).playlist
      sound).bind fun _ _ => clean_ok _

theorem due_clean
    {env : Env} {page : Nat} {event : IotbLcdEvent} (statics : Statics)
    (sound : Sound statics.playlist) :
    Clean (dueStatics env page event statics) := by
  rw [dueStatics.eq_def]
  split
  · exact nextsong_clean sound
  · exact lastsong_clean sound
  · exact clean_ok _
  · rw [playStop]
    dsimp only
    split
    · exact clean_ok _
    · have logged : Sound (statics.log (.action .playStop)).playlist :=
        sound
      exact (songText_clean logged _).bind fun _ _ => clean_ok _
  · exact clean_ok _
  · exact clean_ok _
  · exact clean_ok _
  · exact clean_ok _
  · exact clean_ok _

/-- No step frees a block twice or reads one after it was freed. -/
theorem step_clean
    {input : Input} {scene : View} (lists : ListInvariant scene) :
    Clean (viewStep input scene) := by
  intro fault failed
  rw [step_error_iff] at failed
  cases failed with
  | boot pc shows =>
      exact show_clean (scene.statics.log _) lists.sound fault shows
  | switch pc branch shows =>
      exact show_clean _ (entering_sound input.env lists.sound _) fault
        shows
  | due pc due serves =>
      exact due_clean (scene.statics.log _) lists.sound fault serves

/-! ## What the statics account for -/

/-- The blocks of `songlist` and of `songlist[0..item_num-1]`. -/
def accounted (playlist : Playlist) : Finset Nat :=
  match playlist.songlist with
  | none => ∅
  | some array =>
      insert array.block
        (((array.entries.take playlist.itemNum.toNat).filterMap id).map
          Song.block).toFinset

/-- The array and all of its names are the live blocks. -/
structure Tight (playlist : Playlist) : Prop where
  null : playlist.songlist = none → playlist.heap.live = ∅
  array : ∀ array, playlist.songlist = some array →
    playlist.heap.live = (blocks array).toFinset ∧
      playlist.itemNum = array.entries.length

theorem tight_initial : Tight .initial where
  null _ := rfl
  array := by simp [Playlist.initial]

theorem Tight.accounted_eq
    {playlist : Playlist} (tight : Tight playlist) :
    playlist.heap.live = accounted playlist := by
  rw [accounted]
  cases pointer : playlist.songlist with
  | none => exact tight.null pointer
  | some array =>
      obtain ⟨live, count⟩ := tight.array array pointer
      dsimp only
      rw [live, count, Int.toNat_natCast, List.take_length, blocks, songs,
        List.toFinset_cons]

theorem Tight.listed
    {array : List (Option CString)} (playlist : Playlist)
    {nameAllocated : Nat → Bool} (tight : Tight playlist)
    (null : playlist.songlist = none)
    (savable : Savable nameAllocated 0 (array.take 6)) :
    Tight (listedPlaylist array playlist) where
  null equal := by cases equal
  array saved pointer := by
    cases pointer
    have length := savedSongs_length (playlist.heap.next + 1) savable
    refine ⟨?_, ?_⟩
    · rw [blocks, listed_songs, savedSongs_blocks, length]
      ext number
      simp only [listedPlaylist, tight.null null, Finset.mem_union,
        Finset.mem_insert, Finset.mem_Ico, Finset.notMem_empty, or_false,
        List.mem_toFinset, List.mem_cons, List.mem_range'_1]
    · simp [listedPlaylist, cutItemNum_eq, length]

theorem Tight.release
    {playlist after : Playlist} (tight : Tight playlist)
    (sound : Sound playlist)
    (ran : releasePlaylist playlist = .ok after) : Tight after := by
  cases pointer : playlist.songlist with
  | none =>
      rw [releasePlaylist_of_null _ sound pointer] at ran
      split at ran
      · cases ran
        exact tight
      · cases ran
  | some array =>
      obtain ⟨live, count⟩ := tight.array array pointer
      have saved := sound.saved array pointer
      have nonempty : playlist.itemNum ≠ 0 := by
        have selected := saved.inside
        have selection := sound.selection
        omega
      rw [releasePlaylist_of_saved _ sound pointer] at ran
      cases ran
      refine ⟨fun _ => ?_, by simp⟩
      simp only [released, pointer, if_neg nonempty, live,
        Finset.sdiff_self]

theorem Tight.moves
    {action : Action} (before : Statics) {after : Statics}
    (tight : Tight before.playlist) (moves : Moves action before after) :
    Tight after.playlist := by
  obtain ⟨songlistNum, panel, rfl⟩ := moves.change
  exact ⟨tight.null, tight.array⟩

/-! ## Fetches that find no list -/

/-- A request that gets an array finds `songlist` null. -/
def FindsNull (fetch : Fetch) (playlist : Playlist) : Prop :=
  ¬ Redirected fetch → fetchedArray fetch ≠ none →
    playlist.songlist = none

/-- Every request of a step finds no list where it gets an array. -/
def StepFindsNull (input : Input) (scene : View) : Prop :=
  match scene.pc with
  | .start => FindsNull input.env.fetch scene.statics.playlist
  | .dispatch event => served event scene.page = .switch 1 →
      FindsNull input.env.fetch scene.statics.playlist
  | _ => True

theorem Tight.showPage1
    {env : Env} {event : IotbLcdEvent} (statics : Statics)
    {after : Statics}
    (tight : Tight statics.playlist) (sound : Sound statics.playlist)
    (finds : FindsNull env.fetch statics.playlist)
    (ran : showStatics env 1 event statics = .ok after) :
    Tight after.playlist := by
  have requested : Sound ((statics.draw drawWebServer).log
      (.action .fetch)).playlist := sound
  rw [showStatics_one, fetchPlaylist_eq] at ran
  split at ran
  · cases ran
  rename_i direct
  split at ran
  · cases ran
    exact tight
  · rename_i fetched
    cases ran
    have null := finds direct (by simp [fetched])
    refine ⟨tight.null, fun array pointer => ?_⟩
    have found : statics.playlist.songlist = some array := pointer
    rw [null] at found
    cases found
  · rename_i name rest fetched
    have null := finds direct (by simp [fetched])
    rw [listSongs_eq _ _ _ requested (by simp)] at ran
    split_ifs at ran with allocated savable selected
    cases ran
    exact Tight.listed statics.playlist tight null savable

/-- What holds of the heap in a run of such steps. -/
structure HeapInvariant (scene : View) : Prop where
  lists : ListInvariant scene
  tight : Tight scene.statics.playlist

theorem heapInvariant_preserved
    (input : Input) (scene next : View) (heap : HeapInvariant scene)
    (finds : StepFindsNull input scene)
    (stepped : viewStep input scene = .ok next) :
    HeapInvariant next := by
  have lists := heap.lists
  have tight := heap.tight
  refine ⟨listInvariant_preserved input scene next lists stepped, ?_⟩
  cases move_of_step stepped with
  | boot pc shows =>
      rw [StepFindsNull, pc] at finds
      exact Tight.showPage1 (scene.statics.log _) tight lists.sound finds
        shows
  | @switch event target shown pc branch shows =>
      obtain ⟨range, -, -⟩ := served_switch lists.coherent.range branch
      have before := entering_sound input.env lists.sound
        (.handler target .staticContent .enter)
      have same : ((scene.left input.env).log
          (.handler target .staticContent .enter)).playlist =
            scene.statics.playlist := by
        rw [log_playlist, left_playlist]
      rcases range with rfl | rfl | rfl
      · rw [StepFindsNull, pc] at finds
        exact Tight.showPage1 _ (by rw [same]; exact tight) before
          (by rw [same]; exact finds branch) shows
      · obtain ⟨unchanged, -⟩ :=
          Entered.playlist (enterMusic_entered shows)
        have equal : shown.playlist = scene.statics.playlist :=
          unchanged.trans same
        simp only [equal]
        exact tight
      · obtain ⟨playlist, panel, ran, rfl⟩ := showSdcard_changes shows
        exact Tight.release (by rw [same]; exact tight) before ran
  | @due done pc due serves =>
      rcases dueStatics_playlist (by exact lists.sound) serves with
        same | ⟨page, action, moves⟩
      · have equal : done.playlist = scene.statics.playlist := same
        simp only [equal]
        exact tight
      · exact Tight.moves (scene.statics.log _) tight moves
  | poll pc got => exact tight
  | timeout pc empty => exact tight
  | leave pc branch => exact tight
  | ignore pc branch => exact tight
  | wait pc notDue => exact tight
  | tick pc =>
      rw [View.tick]
      split <;> exact tight

/-! ## Runs of the thread -/

/-- No run frees a block twice or reads one after it was freed. -/
theorem blocks_never_misused (card : Card) (inputs : List Input) :
    Throughout step
      (fun input lcd => ∀ fault, step input lcd = .error fault →
        ¬ Misuse fault)
      inputs (.initial card) := by
  have initial := threadInvariant_initial card
  have seen : ∀ input lcd, ThreadInvariant lcd →
      ((∀ fault, step input lcd = .error fault → ¬ Misuse fault) ↔
        Clean (viewStep input (view lcd))) := by
    intro input lcd thread
    have commutes := step_simulates.commutes input lcd thread
    simp only [Clean, ← commutes, map_eq_error_iff]
  rw [step_simulates.throughout_iff
    (fun input scene => Clean (viewStep input scene)) seen initial]
  exact throughout_of_invariant listInvariant_preserved
    (fun _ _ lists => step_clean lists) (listInvariant_initial card)

/--
In a run whose requests find no list where they get an array, the live blocks
at every top of the loop are those accounted for; no block is misused.
-/
theorem heap_accounted
    (card : Card) (inputs : List Input)
    (finds : Throughout step
      (fun input lcd => StepFindsNull input (view lcd))
      inputs (.initial card)) :
    (∀ lcd, run step inputs (.initial card) = .ok lcd → lcd.pc = .top →
      lcd.statics.playlist.heap.live = accounted lcd.statics.playlist) ∧
    Throughout step
      (fun input lcd => ∀ fault, step input lcd = .error fault →
        ¬ Misuse fault)
      inputs (.initial card) := by
  refine ⟨?_, blocks_never_misused card inputs⟩
  intro lcd ran _
  have viewFinds := (step_simulates.throughout_iff
    StepFindsNull (fun _ _ _ => Iff.rfl)
    (threadInvariant_initial card)).mp finds
  have heap : HeapInvariant (view lcd) :=
    Throughout.invariant heapInvariant_preserved
      ⟨listInvariant_initial card, tight_initial⟩ viewFinds (run_view ran)
  exact heap.tight.accounted_eq

/-- Start-up with a list of one song. -/
def listedInputs : List Input :=
  [⟨⟨0#32, .empty⟩, online [some songName]⟩]

theorem heap_accounted_listed :
    ∃ lcd, run step listedInputs (.initial fun _ => none) = .ok lcd ∧
      lcd.statics.playlist.heap.live =
        accounted lcd.statics.playlist := by
  obtain ⟨lcd, ran⟩ : ∃ lcd,
      run step listedInputs (.initial fun _ => none) = .ok lcd :=
    ⟨_, rfl⟩
  have top : lcd.pc = .top := by
    cases ran
    rfl
  refine ⟨lcd, ran, (heap_accounted _ listedInputs ?_).1 lcd ran top⟩
  refine ⟨?_, fun _ _ => True.intro⟩
  intro _ _
  rfl

/--
A list at start-up, the music page, and back to page 1 by a click of KEY2,
where the list is fetched again.
-/
def fetchAgainInputs : List Input :=
  [⟨⟨0#32, .empty⟩, online [some songName]⟩,
    ⟨PostedSet.single ⟨.key0, .keyClick⟩ .musicPlay key0Click_processed,
      offline⟩,
    ⟨⟨0#32, .empty⟩, online [some songName]⟩,
    ⟨⟨0#32, .empty⟩, offline⟩,
    ⟨⟨0#32, .empty⟩, offline⟩,
    ⟨PostedSet.single ⟨.key2, .keyClick⟩ .key2Click key2Click_processed,
      offline⟩,
    ⟨⟨0#32, .empty⟩, online [some songName]⟩,
    ⟨⟨0#32, .empty⟩, offline⟩,
    ⟨⟨0#32, .empty⟩, offline⟩]

theorem fetchAgain_leaks :
    (run step fetchAgainInputs (.initial fun _ => some [])).toOption.map
        (fun lcd => (lcd.pc, lcd.statics.playlist.heap.live,
          accounted lcd.statics.playlist)) =
      some (.top, {0, 1, 2, 3}, {2, 3}) := by
  decide +kernel

end InternetWavPlayer.PlaylistHeap
