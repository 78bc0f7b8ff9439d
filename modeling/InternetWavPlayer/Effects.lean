import InternetWavPlayer.Scene

/-!
# What each handler changes

For every part of a handler, the fields of the statics it writes and the
entries it adds to the trace.  Later files read these equations instead of the
handlers themselves.
-/

namespace InternetWavPlayer.Effects

open InternetWavPlayer.Run
open InternetWavPlayer.LcdEvent
open InternetWavPlayer.Display
open InternetWavPlayer.Songlist
open InternetWavPlayer.Webclient
open InternetWavPlayer.Pages
open InternetWavPlayer.Dispatch

/-! ## Page 1 -/

/-- Drawing a row reads its text and changes the panel only. -/
theorem drawRow_ok
    {back fore : Color} {row : Int} {statics after : Statics}
    (drew : drawRow back fore row statics = .ok after) :
    ∃ text, songText statics.playlist row = .ok text ∧
      after = statics.draw fun panel =>
        lcdShowString 8 (52 + 31 * row) 24 (.bytes text)
          (lcdShowString 0 (52 + 31 * row) 24 blankRow
            (lcdSetColor back fore panel)) := by
  rw [drawRow, bind_eq_ok_iff] at drew
  obtain ⟨text, read, drew⟩ := drew
  cases drew
  exact ⟨text, read, rfl⟩

/-- Only the selection and the panel differ. -/
def SelectionOnly (before after : Statics) : Prop :=
  ∃ songlistNum panel,
    after =
      { before with
        playlist := { before.playlist with songlistNum := songlistNum }
        panel := panel }

theorem SelectionOnly.refl (statics : Statics) :
    SelectionOnly statics statics :=
  ⟨_, _, rfl⟩

theorem SelectionOnly.trans
    {first second third : Statics}
    (left : SelectionOnly first second)
    (right : SelectionOnly second third) :
    SelectionOnly first third := by
  obtain ⟨_, _, rfl⟩ := left
  obtain ⟨_, _, rfl⟩ := right
  exact ⟨_, _, rfl⟩

theorem drawRow_selectionOnly
    {back fore : Color} {row value : Int} {statics after : Statics}
    (drew : drawRow back fore row (statics.setSonglistNum value) =
      .ok after) :
    SelectionOnly statics after := by
  obtain ⟨text, -, rfl⟩ := drawRow_ok drew
  exact ⟨_, _, rfl⟩

theorem showSelected_selectionOnly
    {statics after : Statics} (drew : showSelected statics = .ok after) :
    SelectionOnly statics after := by
  rw [showSelected, bind_eq_ok_iff] at drew
  obtain ⟨-, -, drew⟩ := drew
  obtain ⟨text, -, rfl⟩ := drawRow_ok drew
  exact ⟨_, _, rfl⟩

/-- A redraw under a condition changes the selection only. -/
theorem redraw_selectionOnly
    {condition : Prop} [Decidable condition] {back fore : Color}
    {row value : Int} {statics after : Statics}
    (ran : (if condition then
        drawRow back fore row (statics.setSonglistNum value)
      else .ok statics) = .ok after) :
    SelectionOnly statics after := by
  split at ran
  · exact drawRow_selectionOnly ran
  · cases ran
    exact .refl _

/-- A move to the next song changes the selection. -/
theorem nextsong_changes
    {statics after : Statics} (ran : nextsong statics = .ok after) :
    SelectionOnly (statics.log (.action .nextsong)) after := by
  simp only [nextsong, bind_eq_ok_iff] at ran
  obtain ⟨stepped, step, wrapped, wrap, shown⟩ := ran
  have first :
      SelectionOnly (statics.log (.action .nextsong)) stepped :=
    redraw_selectionOnly step
  have second : SelectionOnly stepped wrapped := redraw_selectionOnly wrap
  exact (first.trans second).trans (showSelected_selectionOnly shown)

/-- A move to the last song changes the selection. -/
theorem lastsong_changes
    {statics after : Statics} (ran : lastsong statics = .ok after) :
    SelectionOnly (statics.log (.action .lastsong)) after := by
  simp only [lastsong, bind_eq_ok_iff] at ran
  obtain ⟨stepped, step, wrapped, wrap, shown⟩ := ran
  have first :
      SelectionOnly (statics.log (.action .lastsong)) stepped :=
    redraw_selectionOnly step
  have second : SelectionOnly stepped wrapped := redraw_selectionOnly wrap
  exact (first.trans second).trans (showSelected_selectionOnly shown)

/-- Saving songs changes the playlist and the panel only. -/
theorem saveSongs_changes
    {nameAllocated : Nat → Bool} {cnt : Nat}
    {names : List (Option CString)} {statics after : Statics}
    (ran : saveSongs nameAllocated cnt names statics = .ok after) :
    ∃ playlist panel,
      after = { statics with playlist := playlist, panel := panel } := by
  induction names generalizing cnt statics with
  | nil =>
      cases ran
      exact ⟨_, _, rfl⟩
  | cons name rest induction =>
      cases name with
      | none => cases ran
      | some name =>
          rw [saveSongs] at ran
          split at ran
          · simp only [bind_eq_ok_iff] at ran
            obtain ⟨playlist, -, text, -, ran⟩ := ran
            obtain ⟨_, _, rfl⟩ := induction ran
            exact ⟨_, _, rfl⟩
          · simp only [bind_eq_ok_iff] at ran
            obtain ⟨playlist, -, ran⟩ := ran
            cases ran

theorem listSongs_changes
    {fetch : Fetch} {array : List (Option CString)}
    {statics after : Statics}
    (ran : listSongs fetch array statics = .ok after) :
    ∃ playlist panel,
      after =
        { statics with
          playlist := playlist
          panel := panel
          trace := .listed statics.playlist.itemNum.toNat ::
            statics.trace } := by
  simp only [listSongs, bind_eq_ok_iff] at ran
  obtain ⟨saved, saves, drawn, drew, ran⟩ := ran
  obtain ⟨_, _, rfl⟩ := saveSongs_changes saves
  obtain ⟨text, -, rfl⟩ := drawRow_ok drew
  cases ran
  exact ⟨_, _, rfl⟩

theorem webserverDataParse_changes
    {fetch : Fetch} {data : List UInt8} {statics after : Statics}
    (ran : webserverDataParse fetch data statics = .ok after) :
    ∃ playlist panel listing,
      (listing = [] ∨ ∃ songs, listing = [.listed songs]) ∧
      after =
        { statics with
          playlist := playlist
          panel := panel
          trace := listing ++ statics.trace } := by
  simp only [webserverDataParse] at ran
  split at ran
  · cases ran
    exact ⟨_, _, [], Or.inl rfl, rfl⟩
  · split at ran
    · cases ran
      exact ⟨_, _, [], Or.inl rfl, rfl⟩
    · split at ran
      · obtain ⟨_, _, rfl⟩ := listSongs_changes ran
        exact ⟨_, _, [_], Or.inr ⟨_, rfl⟩, rfl⟩
      · cases ran
        exact ⟨_, _, [], Or.inl rfl, rfl⟩

theorem fetchPlaylist_changes
    {fetch : Fetch} {statics after : Statics} {reached : Bool}
    (ran : fetchPlaylist fetch statics = .ok (reached, after)) :
    ∃ playlist panel listing,
      (listing = [] ∨ ∃ songs, listing = [.listed songs]) ∧
      after =
        { statics with
          playlist := playlist
          panel := panel
          trace := listing ++ .action .fetch :: statics.trace } := by
  simp only [fetchPlaylist] at ran
  split_ifs at ran
  · cases ran
    exact ⟨_, _, [], Or.inl rfl, rfl⟩
  · cases ran
    exact ⟨_, _, [], Or.inl rfl, rfl⟩
  · cases ran
    exact ⟨_, _, [], Or.inl rfl, rfl⟩
  · cases ran
    exact ⟨_, _, [], Or.inl rfl, rfl⟩
  · rw [bind_eq_ok_iff] at ran
    obtain ⟨parsed, parses, ran⟩ := ran
    cases ran
    obtain ⟨_, _, listing, shape, rfl⟩ := webserverDataParse_changes parses
    exact ⟨_, _, listing, shape, rfl⟩

/-! ## Page 2 -/

/-- The entries for playback started on entering page 2. -/
def startEntries (card : Card) (name : List UInt8) : List Observation :=
  [.player (.wavplayerPlay name), .action (.startPlayback name (card name))]

/-- The entries for a download, answered with status 200 or not. -/
def requestEntries (download : Download) (name : List UInt8) :
    List Observation :=
  if download.sessionCreated ∧ download.get.status = 200 then
    [.answered name download.body, .requested name]
  else [.requested name]

/--
Entering page 2 plays a song that can be opened; otherwise it downloads the
song, and plays it if the download returned `RT_EOK`.
-/
inductive Entered (env : Env) (before : Statics) :
    Statics → Prop where
  | cached {name : List UInt8} {panel : Panel}
      (read : songText before.playlist before.playlist.songlistNum =
        .ok name)
      (opens : openSucceeds env before.card name = true) :
      Entered env before
        { before with
          iotbMusicIsPlay := true
          panel := panel
          trace := startEntries before.card name ++ before.trace }
  | played {name : List UInt8} {card : Card} {panel : Panel}
      (read : songText before.playlist before.playlist.songlistNum =
        .ok name)
      (missing : openSucceeds env before.card name = false)
      (downloaded : webclientGetFile env.download name before.card =
        .ok (0, card)) :
      Entered env before
        { before with
          iotbMusicIsPlay := true
          panel := panel
          card := card
          trace := startEntries card name ++
            requestEntries env.download name ++ before.trace }
  | failed {name : List UInt8} {card : Card} {panel : Panel}
      {result : Int}
      (read : songText before.playlist before.playlist.songlistNum =
        .ok name)
      (missing : openSucceeds env before.card name = false)
      (downloaded : webclientGetFile env.download name before.card =
        .ok (result, card)) (failure : result ≠ 0) :
      Entered env before
        { before with
          panel := panel
          card := card
          trace := requestEntries env.download name ++ before.trace }

theorem logRequest_eq
    (download : Download) (name : List UInt8) (statics : Statics) :
    logRequest download name statics =
      { statics with
        trace := requestEntries download name ++ statics.trace } := by
  rw [logRequest, requestEntries]
  split <;> rfl

theorem enterMusic_entered
    {env : Env} {statics after : Statics}
    (ran : enterMusic env statics = .ok after) :
    Entered env statics after := by
  simp only [enterMusic, bind_eq_ok_iff] at ran
  obtain ⟨name, read, ran⟩ := ran
  split at ran
  · rename_i opens
    cases ran
    exact .cached read opens
  · rename_i missing
    rw [Bool.not_eq_true] at missing
    simp only [downloadSong] at ran
    split at ran
    · cases ran
    · simp only [bind_eq_ok_iff] at ran
      obtain ⟨⟨result, card⟩, downloaded, ran⟩ := ran
      simp only [logRequest_eq] at ran
      split at ran
      · rename_i success
        cases ran
        subst success
        exact .played read missing downloaded
      · rename_i failure
        cases ran
        exact .failed read missing downloaded failure

/-- What the play and stop toggle does. -/
theorem playStop_ok
    {statics after : Statics} (ran : playStop statics = .ok after) :
    (statics.iotbMusicIsPlay = true ∧
      after =
        { statics with
          iotbMusicIsPlay := false
          trace := .player .wavplayerStop :: .action .playStop ::
            statics.trace }) ∨
    ∃ name, statics.iotbMusicIsPlay = false ∧
      songText statics.playlist statics.playlist.songlistNum = .ok name ∧
      after =
        { statics with
          iotbMusicIsPlay := true
          trace := .player (.wavplayerPlay name) :: .action .playStop ::
            statics.trace } := by
  simp only [playStop] at ran
  split at ran
  · rename_i playing
    cases ran
    exact Or.inl ⟨playing, rfl⟩
  · rename_i stopped
    simp only [bind_eq_ok_iff] at ran
    obtain ⟨name, read, ran⟩ := ran
    cases ran
    exact Or.inr ⟨name, by simpa [Statics.log] using stopped, read, rfl⟩

/-- What a due page 2 does for the event left in it. -/
inductive MusicMove (before : Statics) :
    IotbLcdEvent → Statics → Prop where
  | stop (playing : before.iotbMusicIsPlay = true) :
      MusicMove before .wkupDoubleClick
        { before with
          iotbMusicIsPlay := false
          trace := .player .wavplayerStop :: .action .playStop ::
            before.trace }
  | play {name : List UInt8} (stopped : before.iotbMusicIsPlay = false)
      (read : songText before.playlist before.playlist.songlistNum =
        .ok name) :
      MusicMove before .wkupDoubleClick
        { before with
          iotbMusicIsPlay := true
          trace := .player (.wavplayerPlay name) :: .action .playStop ::
            before.trace }
  | pause (resumed : before.iotbMusicIsResume = true) :
      MusicMove before .key1DoubleClick
        { before with
          iotbMusicIsResume := false
          trace := .player .wavplayerPause :: .action .pauseResume ::
            before.trace }
  | resume (paused : before.iotbMusicIsResume = false) :
      MusicMove before .key1DoubleClick
        { before with
          iotbMusicIsResume := true
          trace := .player .wavplayerResume :: .action .pauseResume ::
            before.trace }
  | volume {event : IotbLcdEvent} {action : Action} {value : Int}
      {panel : Panel}
      (click : event = .key1Click ∧ action = .volumeDown ∨
        event = .wkupClick ∧ action = .volumeUp) :
      MusicMove before event
        { before with
          volumeValue := value
          panel := panel
          trace := .player (.wavplayerVolumeSet value) ::
            .action action :: before.trace }
  | idle {event : IotbLcdEvent} (notPlayStop : event ≠ .wkupDoubleClick)
      (notPauseResume : event ≠ .key1DoubleClick) :
      MusicMove before event before

theorem dueStatics_music
    {env : Env} {event : IotbLcdEvent} {statics after : Statics}
    (ran : dueStatics env 2 event statics = .ok after) :
    MusicMove statics event after := by
  rw [dueStatics.eq_def] at ran
  split at ran
  · contradiction
  · contradiction
  · contradiction
  · rcases playStop_ok ran with ⟨playing, rfl⟩ | ⟨name, stopped, read, rfl⟩
    · exact .stop playing
    · exact .play stopped read
  · cases ran
    rw [pauseResume]
    split
    · rename_i resumed
      exact .pause resumed
    · rename_i paused
      exact .resume (Bool.eq_false_iff.mpr paused)
  · cases ran
    rw [volumeDown]
    split
    · exact .volume (Or.inl ⟨rfl, rfl⟩)
    · exact .idle (by simp) (by simp)
  · cases ran
    rw [volumeUp]
    split
    · exact .volume (Or.inr ⟨rfl, rfl⟩)
    · exact .idle (by simp) (by simp)
  · rename_i notPlayStop notPauseResume _ _
    cases ran
    exact .idle notPlayStop notPauseResume
  · contradiction

/-! ## Page 3 -/

/-- Entering page 3 changes the playlist and the panel only. -/
theorem showSdcard_changes
    {env : Env} {event : IotbLcdEvent} {statics after : Statics}
    (ran : showStatics env 3 event statics = .ok after) :
    ∃ playlist panel,
      releasePlaylist statics.playlist = .ok playlist ∧
      after = { statics with playlist := playlist, panel := panel } := by
  simp only [showStatics, bind_eq_ok_iff] at ran
  obtain ⟨playlist, released, ran⟩ := ran
  cases ran
  exact ⟨playlist, _, released, rfl⟩

/-! ## Entries between two handler calls -/

/-- The trace grew by entries of one kind. -/
def Logs (kind : Observation → Prop) (before after : Statics) : Prop :=
  ∃ entries, after.trace = entries ++ before.trace ∧
    ∀ entry ∈ entries, kind entry

/-- An entry made by a handler, not by the thread that calls it. -/
def Inner : Observation → Prop
  | .handler _ _ _ => False
  | _ => True

/--
An inner entry that does not belong to entering the music page.
-/
def Plain : Observation → Prop
  | .handler _ _ _ => False
  | .action (.startPlayback _ _) => False
  | .requested _ => False
  | .answered _ _ => False
  | _ => True

theorem Plain.inner {entry : Observation} (plain : Plain entry) :
    Inner entry := by
  cases entry <;> first | exact True.intro | exact plain

theorem Logs.mono
    {kind other : Observation → Prop} {before after : Statics}
    (logs : Logs kind before after)
    (weaker : ∀ entry, kind entry → other entry) :
    Logs other before after := by
  obtain ⟨entries, equal, all⟩ := logs
  exact ⟨entries, equal, fun entry member =>
    weaker entry (all entry member)⟩

theorem Logs.trans
    {kind : Observation → Prop} {first second third : Statics}
    (left : Logs kind first second) (right : Logs kind second third) :
    Logs kind first third := by
  obtain ⟨older, equal, olderKind⟩ := left
  obtain ⟨newer, same, newerKind⟩ := right
  refine ⟨newer ++ older, by rw [same, equal, List.append_assoc], ?_⟩
  intro entry member
  rcases List.mem_append.mp member with new | old
  · exact newerKind entry new
  · exact olderKind entry old

theorem logs_log
    {kind : Observation → Prop} (statics : Statics)
    {entry : Observation} (member : kind entry) :
    Logs kind statics (statics.log entry) :=
  ⟨[entry], rfl, by simpa using member⟩

theorem Logs.of_trace_eq
    {kind : Observation → Prop} {before after : Statics}
    (equal : after.trace = before.trace) :
    Logs kind before after :=
  ⟨[], equal, by simp⟩

theorem exitStatics_logs
    (env : Env) (page : Nat) (statics : Statics) :
    Logs Plain statics (exitStatics env page statics) := by
  rw [exitStatics.eq_def]
  split
  · exact ⟨[_], rfl, by simp [Plain]⟩
  · exact ⟨[_], rfl, by simp [Plain]⟩
  · exact .of_trace_eq rfl

theorem startEntries_inner
    {card : Card} {name : List UInt8} {entry : Observation}
    (member : entry ∈ startEntries card name) : Inner entry := by
  simp only [startEntries, List.mem_cons, List.not_mem_nil,
    or_false] at member
  rcases member with rfl | rfl <;> exact True.intro

theorem requestEntries_inner
    {download : Download} {name : List UInt8} {entry : Observation}
    (member : entry ∈ requestEntries download name) : Inner entry := by
  rw [requestEntries] at member
  split at member
  · simp only [List.mem_cons, List.not_mem_nil, or_false] at member
    rcases member with rfl | rfl <;> exact True.intro
  · rw [List.mem_singleton.mp member]
    exact True.intro

theorem Entered.logs
    {env : Env} {before after : Statics}
    (entered : Entered env before after) :
    Logs Inner before after := by
  cases entered with
  | cached read opens =>
      exact ⟨_, rfl, fun entry => startEntries_inner⟩
  | played read missing downloaded =>
      refine ⟨_, rfl, fun entry member => ?_⟩
      rcases List.mem_append.mp member with started | answered
      · exact startEntries_inner started
      · exact requestEntries_inner answered
  | failed read missing downloaded failure =>
      exact ⟨_, rfl, fun entry => requestEntries_inner⟩

/-- An entry for looking through the lists and the directory. -/
def Browsing : Observation → Prop
  | .action .fetch => True
  | .action .nextsong => True
  | .action .lastsong => True
  | .listed _ => True
  | _ => False

theorem Browsing.plain {entry : Observation} (browsing : Browsing entry) :
    Plain entry := by
  cases entry with
  | action action =>
      cases action <;> first | exact True.intro | exact browsing
  | listed songs => exact True.intro
  | _ => exact browsing.elim

/-- Only the playlist and the panel differ, and only browsing is logged. -/
def Browses (before after : Statics) : Prop :=
  ∃ playlist panel entries,
    after =
      { before with
        playlist := playlist
        panel := panel
        trace := entries ++ before.trace } ∧
    ∀ entry ∈ entries, Browsing entry

theorem Browses.logs
    {before after : Statics} (browses : Browses before after) :
    Logs Plain before after := by
  obtain ⟨playlist, panel, entries, rfl, browsing⟩ := browses
  exact ⟨entries, rfl, fun entry member => (browsing entry member).plain⟩

/-- Showing a page other than entering page 2 is browsing. -/
theorem showStatics_browses
    {env : Env} {page : Nat} {event : IotbLcdEvent}
    {statics after : Statics}
    (other : ¬ (page = 2 ∧ event = .enter))
    (ran : showStatics env page event statics = .ok after) :
    Browses statics after := by
  rw [showStatics.eq_def] at ran
  split at ran
  · rw [map_eq_ok_iff] at ran
    obtain ⟨⟨reached, fetched⟩, fetches, rfl⟩ := ran
    obtain ⟨playlist, panel, listing, shape, rfl⟩ :=
      fetchPlaylist_changes fetches
    refine ⟨playlist, panel, listing ++ [.action .fetch],
      by simp [Statics.draw], ?_⟩
    rcases shape with rfl | ⟨songs, rfl⟩
    · simp [Browsing]
    · simp [Browsing]
  · exact absurd ⟨rfl, rfl⟩ other
  · cases ran
    exact ⟨_, _, [], rfl, by simp⟩
  · rw [bind_eq_ok_iff] at ran
    obtain ⟨playlist, released, ran⟩ := ran
    cases ran
    exact ⟨_, _, [], rfl, by simp⟩

/-- So is a due page other than page 2. -/
theorem dueStatics_browses
    {env : Env} {page : Nat} {event : IotbLcdEvent}
    {statics after : Statics} (other : page ≠ 2)
    (ran : dueStatics env page event statics = .ok after) :
    Browses statics after := by
  rw [dueStatics.eq_def] at ran
  split at ran
  · obtain ⟨_, _, rfl⟩ := nextsong_changes ran
    exact ⟨_, _, [_], rfl, by simp [Browsing]⟩
  · obtain ⟨_, _, rfl⟩ := lastsong_changes ran
    exact ⟨_, _, [_], rfl, by simp [Browsing]⟩
  · cases ran
    exact ⟨_, _, [], rfl, by simp⟩
  · contradiction
  · contradiction
  · contradiction
  · contradiction
  · contradiction
  · cases ran
    exact ⟨_, _, [], rfl, by simp⟩

/-- Showing a page other than entering page 2 logs plain entries. -/
theorem showStatics_plain
    {env : Env} {page : Nat} {event : IotbLcdEvent}
    {statics after : Statics}
    (other : ¬ (page = 2 ∧ event = .enter))
    (ran : showStatics env page event statics = .ok after) :
    Logs Plain statics after :=
  (showStatics_browses other ran).logs

theorem showStatics_logs
    {env : Env} {page : Nat} {event : IotbLcdEvent}
    {statics after : Statics}
    (ran : showStatics env page event statics = .ok after) :
    Logs Inner statics after := by
  by_cases music : page = 2 ∧ event = .enter
  · obtain ⟨rfl, rfl⟩ := music
    rw [showStatics] at ran
    exact (enterMusic_entered ran).logs
  · exact (showStatics_plain music ran).mono fun _ => Plain.inner

theorem MusicMove.logs
    {event : IotbLcdEvent} {before after : Statics}
    (moves : MusicMove before event after) :
    Logs Plain before after := by
  cases moves with
  | stop playing => exact ⟨[_, _], rfl, by simp [Plain]⟩
  | play stopped read => exact ⟨[_, _], rfl, by simp [Plain]⟩
  | pause resumed => exact ⟨[_, _], rfl, by simp [Plain]⟩
  | resume paused => exact ⟨[_, _], rfl, by simp [Plain]⟩
  | volume click =>
      refine ⟨[_, _], rfl, ?_⟩
      rcases click with ⟨-, rfl⟩ | ⟨-, rfl⟩ <;> simp [Plain]
  | idle notPlayStop notPauseResume => exact .of_trace_eq rfl

theorem dueStatics_logs
    {env : Env} {page : Nat} {event : IotbLcdEvent}
    {statics after : Statics}
    (ran : dueStatics env page event statics = .ok after) :
    Logs Plain statics after := by
  by_cases music : page = 2
  · subst music
    exact (dueStatics_music ran).logs
  · exact (dueStatics_browses music ran).logs

end InternetWavPlayer.Effects
