import Mathlib.Data.List.DropRight
import InternetWavPlayer.PlaylistBounds

/-!
# Songs cached on the card

The cache test of the music page is that the file opens.  A file which a
download created holds what arrived and could be written, so the song that is
played is the one that was sent exactly when every download that got as far as
creating its file was saved whole, and none was of another song whose name
opens the same file.
-/

namespace InternetWavPlayer.SongCache

open InternetWavPlayer.Run
open InternetWavPlayer.Drain
open InternetWavPlayer.LcdEvent
open InternetWavPlayer.Songlist
open InternetWavPlayer.Webclient
open InternetWavPlayer.Pages
open InternetWavPlayer.LcdThread
open InternetWavPlayer.Dispatch
open InternetWavPlayer.Scene
open InternetWavPlayer.Effects
open InternetWavPlayer.PlaylistBounds

/-! ## One download -/

/-- A download is answered with status 200 and can create its file. -/
structure Created (download : Download) : Prop where
  session : download.sessionCreated = true
  status : download.get.status = 200
  opened : download.fileOpened = true

/--
The network hands the complete body to the read loop: no read comes back empty
while bytes are missing.  Without a known length the read after the last byte
has to come back empty.
-/
def Arrives (session : Session) (body : List UInt8) : Prop :=
  if session.contentLength < 0 then
    Delivers webclientSource webclientResponseBufsz body session
  else
    session.contentLength = body.length ∧
      DeliversUpTo webclientSource webclientResponseBufsz body session

/-- Every write stores its whole piece. -/
def WritesWhole (download : Download) : Prop :=
  ∀ index piece, (downloadPieces download.session)[index]? = some piece →
    piece.length ≤ download.room index

/-- A created file gets the complete body. -/
def SavedWhole (download : Download) : Prop :=
  if download.bufferAllocated then
    Arrives download.session download.body ∧ WritesWhole download
  else download.body = []

/-- The file that the download of a song creates opens under a name. -/
def Opens (download : Download) (song name : List UInt8) : Prop :=
  name = song ∨ download.aliases name = true

/-- What `webclient_get_file` returns and leaves on the card. -/
inductive Saved (download : Download) (filename : List UInt8)
    (card : Card) : Int → Card → Prop where
  | refused {result : Int} (failure : result ≠ 0)
      (refused : ¬ Created download) :
      Saved download filename card result card
  | emptied {result : Int} (failure : result ≠ 0)
      (created : Created download)
      (noMemory : download.bufferAllocated = false) :
      Saved download filename card result
        (card.store filename download.aliases [])
  | written (created : Created download)
      (allocated : download.bufferAllocated = true) :
      Saved download filename card 0
        (card.store filename download.aliases download.written)

theorem webclientGetFile_saved
    {download : Download} {filename : List UInt8} {card after : Card}
    {result : Int}
    (ran : webclientGetFile download filename card = .ok (result, after)) :
    Saved download filename card result after := by
  rw [webclientGetFile] at ran
  split at ran
  · rename_i noSession
    cases ran
    exact .refused (by decide) fun created => by
      simp [created.session] at noSession
  split at ran
  · cases ran
  split at ran
  · rename_i otherStatus
    cases ran
    exact .refused (by decide) fun created => otherStatus created.status
  split at ran
  · rename_i notOpened
    cases ran
    exact .refused (by decide) fun created => by
      simp [created.opened] at notOpened
  · rename_i session _ status opened
    have created : Created download :=
      ⟨by simpa using session, by simpa using status,
        by simpa using opened⟩
    split at ran
    · rename_i noMemory
      cases ran
      exact .emptied (by decide) created noMemory
    · rename_i allocated
      cases ran
      exact .written created (by simpa using allocated)

/-- The loops write all that arrives. -/
theorem pieces_flatten_of_arrives
    {session : Session} {body : List UInt8}
    (arrives : Arrives session body) :
    (downloadPieces session).flatten = body := by
  have enough : webclientSource.measure session <
      webclientSource.fuel session :=
    Nat.lt_succ_self _
  rw [Arrives] at arrives
  rw [downloadPieces]
  split at arrives
  · rename_i unknown
    rw [if_pos unknown]
    exact drain_flatten_of_delivers webclientSource arrives enough
  · rename_i known
    rw [if_neg known]
    exact drainUpTo_flatten_of_delivers webclientSource arrives.2
      (by rw [arrives.1]; simp) enough

/--
They write nothing else: a body of the announced length is only written if it
arrives.
-/
theorem arrives_of_pieces_flatten
    {session : Session} {body : List UInt8}
    (length : 0 ≤ session.contentLength →
      session.contentLength = body.length)
    (written : (downloadPieces session).flatten = body) :
    Arrives session body := by
  have enough : webclientSource.measure session <
      webclientSource.fuel session :=
    Nat.lt_succ_self _
  rw [downloadPieces] at written
  rw [Arrives]
  split at written
  · rename_i unknown
    rw [if_pos unknown]
    subst written
    exact delivers_of_drain webclientSource enough
  · rename_i known
    rw [if_neg known]
    have announced := length (Int.not_lt.mp known)
    exact ⟨announced, deliversUpTo_of_drainUpTo webclientSource enough
      (by rw [announced]; simp) written⟩

/-- Cutting pieces makes them no longer, and leaves the length of whole ones. -/
theorem cut_length (room : Nat → Nat) (pieces : List (List UInt8)) :
    (pieces.mapIdx fun index piece =>
        piece.take (room index)).flatten.length ≤ pieces.flatten.length ∧
      ((pieces.mapIdx fun index piece =>
          piece.take (room index)).flatten.length = pieces.flatten.length →
        ∀ index piece, pieces[index]? = some piece →
          piece.length ≤ room index) := by
  induction pieces generalizing room with
  | nil => simp
  | cons piece rest induction =>
      obtain ⟨shorter, whole⟩ := induction fun index => room (index + 1)
      have cut : (piece.take (room 0)).length ≤ piece.length :=
        List.length_take_le' _ _
      simp only [List.mapIdx_cons, List.flatten_cons, List.length_append]
      refine ⟨Nat.add_le_add cut shorter, fun same index found at_index => ?_⟩
      cases index with
      | zero =>
          cases at_index
          rw [List.length_take] at same cut
          omega
      | succ index => exact whole (by omega) index found at_index

/-- Writes that store their pieces leave all that arrives. -/
theorem WritesWhole.written {download : Download}
    (writes : WritesWhole download) :
    download.written = (downloadPieces download.session).flatten := by
  rw [Download.written]
  congr 1
  refine List.ext_getElem? fun index => ?_
  rw [List.getElem?_mapIdx]
  cases found : (downloadPieces download.session)[index]? with
  | none => rfl
  | some piece =>
      exact congrArg some (List.take_of_length_le (writes index piece found))

/-- A file that was created and saved whole holds the body. -/
theorem SavedWhole.content
    {download : Download} {filename : List UInt8} {card after : Card}
    {result : Int} (whole : SavedWhole download)
    (created : Created download)
    (saved : Saved download filename card result after) :
    after filename = some download.body := by
  rw [SavedWhole] at whole
  cases saved with
  | refused failure refused => exact absurd created refused
  | emptied failure _ noMemory =>
      simp only [noMemory, Bool.false_eq_true, ↓reduceIte] at whole
      rw [Card.store_self, whole]
  | written _ allocated =>
      rw [if_pos allocated] at whole
      rw [Card.store_self, whole.2.written,
        pieces_flatten_of_arrives whole.1]

/-- It holds the body in no other case. -/
theorem savedWhole_of_content
    {download : Download} {filename : List UInt8} {card after : Card}
    {result : Int}
    (length : 0 ≤ download.session.contentLength →
      download.session.contentLength = download.body.length)
    (arriving : (downloadPieces download.session).flatten <+: download.body)
    (created : Created download)
    (saved : Saved download filename card result after)
    (content : after filename = some download.body) :
    SavedWhole download := by
  rw [SavedWhole]
  cases saved with
  | refused failure refused => exact absurd created refused
  | emptied failure _ noMemory =>
      rw [Card.store_self, Option.some_inj] at content
      simp [noMemory, content]
  | written _ allocated =>
      rw [Card.store_self, Option.some_inj] at content
      rw [if_pos allocated]
      obtain ⟨shorter, whole⟩ := cut_length download.room
        (downloadPieces download.session)
      rw [← Download.written, content] at shorter whole
      have same := shorter.antisymm arriving.length_le
      exact ⟨arrives_of_pieces_flatten length
        (arriving.eq_of_length same.symm), whole same⟩

/-- A created file holds the body exactly when it was saved whole. -/
theorem content_iff_savedWhole
    {download : Download} {filename : List UInt8} {card after : Card}
    {result : Int}
    (length : 0 ≤ download.session.contentLength →
      download.session.contentLength = download.body.length)
    (arriving : (downloadPieces download.session).flatten <+: download.body)
    (created : Created download)
    (saved : Saved download filename card result after) :
    after filename = some download.body ↔ SavedWhole download := by
  constructor
  · exact savedWhole_of_content length arriving created saved
  · intro whole
    exact whole.content created saved

/-! ## What is played -/

/--
Whenever the song is played on entering page 2, the file holds the body of an
answer received before.
-/
def PlaysWhole (name : List UInt8) (trace : List Observation) : Prop :=
  ∀ newer content older,
    trace = newer ++ .action (.startPlayback name content) :: older →
    ∃ body, content = some body ∧ .answered name body ∈ older

theorem playsWhole_nil (name : List UInt8) : PlaysWhole name [] := by
  intro newer content older split
  simp at split

theorem PlaysWhole.cons
    {name : List UInt8} {entry : Observation} {older : List Observation}
    (plays : PlaysWhole name older)
    (starts : ∀ content, entry = .action (.startPlayback name content) →
      ∃ body, content = some body ∧ .answered name body ∈ older) :
    PlaysWhole name (entry :: older) := by
  intro newer content rest split
  cases newer with
  | nil =>
      obtain ⟨same, rfl⟩ := List.cons.inj split
      exact starts content same
  | cons first others =>
      obtain ⟨-, later⟩ := List.cons.inj split
      exact plays others content rest later

theorem PlaysWhole.append
    {name : List UInt8} {entries older : List Observation}
    (plays : PlaysWhole name older)
    (starts : ∀ entry ∈ entries, ∀ content,
      entry ≠ .action (.startPlayback name content)) :
    PlaysWhole name (entries ++ older) := by
  induction entries with
  | nil => exact plays
  | cons entry rest induction =>
      rw [List.forall_mem_cons] at starts
      exact (induction starts.2).cons fun content same =>
        absurd same (starts.1 content)

/-- What holds of the card and the trace between two steps. -/
structure CacheInvariant (name : List UInt8) (card : Card)
    (trace : List Observation) : Prop where
  plays : PlaysWhole name trace
  held : ∀ content, card name = some content →
    .answered name content ∈ trace

/-- An entry that starts no song on entering page 2. -/
def Startless (entry : Observation) : Prop :=
  ∀ name content, entry ≠ .action (.startPlayback name content)

theorem startless_of_plain {entry : Observation} (plain : Plain entry) :
    Startless entry := by
  rintro name content rfl
  exact plain

theorem requestEntries_startless
    {download : Download} {song : List UInt8} {entry : Observation}
    (member : entry ∈ requestEntries download song) :
    Startless entry := by
  rintro name content rfl
  rw [requestEntries] at member
  split at member <;> simp at member

/-- Entries that start no song keep the invariant. -/
theorem CacheInvariant.grow
    {name : List UInt8} {card : Card} {trace : List Observation}
    (entries : List Observation) (cache : CacheInvariant name card trace)
    (startless : ∀ entry ∈ entries, Startless entry) :
    CacheInvariant name card (entries ++ trace) where
  plays := cache.plays.append fun entry member =>
    startless entry member name
  held content stored :=
    List.mem_append_right entries (cache.held content stored)

/-- Playing a file that opens keeps the invariant. -/
theorem CacheInvariant.start
    {name song : List UInt8} {card : Card} {trace : List Observation}
    (cache : CacheInvariant name card trace)
    (present : (card song).isSome) :
    CacheInvariant name card (startEntries card song ++ trace) := by
  have started : CacheInvariant name card
      (.action (.startPlayback song (card song)) :: trace) := by
    constructor
    · refine cache.plays.cons fun content same => ?_
      simp only [Observation.action.injEq,
        Action.startPlayback.injEq] at same
      obtain ⟨rfl, rfl⟩ := same
      obtain ⟨body, stored⟩ := Option.isSome_iff_exists.mp present
      exact ⟨body, stored, cache.held body stored⟩
    · intro content stored
      exact List.mem_cons_of_mem _ (cache.held content stored)
  refine started.grow [.player (.wavplayerPlay song)] ?_
  simp [Startless]

theorem answered_mem
    {download : Download} (created : Created download)
    (song : List UInt8) (trace : List Observation) :
    .answered song download.body ∈ requestEntries download song ++ trace := by
  rw [requestEntries, if_pos ⟨created.session, created.status⟩]
  simp

/-- A name that does not open the created file opens what it opened before. -/
theorem Saved.elsewhere
    {download : Download} {song name : List UInt8} {card after : Card}
    {result : Int} (saved : Saved download song card result after)
    (other : ¬ Opens download song name) : after name = card name := by
  cases saved with
  | refused failure refused => rfl
  | emptied failure created noMemory => exact if_neg other
  | written created allocated => exact if_neg other

/-- A download keeps the invariant if it saves the song whole. -/
theorem CacheInvariant.download
    {name song : List UInt8} {download : Download} {card after : Card}
    {trace : List Observation} {result : Int}
    (cache : CacheInvariant name card trace)
    (saved : Saved download song card result after)
    (whole : Created download → Opens download song name →
      song = name ∧ SavedWhole download) :
    CacheInvariant name after
      (requestEntries download song ++ trace) := by
  have requested := cache.grow (requestEntries download song)
    fun entry => requestEntries_startless
  refine ⟨requested.plays, ?_⟩
  intro content stored
  by_cases created : Created download
  · by_cases opens : Opens download song name
    · obtain ⟨rfl, saves⟩ := whole created opens
      rw [saves.content created saved, Option.some_inj] at stored
      subst stored
      exact answered_mem created song trace
    · rw [saved.elsewhere opens] at stored
      exact requested.held content stored
  · cases saved with
    | refused failure refused => exact requested.held content stored
    | emptied failure made noMemory => exact absurd made created
    | written made allocated => exact absurd made created

/-! ## Along a run -/

/--
Where page 2 is entered and the download creates the file that the song's name
opens, the download is of this song and saves it whole.
-/
def DownloadsWhole (name : List UInt8) (env : Env) (scene : View) : Prop :=
  ∀ event song, scene.pc = .dispatch event →
    served event scene.page = .switch 2 →
    songText scene.statics.playlist scene.statics.playlist.songlistNum =
      .ok song →
    openSucceeds env scene.statics.card song = false →
    Created env.download → Opens env.download song name →
    song = name ∧ SavedWhole env.download

/-- Entering page 2 keeps the invariant. -/
theorem CacheInvariant.entered
    {name : List UInt8} {env : Env} {before after : Statics}
    (cache : CacheInvariant name before.card before.trace)
    (entered : Entered env before after)
    (whole : ∀ song,
      songText before.playlist before.playlist.songlistNum = .ok song →
      openSucceeds env before.card song = false →
      Created env.download → Opens env.download song name →
      song = name ∧ SavedWhole env.download) :
    CacheInvariant name after.card after.trace := by
  cases entered with
  | cached read opens =>
      rw [openSucceeds, Bool.and_eq_true] at opens
      exact cache.start opens.2
  | @played song card panel read missing downloaded =>
      have saved := webclientGetFile_saved downloaded
      have present : (card song).isSome := by
        cases saved with
        | refused failure refused => exact absurd rfl failure
        | emptied failure created noMemory => exact absurd rfl failure
        | written created allocated => simp
      have requested := cache.download saved (whole song read missing)
      have started := requested.start present
      rw [← List.append_assoc] at started
      exact started
  | failed read missing downloaded failure =>
      exact cache.download (webclientGetFile_saved downloaded)
        (whole _ read missing)

theorem left_card (env : Env) (scene : View) :
    (scene.left env).card = scene.statics.card := by
  rw [View.left, exitStatics.eq_def]
  split <;> rfl

theorem CacheInvariant.call
    {name : List UInt8} {card : Card} {trace : List Observation}
    (cache : CacheInvariant name card trace)
    (page : Nat) (content : ContentType) (event : IotbLcdEvent) :
    CacheInvariant name card (.handler page content event :: trace) := by
  refine cache.grow [.handler page content event] ?_
  intro entry member name started same
  rw [List.mem_singleton.mp member] at same
  cases same

/-- Leaving a page writes no file and starts no song. -/
theorem CacheInvariant.left
    {name : List UInt8} (env : Env) (scene : View) (target : Nat)
    (cache : CacheInvariant name scene.statics.card scene.statics.trace) :
    CacheInvariant name (scene.left env).card
      ((scene.left env).log
        (.handler target .staticContent .enter)).trace := by
  have exiting := cache.call scene.page .contentNone .exit
  obtain ⟨entries, grown, plain⟩ := exitStatics_logs env scene.page
    (scene.statics.log (.handler scene.page .contentNone .exit))
  have left := exiting.grow entries fun entry member =>
    startless_of_plain (plain entry member)
  rw [left_card, Statics.log, View.left, grown]
  exact left.call target .staticContent .enter

theorem Browses.cache
    {name : List UInt8} {before after : Statics}
    (browses : Browses before after)
    (cache : CacheInvariant name before.card before.trace) :
    CacheInvariant name after.card after.trace := by
  obtain ⟨playlist, panel, entries, rfl, browsing⟩ := browses
  exact cache.grow entries fun entry member =>
    startless_of_plain (browsing entry member).plain

/-- A due page writes no file and starts no song on entering page 2. -/
theorem due_cache
    {name : List UInt8} {env : Env} {page : Nat} {event : IotbLcdEvent}
    {before after : Statics}
    (ran : dueStatics env page event before = .ok after)
    (cache : CacheInvariant name before.card before.trace) :
    CacheInvariant name after.card after.trace := by
  have card : after.card = before.card := by
    by_cases music : page = 2
    · subst music
      cases dueStatics_music ran <;> rfl
    · obtain ⟨_, _, _, rfl, -⟩ := dueStatics_browses music ran
      rfl
  obtain ⟨entries, grown, plain⟩ := dueStatics_logs ran
  rw [card, grown]
  exact cache.grow entries fun entry member =>
    startless_of_plain (plain entry member)

/-- A step that saves the song whole where it downloads it. -/
theorem cacheInvariant_preserved
    {name : List UInt8} {input : Input} {scene next : View}
    (cache : CacheInvariant name scene.statics.card scene.statics.trace)
    (whole : DownloadsWhole name input.env scene)
    (stepped : viewStep input scene = .ok next) :
    CacheInvariant name next.statics.card next.statics.trace := by
  cases move_of_step stepped with
  | boot pc shows =>
      have called := cache.call 1 .staticContent .none
      exact Browses.cache (showStatics_browses (by simp) shows) called
  | @switch event target shown pc branch shows =>
      have left := cache.left input.env scene target
      by_cases music : target = 2
      · subst music
        have same : (scene.left input.env).playlist =
            scene.statics.playlist :=
          left_playlist input.env scene
        refine CacheInvariant.entered left (enterMusic_entered shows) ?_
        intro song read missing
        refine whole event song pc branch ?_ ?_
        · rw [← same]
          exact read
        · rw [← left_card input.env scene]
          exact missing
      · exact Browses.cache
          (showStatics_browses (fun both => music both.1) shows) left
  | @due done pc due serves =>
      have called := cache.call scene.page .dynamicContent scene.event
      exact due_cache serves called
  | poll pc got => exact cache
  | timeout pc empty => exact cache
  | leave pc branch => exact cache
  | ignore pc branch => exact cache
  | wait pc notDue => exact cache
  | tick pc =>
      rw [View.tick]
      split <;> exact cache

/-! ## Runs of the thread -/

/--
From a card without the song's file, in a run whose downloads into that file
are of the song and save it whole, every playback on entering page 2 is of the
complete body of an answer for that song.
-/
theorem plays_whole
    (card : Card) (name : List UInt8) (absent : card name = none)
    (inputs : List Input) (lcd : Lcd)
    (whole : Throughout step
      (fun input lcd => DownloadsWhole name input.env (view lcd))
      inputs (.initial card))
    (ran : run step inputs (.initial card) = .ok lcd) :
    PlaysWhole name lcd.statics.trace := by
  have initial : CacheInvariant name card [] :=
    ⟨playsWhole_nil name, by simp [absent]⟩
  have preserved : ∀ (input : Input) (lcd next : Lcd),
      ThreadInvariant lcd ∧
        CacheInvariant name lcd.statics.card lcd.statics.trace →
      DownloadsWhole name input.env (view lcd) →
      step input lcd = .ok next →
      ThreadInvariant next ∧
        CacheInvariant name next.statics.card next.statics.trace := by
    rintro input lcd next ⟨thread, cache⟩ whole stepped
    exact ⟨threadInvariant_preserved input lcd next thread stepped,
      cacheInvariant_preserved cache whole
        (step_simulates.viewed thread stepped)⟩
  have invariant := Throughout.invariant preserved
    ⟨threadInvariant_initial card, initial⟩ whole ran
  exact invariant.2.plays

/-! ## Samples -/

/-- A session for a body of four bytes of which these arrive. -/
def fourBytes (wire : List Arrival) : Session where
  socketOpen := true
  chunkSz := 0
  chunkOffset := 0
  contentLength := 4
  contentRemainder := 4
  wire := wire

/-- A name as the file system compares it, for names of ASCII characters. -/
def foldName (name : List UInt8) : List UInt8 :=
  (name.map fun character =>
    if 97 ≤ character ∧ character ≤ 122 then character - 32 else character)
    |>.rdropWhile fun character => character == 46 || character == 32

/-- The song is sent with status 200, and these parts of it arrive. -/
def sending (wire : List Arrival) : Env :=
  { online [] with
    downloadUrlAllocated := true
    download :=
      { sessionCreated := true
        get := ⟨200, false⟩
        fileOpened := true
        aliases := (foldName · == foldName songName.text)
        bufferAllocated := true
        room := fun _ => 4096
        session := fourBytes wire
        body := [82, 73, 70, 70] } }

/-- A list at start-up, one click of KEY0, and a download of the song. -/
def downloadInputs (wire : List Arrival) : List Input :=
  [⟨⟨0#32, .empty⟩, online [some songName]⟩,
    ⟨PostedSet.single ⟨.key0, .keyClick⟩ .musicPlay key0Click_processed,
      offline⟩,
    ⟨⟨0#32, .empty⟩, sending wire⟩]

/-- The trace of that run when the file gets this content. -/
def downloadTrace (content : List UInt8) : List Observation :=
  [.player (.wavplayerPlay songName.text),
    .action (.startPlayback songName.text (some content)),
    .answered songName.text [82, 73, 70, 70],
    .requested songName.text,
    .handler 2 .staticContent .enter,
    .player .wavplayerStop,
    .handler 1 .contentNone .exit,
    .listed 1,
    .action .fetch,
    .handler 1 .staticContent .none]

theorem arrives_fourBytes :
    Arrives (fourBytes [.bytes [82, 73], .bytes [70, 70]])
      [82, 73, 70, 70] := by
  rw [Arrives, if_neg (by decide)]
  refine ⟨rfl, ?_⟩
  have piece : DeliversUpTo webclientSource webclientResponseBufsz
      ([82, 73, 70, 70] ++ [])
      (fourBytes [.bytes [82, 73], .bytes [70, 70]]) :=
    .piece (by decide) (by decide) .done
  exact piece

theorem writes_fourBytes :
    WritesWhole
      (sending [.bytes [82, 73], .bytes [70, 70]]).download := by
  intro index piece found
  have member := List.mem_of_getElem? found
  have short : ∀ piece ∈ downloadPieces
      (fourBytes [.bytes [82, 73], .bytes [70, 70]]), piece.length ≤ 4096 := by
    decide
  exact short piece member

theorem plays_whole_sent :
    ∃ lcd, run step (downloadInputs [.bytes [82, 73], .bytes [70, 70]])
        (.initial fun _ => none) = .ok lcd ∧
      lcd.statics.trace = downloadTrace [82, 73, 70, 70] ∧
      PlaysWhole songName.text lcd.statics.trace := by
  have played : (run step
      (downloadInputs [.bytes [82, 73], .bytes [70, 70]])
        (.initial fun _ => none)).toOption.map (·.statics.trace) =
      some (downloadTrace [82, 73, 70, 70]) := by
    decide +kernel
  obtain ⟨lcd, ran, trace⟩ := toOption_map_eq_some_iff.mp played
  have whole : Throughout step
      (fun input lcd =>
        DownloadsWhole songName.text input.env (view lcd))
      (downloadInputs [.bytes [82, 73], .bytes [70, 70]])
      (.initial fun _ => none) := by
    refine ⟨?_, ?_⟩
    · intro event song pc
      cases pc
    intro listed stepped
    cases stepped
    refine ⟨?_, ?_⟩
    · intro event song pc
      cases pc
    intro polled stepped
    cases stepped
    refine ⟨?_, fun _ _ => True.intro⟩
    intro event song pc branch read missing created opens
    cases read
    exact ⟨rfl, arrives_fourBytes, writes_fourBytes⟩
  exact ⟨lcd, ran, trace,
    plays_whole _ songName.text rfl _ lcd whole ran⟩

/-- The connection is lost after two bytes, and they are played. -/
theorem lostConnection_plays_part :
    ∃ lcd, run step (downloadInputs [.bytes [82, 73], .lost])
        (.initial fun _ => none) = .ok lcd ∧
      lcd.statics.trace = downloadTrace [82, 73] ∧
      ¬ PlaysWhole songName.text lcd.statics.trace := by
  have played : (run step (downloadInputs [.bytes [82, 73], .lost])
        (.initial fun _ => none)).toOption.map (·.statics.trace) =
      some (downloadTrace [82, 73]) := by
    decide +kernel
  obtain ⟨lcd, ran, trace⟩ := toOption_map_eq_some_iff.mp played
  refine ⟨lcd, ran, trace, fun plays => ?_⟩
  obtain ⟨body, stored, answered⟩ :=
    plays [.player (.wavplayerPlay songName.text)] (some [82, 73]) _ trace
  cases stored
  simp at answered

end InternetWavPlayer.SongCache
