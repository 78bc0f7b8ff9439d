import InternetWavPlayer.LcdEvent
import InternetWavPlayer.ResponseText

/-!
# The three page handlers

A handler gets the page's `iotb_lcd_menu_t` and works on the statics of the
LCD thread.  The only field of the menu it writes is `current_event`, so it
returns the event it leaves there.

What the outside decides in one call is an `Env`: how the playlist request
goes, whether a file descriptor is free, how a download goes and what the card's
root directory lists.  A trace, newest entry first, records the handler calls,
the user actions they perform and the calls they make to the player; the panel
keeps their drawing calls.  That each of these calls returns, and what it leaves
on the screen, is said of the kept calls in `Screen`.
-/

namespace InternetWavPlayer.Pages

open InternetWavPlayer.LcdEvent
open InternetWavPlayer.Display
open InternetWavPlayer.Songlist
open InternetWavPlayer.Webclient
open InternetWavPlayer.ResponseText

/-- `iotb_lcd_content_type_t`. -/
inductive ContentType where
  | contentNone
  | staticContent
  | dynamicContent
deriving DecidableEq, Repr

/-- The functions of `iotb_lcd_handle_array`. -/
inductive Handle where
  | showHttpwebserver
  | showMusic
  | showSdcard
deriving DecidableEq, Repr

/-- `iotb_lcd_menu_t`. -/
structure Menu where
  menu : Nat
  refreshTime : Nat
  contentType : ContentType
  currentEvent : IotbLcdEvent
  lcdHandle : Option Handle
deriving DecidableEq, Repr

/-- The calls of the player's control functions. -/
inductive PlayerCall where
  | wavplayerPlay (uri : List UInt8)
  | wavplayerStop
  | wavplayerPause
  | wavplayerResume
  | wavplayerVolumeSet (volume : Int)
deriving DecidableEq, Repr

/-- What a page handler does on behalf of the user. -/
inductive Action where
  | fetch
  | nextsong
  | lastsong
  | volumeDown
  | volumeUp
  | playStop
  | pauseResume
  /-- Playback started on entering the music page, and the file's content. -/
  | startPlayback (name : List UInt8) (content : Option (List UInt8))
deriving DecidableEq, Repr

/-- One entry of the trace. -/
inductive Observation where
  | handler (menu : Nat) (content : ContentType) (event : IotbLcdEvent)
  | action (action : Action)
  | player (call : PlayerCall)
  /-- `webserver_data_parse` saved and drew a list of so many songs. -/
  | listed (songs : Nat)
  /-- A download of a song was started. -/
  | requested (name : List UInt8)
  /-- A download of a song was answered with status 200 and this body. -/
  | answered (name body : List UInt8)
deriving DecidableEq, Repr

/-- The statics that the handlers share. -/
structure Statics where
  playlist : Playlist
  iotbMusicIsPlay : Bool
  iotbMusicIsResume : Bool
  volumeValue : Int
  panel : Panel
  card : Card
  trace : List Observation

/-- The statics at start-up, with a given card. -/
def Statics.initial (card : Card) : Statics where
  playlist := .initial
  iotbMusicIsPlay := false
  iotbMusicIsResume := false
  volumeValue := 55
  panel := ⟨white, black, []⟩
  card := card
  trace := []

/-- The part of a parsed document that the playlist code looks at. -/
structure CJson where
  /-- The `valuestring` of every child of `"internet_radio"`, if present. -/
  internetRadio : Option (List (Option CString))

/-- How one playlist request goes. -/
structure Fetch where
  urlAllocated : Bool
  sessionCreated : Bool
  get : GetOutcome
  bufferAllocated : Bool
  /-- The session once the response header has been read. -/
  session : Session
  /-- `cJSON_Parse`, which rejects a text by returning null. -/
  cjsonParse : List UInt8 → Option CJson
  /-- `rt_malloc` for the array `songlist` succeeds. -/
  songlistAllocated : Bool
  /-- `rt_malloc` for the name with a given index succeeds. -/
  nameAllocated : Nat → Bool

/-- One directory entry: `d_name` and `d_type`. -/
structure Dirent where
  dName : List UInt8
  dType : Nat
deriving DecidableEq, Repr

/-- What the outside decides while one handler runs. -/
structure Env where
  fetch : Fetch
  /-- `open` finds a free file descriptor. -/
  descriptorFree : Bool
  /-- `malloc` for `download_url` succeeds. -/
  downloadUrlAllocated : Bool
  download : Download
  /-- The entries that `readdir` returns, if `opendir` succeeds. -/
  directory : Option (List Dirent)

/-- Apply drawing calls. -/
def Statics.draw (statics : Statics) (drawing : Panel → Panel) : Statics :=
  { statics with panel := drawing statics.panel }

/-- Add an entry to the trace. -/
def Statics.log (statics : Statics) (entry : Observation) : Statics :=
  { statics with trace := entry :: statics.trace }

/-- Twenty blanks, the width of the panel. -/
def blankRow : Text := .literal "                    "

/-- Draw one row of the song list over a blank row, in given colours. -/
def drawRow (back fore : Color) (row : Int) (statics : Statics) :
    Except Fault Statics := do
  let statics := statics.draw fun panel =>
    lcdShowString 0 (52 + 31 * row) 24 blankRow
      (lcdSetColor back fore panel)
  let text ← songText statics.playlist row
  return statics.draw (lcdShowString 8 (52 + 31 * row) 24 (.bytes text))

/-! ## `webserver_data_parse` -/

/-- The drawing of one listed name, before it is saved. -/
def drawListed (cnt : Nat) (text : List UInt8) (panel : Panel) : Panel :=
  lcdDrawLine 8 (52 + 31 * cnt - 4) (240 - 8) (52 + 31 * cnt - 4)
    (lcdSetColor white gray240
      (lcdShowString 8 (52 + 31 * cnt) 24 (.bytes text)
        (lcdSetColor white black panel)))

/--
The loop of `webserver_data_parse`: draw a name, save its first 30 bytes in a
block of its own, and print it from there.
-/
def saveSongs (nameAllocated : Nat → Bool) :
    Nat → List (Option CString) → Statics → Except Fault Statics
  | _, [], statics => .ok statics
  | _, none :: _, _ => .error .nullPointer
  | cnt, some name :: rest, statics =>
      if nameAllocated cnt then do
        let (block, heap) := rtMalloc statics.playlist.heap
        let playlist ← songlistWrite { statics.playlist with heap := heap }
          cnt (some ⟨block, rtMemcpy name 30⟩)
        let _ ← songText playlist cnt
        saveSongs nameAllocated (cnt + 1) rest
          { statics with
            playlist := playlist
            panel := drawListed cnt name.text statics.panel }
      else do
        let _ ← songlistWrite statics.playlist cnt none
        -- `rt_memcpy` to the null pointer
        throw .nullPointer

/-- `item_num` after the count was cut to 6. -/
def cutItemNum (arraySize : Nat) : Int :=
  if (arraySize : Int) > 6 then 6 else arraySize

/-- The allocation of the array `songlist`. -/
def allocateSonglist (fetch : Fetch) (playlist : Playlist) : Playlist :=
  if fetch.songlistAllocated then
    let (block, heap) := rtMalloc playlist.heap
    { playlist with
      songlist := some ⟨block, List.replicate playlist.itemNum.toNat none⟩
      heap := heap }
  else { playlist with songlist := none }

/-- The branch of `webserver_data_parse` for a list with elements. -/
def listSongs (fetch : Fetch) (array : List (Option CString))
    (statics : Statics) : Except Fault Statics := do
  let itemNum := statics.playlist.itemNum
  let statics :=
    { statics with
      playlist := allocateSonglist fetch statics.playlist
      panel :=
        lcdShowString 48 80 24 (.literal "            ") statics.panel }
  let statics ← saveSongs fetch.nameAllocated 0
    (array.take itemNum.toNat) statics
  let statics := statics.draw
    (lcdDrawLine 8 (52 + 31 * itemNum - 4) (240 - 8)
      (52 + 31 * itemNum - 4))
  let statics ← drawRow blue white statics.playlist.songlistNum statics
  return statics.log (.listed itemNum.toNat)

/-- The message of `webserver_data_parse` for an empty list. -/
def drawNoData (panel : Panel) : Panel :=
  lcdShowString 78 80 24 (.literal "No Data")
    (lcdShowString 48 80 24 (.literal "            ")
      (lcdSetColor white black panel))

/-- `item_num = cJSON_GetArraySize(array)`, cut to 6. -/
def Statics.countSongs (statics : Statics) (arraySize : Nat) : Statics :=
  { statics with
    playlist := { statics.playlist with itemNum := cutItemNum arraySize } }

/-- `webserver_data_parse`. -/
def webserverDataParse (fetch : Fetch) (data : List UInt8)
    (statics : Statics) : Except Fault Statics :=
  match fetch.cjsonParse data with
  | none => .ok statics
  | some root =>
      match root.internetRadio with
      | none => .ok statics
      | some array =>
          let statics := statics.countSongs array.length
          if statics.playlist.itemNum > 0 then
            listSongs fetch array statics
          else .ok (statics.draw drawNoData)

/-! ## Page 1 -/

/-- The drawing of page 1 with static content. -/
def drawWebServer (panel : Panel) : Panel :=
  lcdShowString 48 80 24 (.literal "Searching...")
    (lcdShowString 40 8 32 (.literal "Web Server")
      (lcdSetColor white black (lcdClear white panel)))

/--
The request branch of page 1.  The flag tells whether its end is reached; the
failures jump to `__exit`.
-/
def fetchPlaylist (fetch : Fetch) (statics : Statics) :
    Except Fault (Bool × Statics) :=
  let statics := statics.log (.action .fetch)
  if fetch.urlAllocated = false then .ok (false, statics)
  else if fetch.sessionCreated = false then .ok (false, statics)
  else if fetch.get.sessionClosed then
    -- read for status 200, closed a second time at `__exit` otherwise
    .error .closedSession
  else if fetch.get.status ≠ 200 then .ok (false, statics)
  else if fetch.bufferAllocated = false then .ok (false, statics)
  else do
    let buffer := readResponse webclientSource
      fetch.session.contentLength fetch.session
    let statics ← webserverDataParse fetch buffer statics
    return (true, statics)

/-- Set the selection. -/
def Statics.setSonglistNum (statics : Statics) (value : Int) : Statics :=
  { statics with
    playlist := { statics.playlist with songlistNum := value } }

/-- `if (songlist_num <= item_num - 1)`: move on, and redraw the old row. -/
def nextsongStep (statics : Statics) : Except Fault Statics :=
  if statics.playlist.songlistNum ≤ statics.playlist.itemNum - 1 then
    let statics := statics.setSonglistNum (statics.playlist.songlistNum + 1)
    drawRow white black (statics.playlist.songlistNum - 1) statics
  else .ok statics

/-- `if (songlist_num > item_num - 1)`: back to row 0. -/
def nextsongWrap (statics : Statics) : Except Fault Statics :=
  if statics.playlist.songlistNum > statics.playlist.itemNum - 1 then
    let statics := statics.setSonglistNum 0
    drawRow white black (statics.playlist.itemNum - 1) statics
  else .ok statics

/-- Print and highlight the selected song. -/
def showSelected (statics : Statics) : Except Fault Statics := do
  let _ ← songText statics.playlist statics.playlist.songlistNum
  drawRow blue white statics.playlist.songlistNum statics

/-- The branch of page 1 for `IOTB_LCD_EVENT_NEXTSONG`. -/
def nextsong (statics : Statics) : Except Fault Statics := do
  let statics ← nextsongStep (statics.log (.action .nextsong))
  let statics ← nextsongWrap statics
  showSelected statics

/-- `if (songlist_num >= 0)`: move back, and redraw the old row. -/
def lastsongStep (statics : Statics) : Except Fault Statics :=
  if statics.playlist.songlistNum ≥ 0 then
    let statics := statics.setSonglistNum (statics.playlist.songlistNum - 1)
    drawRow white black (statics.playlist.songlistNum + 1) statics
  else .ok statics

/-- `if (songlist_num < 0)`: on to the last row. -/
def lastsongWrap (statics : Statics) : Except Fault Statics :=
  if statics.playlist.songlistNum < 0 then
    let statics := statics.setSonglistNum (statics.playlist.itemNum - 1)
    drawRow white black statics.playlist.songlistNum statics
  else .ok statics

/-- The branch of page 1 for `IOTB_LCD_EVENT_LASTSONG`. -/
def lastsong (statics : Statics) : Except Fault Statics := do
  let statics ← lastsongStep (statics.log (.action .lastsong))
  let statics ← lastsongWrap statics
  showSelected statics

/-- What page 1 does for the event left after the request branch. -/
def httpwebserverEvent (event : IotbLcdEvent) (statics : Statics) :
    Except Fault (IotbLcdEvent × Statics) :=
  match event with
  | .nextsong => do return (.none, ← nextsong statics)
  | .lastsong => do return (.none, ← lastsong statics)
  | .exit => .ok (.exit, statics.log (.player .wavplayerStop))
  | event => .ok (event, statics)

/-- `iotb_lcd_show_httpwebserver`. -/
def iotbLcdShowHttpwebserver (env : Env) (lcdMenu : Menu)
    (statics : Statics) : Except Fault (IotbLcdEvent × Statics) := do
  let statics :=
    if lcdMenu.contentType = .staticContent then
      statics.draw drawWebServer
    else statics
  if lcdMenu.currentEvent = .enter ∨
      lcdMenu.contentType = .staticContent then
    let (reached, statics) ← fetchPlaylist env.fetch statics
    if reached then httpwebserverEvent lcdMenu.currentEvent statics
    else return (lcdMenu.currentEvent, statics)
  else httpwebserverEvent lcdMenu.currentEvent statics

/-! ## Page 2 -/

/-- The bar of page 2: 19 marks, gray from the current volume on. -/
def drawVolumeBar (volumeValue : Int) (panel : Panel) : Panel :=
  (List.range 19).foldl
    (fun panel (i : Nat) =>
      lcdShowString (64 + 8 * i) 214 16 (.literal ">")
        (if (i : Int) = volumeValue / 5 then
          lcdSetColor white gray240 panel
        else panel))
    (lcdSetColor white red panel)

/-- The drawing of page 2 with static content. -/
def drawWavPlayer (volumeValue : Int) (panel : Panel) : Panel :=
  drawVolumeBar volumeValue
    (lcdShowString 8 214 16 (.literal "Volume:")
      (lcdShowNum 216 214 volumeValue 16
        (lcdSetColor white black
          (lcdShowString 40 8 32 (.literal "Wav Player")
            (lcdSetColor white black (lcdClear white panel))))))

/-- The album images and the song names they belong to. -/
def albums : List (String × String) :=
  [("fangjian.wav", "gImage_fangjian2"),
    ("gaobaiqiqiu.wav", "gImage_gaobaiqiqiu2"),
    ("jiandanai.wav", "gImage_jiandanai2"),
    ("mingmingjiu.wav", "gImage_mingmingjiu2"),
    ("xiatiandefeng.wav", "gImage_xiatiandefeng2"),
    ("yuebanxiaoyequ.wav", "gImage_yuebanxiaoyequ2")]

/-- The album image of page 2, or the crossed frame without one. -/
def drawAlbum (name : List UInt8) (panel : Panel) : Panel :=
  match albums.find? fun album => album.1.toUTF8.toList = name with
  | some album => lcdShowImage 41 52 158 118 album.2 panel
  | none =>
      lcdShowString 72 99 24 (.literal "No Album")
        (lcdDrawLine 199 52 45 159
          (lcdDrawLine 41 52 199 159
            (lcdDrawRectangle 41 52 199 159
              (lcdSetColor white gray240 panel))))

/-- `(240 - strlen(name) * 12) / 2` in the unsigned arithmetic of `size_t`. -/
def titleX (length : Nat) : Int :=
  ((240 - (length : Int) * 12) % 4294967296) / 2

/-- The title of page 2. -/
def drawTitle (name : List UInt8) (panel : Panel) : Panel :=
  lcdShowString (titleX name.length) 179 24 (.bytes name) panel

/-- `open(name, O_RDONLY) >= 0`. -/
def openSucceeds (env : Env) (card : Card) (name : List UInt8) : Bool :=
  env.descriptorFree && (card name).isSome

/-- `wavplayer_play` on entering page 2, and the flag that goes with it. -/
def startPlayback (name : List UInt8) (statics : Statics) : Statics :=
  { (statics.log (.action (.startPlayback name (statics.card name)))).log
      (.player (.wavplayerPlay name)) with
    iotbMusicIsPlay := true }

/-- A request for a song, and its answer with status 200. -/
def logRequest (download : Download) (name : List UInt8)
    (statics : Statics) : Statics :=
  let statics := statics.log (.requested name)
  if download.sessionCreated ∧ download.get.status = 200 then
    statics.log (.answered name download.body)
  else statics

/-- The branch of page 2 which downloads a song that cannot be opened. -/
def downloadSong (env : Env) (name : List UInt8) (statics : Statics) :
    Except Fault Statics :=
  let statics := statics.draw fun panel =>
    lcdShowString 60 179 24 (.literal "Caching...")
      (lcdSetColor white black panel)
  if env.downloadUrlAllocated = false then
    -- `sprintf` through the null pointer
    .error .nullPointer
  else do
    let (result, card) ← webclientGetFile env.download name statics.card
    let statics :=
      { logRequest env.download name statics with card := card }
    if result = 0 then
      return (startPlayback name statics).draw fun panel =>
        drawTitle name
          (lcdShowString 0 179 24 blankRow (lcdSetColor white black panel))
    else
      return statics

/-- The branch of page 2 for `IOTB_LCD_EVENT_ENTER`. -/
def enterMusic (env : Env) (statics : Statics) :
    Except Fault Statics := do
  let name ← songText statics.playlist statics.playlist.songlistNum
  let statics := statics.draw fun panel =>
    drawAlbum name (lcdSetColor white black panel)
  if openSucceeds env statics.card name then
    return (startPlayback name statics).draw fun panel =>
      drawTitle name (lcdSetColor white black panel)
  else downloadSong env name statics

/-- The branch of page 2 for `IOTB_LCD_EVENT_WKUP_DOUBLE_CLICK`. -/
def playStop (statics : Statics) : Except Fault Statics := do
  let statics := statics.log (.action .playStop)
  if statics.iotbMusicIsPlay then
    return { statics.log (.player .wavplayerStop) with
      iotbMusicIsPlay := false }
  else
    let name ← songText statics.playlist statics.playlist.songlistNum
    return { statics.log (.player (.wavplayerPlay name)) with
      iotbMusicIsPlay := true }

/-- The branch of page 2 for `IOTB_LCD_EVENT_KEY1_DOUBLE_CLICK`. -/
def pauseResume (statics : Statics) : Statics :=
  let statics := statics.log (.action .pauseResume)
  if statics.iotbMusicIsResume then
    { statics.log (.player .wavplayerPause) with
      iotbMusicIsResume := false }
  else
    { statics.log (.player .wavplayerResume) with
      iotbMusicIsResume := true }

/-- The branch of page 2 for `IOTB_LCD_EVENT_KEY1_CLICK`. -/
def volumeDown (statics : Statics) : Statics :=
  if statics.volumeValue > 10 then
    let volumeValue := statics.volumeValue - 5
    { ((statics.log (.action .volumeDown)).log
        (.player (.wavplayerVolumeSet volumeValue))).draw fun panel =>
          lcdShowNum 216 214 volumeValue 16
            (lcdSetColor white black
              (lcdShowString (224 - 8 * (100 / 5 - volumeValue / 5)) 214
                16 (.literal ">") (lcdSetColor white gray240 panel))) with
      volumeValue := volumeValue }
  else statics

/-- The branch of page 2 for `IOTB_LCD_EVENT_WKUP_CLICK`. -/
def volumeUp (statics : Statics) : Statics :=
  if statics.volumeValue < 95 then
    let volumeValue := statics.volumeValue + 5
    { ((statics.log (.action .volumeUp)).log
        (.player (.wavplayerVolumeSet volumeValue))).draw fun panel =>
          lcdShowNum 216 214 volumeValue 16
            (lcdSetColor white black
              (lcdShowString (64 + 8 * (volumeValue / 5 - 1)) 214
                16 (.literal ">") (lcdSetColor white red panel))) with
      volumeValue := volumeValue }
  else statics

/-- The last branch of page 2: leaving it stops the music. -/
def exitMusic (statics : Statics) : Statics :=
  { statics.log (.player .wavplayerStop) with iotbMusicIsPlay := false }

/--
`iotb_lcd_show_music`.  A branch other than the last leaves
`IOTB_LCD_EVENT_NONE`, so at most one of the branches runs.
-/
def iotbLcdShowMusic (env : Env) (lcdMenu : Menu) (statics : Statics) :
    Except Fault (IotbLcdEvent × Statics) :=
  let statics :=
    if lcdMenu.contentType = .staticContent then
      statics.draw (drawWavPlayer statics.volumeValue)
    else statics
  match lcdMenu.currentEvent with
  | .enter => do return (.none, ← enterMusic env statics)
  | .wkupDoubleClick => do return (.none, ← playStop statics)
  | .key1DoubleClick => .ok (.none, pauseResume statics)
  | .key1Click => .ok (.none, volumeDown statics)
  | .wkupClick => .ok (.none, volumeUp statics)
  | .exit => .ok (.exit, exitMusic statics)
  | event => .ok (event, statics)

/-! ## Page 3 -/

/-- The loop of page 3 which frees the saved names from `cnt` on. -/
def freeSongs : Nat → Nat → Playlist → Except Fault Playlist
  | 0, _, playlist => .ok playlist
  | remaining + 1, cnt, playlist => do
      match ← songlistRead playlist cnt with
      | some song => do
          let heap ← rtFree song.block playlist.heap
          let playlist ←
            songlistWrite { playlist with heap := heap } cnt none
          freeSongs remaining (cnt + 1) playlist
      | none => freeSongs remaining (cnt + 1) playlist

/-- The release of the playlist on entering page 3. -/
def releasePlaylist (playlist : Playlist) : Except Fault Playlist := do
  let playlist ← freeSongs playlist.itemNum.toNat 0 playlist
  match playlist.songlist with
  | some array => do
      let heap ← rtFree array.block playlist.heap
      return { playlist with songlist := none, heap := heap }
  | none => return playlist

/-- `rt_snprintf(buf, 16, "%-16s", d_name)`. -/
def snprintf16 (name : List UInt8) : List UInt8 :=
  (name ++ List.replicate (16 - name.length) 32).take 15

/-- The type column of a directory line. -/
def drawType (dType : Nat) (line : Int) (panel : Panel) : Panel :=
  if dType = 1 then
    lcdShowString (240 - 48) (52 + 31 * line) 24 (.literal "file")
      (lcdSetColor white gray240 panel)
  else if dType = 2 then
    lcdShowString (240 - 48) (52 + 31 * line) 24 (.literal "dir ")
      (lcdSetColor white gray240 panel)
  else panel

/-- One pass of the `readdir` loop. -/
def drawEntry (entry : Dirent) (line : Int) (panel : Panel) : Panel :=
  lcdDrawLine 8 (52 + 31 * (line + 1) - 4) (240 - 8)
      (52 + 31 * (line + 1) - 4)
    (lcdDrawLine 8 (52 + 31 * line - 4) (240 - 8) (52 + 31 * line - 4)
      (lcdSetColor white gray240
        (drawType entry.dType line
          (lcdShowString 8 (52 + 31 * line) 24
            (.bytes (snprintf16 entry.dName))
            (lcdSetColor white black panel)))))

/-- The `readdir` loop, which ends after six lines. -/
def drawEntries : Nat → List Dirent → Panel → Panel
  | _, [], panel => panel
  | line, entry :: rest, panel =>
      if line + 1 > 5 then drawEntry entry line panel
      else drawEntries (line + 1) rest (drawEntry entry line panel)

/-- The part of page 3 that every call runs. -/
def drawDirectory (directory : Option (List Dirent)) (panel : Panel) :
    Panel :=
  match directory with
  | none =>
      lcdShowString 24 (52 + 27 * 3) 24 (.literal " before power-on")
        (lcdShowString 24 (52 + 27 * 2) 24 (.literal " Insert SD card")
          panel)
  | some entries => drawEntries 0 entries panel

/-- The title of page 3. -/
def drawFileSystem (panel : Panel) : Panel :=
  lcdShowString 32 8 32 (.literal "File System")
    (lcdSetColor white black (lcdClear white panel))

/-- `iotb_lcd_show_sdcard`. -/
def iotbLcdShowSdcard (env : Env) (lcdMenu : Menu) (statics : Statics) :
    Except Fault (IotbLcdEvent × Statics) := do
  let statics ←
    if lcdMenu.contentType = .staticContent then do
      let statics := statics.draw drawFileSystem
      let playlist ← releasePlaylist statics.playlist
      pure { statics with playlist := playlist }
    else pure statics
  return (lcdMenu.currentEvent,
    statics.draw (drawDirectory env.directory))

/-- The call through `lcd_handle`. -/
def Handle.call (handle : Handle) (env : Env) (lcdMenu : Menu)
    (statics : Statics) : Except Fault (IotbLcdEvent × Statics) :=
  match handle with
  | .showHttpwebserver => iotbLcdShowHttpwebserver env lcdMenu statics
  | .showMusic => iotbLcdShowMusic env lcdMenu statics
  | .showSdcard => iotbLcdShowSdcard env lcdMenu statics

/-! ## Sample outsides -/

/-- A session whose connection is gone. -/
def closedSession : Session where
  socketOpen := false
  chunkSz := 0
  chunkOffset := 0
  contentLength := -1
  contentRemainder := 0
  wire := []

/-- No request leaves the board and no card is mounted. -/
def offline : Env where
  fetch :=
    { urlAllocated := false
      sessionCreated := false
      get := ⟨0, false⟩
      bufferAllocated := false
      session := closedSession
      cjsonParse := fun _ => none
      songlistAllocated := true
      nameAllocated := fun _ => true }
  descriptorFree := false
  downloadUrlAllocated := false
  download :=
    { sessionCreated := false
      get := ⟨0, false⟩
      fileOpened := false
      aliases := fun _ => false
      bufferAllocated := false
      room := fun _ => 0
      session := closedSession
      body := [] }
  directory := none

/-- The playlist server answers with a document that holds these names. -/
def online (names : List (Option CString)) : Env :=
  { offline with
    fetch :=
      { offline.fetch with
        urlAllocated := true
        sessionCreated := true
        get := ⟨200, false⟩
        bufferAllocated := true
        cjsonParse := fun _ => some ⟨some names⟩ }
    descriptorFree := true }

/-- The name of a song, `a.wav`. -/
def songName : CString :=
  .ofList [97, 46, 119, 97, 118] (solid_of_all rfl)

end InternetWavPlayer.Pages
