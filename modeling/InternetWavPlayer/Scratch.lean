import InternetWavPlayer.Pages
import InternetWavPlayer.ResourceLedger

/-!
# The scratch resources of the page handlers

The handlers again, now with a ledger of what they acquire while they run:
file descriptors, directory streams, sessions of the HTTP client, and heap
blocks for an address or a buffer.  A session stands for everything that
`webclient_close` frees with it.  The blocks of the playlist are not scratch
and stay with the playlist.

A request is told in more detail than on the pages: following a relocation
closes the session of the caller inside `webclient_get`.
-/

namespace InternetWavPlayer.Scratch

open InternetWavPlayer.LcdEvent
open InternetWavPlayer.Display
open InternetWavPlayer.Songlist
open InternetWavPlayer.Webclient
open InternetWavPlayer.ResponseText
open InternetWavPlayer.Pages
open InternetWavPlayer.ResourceLedger

/-- The kinds of scratch resources. -/
inductive Kind where
  | descriptor
  | directory
  | session
  | block
deriving DecidableEq, Repr

/-- A computation that may fault, or use or release what is not live. -/
abbrev Outcome (α : Type) := Except (Failure Kind Fault) α

/-! ## The HTTP client -/

/-- How one `webclient_get` goes. -/
inductive Exchange where
  /-- Connecting or sending the request fails. -/
  | failed (rc : Int)
  /-- The answer has no header field `Location`, or reading it failed. -/
  | answered (respStatus : Int)
  /--
  The answer has a `Location`.  The rest is what happens if it is followed:
  whether there is memory for the address and for the new session, and the
  exchange with the new server.
  -/
  | located (respStatus : Int) (newUrlAllocated sessionCreated : Bool)
      (next : Exchange)
deriving DecidableEq, Repr

/-- `webclient_get`: its return value. -/
def webclientGet :
    Exchange → Resource Kind → Ledger Kind → Outcome (Int × Ledger Kind)
  | .failed rc, session, ledger => do
      let _ ← ledger.use session
      return (rc, ledger)
  | .answered respStatus, session, ledger => do
      let _ ← ledger.use session
      return (respStatus, ledger)
  | .located respStatus newUrlAllocated sessionCreated next, session,
      ledger => do
      let _ ← ledger.use session
      if respStatus = 302 ∨ respStatus = 301 then
        if newUrlAllocated then
          let (newUrl, ledger) := ledger.acquire .block
          -- close old client session
          let ledger ← ledger.release session
          if sessionCreated then
            let (session, ledger) := ledger.acquire .session
            let (rc, ledger) ← webclientGet next session ledger
            let ledger ← ledger.release newUrl
            return (rc, ledger)
          else return (-3, ledger)
        else return (-3, ledger)
      else return (respStatus, ledger)

/-- The request is answered by a relocation that is followed. -/
def Exchange.Relocates : Exchange → Prop
  | .located respStatus newUrlAllocated _ _ =>
      (respStatus = 302 ∨ respStatus = 301) ∧ newUrlAllocated = true
  | _ => False

instance : DecidablePred Exchange.Relocates
  | .failed _ => inferInstanceAs (Decidable False)
  | .answered _ => inferInstanceAs (Decidable False)
  | .located respStatus newUrlAllocated _ _ =>
      inferInstanceAs (Decidable
        ((respStatus = 302 ∨ respStatus = 301) ∧ newUrlAllocated = true))

/-- The return value of `webclient_get`. -/
def Exchange.status : Exchange → Int
  | .failed rc => rc
  | .answered respStatus => respStatus
  | .located respStatus newUrlAllocated sessionCreated next =>
      if respStatus = 302 ∨ respStatus = 301 then
        if newUrlAllocated ∧ sessionCreated then next.status else -3
      else respStatus

/-- What the pages see of a request. -/
def Exchange.outcome (exchange : Exchange) : GetOutcome where
  status := exchange.status
  sessionClosed := exchange.Relocates

/-- The end of `webclient_get_file`: close the file and the session. -/
def exitGetFile (fd session ptr : Option (Resource Kind))
    (ledger : Ledger Kind) : Outcome (Ledger Kind) := do
  let ledger ← ledger.releaseAny fd
  let ledger ← ledger.releaseAny session
  ledger.releaseAny ptr

/-- `webclient_get_file`: the return value and the card afterwards. -/
def webclientGetFile (exchange : Exchange) (download : Download)
    (filename : List UInt8) (card : Card) (ledger : Ledger Kind) :
    Outcome (Int × Card × Ledger Kind) := do
  if download.sessionCreated = false then
    return (-3, card, ← exitGetFile none none none ledger)
  let (session, ledger) := ledger.acquire .session
  let (respStatus, ledger) ← webclientGet exchange session ledger
  if respStatus ≠ 200 then
    return (-1, card, ← exitGetFile none (some session) none ledger)
  if download.fileOpened = false then
    return (-1, card, ← exitGetFile none (some session) none ledger)
  let (fd, ledger) := ledger.acquire .descriptor
  if download.bufferAllocated = false then
    return (-3, card.store filename download.aliases [],
      ← exitGetFile (some fd) (some session) none ledger)
  let (ptr, ledger) := ledger.acquire .block
  let _ ← ledger.use session
  return (0, card.store filename download.aliases download.written,
    ← exitGetFile (some fd) (some session) (some ptr) ledger)

/-! ## The handlers -/

/-- What the outside decides while a handler runs, with its requests. -/
structure Outside where
  env : Env
  fetchExchange : Exchange
  downloadExchange : Exchange

/-- The outside as the pages see it. -/
def Outside.seen (outside : Outside) : Env :=
  { outside.env with
    fetch :=
      { outside.env.fetch with get := outside.fetchExchange.outcome }
    download :=
      { outside.env.download with
        get := outside.downloadExchange.outcome } }

/-- `webserver_url`, `session` and `buffer` of page 1. -/
structure FetchLocals where
  webserverUrl : Option (Resource Kind)
  session : Option (Resource Kind)
  buffer : Option (Resource Kind)

/-- `__exit` of page 1. -/
def FetchLocals.exit (locals : FetchLocals) (ledger : Ledger Kind) :
    Outcome (Ledger Kind) := do
  let ledger ← ledger.releaseAny locals.webserverUrl
  let ledger ← ledger.releaseAny locals.session
  ledger.releaseAny locals.buffer

/--
The request branch of page 1.  The flag tells whether its end is reached; the
failures jump to `__exit`.
-/
def fetchPlaylist (outside : Outside) (statics : Statics)
    (ledger : Ledger Kind) :
    Outcome (Bool × Statics × FetchLocals × Ledger Kind) := do
  let fetch := outside.env.fetch
  let statics := statics.log (.action .fetch)
  if fetch.urlAllocated = false then
    return (false, statics, ⟨none, none, none⟩, ledger)
  let (webserverUrl, ledger) := ledger.acquire .block
  if fetch.sessionCreated = false then
    return (false, statics, ⟨webserverUrl, none, none⟩, ledger)
  let (session, ledger) := ledger.acquire .session
  let (respStatus, ledger) ←
    webclientGet outside.fetchExchange session ledger
  if respStatus ≠ 200 then
    return (false, statics, ⟨webserverUrl, session, none⟩, ledger)
  if fetch.bufferAllocated = false then
    return (false, statics, ⟨webserverUrl, session, none⟩, ledger)
  let (buffer, ledger) := ledger.acquire .block
  let _ ← ledger.use session
  let data := readResponse webclientSource
    fetch.session.contentLength fetch.session
  let statics ← lift (webserverDataParse outside.seen.fetch data statics)
  return (true, statics, ⟨webserverUrl, session, buffer⟩, ledger)

/-- `iotb_lcd_show_httpwebserver`. -/
def iotbLcdShowHttpwebserver (outside : Outside) (lcdMenu : Menu)
    (statics : Statics) (ledger : Ledger Kind) :
    Outcome (IotbLcdEvent × Statics × Ledger Kind) := do
  let statics :=
    if lcdMenu.contentType = .staticContent then
      statics.draw drawWebServer
    else statics
  if lcdMenu.currentEvent = .enter ∨
      lcdMenu.contentType = .staticContent then
    let (reached, statics, locals, ledger) ←
      fetchPlaylist outside statics ledger
    if reached then
      let (event, statics) ←
        lift (httpwebserverEvent lcdMenu.currentEvent statics)
      return (event, statics, ← locals.exit ledger)
    else
      return (lcdMenu.currentEvent, statics, ← locals.exit ledger)
  else
    let (event, statics) ←
      lift (httpwebserverEvent lcdMenu.currentEvent statics)
    return (event, statics, ← FetchLocals.exit ⟨none, none, none⟩ ledger)

/-- The branch of page 2 which downloads a song that cannot be opened. -/
def downloadSong (outside : Outside) (name : List UInt8)
    (statics : Statics) (ledger : Ledger Kind) :
    Outcome (Statics × Ledger Kind) := do
  let statics := statics.draw fun panel =>
    lcdShowString 60 179 24 (.literal "Caching...")
      (lcdSetColor white black panel)
  if outside.env.downloadUrlAllocated = false then
    -- `sprintf` through the null pointer
    throw (.program .nullPointer)
  -- `download_url`
  let ledger := (ledger.acquire .block).2
  let (result, card, ledger) ← webclientGetFile outside.downloadExchange
    outside.env.download name statics.card ledger
  let statics :=
    { logRequest outside.seen.download name statics with card := card }
  if result = 0 then
    return ((startPlayback name statics).draw fun panel =>
      drawTitle name
        (lcdShowString 0 179 24 blankRow (lcdSetColor white black panel)),
      ledger)
  else
    return (statics, ledger)

/-- The branch of page 2 for `IOTB_LCD_EVENT_ENTER`. -/
def enterMusic (outside : Outside) (statics : Statics)
    (ledger : Ledger Kind) : Outcome (Statics × Ledger Kind) := do
  let name ← lift (songText statics.playlist statics.playlist.songlistNum)
  let statics := statics.draw fun panel =>
    drawAlbum name (lcdSetColor white black panel)
  if openSucceeds outside.env statics.card name then
    -- the descriptor is compared with 0, and not kept
    let ledger := (ledger.acquire .descriptor).2
    return ((startPlayback name statics).draw fun panel =>
      drawTitle name (lcdSetColor white black panel), ledger)
  else downloadSong outside name statics ledger

/-- `iotb_lcd_show_music`; only its first branch acquires anything. -/
def iotbLcdShowMusic (outside : Outside) (lcdMenu : Menu)
    (statics : Statics) (ledger : Ledger Kind) :
    Outcome (IotbLcdEvent × Statics × Ledger Kind) := do
  let drawn :=
    if lcdMenu.contentType = .staticContent then
      statics.draw (drawWavPlayer statics.volumeValue)
    else statics
  match lcdMenu.currentEvent with
  | .enter =>
      let (statics, ledger) ← enterMusic outside drawn ledger
      return (.none, statics, ledger)
  | .wkupDoubleClick =>
      let statics ← lift (playStop drawn)
      return (.none, statics, ledger)
  | .key1DoubleClick => return (.none, pauseResume drawn, ledger)
  | .key1Click => return (.none, volumeDown drawn, ledger)
  | .wkupClick => return (.none, volumeUp drawn, ledger)
  | .exit => return (.exit, exitMusic drawn, ledger)
  | event => return (event, drawn, ledger)

/-- `iotb_lcd_show_sdcard`. -/
def iotbLcdShowSdcard (outside : Outside) (lcdMenu : Menu)
    (statics : Statics) (ledger : Ledger Kind) :
    Outcome (IotbLcdEvent × Statics × Ledger Kind) := do
  let statics ←
    if lcdMenu.contentType = .staticContent then do
      let statics := statics.draw drawFileSystem
      let playlist ← lift (releasePlaylist statics.playlist)
      pure { statics with playlist := playlist }
    else pure statics
  match outside.env.directory with
  | none =>
      return (lcdMenu.currentEvent, statics.draw (drawDirectory none),
        ledger)
  | some entries =>
      -- `opendir` takes a descriptor and a stream, `closedir` frees both
      let (fd, ledger) := ledger.acquire .descriptor
      let (dirp, ledger) := ledger.acquire .directory
      let statics := statics.draw (drawDirectory (some entries))
      let ledger ← ledger.release fd
      let ledger ← ledger.release dirp
      return (lcdMenu.currentEvent, statics, ledger)

/-- The call through `lcd_handle`. -/
def call (handle : Handle) (outside : Outside) (lcdMenu : Menu)
    (statics : Statics) (ledger : Ledger Kind) :
    Outcome (IotbLcdEvent × Statics × Ledger Kind) :=
  match handle with
  | .showHttpwebserver =>
      iotbLcdShowHttpwebserver outside lcdMenu statics ledger
  | .showMusic => iotbLcdShowMusic outside lcdMenu statics ledger
  | .showSdcard => iotbLcdShowSdcard outside lcdMenu statics ledger

end InternetWavPlayer.Scratch
