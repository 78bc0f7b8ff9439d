import InternetWavPlayer.Scratch

/-!
# When a handler gives back what it acquired

Every handler call is compared with the call of the page it refines: they fail
together, and where they return, the ledger tells what was not given back.
-/

namespace InternetWavPlayer.ScratchRelease

open InternetWavPlayer.LcdEvent
open InternetWavPlayer.Display
open InternetWavPlayer.Songlist
open InternetWavPlayer.Webclient
open InternetWavPlayer.ResponseText
open InternetWavPlayer.Pages
open InternetWavPlayer.ResourceLedger
open InternetWavPlayer.Scratch

/-! ## Requests -/

/--
A request returns its status.  It leaves the ledger as it was unless it follows
a relocation, and then the session of the caller is closed.
-/
theorem webclientGet_spec
    (exchange : Exchange) {rest : Multiset (Resource Kind)}
    {session : Resource Kind} {ledger : Ledger Kind}
    (owns : Owns rest {session} ledger) :
    ∃ leaked after,
      webclientGet exchange session ledger =
        .ok (exchange.status, after) ∧
      Owns rest leaked after ∧
      (∀ resource, Dead resource ledger → Dead resource after) ∧
      if exchange.Relocates then Dead session after
      else after = ledger := by
  have used := owns.use (E := Fault)
  induction exchange generalizing rest session ledger with
  | failed rc =>
      refine ⟨{session}, ledger, ?_, owns, fun _ dead => dead, rfl⟩
      simp only [webclientGet, used]
      rfl
  | answered respStatus =>
      refine ⟨{session}, ledger, ?_, owns, fun _ dead => dead, rfl⟩
      simp only [webclientGet, used]
      rfl
  | located respStatus newUrlAllocated sessionCreated next induction =>
      by_cases moved : respStatus = 302 ∨ respStatus = 301
      · cases newUrlAllocated with
        | false =>
            refine ⟨{session}, ledger, ?_, owns, fun _ dead => dead, ?_⟩
            · simp only [webclientGet, used, Exchange.status, if_pos moved]
              rfl
            · simp [Exchange.Relocates]
        | true =>
            have relocates : (Exchange.located respStatus true
                sessionCreated next).Relocates := ⟨moved, rfl⟩
            obtain ⟨closed, released, owned, dead⟩ :=
              (owns.acquire .block).swap.release (E := Fault)
            cases sessionCreated with
            | false =>
                refine ⟨_, closed, ?_, owned, ?_, ?_⟩
                · simp only [webclientGet, used, Exchange.status,
                    if_pos moved, bind, Except.bind, released]
                  rfl
                · intro resource gone
                  exact (gone.acquire .block).release_other released
                · rw [if_pos relocates]
                  exact dead
            | true =>
                have framed := owns_cons_iff.mp (owned.acquire .session)
                obtain ⟨leaked, got, answered, kept, later, -⟩ :=
                  induction framed framed.use
                have owing : Owns rest
                    ((ledger.acquire .block).1 ::ₘ leaked) got := by
                  rw [← Multiset.singleton_add, add_comm]
                  exact owns_frame_iff.mp kept
                obtain ⟨after, freed, final, -⟩ :=
                  owing.release (E := Fault)
                have carried : ∀ resource, Dead resource closed →
                    Dead resource after := fun resource gone =>
                  (later resource (gone.acquire .session)).release_other
                    freed
                refine ⟨leaked, after, ?_, final, ?_, ?_⟩
                · simp only [webclientGet, used, Exchange.status,
                    if_pos moved, bind, Except.bind, released, answered,
                    freed]
                  rfl
                · intro resource gone
                  exact carried resource
                    ((gone.acquire .block).release_other released)
                · rw [if_pos relocates]
                  exact carried session dead
      · refine ⟨{session}, ledger, ?_, owns, fun _ dead => dead, ?_⟩
        · simp only [webclientGet, used, Exchange.status, if_neg moved]
          rfl
        · rw [if_neg (fun relocates => moved relocates.1)]

/-- A request that follows no relocation leaves the ledger as it was. -/
theorem webclientGet_kept
    {exchange : Exchange} {rest : Multiset (Resource Kind)}
    {session : Resource Kind} {ledger : Ledger Kind}
    (owns : Owns rest (session ::ₘ 0) ledger)
    (kept : ¬ exchange.Relocates) :
    webclientGet exchange session ledger =
      .ok (exchange.status, ledger) := by
  obtain ⟨leaked, after, got, -, -, same⟩ :=
    webclientGet_spec exchange owns
  rw [if_neg kept] at same
  rw [got, same]

/-! ## Agreement with the pages -/

/--
A handler call agrees with the call of its page: the same fault, or the same
result with just `held` acquired beside what was live before.
-/
def Agrees (before held : Multiset (Resource Kind))
    (outcome : Outcome (IotbLcdEvent × Statics × Ledger Kind))
    (page : Except Fault (IotbLcdEvent × Statics)) : Prop :=
  match page with
  | .ok (event, statics) =>
      ∃ after, outcome = .ok (event, statics, after) ∧
        Owns before held after
  | .error fault => outcome = .error (.program fault)

/-- Both calls end in a closed session. -/
def Closed (outcome : Outcome (IotbLcdEvent × Statics × Ledger Kind))
    (page : Except Fault (IotbLcdEvent × Statics)) : Prop :=
  (∃ session, outcome = .error (.dead session)) ∧
    page = .error .closedSession

/-! ## Page 1 -/

/-- What page 1 holds. -/
def held (locals : FetchLocals) : Multiset (Resource Kind) :=
  locals.buffer.toList +
    (locals.session.toList + locals.webserverUrl.toList)

/-- `__exit` gives back everything. -/
theorem exit_restores
    {locals : FetchLocals} {before : Multiset (Resource Kind)}
    {ledger : Ledger Kind} (owns : Owns before (held locals) ledger) :
    ∃ after, locals.exit ledger = .ok after ∧ Owns before 0 after := by
  have urlFirst : Owns before (locals.webserverUrl.toList +
      (locals.session.toList + locals.buffer.toList)) ledger := by
    rw [← add_assoc, add_comm, add_comm (locals.webserverUrl.toList :
      Multiset (Resource Kind))]
    exact owns
  obtain ⟨second, freedUrl, rest⟩ := urlFirst.releaseAny (E := Fault)
  obtain ⟨third, closed, last⟩ := rest.releaseAny (E := Fault)
  have bufferOnly :
      Owns before (locals.buffer.toList + 0) third := by
    rw [add_zero]
    exact last
  obtain ⟨after, freed, nothing⟩ := bufferOnly.releaseAny (E := Fault)
  refine ⟨after, ?_, nothing⟩
  rw [FetchLocals.exit]
  simp only [freedUrl, bind, Except.bind, closed, freed]

section Fetch

variable (outside : Outside) (statics : Statics) (ledger : Ledger Kind)

/-- The request of page 1 is made and follows a relocation. -/
def FetchRelocates : Prop :=
  outside.env.fetch.urlAllocated = true ∧
    outside.env.fetch.sessionCreated = true ∧
      outside.fetchExchange.Relocates

/-- The request branch of the page, in terms of the exchange. -/
theorem page_fetchPlaylist :
    Pages.fetchPlaylist outside.seen.fetch statics =
      let fetch := outside.env.fetch
      let asked := statics.log (.action .fetch)
      if fetch.urlAllocated = false then .ok (false, asked)
      else if fetch.sessionCreated = false then .ok (false, asked)
      else if outside.fetchExchange.Relocates then .error .closedSession
      else if outside.fetchExchange.status ≠ 200 then .ok (false, asked)
      else if fetch.bufferAllocated = false then .ok (false, asked)
      else (webserverDataParse outside.seen.fetch
        (readResponse webclientSource fetch.session.contentLength
          fetch.session) asked).map fun listed => (true, listed) := by
  simp only [Pages.fetchPlaylist, Outside.seen, Exchange.outcome,
    decide_eq_true_eq]
  rfl

theorem fetchPlaylist_agrees
    (kept : ¬ FetchRelocates outside) :
    match Pages.fetchPlaylist outside.seen.fetch statics with
    | .ok (reached, listed) => ∃ locals after,
        Scratch.fetchPlaylist outside statics ledger =
          .ok (reached, listed, locals, after) ∧
        Owns ledger.live (held locals) after
    | .error fault =>
        Scratch.fetchPlaylist outside statics ledger =
          .error (.program fault) := by
  have start := owns_start ledger
  have withUrl := start.acquire Kind.block
  rcases first : ledger.acquire Kind.block with ⟨url, second⟩
  rw [first] at withUrl
  have withSession := withUrl.acquire Kind.session
  rcases next : second.acquire Kind.session with ⟨session, third⟩
  rw [next] at withSession
  have withBuffer := withSession.acquire Kind.block
  have used := withBuffer.swap.use (E := Fault)
  rcases last : third.acquire Kind.block with ⟨buffer, fourth⟩
  rw [last] at withBuffer used
  rw [page_fetchPlaylist, Scratch.fetchPlaylist]
  dsimp only
  rw [first]
  dsimp only
  rw [next]
  by_cases noUrl : outside.env.fetch.urlAllocated = false
  · rw [if_pos noUrl, if_pos noUrl]
    exact ⟨⟨none, none, none⟩, ledger, rfl, start⟩
  rw [if_neg noUrl, if_neg noUrl]
  by_cases noSession : outside.env.fetch.sessionCreated = false
  · rw [if_pos noSession, if_pos noSession]
    exact ⟨⟨url, none, none⟩, second, rfl, withUrl⟩
  rw [if_neg noSession, if_neg noSession]
  have stays : ¬ outside.fetchExchange.Relocates := fun relocates =>
    kept ⟨by simpa using noUrl, by simpa using noSession, relocates⟩
  rw [if_neg stays,
    webclientGet_kept (owns_cons_iff.mp withSession) stays]
  simp only [bind, Except.bind]
  by_cases failed : outside.fetchExchange.status ≠ 200
  · rw [if_pos failed, if_pos failed]
    exact ⟨⟨url, session, none⟩, third, rfl, withSession⟩
  rw [if_neg failed, if_neg failed]
  by_cases noBuffer : outside.env.fetch.bufferAllocated = false
  · rw [if_pos noBuffer, if_pos noBuffer]
    exact ⟨⟨url, session, none⟩, third, rfl, withSession⟩
  rw [if_neg noBuffer, if_neg noBuffer, last]
  dsimp only
  rw [used]
  dsimp only
  cases webserverDataParse outside.seen.fetch _ _ with
  | error fault => rfl
  | ok listed =>
      exact ⟨⟨url, session, buffer⟩, fourth, rfl, withBuffer⟩

/-- After a relocation page 1 uses or closes a session that is closed. -/
theorem fetchPlaylist_relocated (relocates : FetchRelocates outside) :
    Pages.fetchPlaylist outside.seen.fetch statics =
        .error .closedSession ∧
      ∃ session,
        Scratch.fetchPlaylist outside statics ledger =
            .error (.dead session) ∨
          ∃ asked locals after,
            Scratch.fetchPlaylist outside statics ledger =
              .ok (false, asked, locals, after) ∧
            locals.exit after = .error (.dead session) := by
  obtain ⟨url, created, moved⟩ := relocates
  have withUrl := (owns_start ledger).acquire Kind.block
  rcases first : ledger.acquire Kind.block with ⟨webserverUrl, second⟩
  rw [first] at withUrl
  have withSession := withUrl.acquire Kind.session
  rcases next : second.acquire Kind.session with ⟨session, third⟩
  rw [next] at withSession
  obtain ⟨leaked, after, got, owned, -, dead⟩ := webclientGet_spec
    outside.fetchExchange (owns_cons_iff.mp withSession)
  rw [if_pos moved] at dead
  have urlFirst :
      Owns ledger.live (webserverUrl ::ₘ leaked) after := by
    rw [← Multiset.singleton_add, add_comm]
    exact owns_frame_iff.mp owned
  obtain ⟨freed, released, -, -⟩ := urlFirst.release (E := Fault)
  have exits : FetchLocals.exit ⟨webserverUrl, session, none⟩ after =
      .error (.dead session) := by
    simp only [FetchLocals.exit, Ledger.releaseAny, released, bind,
      Except.bind, (dead.release_other released).release]
  constructor
  · rw [page_fetchPlaylist]
    simp only [url, created, if_pos moved, Bool.true_eq_false, ↓reduceIte]
  · refine ⟨session, ?_⟩
    rw [Scratch.fetchPlaylist]
    simp only [first, next, got, url, created, bind, Except.bind,
      Bool.true_eq_false, ↓reduceIte]
    by_cases failed : outside.fetchExchange.status ≠ 200
    · rw [if_pos failed]
      exact Or.inr ⟨_, _, after, rfl, exits⟩
    rw [if_neg failed]
    by_cases noBuffer : outside.env.fetch.bufferAllocated = false
    · rw [if_pos noBuffer]
      exact Or.inr ⟨_, _, after, rfl, exits⟩
    rw [if_neg noBuffer]
    rcases last : after.acquire Kind.block with ⟨buffer, fourth⟩
    have still : Dead session fourth := by
      have acquired := dead.acquire Kind.block
      rw [last] at acquired
      exact acquired
    refine Or.inl ?_
    simp only [still.use]

end Fetch

section Handlers

variable (outside : Outside) (lcdMenu : Menu) (statics : Statics)
  (ledger : Ledger Kind)

/-- Page 1 asks for the list. -/
def Asks : Prop :=
  lcdMenu.currentEvent = .enter ∨ lcdMenu.contentType = .staticContent

theorem httpwebserver_agrees
    (kept : ¬ (Asks lcdMenu ∧ FetchRelocates outside)) :
    Agrees ledger.live 0
      (Scratch.iotbLcdShowHttpwebserver outside lcdMenu statics ledger)
      (Pages.iotbLcdShowHttpwebserver outside.seen lcdMenu statics) := by
  rw [Scratch.iotbLcdShowHttpwebserver, Pages.iotbLcdShowHttpwebserver]
  generalize (if lcdMenu.contentType = .staticContent then
    statics.draw drawWebServer else statics) = drawn
  by_cases asks : lcdMenu.currentEvent = .enter ∨
      lcdMenu.contentType = .staticContent
  · have branch := fetchPlaylist_agrees outside drawn ledger
      (fun relocates => kept ⟨asks, relocates⟩)
    dsimp only
    rw [if_pos asks, if_pos asks]
    cases fetched : Pages.fetchPlaylist outside.seen.fetch drawn with
    | error fault =>
        rw [fetched] at branch
        simp only [branch, bind, Except.bind]
        rfl
    | ok result =>
        obtain ⟨reached, listed⟩ := result
        rw [fetched] at branch
        obtain ⟨locals, asked, ran, owned⟩ := branch
        obtain ⟨after, exits, nothing⟩ := exit_restores owned
        simp only [ran, bind, Except.bind]
        cases reached with
        | false => exact ⟨after, by simp [exits]; rfl, nothing⟩
        | true =>
            simp only [↓reduceIte]
            cases httpwebserverEvent lcdMenu.currentEvent listed with
            | error fault => rfl
            | ok left => exact ⟨after, by simp [exits]; rfl, nothing⟩
  · dsimp only
    rw [if_neg asks, if_neg asks]
    cases httpwebserverEvent lcdMenu.currentEvent drawn with
    | error fault => rfl
    | ok left => exact ⟨ledger, rfl, owns_start ledger⟩

theorem httpwebserver_closed
    (asks : Asks lcdMenu) (relocates : FetchRelocates outside) :
    Closed
      (Scratch.iotbLcdShowHttpwebserver outside lcdMenu statics ledger)
      (Pages.iotbLcdShowHttpwebserver outside.seen lcdMenu statics) := by
  rw [Scratch.iotbLcdShowHttpwebserver, Pages.iotbLcdShowHttpwebserver]
  generalize (if lcdMenu.contentType = .staticContent then
    statics.draw drawWebServer else statics) = drawn
  obtain ⟨page, session, ends⟩ :=
    fetchPlaylist_relocated outside drawn ledger relocates
  rw [Asks] at asks
  dsimp only
  rw [if_pos asks, if_pos asks, page]
  refine ⟨⟨session, ?_⟩, rfl⟩
  rcases ends with used | ⟨asked, locals, after, ran, closing⟩
  · simp only [used, bind, Except.bind]
  · simp only [ran, bind, Except.bind, Bool.false_eq_true, ↓reduceIte,
      closing]

/-! ## Page 3 -/

theorem sdcard_agrees :
    Agrees ledger.live 0
      (Scratch.iotbLcdShowSdcard outside lcdMenu statics ledger)
      (Pages.iotbLcdShowSdcard outside.seen lcdMenu statics) := by
  have start := owns_start ledger
  have withFd := start.acquire Kind.descriptor
  rcases first : ledger.acquire Kind.descriptor with ⟨fd, second⟩
  rw [first] at withFd
  have withDirp := withFd.acquire Kind.directory
  rcases next : second.acquire Kind.directory with ⟨dirp, third⟩
  rw [next] at withDirp
  obtain ⟨fourth, freed, rest, -⟩ :=
    withDirp.swap.release (E := Fault)
  obtain ⟨after, closed, nothing, -⟩ := rest.release (E := Fault)
  have page : (outside.seen).directory = outside.env.directory := rfl
  rw [Scratch.iotbLcdShowSdcard, Pages.iotbLcdShowSdcard, page]
  by_cases content : lcdMenu.contentType = .staticContent
  · simp only [if_pos content]
    cases released : releasePlaylist
        (statics.draw drawFileSystem).playlist with
    | error fault => rfl
    | ok playlist =>
        cases outside.env.directory with
        | none => exact ⟨ledger, rfl, start⟩
        | some entries =>
            refine ⟨after, ?_, nothing⟩
            simp only [first, next, freed, closed, bind, Except.bind,
              lift_ok]
            rfl
  · simp only [if_neg content]
    cases outside.env.directory with
    | none => exact ⟨ledger, rfl, start⟩
    | some entries =>
        refine ⟨after, ?_, nothing⟩
        simp only [first, next, freed, closed, bind, Except.bind]
        rfl

end Handlers

/-! ## Page 2 -/

/-- The end of `webclient_get_file` gives back everything. -/
theorem exitGetFile_restores
    (fd session ptr : Option (Resource Kind))
    (others : Multiset (Resource Kind))
    {before held : Multiset (Resource Kind)} {ledger : Ledger Kind}
    (owns : Owns before held ledger)
    (listed : held =
      ptr.toList + (fd.toList + (session.toList + others))) :
    ∃ after, exitGetFile fd session ptr ledger = .ok after ∧
      Owns before others after := by
  have fdFirst : Owns before
      (fd.toList + (session.toList + (ptr.toList + others))) ledger := by
    have same : held =
        fd.toList + (session.toList + (ptr.toList + others)) := by
      rw [listed]
      abel
    rw [← same]
    exact owns
  obtain ⟨second, closedFile, rest⟩ := fdFirst.releaseAny (E := Fault)
  obtain ⟨third, closedSession, last⟩ := rest.releaseAny (E := Fault)
  obtain ⟨after, freed, nothing⟩ := last.releaseAny (E := Fault)
  refine ⟨after, ?_, nothing⟩
  rw [exitGetFile]
  simp only [closedFile, bind, Except.bind, closedSession, freed]

section Download

variable (outside : Outside) (name : List UInt8) (card : Card)
  {ledger : Ledger Kind} {before others : Multiset (Resource Kind)}

/-- The request of page 2 is made and follows a relocation. -/
def DownloadRelocates : Prop :=
  outside.env.download.sessionCreated = true ∧
    outside.downloadExchange.Relocates

/-- The download of the page, in terms of the exchange. -/
theorem page_webclientGetFile :
    Webclient.webclientGetFile outside.seen.download name card =
      let download := outside.env.download
      if download.sessionCreated = false then .ok (-3, card)
      else if outside.downloadExchange.Relocates then
        .error .closedSession
      else if outside.downloadExchange.status ≠ 200 then .ok (-1, card)
      else if download.fileOpened = false then .ok (-1, card)
      else if download.bufferAllocated = false then
        .ok (-3, card.store name download.aliases [])
      else .ok (0, card.store name download.aliases
        download.written) := by
  simp only [Webclient.webclientGetFile, Outside.seen, Exchange.outcome,
    decide_eq_true_eq]
  rfl

theorem webclientGetFile_agrees
    (owns : Owns before others ledger)
    (kept : ¬ DownloadRelocates outside) :
    ∃ result stored after,
      Webclient.webclientGetFile outside.seen.download name card =
        .ok (result, stored) ∧
      Scratch.webclientGetFile outside.downloadExchange
        outside.env.download name card ledger =
          .ok (result, stored, after) ∧
      Owns before others after := by
  have withSession := owns.acquire Kind.session
  rcases first : ledger.acquire Kind.session with ⟨session, second⟩
  rw [first] at withSession
  have withFile := withSession.acquire Kind.descriptor
  rcases next : second.acquire Kind.descriptor with ⟨fd, third⟩
  rw [next] at withFile
  have withBuffer := withFile.acquire Kind.block
  rcases last : third.acquire Kind.block with ⟨ptr, fourth⟩
  rw [last] at withBuffer
  rw [page_webclientGetFile, Scratch.webclientGetFile]
  dsimp only
  rw [first]
  by_cases noSession : outside.env.download.sessionCreated = false
  · rw [if_pos noSession, if_pos noSession]
    exact ⟨-3, card, ledger, rfl, rfl, owns⟩
  rw [if_neg noSession, if_neg noSession]
  have stays : ¬ outside.downloadExchange.Relocates := fun relocates =>
    kept ⟨by simpa using noSession, relocates⟩
  obtain ⟨sessionOnly, closedSession, nothing⟩ := exitGetFile_restores
    none (some session) none others withSession (by simp)
  rw [if_neg stays,
    webclientGet_kept (owns_cons_iff.mp withSession) stays]
  simp only [bind, Except.bind]
  by_cases failed : outside.downloadExchange.status ≠ 200
  · rw [if_pos failed, if_pos failed, closedSession]
    exact ⟨-1, card, sessionOnly, rfl, rfl, nothing⟩
  rw [if_neg failed, if_neg failed]
  by_cases noFile : outside.env.download.fileOpened = false
  · rw [if_pos noFile, if_pos noFile, closedSession]
    exact ⟨-1, card, sessionOnly, rfl, rfl, nothing⟩
  rw [if_neg noFile, if_neg noFile, next]
  dsimp only
  by_cases noBuffer : outside.env.download.bufferAllocated = false
  · obtain ⟨after, closed, rest⟩ := exitGetFile_restores
      (some fd) (some session) none others withFile
        (by simp [Multiset.cons_swap fd])
    rw [if_pos noBuffer, if_pos noBuffer, closed]
    exact ⟨-3, _, after, rfl, rfl, rest⟩
  rw [if_neg noBuffer, if_neg noBuffer, last]
  have used : (fourth.use session : Outcome Unit) = .ok () := by
    have owned :
        Owns before (session ::ₘ ptr ::ₘ fd ::ₘ others) fourth := by
      rw [Owns, withBuffer, Multiset.cons_swap session ptr,
        Multiset.cons_swap session fd]
    exact owned.use
  obtain ⟨after, closed, rest⟩ := exitGetFile_restores
    (some fd) (some session) (some ptr) others withBuffer rfl
  dsimp only
  rw [used, closed]
  exact ⟨0, _, after, rfl, rfl, rest⟩

/-- After a relocation the download uses or closes a closed session. -/
theorem webclientGetFile_relocated
    (owns : Owns before others ledger)
    (relocates : DownloadRelocates outside) :
    Webclient.webclientGetFile outside.seen.download name card =
        .error .closedSession ∧
      ∃ session,
        Scratch.webclientGetFile outside.downloadExchange
          outside.env.download name card ledger =
            .error (.dead session) := by
  obtain ⟨created, moved⟩ := relocates
  have withSession := owns.acquire Kind.session
  rcases first : ledger.acquire Kind.session with ⟨session, second⟩
  rw [first] at withSession
  obtain ⟨leaked, after, got, owned, -, dead⟩ := webclientGet_spec
    outside.downloadExchange (owns_cons_iff.mp withSession)
  rw [if_pos moved] at dead
  have exits : exitGetFile none (some session) none after =
      .error (.dead session) := by
    simp only [exitGetFile, Ledger.releaseAny, bind, Except.bind,
      dead.release]
  constructor
  · rw [page_webclientGetFile]
    simp only [created, if_pos moved, Bool.true_eq_false, ↓reduceIte]
  · refine ⟨session, ?_⟩
    rw [Scratch.webclientGetFile]
    simp only [first, got, created, bind, Except.bind,
      Bool.true_eq_false, ↓reduceIte]
    by_cases failed : outside.downloadExchange.status ≠ 200
    · rw [if_pos failed, exits]
    rw [if_neg failed]
    by_cases noFile : outside.env.download.fileOpened = false
    · rw [if_pos noFile, exits]
    rw [if_neg noFile]
    have deadFile := dead.acquire Kind.descriptor
    have withFile := owned.acquire Kind.descriptor
    rcases next : after.acquire Kind.descriptor with ⟨fd, third⟩
    rw [next] at deadFile withFile
    dsimp only
    by_cases noBuffer : outside.env.download.bufferAllocated = false
    · obtain ⟨closed, released, -, -⟩ := withFile.release (E := Fault)
      rw [if_pos noBuffer]
      simp only [exitGetFile, Ledger.releaseAny, bind, Except.bind,
        released, (deadFile.release_other released).release]
    rw [if_neg noBuffer]
    have deadBuffer := deadFile.acquire Kind.block
    rcases last : third.acquire Kind.block with ⟨ptr, fourth⟩
    rw [last] at deadBuffer
    dsimp only
    rw [deadBuffer.use]

end Download

section Music

variable (outside : Outside) (lcdMenu : Menu) (statics : Statics)
  (ledger : Ledger Kind)

/-- Without an entry page 2 acquires nothing. -/
theorem music_agrees
    (stays : lcdMenu.currentEvent ≠ .enter) :
    Agrees ledger.live 0
      (Scratch.iotbLcdShowMusic outside lcdMenu statics ledger)
      (Pages.iotbLcdShowMusic outside.seen lcdMenu statics) := by
  have start := owns_start ledger
  rw [Scratch.iotbLcdShowMusic, Pages.iotbLcdShowMusic]
  generalize (if lcdMenu.contentType = .staticContent then
    statics.draw (drawWavPlayer statics.volumeValue) else statics) = drawn
  cases event : lcdMenu.currentEvent with
  | enter => exact absurd event stays
  | wkupDoubleClick =>
      dsimp only
      cases playStop drawn with
      | error fault => rfl
      | ok after => exact ⟨ledger, rfl, start⟩
  | _ => exact ⟨ledger, rfl, start⟩

/-- The statics of page 2 once it has drawn the album of a song. -/
def albumShown (name : List UInt8) : Statics :=
  statics.draw fun panel => drawAlbum name (lcdSetColor white black panel)

/-- The statics of page 2 once it plays a song from the card. -/
def cachedShown (name : List UInt8) : Statics :=
  (startPlayback name (albumShown statics name)).draw fun panel =>
    drawTitle name (lcdSetColor white black panel)

/-- The statics of page 2 once a download came back. -/
def downloaded (name : List UInt8) (result : Int) (card : Card) :
    Statics :=
  let answered : Statics :=
    { logRequest outside.seen.download name (statics.draw fun panel =>
        lcdShowString 60 179 24 (.literal "Caching...")
          (lcdSetColor white black panel)) with
      card := card }
  if result = 0 then
    (startPlayback name answered).draw fun panel =>
      drawTitle name
        (lcdShowString 0 179 24 blankRow (lcdSetColor white black panel))
  else answered

section Entry

variable {name : List UInt8}
  (read : songText statics.playlist statics.playlist.songlistNum =
    .ok name)

include read

theorem enterMusic_eq :
    Scratch.enterMusic outside statics ledger =
      if openSucceeds outside.env statics.card name then
        .ok (cachedShown statics name, (ledger.acquire .descriptor).2)
      else
        Scratch.downloadSong outside name (albumShown statics name)
          ledger := by
  rw [Scratch.enterMusic, read]
  rfl

theorem page_enterMusic :
    Pages.enterMusic outside.seen statics =
      if openSucceeds outside.env statics.card name then
        .ok (cachedShown statics name)
      else
        Pages.downloadSong outside.seen name (albumShown statics name) := by
  rw [Pages.enterMusic, read]
  rfl

end Entry

/-- Without memory for the address both downloads fault. -/
theorem downloadSong_fails
    (noUrl : outside.env.downloadUrlAllocated = false)
    (name : List UInt8) :
    Scratch.downloadSong outside name statics ledger =
        .error (.program .nullPointer) ∧
      Pages.downloadSong outside.seen name statics =
        .error .nullPointer := by
  constructor
  · rw [Scratch.downloadSong, if_pos noUrl]
    rfl
  · exact if_pos noUrl

/-- A download keeps the block of its address, unless a session is closed. -/
theorem downloadSong_keeps
    (allocated : outside.env.downloadUrlAllocated = true)
    (name : List UInt8) :
    (∃ session,
      Scratch.downloadSong outside name statics ledger =
          .error (.dead session) ∧
        Pages.downloadSong outside.seen name statics =
          .error .closedSession) ∨
    ∃ resource left after,
      Scratch.downloadSong outside name statics ledger =
          .ok (left, after) ∧
        Pages.downloadSong outside.seen name statics = .ok left ∧
        Owns ledger.live {resource} after := by
  have withUrl := (owns_start ledger).acquire Kind.block
  have url : ¬ outside.env.downloadUrlAllocated = false := by
    rw [allocated]
    decide
  have seenUrl : ¬ outside.seen.downloadUrlAllocated = false := url
  rw [Scratch.downloadSong, Pages.downloadSong, if_neg url,
    if_neg seenUrl]
  by_cases relocates : DownloadRelocates outside
  · obtain ⟨page, session, closed⟩ := webclientGetFile_relocated
      outside name statics.card withUrl relocates
    refine Or.inl ⟨session, ?_, ?_⟩
    · show (Scratch.webclientGetFile outside.downloadExchange
        outside.env.download name statics.card
          (ledger.acquire .block).2 >>= _) = _
      rw [closed]
      rfl
    · show (Webclient.webclientGetFile outside.seen.download name
        statics.card >>= _) = _
      rw [page]
      rfl
  · obtain ⟨result, stored, after, page, ran, owned⟩ :=
      webclientGetFile_agrees outside name statics.card withUrl relocates
    refine Or.inr ⟨(ledger.acquire .block).1,
      downloaded outside statics name result stored, after, ?_, ?_, owned⟩
    · show (Scratch.webclientGetFile outside.downloadExchange
        outside.env.download name statics.card
          (ledger.acquire .block).2 >>= _) = _
      rw [ran, downloaded]
      by_cases saved : result = 0
      · rw [if_pos saved]
        exact if_pos saved
      · rw [if_neg saved]
        exact if_neg saved
    · show (Webclient.webclientGetFile outside.seen.download name
        statics.card >>= _) = _
      rw [page, downloaded]
      by_cases saved : result = 0
      · rw [if_pos saved]
        exact if_pos saved
      · rw [if_neg saved]
        exact if_neg saved

/-- The entry of page 2 comes as far as acquiring something. -/
def Acquires : Prop :=
  ∃ name, songText statics.playlist statics.playlist.songlistNum =
      .ok name ∧
    (openSucceeds outside.env statics.card name = true ∨
      outside.env.downloadUrlAllocated = true)

/-- An entry that acquires nothing ends in a fault of the page. -/
theorem enterMusic_fails (nothing : ¬ Acquires outside statics) :
    ∃ fault,
      Scratch.enterMusic outside statics ledger =
          .error (.program fault) ∧
        Pages.enterMusic outside.seen statics = .error fault := by
  cases read : songText statics.playlist statics.playlist.songlistNum with
  | error fault =>
      refine ⟨fault, ?_, ?_⟩
      · rw [Scratch.enterMusic, read]
        rfl
      · rw [Pages.enterMusic, read]
        rfl
  | ok name =>
      have closed : ¬ openSucceeds outside.env statics.card name = true :=
        fun opens => nothing ⟨name, read, Or.inl opens⟩
      have noUrl : outside.env.downloadUrlAllocated = false := by
        by_contra allocated
        exact nothing ⟨name, read, Or.inr (by simpa using allocated)⟩
      have both := downloadSong_fails outside (albumShown statics name)
        ledger noUrl name
      refine ⟨.nullPointer, ?_, ?_⟩
      · rw [enterMusic_eq outside statics ledger read, if_neg closed,
          both.1]
      · rw [page_enterMusic outside statics read, if_neg closed, both.2]

/-- What an entry acquires it keeps, unless a session is closed. -/
theorem enterMusic_keeps (acquires : Acquires outside statics) :
    (∃ session,
      Scratch.enterMusic outside statics ledger =
          .error (.dead session) ∧
        Pages.enterMusic outside.seen statics = .error .closedSession) ∨
    ∃ resource left after,
      Scratch.enterMusic outside statics ledger = .ok (left, after) ∧
        Pages.enterMusic outside.seen statics = .ok left ∧
        Owns ledger.live {resource} after := by
  obtain ⟨name, read, opensOrUrl⟩ := acquires
  rw [enterMusic_eq outside statics ledger read,
    page_enterMusic outside statics read]
  by_cases opens : openSucceeds outside.env statics.card name = true
  · rw [if_pos opens, if_pos opens]
    exact Or.inr ⟨_, _, _, rfl, rfl,
      (owns_start ledger).acquire .descriptor⟩
  · rw [if_neg opens, if_neg opens]
    exact downloadSong_keeps outside _ ledger
      (opensOrUrl.resolve_left opens) name

/-- The two handlers of page 2 at an entry, in terms of their branch. -/
theorem music_entered (entered : lcdMenu.currentEvent = .enter) :
    ∃ drawn : Statics,
      drawn.playlist = statics.playlist ∧ drawn.card = statics.card ∧
      Scratch.iotbLcdShowMusic outside lcdMenu statics ledger =
        (Scratch.enterMusic outside drawn ledger).map
          (fun left => (.none, left.1, left.2)) ∧
      Pages.iotbLcdShowMusic outside.seen lcdMenu statics =
        (Pages.enterMusic outside.seen drawn).map
          (fun left => (.none, left)) := by
  refine ⟨if lcdMenu.contentType = .staticContent then
    statics.draw (drawWavPlayer statics.volumeValue) else statics,
    ?_, ?_, ?_, ?_⟩
  · split <;> rfl
  · split <;> rfl
  · rw [Scratch.iotbLcdShowMusic, entered]
    rfl
  · rw [Pages.iotbLcdShowMusic, entered]
    rfl

end Music

/-! ## All handlers -/

/--
A handler call gives back exactly what it acquired: it neither uses nor
releases what is dead, and if it returns, just what was live before is live.
A call that stops in a fault of the playlist code never returns.
-/
def Releases (ledger : Ledger Kind)
    (outcome : Outcome (IotbLcdEvent × Statics × Ledger Kind)) : Prop :=
  match outcome with
  | .ok (_, _, after) => after.live = ledger.live
  | .error (.dead _) => False
  | .error (.program _) => True

/--
What a handler must not meet: on page 1 a followed relocation of its request,
on page 2 an entry that acquires anything.
-/
def GivesBack (handle : Handle) (outside : Outside) (lcdMenu : Menu)
    (statics : Statics) : Prop :=
  match handle with
  | .showHttpwebserver => ¬ (Asks lcdMenu ∧ FetchRelocates outside)
  | .showMusic =>
      ¬ (lcdMenu.currentEvent = .enter ∧ Acquires outside statics)
  | .showSdcard => True

theorem Agrees.releases
    {ledger : Ledger Kind}
    {outcome : Outcome (IotbLcdEvent × Statics × Ledger Kind)}
    {page : Except Fault (IotbLcdEvent × Statics)}
    (agrees : Agrees ledger.live 0 outcome page) :
    Releases ledger outcome := by
  cases page with
  | error fault =>
      rw [show outcome = _ from agrees]
      trivial
  | ok result =>
      obtain ⟨after, ran, nothing⟩ := agrees
      rw [ran]
      exact owns_none_iff.mp nothing

theorem Acquires.of_drawn
    {outside : Outside} {statics drawn : Statics}
    (playlist : drawn.playlist = statics.playlist)
    (card : drawn.card = statics.card) :
    Acquires outside drawn ↔ Acquires outside statics := by
  rw [Acquires, Acquires, playlist, card]

/-- An entry of page 2 that acquires anything does not give it back. -/
theorem music_not_releases
    (outside : Outside) (lcdMenu : Menu) (statics : Statics)
    (ledger : Ledger Kind) (entered : lcdMenu.currentEvent = .enter)
    (acquires : Acquires outside statics) :
    ¬ Releases ledger
      (Scratch.iotbLcdShowMusic outside lcdMenu statics ledger) := by
  obtain ⟨drawn, playlist, card, ran, -⟩ :=
    music_entered outside lcdMenu statics ledger entered
  rw [ran]
  rcases enterMusic_keeps outside drawn ledger
      ((Acquires.of_drawn playlist card).mpr acquires) with
    ⟨session, closed, -⟩ | ⟨resource, left, after, kept, -, owned⟩
  · rw [closed]
    exact id
  · rw [kept]
    intro released
    have more := owned.number_one
    rw [Ledger.number, show after.live = ledger.live from released]
      at more
    exact absurd more (Nat.ne_of_lt (Nat.lt_succ_self _))

theorem music_releases_of_not_acquires
    (outside : Outside) (lcdMenu : Menu) (statics : Statics)
    (ledger : Ledger Kind)
    (nothing : ¬ (lcdMenu.currentEvent = .enter ∧
      Acquires outside statics)) :
    Releases ledger
      (Scratch.iotbLcdShowMusic outside lcdMenu statics ledger) := by
  by_cases entered : lcdMenu.currentEvent = .enter
  · obtain ⟨drawn, playlist, card, ran, -⟩ :=
      music_entered outside lcdMenu statics ledger entered
    obtain ⟨fault, fails, -⟩ := enterMusic_fails outside drawn ledger
      (fun acquires => nothing ⟨entered,
        (Acquires.of_drawn playlist card).mp acquires⟩)
    rw [ran, fails]
    trivial
  · exact (music_agrees outside lcdMenu statics ledger entered).releases

/--
Every handler call refines the call of its page: they end in a closed session
together, or agree on the result.
-/
theorem call_refines
    (handle : Handle) (outside : Outside) (lcdMenu : Menu)
    (statics : Statics) (ledger : Ledger Kind) :
    Closed (call handle outside lcdMenu statics ledger)
        (handle.call outside.seen lcdMenu statics) ∨
      ∃ held, Agrees ledger.live held
        (call handle outside lcdMenu statics ledger)
        (handle.call outside.seen lcdMenu statics) := by
  cases handle with
  | showHttpwebserver =>
      by_cases relocates : Asks lcdMenu ∧ FetchRelocates outside
      · exact Or.inl (httpwebserver_closed outside lcdMenu statics ledger
          relocates.1 relocates.2)
      · exact Or.inr ⟨0, httpwebserver_agrees outside lcdMenu statics
          ledger relocates⟩
  | showMusic =>
      by_cases entered : lcdMenu.currentEvent = .enter
      · obtain ⟨drawn, -, -, ran, page⟩ :=
          music_entered outside lcdMenu statics ledger entered
        show Closed (Scratch.iotbLcdShowMusic outside lcdMenu statics
            ledger) (Pages.iotbLcdShowMusic outside.seen lcdMenu statics) ∨
          ∃ held, Agrees ledger.live held (Scratch.iotbLcdShowMusic
            outside lcdMenu statics ledger)
            (Pages.iotbLcdShowMusic outside.seen lcdMenu statics)
        rw [ran, page]
        by_cases acquires : Acquires outside drawn
        · rcases enterMusic_keeps outside drawn ledger acquires with
            ⟨session, closed, fault⟩ |
            ⟨resource, left, after, kept, same, owned⟩
          · rw [closed, fault]
            exact Or.inl ⟨⟨session, rfl⟩, rfl⟩
          · rw [kept, same]
            exact Or.inr ⟨{resource}, after, rfl, owned⟩
        · obtain ⟨fault, fails, same⟩ :=
            enterMusic_fails outside drawn ledger acquires
          rw [fails, same]
          exact Or.inr ⟨0, rfl⟩
      · exact Or.inr ⟨0, music_agrees outside lcdMenu statics ledger
          entered⟩
  | showSdcard =>
      exact Or.inr ⟨0, sdcard_agrees outside lcdMenu statics ledger⟩

/-- Exactly when a handler call gives back what it acquired. -/
theorem releases_iff
    (handle : Handle) (outside : Outside) (lcdMenu : Menu)
    (statics : Statics) (ledger : Ledger Kind) :
    Releases ledger (call handle outside lcdMenu statics ledger) ↔
      GivesBack handle outside lcdMenu statics := by
  cases handle with
  | showHttpwebserver =>
      constructor
      · rintro released ⟨asks, relocates⟩
        obtain ⟨⟨session, closed⟩, -⟩ := httpwebserver_closed outside
          lcdMenu statics ledger asks relocates
        rw [show call .showHttpwebserver outside lcdMenu statics ledger =
          _ from closed] at released
        exact released
      · intro kept
        exact (httpwebserver_agrees outside lcdMenu statics ledger
          kept).releases
  | showMusic =>
      constructor
      · rintro released ⟨entered, acquires⟩
        exact music_not_releases outside lcdMenu statics ledger entered
          acquires released
      · exact music_releases_of_not_acquires outside lcdMenu statics ledger
  | showSdcard =>
      constructor
      · intro released
        trivial
      · intro kept
        exact (sdcard_agrees outside lcdMenu statics ledger).releases

/-! ## A cached song -/

/-- The server lists one song, which lies on the card. -/
def oneCached : Outside where
  env := online [some songName]
  fetchExchange := .answered 200
  downloadExchange := .failed (-1)

/-- A page being entered. -/
def entering (menu : Nat) (content : ContentType) (handle : Handle) :
    Menu where
  menu := menu
  refreshTime := 0
  contentType := content
  currentEvent := .enter
  lcdHandle := some handle

/-- Page 1 is entered, and then page 2. -/
def listThenPlay : Outcome (Ledger Kind × Ledger Kind) := do
  let (_, statics, listed) ← call .showHttpwebserver oneCached
    (entering 1 .staticContent .showHttpwebserver)
    (.initial fun name => if name = songName.text then some [] else none)
    .empty
  let (_, _, played) ← call .showMusic oneCached
    (entering 2 .staticContent .showMusic) statics listed
  return (listed, played)

/-- Playing a cached song leaves a descriptor open that page 1 did not. -/
theorem cachedSong_keeps_descriptor :
    listThenPlay.toOption.map
        (fun ledgers => (ledgers.1.number .descriptor,
          ledgers.2.number .descriptor)) =
      some (0, 1) := by
  decide +kernel

end InternetWavPlayer.ScratchRelease
