import InternetWavPlayer.Drain
import InternetWavPlayer.Songlist

/-!
# The HTTP client: reading a response and saving it to a file

`webclient_read` is modelled down to `recv`: what the network will answer is a
list of arrivals, each a run of bytes, a receive timeout or a lost connection.
Connecting, sending the request and reading the response header are the
environment's part; their results are the status and the session that the read
loops start from.

A file on the card is its byte content, which every name that opens the file
leads to: the file system ignores the case of letters and the dots and blanks
at the end of a name, and matches short names.  A write to the card may store
less than it is given.
-/

namespace InternetWavPlayer.Webclient

open InternetWavPlayer.Drain
open InternetWavPlayer.Songlist

/-! ## Receiving -/

/-- What the network has in store for the next calls of `recv`. -/
inductive Arrival where
  | bytes (bytes : List UInt8)
  | timeout
  | lost
deriving DecidableEq, Repr

/-- The result of one `recv`: bytes, or the two failures told apart by errno. -/
inductive Received where
  | bytes (bytes : List UInt8)
  | timeout
  | closed
deriving DecidableEq, Repr

/--
`recv(socket, buffer, length, 0)`.  Bytes that do not fit stay for the next
call, and a wire with nothing left has been closed by the server.
-/
def recv (length : Nat) : List Arrival → Received × List Arrival
  | [] => (.closed, [])
  | .timeout :: rest => (.timeout, rest)
  | .lost :: rest => (.closed, rest)
  | .bytes bytes :: rest =>
      if bytes.take length = [] then (.closed, .bytes bytes :: rest)
      else if bytes.length ≤ length then (.bytes bytes, rest)
      else (.bytes (bytes.take length), .bytes (bytes.drop length) :: rest)

/-- The number of bytes that can still arrive. -/
def wireBytes : List Arrival → Nat
  | [] => 0
  | .bytes bytes :: rest => bytes.length + wireBytes rest
  | .timeout :: rest => wireBytes rest
  | .lost :: rest => wireBytes rest

theorem recv_wireBytes (length : Nat) (wire : List Arrival) :
    wireBytes (recv length wire).2 ≤ wireBytes wire := by
  match wire with
  | [] => simp [recv]
  | .timeout :: rest => simp [recv, wireBytes]
  | .lost :: rest => simp [recv, wireBytes]
  | .bytes bytes :: rest =>
      simp only [recv]
      split
      · exact Nat.le_refl _
      · split
        · simp [wireBytes]
        · simp only [wireBytes, List.length_drop]
          omega

/-- Bytes handed over are few enough, at least one, and leave the wire. -/
theorem recv_bytes
    {length : Nat} {wire rest : List Arrival} {bytes : List UInt8}
    (received : recv length wire = (.bytes bytes, rest)) :
    bytes ≠ [] ∧ bytes.length ≤ length ∧
      wireBytes rest + bytes.length = wireBytes wire := by
  match wire with
  | [] => simp [recv] at received
  | .timeout :: others => simp [recv] at received
  | .lost :: others => simp [recv] at received
  | .bytes stored :: others =>
      simp only [recv] at received
      split at received
      · simp at received
      · rename_i nonempty
        split at received
        · rename_i fits
          simp only [Prod.mk.injEq, Received.bytes.injEq] at received
          obtain ⟨rfl, rfl⟩ := received
          refine ⟨?_, fits, ?_⟩
          · rintro rfl
            simp at nonempty
          · simp [wireBytes, Nat.add_comm]
        · simp only [Prod.mk.injEq, Received.bytes.injEq] at received
          obtain ⟨rfl, rfl⟩ := received
          refine ⟨nonempty, by simp, ?_⟩
          simp only [wireBytes, List.length_drop, List.length_take]
          omega

/-- The fields of `struct webclient_session` that reading a body uses. -/
structure Session where
  socketOpen : Bool
  chunkSz : Int
  chunkOffset : Int
  contentLength : Int
  contentRemainder : Nat
  wire : List Arrival
deriving DecidableEq, Repr

/-- `closesocket(session->socket); session->socket = -1;` -/
def Session.closeSocket (session : Session) : Session :=
  { session with socketOpen := false }

/--
The loop of `webclient_read_line`, with room for `size` more characters and
the last one stored.  No line is returned when `recv` fails; the characters of
a line include its `\r`.
-/
def webclientReadLine :
    Nat → UInt8 → List Arrival → Option (List UInt8) × List Arrival
  | 0, _, wire => (some [], wire)
  | size + 1, last, wire =>
      match recv 1 wire with
      | (.bytes (character :: _), rest) =>
          if character = 10 ∧ last = 13 then (some [], rest)
          else
            let line := webclientReadLine size character rest
            (line.1.map (character :: ·), line.2)
      | (_, rest) => (none, rest)

/-- A character `isspace` accepts. -/
def isSpace (character : UInt8) : Bool :=
  character = 32 || (9 ≤ character && character ≤ 13)

/-- The value of a hexadecimal digit. -/
def hexDigit (character : UInt8) : Option Nat :=
  if 48 ≤ character ∧ character ≤ 57 then some (character.toNat - 48)
  else if 97 ≤ character ∧ character ≤ 102 then
    some (character.toNat - 87)
  else if 65 ≤ character ∧ character ≤ 70 then
    some (character.toNat - 55)
  else none

/-- Accumulate hexadecimal digits up to the first other character. -/
def hexDigits : Nat → List UInt8 → Nat
  | value, [] => value
  | value, character :: rest =>
      match hexDigit character with
      | some digit => hexDigits (16 * value + digit) rest
      | none => value

/-- Drop an optional `0x` or `0X`. -/
def dropHexPrefix : List UInt8 → List UInt8
  | 48 :: 120 :: rest => rest
  | 48 :: 88 :: rest => rest
  | digits => digits

/-- `strtol(line, NULL, 16)` with a 32-bit `long`. -/
def strtol16 (line : List UInt8) : Int :=
  match line.dropWhile isSpace with
  | 45 :: rest => max (-(hexDigits 0 (dropHexPrefix rest) : Int)) (-2147483648)
  | 43 :: rest => min (hexDigits 0 (dropHexPrefix rest) : Int) 2147483647
  | rest => min (hexDigits 0 (dropHexPrefix rest) : Int) 2147483647

/-- The end of `webclient_next_chunk`, where the size has been read. -/
def Session.startChunk (session : Session) (line : List UInt8) : Session :=
  if strtol16 line = 0 then
    { session.closeSocket with chunkSz := -1, chunkOffset := 0 }
  else
    { session with chunkSz := strtol16 line, chunkOffset := 0 }

/-- `webclient_next_chunk`; its return value is not used by the caller. -/
def webclientNextChunk (session : Session) : Session :=
  match webclientReadLine 64 0 session.wire with
  | (some (character :: line), wire) =>
      -- the line left over after a chunk's data is a lone "\r"
      if blockText (character :: line) = [13] then
        match webclientReadLine 64 0 wire with
        | (some (first :: size), wire) =>
            { session with wire := wire }.startChunk (first :: size)
        | (_, wire) => { session with wire := wire }.closeSocket
      else
        { session with wire := wire }.startChunk (character :: line)
  | (_, wire) => { session with wire := wire }.closeSocket

/--
The loop at the end of `webclient_read`: receive until `left` bytes have come
or a receive fails.  The failure is returned with the bytes before it.
-/
def recvAll : Nat → Nat → List Arrival →
    List UInt8 × Received × List Arrival
  | 0, _, wire => ([], .bytes [], wire)
  | fuel + 1, left, wire =>
      match recv left wire with
      | (.bytes bytes, rest) =>
          if left - bytes.length = 0 then (bytes, .bytes [], rest)
          else
            let more := recvAll fuel (left - bytes.length) rest
            (bytes ++ more.1, more.2)
      | (failure, rest) => ([], failure, rest)

/-- The branch of `webclient_read` for a chunked body. -/
def readChunked (session : Session) (length : Nat) :
    Except Int (List UInt8) × Session :=
  let room := (session.chunkSz - session.chunkOffset).toNat
  match recv (if length > room then room else length) session.wire with
  | (.bytes bytes, wire) =>
      let received :=
        { session with
          wire := wire
          chunkOffset := session.chunkOffset + bytes.length }
      if received.chunkOffset ≥ received.chunkSz then
        (.ok bytes, webclientNextChunk received)
      else
        (.ok bytes, received)
  | (.timeout, wire) => (.error (-2), { session with wire := wire })
  | (.closed, wire) =>
      (.error 0, { session with wire := wire }.closeSocket)

/-- The branch of `webclient_read` for a body sent as it is. -/
def readPlain (session : Session) (length : Nat) :
    Except Int (List UInt8) × Session :=
  let length :=
    if session.contentLength > 0 ∧ length > session.contentRemainder then
      session.contentRemainder
    else length
  if length = 0 then (.error 0, session)
  else
    match recvAll length length session.wire with
    | ([], .timeout, wire) => (.error (-2), { session with wire := wire })
    | ([], _, wire) =>
        (.error 0, { session with wire := wire }.closeSocket)
    | (bytes, _, wire) =>
        (.ok bytes,
          { session with
            wire := wire
            contentRemainder :=
              if session.contentLength > 0 then
                session.contentRemainder - bytes.length
              else session.contentRemainder })

/--
`webclient_read`: the bytes stored, when the return value is positive, or the
return value.
-/
def webclientRead (session : Session) (length : Nat) :
    Except Int (List UInt8) × Session :=
  if session.chunkSz < 0 then (.error 0, session)
  else if session.socketOpen = false then (.error (-7), session)
  else if length = 0 then (.error 0, session)
  else if session.chunkSz ≠ 0 then readChunked session length
  else readPlain session length

/-- The bytes of a read, none when its return value is not positive. -/
def stored : Except Int (List UInt8) → List UInt8
  | .ok bytes => bytes
  | .error _ => []

/-! ## `webclient_read` keeps the contract of a byte source -/

theorem readLine_wireBytes
    (size : Nat) (last : UInt8) (wire : List Arrival) :
    wireBytes (webclientReadLine size last wire).2 ≤ wireBytes wire := by
  induction size generalizing last wire with
  | zero => exact Nat.le_refl _
  | succ size induction =>
      have one := recv_wireBytes 1 wire
      simp only [webclientReadLine]
      split
      · rename_i character others rest received
        rw [received] at one
        split
        · exact one
        · exact (induction character rest).trans one
      · rename_i other rest received
        rw [received] at one
        exact one

theorem startChunk_wire (session : Session) (line : List UInt8) :
    (session.startChunk line).wire = session.wire := by
  simp only [Session.startChunk, Session.closeSocket]
  split <;> rfl

theorem nextChunk_wireBytes (session : Session) :
    wireBytes (webclientNextChunk session).wire ≤
      wireBytes session.wire := by
  have first := readLine_wireBytes 64 0 session.wire
  simp only [webclientNextChunk]
  split
  · rename_i character line wire received
    rw [received] at first
    split
    · have second := readLine_wireBytes 64 0 wire
      split
      · rename_i digit size later again
        rw [again] at second
        rw [startChunk_wire]
        exact second.trans first
      · rename_i later again
        rw [again] at second
        exact second.trans first
    · rw [startChunk_wire]
      exact first
  · rename_i other wire received
    rw [received] at first
    exact first

theorem recvAll_spec (fuel left : Nat) (wire : List Arrival) :
    (recvAll fuel left wire).1.length ≤ left ∧
      wireBytes (recvAll fuel left wire).2.2 +
          (recvAll fuel left wire).1.length ≤
        wireBytes wire := by
  induction fuel generalizing left wire with
  | zero => simp [recvAll]
  | succ fuel induction =>
      have never := recv_wireBytes left wire
      simp only [recvAll]
      split
      · rename_i bytes rest received
        obtain ⟨-, short, exact⟩ := recv_bytes received
        split
        · exact ⟨short, exact.le⟩
        · have later := induction (left - bytes.length) rest
          simp only [List.length_append]
          omega
      · rename_i failure rest received
        rw [received] at never
        exact ⟨Nat.zero_le _, never⟩

theorem webclientRead_spec (session : Session) (length : Nat) :
    (stored (webclientRead session length).1).length ≤ length ∧
      wireBytes (webclientRead session length).2.wire +
          (stored (webclientRead session length).1).length ≤
        wireBytes session.wire := by
  simp only [webclientRead]
  split
  · simp [stored]
  split
  · simp [stored]
  split
  · simp [stored]
  split
  · simp only [readChunked]
    generalize request :
      (if length > (session.chunkSz - session.chunkOffset).toNat then
        (session.chunkSz - session.chunkOffset).toNat
      else length) = size
    have fits : size ≤ length := by
      rw [← request]
      split <;> omega
    have never := recv_wireBytes size session.wire
    split
    · rename_i bytes wire received
      obtain ⟨-, short, exact⟩ := recv_bytes received
      split
      · have later := nextChunk_wireBytes
          { session with
            wire := wire
            chunkOffset := session.chunkOffset + bytes.length }
        simp only [stored]
        simp only at later
        omega
      · simp only [stored]
        omega
    · rename_i wire received
      rw [received] at never
      exact ⟨Nat.zero_le _, never⟩
    · rename_i wire received
      rw [received] at never
      exact ⟨Nat.zero_le _, never⟩
  · simp only [readPlain]
    generalize request :
      (if session.contentLength > 0 ∧
          length > session.contentRemainder then
        session.contentRemainder
      else length) = size
    have fits : size ≤ length := by
      rw [← request]
      split <;> omega
    have all := recvAll_spec size size session.wire
    split
    · simp [stored]
    · split
      · rename_i wire received
        rw [received] at all
        exact ⟨Nat.zero_le _, all.2⟩
      · rename_i failure wire notTimeout received
        rw [received] at all
        exact ⟨Nat.zero_le _, all.2⟩
      · rename_i bytes failure wire notTimeout notEmpty received
        rw [received] at all
        exact ⟨all.1.trans fits, all.2⟩

/-- A session is a byte source: `webclient_read(session, p, n)`. -/
def webclientSource : ByteSource Session where
  read session size :=
    (stored (webclientRead session size).1, (webclientRead session size).2)
  bound session size := (webclientRead_spec session size).1
  measure session := wireBytes session.wire
  decreases := by
    intro session size nonempty
    have spec := (webclientRead_spec session size).2
    have positive := List.length_pos_iff.mpr nonempty
    simp only at positive ⊢
    omega

/-! ## Requests -/

/--
The result of `webclient_get`.  Following a redirect closes the session of the
caller, who keeps using it.
-/
structure GetOutcome where
  status : Int
  sessionClosed : Bool
deriving DecidableEq, Repr

/-! ## Saving a response to a file -/

/-- The content of the file that a name opens. -/
abbrev Card := List UInt8 → Option (List UInt8)

/-- The card after a file got new content, with the other names opening it. -/
def Card.store (card : Card) (name : List UInt8)
    (aliases : List UInt8 → Bool) (content : List UInt8) : Card :=
  fun other =>
    if other = name ∨ aliases other = true then some content else card other

@[simp]
theorem Card.store_self
    (card : Card) (name : List UInt8) (aliases : List UInt8 → Bool)
    (content : List UInt8) :
    card.store name aliases content name = some content :=
  if_pos (.inl rfl)

/-- How one call of `webclient_get_file` goes, apart from its own code. -/
structure Download where
  sessionCreated : Bool
  get : GetOutcome
  fileOpened : Bool
  /-- The other names that open the file it creates. -/
  aliases : List UInt8 → Bool
  bufferAllocated : Bool
  /-- How many bytes each `write` can store. -/
  room : Nat → Nat
  /-- The session once the response header has been read. -/
  session : Session
  /-- The complete body of the response, whatever part of it arrives. -/
  body : List UInt8

/-- `WEBCLIENT_RESPONSE_BUFSZ`. -/
def webclientResponseBufsz : Nat := 4096

/--
The pieces that the two loops of `webclient_get_file` write to the file.  For
a known length of 0 the counting loop reads nothing, as in the source.
-/
def downloadPieces (session : Session) : List (List UInt8) :=
  if session.contentLength < 0 then
    drain webclientSource webclientResponseBufsz
      (webclientSource.fuel session) session
  else
    drainUpTo webclientSource webclientResponseBufsz
      session.contentLength.toNat (webclientSource.fuel session) 0 session

/-- What the file holds: nobody looks at how much a `write` has stored. -/
def Download.written (download : Download) : List UInt8 :=
  ((downloadPieces download.session).mapIdx fun index piece =>
    piece.take (download.room index)).flatten

/--
`webclient_get_file`: the return value and the card afterwards.  The file is
created and truncated before the response buffer is allocated and before any
byte of the body arrives.
-/
def webclientGetFile (download : Download) (filename : List UInt8)
    (card : Card) : Except Fault (Int × Card) :=
  if download.sessionCreated = false then
    .ok (-3, card)
  else if download.get.sessionClosed then
    -- the closed session is read for status 200 and closed again otherwise
    .error .closedSession
  else if download.get.status ≠ 200 then
    .ok (-1, card)
  else if download.fileOpened = false then
    .ok (-1, card)
  else if download.bufferAllocated = false then
    .ok (-3, card.store filename download.aliases [])
  else
    .ok (0, card.store filename download.aliases download.written)

end InternetWavPlayer.Webclient
