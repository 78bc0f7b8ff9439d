import InternetWavPlayer.Overlay
import InternetWavPlayer.Webclient

/-!
# The text of a playlist response

`iotb_lcd_show_httpwebserver` reads the body of a response into one buffer of
`GET_RESP_BUFSZ` zero bytes and hands the buffer to `webserver_data_parse` as a
string, without looking at how much was read.  Both read loops pass the start
of the buffer to every call of `webclient_read`.

The loops are over an arbitrary byte source, so that the results hold for every
way in which a transport may cut a body into pieces.
-/

namespace InternetWavPlayer.ResponseText

open InternetWavPlayer.Drain
open InternetWavPlayer.Overlay
open InternetWavPlayer.Webclient

universe u

variable {σ : Type u} (source : ByteSource σ)

/-- `GET_RESP_BUFSZ`. -/
def getRespBufsz : Nat := 1024

/-- The read loop for a response without a content length. -/
def readUntilEnd : Nat → σ → List UInt8 → List UInt8
  | 0, _, buffer => buffer
  | fuel + 1, session, buffer =>
      let bytesRead := source.read session getRespBufsz
      if bytesRead.1 = [] then buffer
      else readUntilEnd fuel bytesRead.2 (overwrite buffer bytesRead.1)

/-- The read loop for a response with a content length. -/
def readCounted (contentLength : Nat) :
    Nat → Nat → σ → List UInt8 → List UInt8
  | 0, _, _, buffer => buffer
  | fuel + 1, contentPos, session, buffer =>
      let bytesRead :=
        source.read session (min getRespBufsz (contentLength - contentPos))
      if bytesRead.1 = [] then buffer
      else if contentPos + bytesRead.1.length < contentLength then
        readCounted contentLength fuel (contentPos + bytesRead.1.length)
          bytesRead.2 (overwrite buffer bytesRead.1)
      else overwrite buffer bytesRead.1

/-- The buffer handed to `webserver_data_parse`, whatever was read. -/
def readResponse (contentLength : Int) (session : σ) : List UInt8 :=
  let buffer := List.replicate getRespBufsz 0
  if contentLength < 0 then
    readUntilEnd source (source.fuel session) session buffer
  else
    readCounted source contentLength.toNat (source.fuel session) 0 session
      buffer

/-- The pieces that the calls of `webclient_read` return, in order. -/
def responsePieces (contentLength : Int) (session : σ) :
    List (List UInt8) :=
  if contentLength < 0 then
    drain source getRespBufsz (source.fuel session) session
  else
    drainUpTo source getRespBufsz contentLength.toNat
      (source.fuel session) 0 session

theorem readUntilEnd_eq_overlay
    (fuel : Nat) (session : σ) (buffer : List UInt8) :
    readUntilEnd source fuel session buffer =
      overlay (drain source getRespBufsz fuel session) buffer := by
  induction fuel generalizing session buffer with
  | zero => rfl
  | succ fuel induction =>
      simp only [readUntilEnd, drain]
      split
      · rfl
      · rw [induction, overlay_cons]

theorem readCounted_eq_overlay
    (contentLength fuel contentPos : Nat) (session : σ)
    (buffer : List UInt8) :
    readCounted source contentLength fuel contentPos session buffer =
      overlay
        (drainUpTo source getRespBufsz contentLength fuel contentPos session)
        buffer := by
  induction fuel generalizing contentPos session buffer with
  | zero => rfl
  | succ fuel induction =>
      simp only [readCounted, drainUpTo]
      split
      · rfl
      · split
        · rw [induction, overlay_cons]
        · rw [overlay_cons, overlay_nil]

/-- The buffer is the overlay of the pieces, all stored at its start. -/
theorem readResponse_eq_overlay (contentLength : Int) (session : σ) :
    readResponse source contentLength session =
      overlay (responsePieces source contentLength session)
        (List.replicate getRespBufsz 0) := by
  simp only [readResponse, responsePieces]
  split
  · exact readUntilEnd_eq_overlay source _ _ _
  · exact readCounted_eq_overlay source _ _ _ _ _

theorem responsePieces_bound (contentLength : Int) (session : σ) :
    ∀ piece ∈ responsePieces source contentLength session,
      piece ≠ [] ∧ piece.length ≤ getRespBufsz := by
  simp only [responsePieces]
  split
  · exact drain_pieces source _ _ _
  · exact drainUpTo_pieces source _ _ _ _ _

/-- The buffer keeps its size: no read stores bytes behind it. -/
theorem length_readResponse (contentLength : Int) (session : σ) :
    (readResponse source contentLength session).length = getRespBufsz := by
  rw [readResponse_eq_overlay, length_overlay, List.length_replicate]
  intro piece member
  rw [List.length_replicate]
  exact (responsePieces_bound source contentLength session piece member).2

/--
The buffer holds exactly the bytes read, in order, followed by a NUL that lies
inside it.
-/
def ExactText (contentLength : Int) (session : σ) : Prop :=
  let bytes := (responsePieces source contentLength session).flatten
  let buffer := readResponse source contentLength session
  bytes.length < buffer.length ∧
    buffer.take bytes.length = bytes ∧
      buffer[bytes.length]? = some 0

theorem pieces_nonempty (contentLength : Int) (session : σ) :
    ∀ piece ∈ responsePieces source contentLength session, piece ≠ [] :=
  fun piece member =>
    (responsePieces_bound source contentLength session piece member).1

theorem blankAfterFirst_of_exactText
    {contentLength : Int} {session : σ}
    (exactly : ExactText source contentLength session) :
    (responsePieces source contentLength session).flatten.length <
        getRespBufsz ∧
      BlankAfterFirst 0 (responsePieces source contentLength session) := by
  simp only [ExactText, length_readResponse] at exactly
  obtain ⟨room, text, -⟩ := exactly
  rw [readResponse_eq_overlay] at text
  exact ⟨room,
    (take_overlay_eq_flatten_iff 0
      (pieces_nonempty source contentLength session) room).mp text⟩

theorem exactText_of_blankAfterFirst
    {contentLength : Int} {session : σ}
    (room : (responsePieces source contentLength session).flatten.length <
      getRespBufsz)
    (blank :
      BlankAfterFirst 0 (responsePieces source contentLength session)) :
    ExactText source contentLength session := by
  simp only [ExactText, length_readResponse]
  rw [readResponse_eq_overlay]
  exact ⟨room,
    (take_overlay_eq_flatten_iff 0
      (pieces_nonempty source contentLength session) room).mpr blank,
    getElem?_overlay_length 0 room⟩

/--
The text handed to `webserver_data_parse` is the text that was read exactly
when it is shorter than the buffer and every piece after the first consists of
NUL bytes stored over NUL bytes.
-/
theorem exactText_iff (contentLength : Int) (session : σ) :
    ExactText source contentLength session ↔
      (responsePieces source contentLength session).flatten.length <
          getRespBufsz ∧
        BlankAfterFirst 0
          (responsePieces source contentLength session) := by
  constructor
  · exact blankAfterFirst_of_exactText source
  · rintro ⟨room, blank⟩
    exact exactText_of_blankAfterFirst source room blank

/--
Two chunks of one byte each, "A" and "B", leave "B" in the buffer.  The wire
holds what follows the size line of the first chunk.
-/
theorem two_chunks_not_exactText :
    ¬ ExactText webclientSource (-1)
      { socketOpen := true
        chunkSz := 1
        chunkOffset := 0
        contentLength := -1
        contentRemainder := 4294967295
        wire :=
          [.bytes
            [65, 13, 10, 49, 13, 10, 66, 13, 10, 48, 13, 10, 13, 10]] } := by
  intro exactly
  obtain ⟨-, blank⟩ := blankAfterFirst_of_exactText _ exactly
  have pieces :
      responsePieces webclientSource (-1)
          { socketOpen := true
            chunkSz := 1
            chunkOffset := 0
            contentLength := -1
            contentRemainder := 4294967295
            wire := [.bytes
              [65, 13, 10, 49, 13, 10, 66, 13, 10, 48, 13, 10, 13, 10]] } =
        [[65], [66]] := by
    decide
  rw [pieces] at blank
  have second := blank.1 [66] (by simp) 66 (by simp)
  exact absurd second (by decide)

/-- A body without NUL bytes is read exactly when it comes in one piece. -/
theorem exactText_solid_iff
    (contentLength : Int) (session : σ)
    (solid : ∀ piece ∈ responsePieces source contentLength session,
      0 ∉ piece) :
    ExactText source contentLength session ↔
      (responsePieces source contentLength session).flatten.length <
          getRespBufsz ∧
        (responsePieces source contentLength session).length ≤ 1 := by
  constructor
  · intro exactly
    obtain ⟨room, blank⟩ := blankAfterFirst_of_exactText source exactly
    exact ⟨room, blank.length_le_one 0
      (pieces_nonempty source contentLength session) solid⟩
  · rintro ⟨room, single⟩
    apply exactText_of_blankAfterFirst source room
    match responsePieces source contentLength session, single with
    | [], _ => exact True.intro
    | [piece], _ => exact blankAfterFirst_singleton 0 piece

end InternetWavPlayer.ResponseText
