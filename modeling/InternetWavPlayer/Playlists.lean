import InternetWavPlayer.Run
import InternetWavPlayer.Pages

/-!
# Playlists between two handlers

What ties `songlist`, `item_num`, `songlist_num` and the heap together
whenever no handler runs, what an element access does then, and what the
release loop of page 3 leaves.
-/

namespace InternetWavPlayer.Playlists

open InternetWavPlayer.Run
open InternetWavPlayer.Songlist
open InternetWavPlayer.Pages

/-! ## Sound playlists -/

/-- The names that an array points to. -/
def songs (array : SongArray) : List Song :=
  array.entries.filterMap id

/-- The blocks of an array: its own and those of its names. -/
def blocks (array : SongArray) : List Nat :=
  array.block :: (songs array).map Song.block

/-- An array with a live name in every element, one of them selected. -/
structure SavedArray (playlist : Playlist) (array : SongArray) :
    Prop where
  full : array.entries = (songs array).map some
  live : ∀ block ∈ blocks array, block ∈ playlist.heap.live
  distinct : (blocks array).Nodup
  inside : playlist.songlistNum < array.entries.length
  short : array.entries.length ≤ 6
  counted : playlist.itemNum = array.entries.length ∨
    playlist.itemNum = 0

/-- The invariant of the playlist statics. -/
structure Sound (playlist : Playlist) : Prop where
  count : 0 ≤ playlist.itemNum
  selection : 0 ≤ playlist.songlistNum
  fresh : ∀ block ∈ playlist.heap.live, block < playlist.heap.next
  saved : ∀ array, playlist.songlist = some array →
    SavedArray playlist array

theorem sound_initial : Sound .initial where
  count := le_rfl
  selection := le_rfl
  fresh := by simp [Playlist.initial]
  saved := by simp [Playlist.initial]

theorem SavedArray.array_live
    {playlist : Playlist} {array : SongArray}
    (saved : SavedArray playlist array) :
    array.block ∈ playlist.heap.live :=
  saved.live array.block List.mem_cons_self

/-! ## Element accesses -/

/-- `songlist` is not null and has an element `index`. -/
def Inside (playlist : Playlist) (index : Int) : Prop :=
  ∃ array, playlist.songlist = some array ∧
    0 ≤ index ∧ index < array.entries.length

theorem Inside.row
    {playlist : Playlist} {index : Int} (sound : Sound playlist)
    (inside : Inside playlist index) : 0 ≤ index ∧ index < 6 := by
  obtain ⟨array, pointer, low, high⟩ := inside
  have short := (sound.saved array pointer).short
  exact ⟨low, by omega⟩

/-- The text of an element, empty where there is none. -/
def textAt (playlist : Playlist) (index : Int) : List UInt8 :=
  match playlist.songlist with
  | none => []
  | some array =>
      match array.entries.getD index.toNat none with
      | none => []
      | some song => blockText song.bytes

/-- An access outside the array is the fault of that access. -/
theorem songlistElement_of_outside
    (playlist : Playlist) (index : Int)
    (live : ∀ array, playlist.songlist = some array →
      array.block ∈ playlist.heap.live)
    (outside : ¬ Inside playlist index) :
    songlistElement playlist index =
      .error (.songlistAccess playlist.allocated index) := by
  rw [songlistElement, Playlist.allocated]
  cases pointer : playlist.songlist with
  | none => rfl
  | some array =>
      dsimp only
      rw [if_neg (by simpa using live array pointer), if_neg]
      · rfl
      · intro range
        exact outside ⟨array, pointer, range⟩

theorem songlistElement_of_inside
    (playlist : Playlist) {array : SongArray} (index : Nat)
    (pointer : playlist.songlist = some array)
    (live : array.block ∈ playlist.heap.live)
    (inside : index < array.entries.length) :
    songlistElement playlist index = .ok (array, index) := by
  rw [songlistElement, pointer]
  dsimp only
  rw [if_neg (by simpa using live), if_pos (by omega), Int.toNat_natCast]

theorem songText_of_outside
    {playlist : Playlist} {index : Int} (sound : Sound playlist)
    (outside : ¬ Inside playlist index) :
    songText playlist index =
      .error (.songlistAccess playlist.allocated index) := by
  have element := songlistElement_of_outside playlist index
    (fun array pointer => (sound.saved array pointer).array_live) outside
  rw [songText, songlistRead, element]
  rfl

theorem songText_of_inside
    {playlist : Playlist} {index : Int} (sound : Sound playlist)
    (inside : Inside playlist index) :
    songText playlist index = .ok (textAt playlist index) := by
  obtain ⟨array, pointer, low, high⟩ := inside
  have saved := sound.saved array pointer
  obtain ⟨position, rfl⟩ := Int.eq_ofNat_of_zero_le low
  have bound : position < (songs array).length := by
    have length := congrArg List.length saved.full
    rw [List.length_map] at length
    omega
  have entry : array.entries.getD position none =
      some (songs array)[position] := by
    rw [saved.full, List.getD_eq_getElem?_getD, List.getElem?_map,
      List.getElem?_eq_getElem bound]
    rfl
  have live : (songs array)[position].block ∈ playlist.heap.live :=
    saved.live _ (List.mem_cons_of_mem _
      (List.mem_map_of_mem (List.getElem_mem bound)))
  rw [songText, songlistRead,
    songlistElement_of_inside _ _ pointer saved.array_live (by omega), textAt,
    pointer, Int.toNat_natCast]
  simp only [bind, Except.bind, pure, Except.pure, entry, if_pos live]

/-! ## The release loop -/

/-- Freeing the names from `cnt` on, all of them live and distinct. -/
theorem freeSongs_ok
    (rest : List Song) (done : List (Option Song)) (playlist : Playlist)
    (block : Nat)
    (pointer : playlist.songlist =
      some ⟨block, done ++ rest.map some⟩)
    (live : ∀ freed ∈ block :: rest.map Song.block,
      freed ∈ playlist.heap.live)
    (distinct : (block :: rest.map Song.block).Nodup) :
    freeSongs rest.length done.length playlist =
      .ok { playlist with
        songlist := some
          ⟨block, done ++ List.replicate rest.length none⟩
        heap :=
          ⟨playlist.heap.live \ (rest.map Song.block).toFinset,
            playlist.heap.next⟩ } := by
  induction rest generalizing done playlist with
  | nil =>
      cases playlist
      simp_all [freeSongs]
  | cons song rest induction =>
      have tailDistinct : (block :: rest.map Song.block).Nodup := by
        simp only [List.map_cons, List.nodup_cons, List.mem_cons,
          not_or] at distinct ⊢
        exact ⟨distinct.1.2, distinct.2.2⟩
      have notFreed : ∀ other ∈ block :: rest.map Song.block,
          other ≠ song.block := by
        intro other member
        simp only [List.map_cons, List.nodup_cons, List.mem_cons,
          not_or] at distinct member
        rcases member with rfl | member
        · exact distinct.1.1
        · rintro rfl
          exact distinct.2.1 member
      have arrayLive : block ∈ playlist.heap.live :=
        live block List.mem_cons_self
      have songLive : song.block ∈ playlist.heap.live :=
        live song.block (by simp)
      have inside : done.length <
          (done ++ (song :: rest).map some).length := by simp
      have read : songlistRead playlist done.length = .ok (some song) := by
        rw [songlistRead,
          songlistElement_of_inside _ _ pointer arrayLive inside]
        simp [bind, Except.bind, pure, Except.pure]
      have freed : rtFree song.block playlist.heap =
          .ok { playlist.heap with
            live := playlist.heap.live.erase song.block } := by
        rw [rtFree, if_pos songLive]
      have written :
          songlistWrite
              { playlist with
                heap :=
                  { playlist.heap with
                    live := playlist.heap.live.erase song.block } }
              done.length none =
            .ok { playlist with
              songlist := some ⟨block, (done ++ [none]) ++ rest.map some⟩
              heap :=
                { playlist.heap with
                  live := playlist.heap.live.erase song.block } } := by
        have element := songlistElement_of_inside
          { playlist with
            heap :=
              { playlist.heap with
                live := playlist.heap.live.erase song.block } }
          done.length pointer
          (Finset.mem_erase.mpr
            ⟨notFreed block List.mem_cons_self, arrayLive⟩) inside
        rw [songlistWrite, element]
        simp [bind, Except.bind, pure, Except.pure]
      rw [List.length_cons, freeSongs, read]
      simp only [bind, Except.bind, freed, written]
      rw [show done.length + 1 = (done ++ [none]).length by simp,
        induction (done ++ [none]) _ rfl ?_ tailDistinct]
      · congr 3
        · simp [List.replicate_succ]
        · simp only [List.map_cons, List.toFinset_cons]
          rw [Finset.sdiff_insert, Finset.erase_sdiff_comm]
      · intro other member
        refine Finset.mem_erase.mpr ⟨notFreed other member, live other ?_⟩
        simp only [List.map_cons, List.mem_cons] at member ⊢
        tauto

/-- The live blocks that the release of page 3 leaves. -/
def released (playlist : Playlist) : Finset Nat :=
  match playlist.songlist with
  | none => playlist.heap.live
  | some array =>
      if playlist.itemNum = 0 then playlist.heap.live.erase array.block
      else playlist.heap.live \ (blocks array).toFinset

/-- The release of a saved playlist frees each of its blocks once. -/
theorem releasePlaylist_of_saved
    (playlist : Playlist) {array : SongArray} (sound : Sound playlist)
    (pointer : playlist.songlist = some array) :
    releasePlaylist playlist =
      .ok { playlist with
        songlist := none
        heap := ⟨released playlist, playlist.heap.next⟩ } := by
  have saved := sound.saved array pointer
  rcases saved.counted with counted | empty
  · have length : (songs array).length = array.entries.length := by
      have equal := congrArg List.length saved.full
      rw [List.length_map] at equal
      exact equal.symm
    have count : playlist.itemNum.toNat = (songs array).length := by
      omega
    have nonempty : playlist.itemNum ≠ 0 := by
      have selected := saved.inside
      have selection := sound.selection
      omega
    have freed := freeSongs_ok (songs array) [] playlist array.block
      (by rw [pointer, List.nil_append, ← saved.full])
      saved.live saved.distinct
    have still : array.block ∈ playlist.heap.live \
        ((songs array).map Song.block).toFinset := by
      rw [Finset.mem_sdiff, List.mem_toFinset]
      exact ⟨saved.array_live, (List.nodup_cons.mp saved.distinct).1⟩
    rw [List.length_nil] at freed
    rw [releasePlaylist, count, freed]
    simp only [bind, Except.bind, rtFree, if_pos still, pure, Except.pure,
      released, pointer, if_neg nonempty, blocks, List.toFinset_cons,
      Finset.sdiff_insert]
  · rw [releasePlaylist, empty]
    simp only [Int.toNat_zero, freeSongs, bind, Except.bind, pointer,
      rtFree, if_pos saved.array_live, pure, Except.pure, released, empty,
      ↓reduceIte]

/-- Without an array, the release reads nothing exactly if there is no count. -/
theorem releasePlaylist_of_null
    (playlist : Playlist) (sound : Sound playlist)
    (pointer : playlist.songlist = none) :
    releasePlaylist playlist =
      if playlist.itemNum = 0 then .ok playlist
      else .error (.songlistAccess none 0) := by
  have outside : ¬ Inside playlist 0 := by
    rintro ⟨array, saved, -⟩
    rw [pointer] at saved
    cases saved
  have count := sound.count
  split
  · rename_i empty
    rw [releasePlaylist, empty]
    simp only [Int.toNat_zero, freeSongs, bind, Except.bind, pointer,
      pure, Except.pure]
  · rename_i nonempty
    obtain ⟨remaining, equal⟩ :
        ∃ remaining, playlist.itemNum.toNat = remaining + 1 :=
      ⟨playlist.itemNum.toNat - 1, by omega⟩
    have element := songlistElement_of_outside playlist 0
      (fun array saved => (sound.saved array saved).array_live) outside
    rw [Playlist.allocated, pointer] at element
    rw [releasePlaylist, equal, freeSongs, songlistRead]
    simp only [Nat.cast_zero, element, bind, Except.bind, Option.map_none]

/-- The release keeps the invariant. -/
theorem Sound.release
    {playlist after : Playlist} (sound : Sound playlist)
    (ran : releasePlaylist playlist = .ok after) : Sound after := by
  cases pointer : playlist.songlist with
  | none =>
      rw [releasePlaylist_of_null _ sound pointer] at ran
      split at ran
      · cases ran
        exact sound
      · cases ran
  | some array =>
      rw [releasePlaylist_of_saved _ sound pointer] at ran
      cases ran
      refine ⟨sound.count, sound.selection, ?_, by simp⟩
      intro block member
      refine sound.fresh block ?_
      simp only [released, pointer] at member
      split at member
      · exact Finset.mem_of_mem_erase member
      · exact Finset.mem_sdiff.mp member |>.1

end InternetWavPlayer.Playlists
