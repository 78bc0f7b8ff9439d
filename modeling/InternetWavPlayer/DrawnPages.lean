import InternetWavPlayer.Dispatch
import InternetWavPlayer.Screen

/-!
# What pages 2 and 3 draw

Page 2 draws the name of the song as its title, at a position computed from
the length of the name; page 3 draws the names of up to six entries of the card,
cut and padded.  All their other texts are their own.
-/

namespace InternetWavPlayer.DrawnPages

open InternetWavPlayer.Run
open InternetWavPlayer.LcdEvent
open InternetWavPlayer.Display
open InternetWavPlayer.Songlist
open InternetWavPlayer.Pages
open InternetWavPlayer.Dispatch
open InternetWavPlayer.Screen

/-! ## Page 2 -/

/-- A string of the program's own. -/
theorem plain_literal
    {size : Nat} {literal : String}
    (sized : size = 16 ∨ size = 24 ∨ size = 32)
    (verbatim : PlainFormats.Verbatim (fmt (.literal literal)))
    (x y : Nat) (back fore : Color) :
    Plain (.string x y size (.literal literal) back fore) :=
  ⟨sized, ⟨literal, rfl⟩, verbatim⟩

theorem drawVolumeBar_drew (volumeValue : Int) (panel : Panel) :
    Drew Plain panel (drawVolumeBar volumeValue panel) := by
  have marks : ∀ (places : List Nat) (panel : Panel),
      Drew Plain panel (places.foldl
        (fun panel (i : Nat) =>
          lcdShowString (64 + 8 * i) 214 16 (.literal ">")
            (if (i : Int) = volumeValue / 5 then
              lcdSetColor white gray240 panel
            else panel)) panel) := by
    intro places
    induction places with
    | nil => exact fun _ => .of_draws_eq rfl
    | cons place rest induction =>
        intro panel
        rw [List.foldl_cons]
        have coloured : Drew Plain panel (if (place : Int) =
            volumeValue / 5 then lcdSetColor white gray240 panel
              else panel) :=
          .of_draws_eq (by split <;> rfl)
        exact (coloured.add _
          (plain_literal (by decide) (by decide) _ _ _ _)).trans
            (induction _)
  exact (Drew.of_draws_eq rfl).trans (marks _ _)

theorem drawWavPlayer_drew (volumeValue : Int) (panel : Panel) :
    Drew Plain panel (drawWavPlayer volumeValue panel) := by
  have cleared : Drew Plain panel (lcdClear white panel) :=
    (Drew.of_draws_eq rfl).add _ trivial
  have titled := cleared.add (.string 40 8 32
    (.literal "Wav Player") white black)
      (plain_literal (by decide) (by decide) _ _ _ _)
  have numbered := titled.add
    (.num 216 214 volumeValue 16 white black) rfl
  have labelled := numbered.add (.string 8 214 16
    (.literal "Volume:") white black)
      (plain_literal (by decide) (by decide) _ _ _ _)
  exact (labelled.trans (.of_draws_eq rfl)).trans
    (drawVolumeBar_drew volumeValue _)

theorem drawAlbum_drew (name : List UInt8) (panel : Panel) :
    Drew Plain panel (drawAlbum name panel) := by
  rw [drawAlbum]
  split
  · exact (Drew.of_draws_eq rfl).add _ trivial
  · have framed : Drew Plain panel (panel.add
        (.rectangle 41 52 199 159 gray240)) :=
      (Drew.of_draws_eq rfl).add _ trivial
    have crossed := (framed.add
      (.line 41 52 199 159 gray240) trivial).add
        (.line 199 52 45 159 gray240) trivial
    exact (crossed.add (.string 72 99 24 (.literal "No Album")
      white gray240) (plain_literal (by decide) (by decide) _ _ _ _)).trans
        (.of_draws_eq rfl)

/-- The title of a song, where page 2 draws it. -/
def IsTitle (name : List UInt8) (x y : Nat) (text : List UInt8) : Prop :=
  x = u16 (titleX name.length) ∧ y = 179 ∧ text = name

theorem drawTitle_drew (name : List UInt8) (panel : Panel) :
    Drew (TextCall (IsTitle name)) panel (drawTitle name panel) :=
  (Drew.of_draws_eq rfl).add _ (.text ⟨rfl, rfl, rfl⟩ _ _)

/-- Entering page 2 draws the selected name as the title, and no other. -/
theorem enterMusic_drew
    {env : Env} {statics after : Statics}
    (ran : enterMusic env statics = .ok after) :
    ∃ name, songText statics.playlist statics.playlist.songlistNum =
        .ok name ∧
      Drew (TextCall (IsTitle name)) statics.panel after.panel := by
  simp only [enterMusic, bind_eq_ok_iff] at ran
  obtain ⟨name, read, ran⟩ := ran
  refine ⟨name, read, ?_⟩
  have album : Drew (TextCall (IsTitle name)) statics.panel
      (drawAlbum name (lcdSetColor white black statics.panel)) :=
    ((Drew.of_draws_eq rfl).trans (drawAlbum_drew name _)).mono
      fun _ => .plain
  split at ran
  · cases ran
    exact (album.trans (.of_draws_eq rfl)).trans (drawTitle_drew name _)
  · have caching := album.add (.string 60 179 24
      (.literal "Caching...") white black)
        (.plain (plain_literal (by decide) (by decide) _ _ _ _))
    simp only [downloadSong] at ran
    split at ran
    · cases ran
    · simp only [bind_eq_ok_iff] at ran
      obtain ⟨⟨result, card⟩, -, ran⟩ := ran
      split at ran
      · cases ran
        have blanked := caching.add (.string 0 179 24 blankRow
          white black) (.plain (plain_literal (by decide) (by decide) _ _ _ _))
        refine (blanked.trans (.of_draws_eq ?_)).trans
          (drawTitle_drew name _)
        rw [startPlayback, logRequest]
        split <;> rfl
      · cases ran
        refine caching.trans (.of_draws_eq ?_)
        rw [logRequest]
        split <;> rfl

theorem volumeDown_drew (statics : Statics) :
    Drew Plain statics.panel (volumeDown statics).panel := by
  rw [volumeDown]
  split
  · have marked : Drew Plain statics.panel (statics.panel.add (.string
        (u16 (224 - 8 * (100 / 5 - (statics.volumeValue - 5) / 5))) 214 16
          (.literal ">") white gray240)) :=
      (Drew.of_draws_eq rfl).add _
        (plain_literal (by decide) (by decide) _ _ _ _)
    exact (marked.add (.num 216 214 (statics.volumeValue - 5) 16
      white black) rfl).trans (.of_draws_eq rfl)
  · exact .of_draws_eq rfl

theorem volumeUp_drew (statics : Statics) :
    Drew Plain statics.panel (volumeUp statics).panel := by
  rw [volumeUp]
  split
  · have marked : Drew Plain statics.panel (statics.panel.add (.string
        (u16 (64 + 8 * ((statics.volumeValue + 5) / 5 - 1))) 214 16
          (.literal ">") white red)) :=
      (Drew.of_draws_eq rfl).add _
        (plain_literal (by decide) (by decide) _ _ _ _)
    exact (marked.add (.num 216 214 (statics.volumeValue + 5) 16
      white black) rfl).trans (.of_draws_eq rfl)
  · exact .of_draws_eq rfl

/-! ## Page 3 -/

/-- An entry of the directory, where page 3 draws it. -/
def IsEntry (directory : Option (List Dirent)) (x y : Nat)
    (text : List UInt8) : Prop :=
  ∃ entries entry, directory = some entries ∧ entry ∈ entries ∧
    ∃ line < 6, x = 8 ∧ y = rowY (line : Nat) ∧
      text = snprintf16 entry.dName

theorem drawType_drew (dType : Nat) (line : Int) (panel : Panel) :
    Drew Plain panel (drawType dType line panel) := by
  rw [drawType]
  split
  · exact (Drew.of_draws_eq rfl).add _
      (plain_literal (by decide) (by decide) _ _ _ _)
  · split
    · exact (Drew.of_draws_eq rfl).add _
        (plain_literal (by decide) (by decide) _ _ _ _)
    · exact .of_draws_eq rfl

theorem drawEntry_drew
    {directory : Option (List Dirent)} {entries : List Dirent}
    {entry : Dirent} (opened : directory = some entries)
    (member : entry ∈ entries) {line : Nat} (room : line < 6)
    (panel : Panel) :
    Drew (TextCall (IsEntry directory)) panel
      (drawEntry entry line panel) := by
  have named : Drew (TextCall (IsEntry directory)) panel
      (panel.add (.string 8 (rowY line) 24
        (.bytes (snprintf16 entry.dName)) white black)) :=
    (Drew.of_draws_eq rfl).add _
      (.text ⟨entries, entry, opened, member, line, room, rfl, rfl, rfl⟩
        _ _)
  have typed := (named.trans (.of_draws_eq rfl)).trans
    ((drawType_drew entry.dType line (lcdShowString 8 (52 + 31 * line) 24
      (.bytes (snprintf16 entry.dName)) (lcdSetColor white black panel))).mono
        fun _ => .plain)
  have lined : ∀ (panel : Panel) (x1 y1 x2 y2 x3 y3 x4 y4 : Int),
      Drew Plain panel (lcdDrawLine x1 y1 x2 y2
        (lcdDrawLine x3 y3 x4 y4 (lcdSetColor white gray240 panel))) :=
    fun panel _ _ _ _ _ _ _ _ =>
      ⟨[_, _], rfl, by simp [Plain]⟩
  exact typed.trans ((lined _ _ _ _ _ _ _ _ _).mono fun _ => .plain)

theorem drawEntries_drew
    {directory : Option (List Dirent)} {all : List Dirent}
    (opened : directory = some all) (entries : List Dirent)
    (among : ∀ entry ∈ entries, entry ∈ all) {line : Nat}
    (room : line < 6) (panel : Panel) :
    Drew (TextCall (IsEntry directory)) panel
      (drawEntries line entries panel) := by
  induction entries generalizing line panel with
  | nil => exact .of_draws_eq rfl
  | cons entry rest induction =>
      rw [List.forall_mem_cons] at among
      have drawn := drawEntry_drew opened among.1 room panel
      rw [drawEntries]
      split
      · exact drawn
      · exact drawn.trans (induction among.2 (by omega) _)

theorem drawDirectory_drew
    (directory : Option (List Dirent)) (panel : Panel) :
    Drew (TextCall (IsEntry directory)) panel
      (drawDirectory directory panel) := by
  cases directory with
  | none =>
      have first : Drew (TextCall (IsEntry none)) panel (panel.add
          (.string 24 (52 + 27 * 2) 24 (.literal " Insert SD card")
            panel.backColor panel.foreColor)) :=
        (Drew.of_draws_eq rfl).add _
          (.plain (plain_literal (by decide) (by decide) _ _ _ _))
      exact (first.add (.string 24 (52 + 27 * 3) 24
        (.literal " before power-on") panel.backColor panel.foreColor)
          (.plain (plain_literal (by decide) (by decide) _ _ _ _))).trans
            (.of_draws_eq rfl)
  | some entries =>
      exact drawEntries_drew rfl entries (fun _ => id) (by decide) panel

theorem drawFileSystem_drew (panel : Panel) :
    Drew Plain panel (drawFileSystem panel) := by
  have cleared : Drew Plain panel (lcdClear white panel) :=
    (Drew.of_draws_eq rfl).add _ trivial
  exact (cleared.add (.string 32 8 32 (.literal "File System")
    white black) (plain_literal (by decide) (by decide) _ _ _ _)).trans
      (.of_draws_eq rfl)

end InternetWavPlayer.DrawnPages
