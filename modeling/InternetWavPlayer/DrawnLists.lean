import InternetWavPlayer.Fetching
import InternetWavPlayer.Screen

/-!
# What page 1 draws

Page 1 draws its own texts, blank rows, lines, and the names of a list: each as
it stands in the document while the list is parsed, and as it was saved when
its row is redrawn.
-/

namespace InternetWavPlayer.DrawnLists

open InternetWavPlayer.Display
open InternetWavPlayer.Songlist
open InternetWavPlayer.Pages
open InternetWavPlayer.Playlists
open InternetWavPlayer.Listing
open InternetWavPlayer.Fetching
open InternetWavPlayer.PlainFormats
open InternetWavPlayer.Screen

/-- A call of page 1, given what is drawn as the name of a row. -/
inductive ListCall (drawn : Int → List UInt8 → Prop) : Draw → Prop where
  | clear (color : Color) : ListCall drawn (.clear color)
  | webServer (back fore : Color) :
      ListCall drawn (.string 40 8 32 (.literal "Web Server") back fore)
  | searching (back fore : Color) :
      ListCall drawn (.string 48 80 24 (.literal "Searching...") back fore)
  | blanks (back fore : Color) :
      ListCall drawn (.string 48 80 24 (.literal "            ") back fore)
  | noData (back fore : Color) :
      ListCall drawn (.string 78 80 24 (.literal "No Data") back fore)
  | line (x1 y1 x2 y2 : Nat) (fore : Color) :
      ListCall drawn (.line x1 y1 x2 y2 fore)
  | blank {row : Int} (listed : 0 ≤ row ∧ row < 6) (back fore : Color) :
      ListCall drawn (.string 0 (rowY row) 24 blankRow back fore)
  | name {row : Int} {text : List UInt8} (listed : 0 ≤ row ∧ row < 6)
      (named : drawn row text) (back fore : Color) :
      ListCall drawn (.string 8 (rowY row) 24 (.bytes text) back fore)

theorem rowY_bottom {row : Int} (listed : 0 ≤ row ∧ row < 6) :
    rowY row + 24 ≤ 240 := by
  have small : (52 + 31 * row) % 65536 = 52 + 31 * row :=
    Int.emod_eq_of_lt (by omega) (by omega)
  rw [rowY, u16, small]
  omega

section Kinds

variable {drawn : Int → List UInt8 → Prop} {draw : Draw}

/-- The names of page 1 are its texts from outside. -/
theorem ListCall.text
    (call : ListCall drawn draw) :
    TextCall (fun x y text => ∃ row : Int, (0 ≤ row ∧ row < 6) ∧ x = 8 ∧
      y = rowY row ∧ drawn row text) draw := by
  cases call with
  | clear color => exact .plain trivial
  | line x1 y1 x2 y2 fore => exact .plain trivial
  | webServer back fore =>
      exact .plain ⟨by decide, ⟨_, rfl⟩, by decide⟩
  | searching back fore =>
      exact .plain ⟨by decide, ⟨_, rfl⟩, by decide⟩
  | blanks back fore => exact .plain ⟨by decide, ⟨_, rfl⟩, by decide⟩
  | noData back fore => exact .plain ⟨by decide, ⟨_, rfl⟩, by decide⟩
  | blank listed back fore =>
      exact .plain ⟨by decide, ⟨_, rfl⟩, by decide⟩
  | name listed named back fore =>
      exact .text ⟨_, listed, rfl, rfl, named⟩ back fore

/-- The calls of page 1 return if the names take no argument. -/
theorem ListCall.returns
    (none : ∀ row text, drawn row text → TakesNone text)
    (call : ListCall drawn draw) : Returns draw := by
  refine call.text.returns ?_
  rintro x y text ⟨row, -, -, -, named⟩
  exact none row text named

/-- A name that is printed as it stands and has room in its row. -/
def FitsName (text : List UInt8) : Prop :=
  Verbatim text ∧ text.length ≤ 19

/-- The calls of page 1 stand on their lines if the names fit. -/
theorem ListCall.stands
    (fits : ∀ row text, drawn row text →
      FitsName text ∧ ∀ byte ∈ text, byte ≠ 0)
    (call : ListCall drawn draw) : Stands draw := by
  cases call with
  | clear color => trivial
  | line x1 y1 x2 y2 fore => trivial
  | webServer back fore =>
      exact (FitsLine.literal (by decide) (by decide) (by decide) (by decide)
        (by decide)).stands back fore
  | searching back fore =>
      exact (FitsLine.literal (by decide) (by decide) (by decide) (by decide)
        (by decide)).stands back fore
  | blanks back fore =>
      exact (FitsLine.literal (by decide) (by decide) (by decide) (by decide)
        (by decide)).stands back fore
  | noData back fore =>
      exact (FitsLine.literal (by decide) (by decide) (by decide) (by decide)
        (by decide)).stands back fore
  | blank listed back fore =>
      exact (FitsLine.literal (by decide) (by decide) (by decide) (by decide)
        (rowY_bottom listed)).stands back fore
  | name listed named back fore =>
      obtain ⟨⟨verbatim, short⟩, solid⟩ := fits _ _ named
      have room : FitsLine 8 (rowY _) 24 (fmt (.bytes _)) :=
        ⟨by decide, verbatim, solid, by dsimp only [fmt]; omega,
          rowY_bottom listed⟩
      exact room.stands back fore

end Kinds

section Drawing

variable (drawn : Int → List UInt8 → Prop)

/-- Page 1 clears the screen before it draws its texts. -/
theorem drawWebServer_drew (panel : Panel) :
    Drew (ListCall drawn) (lcdClear white panel) (drawWebServer panel) := by
  have titled : Drew (ListCall drawn) (lcdClear white panel)
      ((lcdClear white panel).add
        (.string 40 8 32 (.literal "Web Server") white black)) :=
    (Drew.of_draws_eq rfl).add _ (.webServer white black)
  exact (titled.add _ (.searching white black)).trans (.of_draws_eq rfl)

theorem drawNoData_drew (panel : Panel) :
    Drew (ListCall drawn) panel (drawNoData panel) := by
  have blanked : Drew (ListCall drawn) panel
      (panel.add (.string 48 80 24 (.literal "            ") white black)) :=
    (Drew.of_draws_eq rfl).add _ (.blanks white black)
  exact (blanked.add _ (.noData white black)).trans (.of_draws_eq rfl)

variable {drawn}

theorem listRow_drew
    (playlist : Playlist) {row : Int} (listed : 0 ≤ row ∧ row < 6)
    (named : drawn row (textAt playlist row)) (back fore : Color)
    (panel : Panel) :
    Drew (ListCall drawn) panel (listRow playlist back fore row panel) := by
  have blanked : Drew (ListCall drawn) panel
      (panel.add (.string 0 (rowY row) 24 blankRow back fore)) :=
    (Drew.of_draws_eq rfl).add _ (.blank listed back fore)
  exact (blanked.add _ (.name listed named back fore)).trans
    (.of_draws_eq rfl)

theorem drawListed_drew
    {cnt : Nat} (listed : cnt < 6) {name : CString}
    (named : drawn cnt name.text) (panel : Panel) :
    Drew (ListCall drawn) panel (drawListed cnt name.text panel) := by
  have shown : Drew (ListCall drawn) panel (panel.add
      (.string 8 (rowY cnt) 24 (.bytes name.text) white black)) :=
    (Drew.of_draws_eq rfl).add _ (.name (by omega) named white black)
  exact (shown.add _ (.line _ _ _ _ gray240)).trans (.of_draws_eq rfl)

theorem drawNames_drew
    (array : List (Option CString)) {cnt : Nat}
    (bound : cnt + array.length ≤ 6)
    (named : ∀ (place : Nat) name, array[place]? = some (some name) →
      drawn (cnt + place : Nat) name.text)
    (panel : Panel) :
    Drew (ListCall drawn) panel (drawNames cnt array panel) := by
  induction array generalizing cnt panel with
  | nil => exact .of_draws_eq rfl
  | cons element rest induction =>
      rw [List.length_cons] at bound
      have later : ∀ (place : Nat) name,
          rest[place]? = some (some name) →
          drawn (cnt + 1 + place : Nat) name.text := by
        intro place name found
        have here := named (place + 1) name found
        rwa [show cnt + (place + 1) = cnt + 1 + place by omega] at here
      cases element with
      | none => exact induction (by omega) later panel
      | some name =>
          have first : Drew (ListCall drawn) panel
              (drawListed cnt name.text panel) :=
            drawListed_drew (by omega) (named 0 name rfl) panel
          exact first.trans (induction (by omega) later _)

/-- Every name of the list is drawn in its row. -/
theorem drawNames_made
    (array : List (Option CString)) (cnt : Nat) (panel : Panel)
    {place : Nat} {name : CString}
    (found : array[place]? = some (some name)) :
    Made (.string 8 (rowY (cnt + place : Nat)) 24 (.bytes name.text) white
      black) panel (drawNames cnt array panel) := by
  have grows : ∀ (array : List (Option CString)) (cnt : Nat)
      (panel : Panel),
      Drew (fun _ => True) panel (drawNames cnt array panel) := by
    intro array
    induction array with
    | nil => exact fun _ _ => .of_draws_eq rfl
    | cons element rest induction =>
        intro cnt panel
        cases element with
        | none => exact induction (cnt + 1) panel
        | some name =>
            have first : Drew (fun _ => True) panel
                (drawListed cnt name.text panel) :=
              ⟨[_, _], rfl, fun _ _ => trivial⟩
            exact first.trans (induction (cnt + 1) _)
  induction array generalizing cnt panel place with
  | nil => cases found
  | cons element rest induction =>
      cases place with
      | zero =>
          cases found
          have here : Made (.string 8 (rowY cnt) 24 (.bytes name.text) white
              black) panel (drawListed cnt name.text panel) :=
            ⟨[_, _], rfl,
              List.mem_cons_of_mem _ (List.mem_singleton_self _)⟩
          exact here.after (grows rest (cnt + 1) _)
      | succ place =>
          have later := fun panel => induction (cnt + 1) panel found
          rw [show cnt + 1 + place = cnt + (place + 1) by omega] at later
          cases element with
          | none => exact later panel
          | some other =>
              have first : Drew (fun _ => True) panel
                  (drawListed cnt other.text panel) :=
                ⟨[_, _], rfl, fun _ _ => trivial⟩
              exact (later _).before first

end Drawing

/-! ## A list and its saved names -/

/-- The element saved from a string. -/
theorem savedSongs_getElem
    (next : Nat) {array : List (Option CString)}
    (strings : ∀ element ∈ array, element.isSome = true)
    {index : Nat} {name : CString}
    (element : array[index]? = some (some name)) :
    (savedSongs next array)[index]? =
      some ⟨next + index, rtMemcpy name 30⟩ := by
  induction array generalizing next index with
  | nil => simp at element
  | cons first rest induction =>
      rw [List.forall_mem_cons] at strings
      obtain ⟨string, rfl⟩ := Option.isSome_iff_exists.mp strings.1
      cases index with
      | zero =>
          rw [List.getElem?_cons_zero, Option.some_inj] at element
          cases element
          rfl
      | succ index =>
          rw [List.getElem?_cons_succ] at element
          rw [savedSongs, List.getElem?_cons_succ,
            induction (next + 1) strings.2 element]
          congr 2
          omega

/-- A saved name is read back up to its first 30 bytes. -/
theorem textAt_listed
    {array : List (Option CString)} (playlist : Playlist)
    (strings : ∀ element ∈ array.take 6, element.isSome = true)
    {row : Nat} {name : CString}
    (element : (array.take 6)[row]? = some (some name)) :
    textAt (listedPlaylist array playlist) row = name.text.take 30 := by
  have saved := savedSongs_getElem (playlist.heap.next + 1) strings element
  simp only [textAt, listedPlaylist, Int.toNat_natCast,
    List.getD_eq_getElem?_getD, List.getElem?_map, saved, Option.map_some,
    Option.getD_some, blockText_rtMemcpy]

theorem text_solid (name : CString) : ∀ byte ∈ name.text, byte ≠ 0 := by
  intro byte member
  obtain ⟨index, inside, rfl⟩ := List.mem_map.mp member
  exact name.nonzero index (List.mem_range.mp inside)

theorem textAt_solid (playlist : Playlist) (index : Int) :
    ∀ byte ∈ textAt playlist index, byte ≠ 0 := by
  intro byte member
  rw [textAt] at member
  split at member
  · cases member
  · split at member
    · cases member
    · simpa using List.mem_takeWhile_imp member

section Parse

variable (drawn : Int → List UInt8 → Prop)
  (array : List (Option CString)) (statics : Statics)

/-- A parse draws each name of its list, and the selected one once more. -/
theorem listedStatics_drew
    (named : ∀ (row : Nat) name,
      (array.take 6)[row]? = some (some name) → drawn row name.text)
    (listed : 0 ≤ statics.playlist.songlistNum ∧
      statics.playlist.songlistNum < 6)
    (selected : drawn statics.playlist.songlistNum
      (textAt (listedPlaylist array statics.playlist)
        statics.playlist.songlistNum)) :
    Drew (ListCall drawn) statics.panel
      (listedStatics array statics).panel := by
  have blanked : Drew (ListCall drawn) statics.panel
      (lcdShowString 48 80 24 (.literal "            ") statics.panel) :=
    (Drew.of_draws_eq rfl).add _ (.blanks _ _)
  have short : 0 + (array.take 6).length ≤ 6 := by
    rw [Nat.zero_add]
    exact List.length_take_le ..
  have names := blanked.trans (drawNames_drew (array.take 6) short
    (by simpa using named) _)
  have lined : Drew (ListCall drawn) statics.panel
      (drawList array statics.panel) :=
    (names.add _ (.line _ _ _ _ _)).trans (.of_draws_eq rfl)
  exact lined.trans (listRow_drew _ listed selected blue white _)

theorem listedStatics_made
    {row : Nat} {name : CString}
    (element : (array.take 6)[row]? = some (some name)) :
    Made (.string 8 (rowY row) 24 (.bytes name.text) white black)
      statics.panel (listedStatics array statics).panel := by
  have made := drawNames_made (array.take 6) 0
    (lcdShowString 48 80 24 (.literal "            ") statics.panel)
    element
  rw [Nat.zero_add] at made
  have blanked : Drew (fun _ => True) statics.panel
      (lcdShowString 48 80 24 (.literal "            ") statics.panel) :=
    (Drew.of_draws_eq rfl).add _ trivial
  have later : Drew (fun _ => True)
      (drawNames 0 (array.take 6) (lcdShowString 48 80 24
        (.literal "            ") statics.panel))
      (listedStatics array statics).panel :=
    ⟨[_, _, _], rfl, fun _ _ => trivial⟩
  exact (made.before blanked).after later

end Parse

/-- The message for an empty list is a string that returns. -/
theorem drawNoData_returns (panel : Panel) :
    Drew Returns panel (drawNoData panel) :=
  (drawNoData_drew (fun _ _ => False) panel).mono
    fun _ call => call.returns fun _ _ => False.elim

/--
The strings drawn for a list return if none of its names takes an argument.
The selected name is drawn once more from its block, so it must be short enough
to be saved as it stands.
-/
theorem listedStatics_returns
    {array : List (Option CString)} {statics : Statics}
    (sound : Sound statics.playlist)
    (strings : ∀ element ∈ array.take 6, element.isSome = true)
    (inside : statics.playlist.songlistNum < (array.take 6).length)
    (takesNone : ∀ (row : Nat) name,
      (array.take 6)[row]? = some (some name) → TakesNone name.text)
    (short : ∀ name, (array.take 6)[statics.playlist.songlistNum.toNat]? =
      some (some name) → name.text.length < 30) :
    Drew Returns statics.panel (listedStatics array statics).panel := by
  have low := sound.selection
  have six : (array.take 6).length ≤ 6 := List.length_take_le ..
  refine (listedStatics_drew (fun _ => TakesNone) array statics takesNone
    ⟨low, by omega⟩ ?_).mono fun draw call => call.returns fun _ _ => id
  obtain ⟨row, selected⟩ := Int.eq_ofNat_of_zero_le low
  rw [selected] at inside short ⊢
  have bound : row < (array.take 6).length := by omega
  obtain ⟨name, found⟩ := Option.isSome_iff_exists.mp
    (strings _ (List.getElem_mem bound))
  have element : (array.take 6)[row]? = some (some name) := by
    rw [List.getElem?_eq_getElem bound, found]
  rw [textAt_listed statics.playlist strings element,
    List.take_of_length_le (Nat.le_of_lt (short name element))]
  exact takesNone row name element

/-- A move draws saved names in their rows. -/
theorem reselects_drew
    (drawn : Int → List UInt8 → Prop) {action : Action} {target : Int}
    {before after : Statics} (sound : Sound before.playlist)
    (selected : Inside before.playlist before.playlist.songlistNum)
    (reselects : Reselects action target before after)
    (named : ∀ row, Inside before.playlist row →
      drawn row (textAt before.playlist row)) :
    Drew (ListCall drawn) before.panel after.panel := by
  obtain ⟨inside, others, insides, rfl⟩ := reselects
  have redrawn : ∀ (rows : List Int) (panel : Panel),
      (∀ row ∈ rows, Inside before.playlist row) →
      Drew (ListCall drawn) panel (unselect before.playlist rows panel) := by
    intro rows
    induction rows with
    | nil => exact fun _ _ => .of_draws_eq rfl
    | cons row rest induction =>
        intro panel all
        rw [List.forall_mem_cons] at all
        exact (listRow_drew _ (all.1.row sound) (named row all.1) white
          black panel).trans (induction _ all.2)
  exact (redrawn (before.playlist.songlistNum :: others) before.panel
    (List.forall_mem_cons.mpr ⟨selected, insides⟩)).trans
      (listRow_drew _ (inside.row sound) (named target inside) blue white _)

end InternetWavPlayer.DrawnLists
