import Mathlib.Data.List.GetD
import Mathlib.Tactic

/-!
# Successive writes to the start of one buffer

A reader that stores every piece it receives at the start of the same buffer
leaves the overlay of the pieces, not their concatenation.  This file decides
exactly when the two agree: on a blank buffer, when every piece after the first
is blank and lies over a blank part of the first.

The bytes are of an arbitrary type with a distinguished blank value.
-/

namespace InternetWavPlayer.Overlay

universe u

variable {α : Type u} (blank : α)

/-- Store a piece at the start of a buffer. -/
def overwrite (buffer piece : List α) : List α :=
  piece ++ buffer.drop piece.length

/-- Store pieces one after the other, all at the start. -/
def overlay (pieces : List (List α)) (buffer : List α) : List α :=
  pieces.foldl overwrite buffer

@[simp]
theorem overlay_nil (buffer : List α) : overlay [] buffer = buffer :=
  rfl

@[simp]
theorem overlay_cons
    (piece : List α) (pieces : List (List α)) (buffer : List α) :
    overlay (piece :: pieces) buffer =
      overlay pieces (overwrite buffer piece) :=
  rfl

theorem length_overwrite
    {buffer piece : List α} (fits : piece.length ≤ buffer.length) :
    (overwrite buffer piece).length = buffer.length := by
  rw [overwrite, List.length_append, List.length_drop]
  omega

theorem length_overlay
    {pieces : List (List α)} {buffer : List α}
    (fits : ∀ piece ∈ pieces, piece.length ≤ buffer.length) :
    (overlay pieces buffer).length = buffer.length := by
  induction pieces generalizing buffer with
  | nil => rfl
  | cons piece pieces induction =>
      have same : (overwrite buffer piece).length = buffer.length :=
        length_overwrite (fits piece List.mem_cons_self)
      rw [overlay_cons, induction, same]
      intro other member
      rw [same]
      exact fits other (List.mem_cons_of_mem piece member)

theorem getD_overwrite_inside
    (buffer : List α) {piece : List α} {index : Nat}
    (inside : index < piece.length) :
    (overwrite buffer piece).getD index blank = piece.getD index blank := by
  rw [overwrite, List.getD_append _ _ _ _ inside]

theorem getD_overwrite_outside
    (buffer : List α) {piece : List α} {index : Nat}
    (outside : piece.length ≤ index) :
    (overwrite buffer piece).getD index blank =
      buffer.getD index blank := by
  rw [overwrite, List.getD_append_right _ _ _ _ outside,
    List.getD_eq_getElem?_getD, List.getD_eq_getElem?_getD,
    List.getElem?_drop]
  congr 2
  omega

/-- Positions that no piece reaches keep the buffer's value. -/
theorem getD_overlay_uncovered
    {pieces : List (List α)} (buffer : List α) {index : Nat}
    (uncovered : ∀ piece ∈ pieces, piece.length ≤ index) :
    (overlay pieces buffer).getD index blank =
      buffer.getD index blank := by
  induction pieces generalizing buffer with
  | nil => rfl
  | cons piece pieces induction =>
      rw [overlay_cons,
        induction _ fun other member =>
          uncovered other (List.mem_cons_of_mem piece member),
        getD_overwrite_outside blank buffer
          (uncovered piece List.mem_cons_self)]

/-- A position that some piece reaches holds the value of one such piece. -/
theorem getD_overlay_covered
    {pieces : List (List α)} (buffer : List α) {index : Nat}
    (covered : ∃ piece ∈ pieces, index < piece.length) :
    ∃ before piece after,
      pieces = before ++ piece :: after ∧ index < piece.length ∧
        (overlay pieces buffer).getD index blank =
          piece.getD index blank := by
  induction pieces generalizing buffer with
  | nil => simp at covered
  | cons head pieces induction =>
      by_cases later : ∃ piece ∈ pieces, index < piece.length
      · obtain ⟨before, piece, after, split, inside, value⟩ :=
          induction (overwrite buffer head) later
        refine ⟨head :: before, piece, after, ?_, inside, value⟩
        rw [split, List.cons_append]
      · have inside : index < head.length := by
          obtain ⟨piece, member, reaches⟩ := covered
          rcases List.mem_cons.mp member with rfl | member
          · exact reaches
          · exact absurd ⟨piece, member, reaches⟩ later
        refine ⟨[], head, pieces, rfl, inside, ?_⟩
        rw [overlay_cons, getD_overlay_uncovered blank _,
          getD_overwrite_inside blank buffer inside]
        intro piece member
        by_contra reaches
        exact later ⟨piece, member, by omega⟩

theorem getD_replicate_blank (size index : Nat) :
    (List.replicate size blank).getD index blank = blank := by
  rw [List.getD_eq_getElem?_getD, List.getElem?_replicate]
  split <;> rfl

/-! ## When the overlay is the concatenation -/

/--
The later pieces are blank, and so is the part of the first piece under each of
them.
-/
def BlankAfterFirst : List (List α) → Prop
  | [] => True
  | first :: later =>
      (∀ piece ∈ later, ∀ byte ∈ piece, byte = blank) ∧
        ∀ piece ∈ later, ∀ index < piece.length,
          first.getD index blank = blank

/-- A lone piece satisfies the condition vacuously. -/
theorem blankAfterFirst_singleton (piece : List α) :
    BlankAfterFirst blank [piece] := by
  simp [BlankAfterFirst]

/-- Two or more non-empty pieces without a blank byte violate the condition. -/
theorem BlankAfterFirst.length_le_one
    {pieces : List (List α)}
    (nonempty : ∀ piece ∈ pieces, piece ≠ [])
    (solid : ∀ piece ∈ pieces, blank ∉ piece)
    (holds : BlankAfterFirst blank pieces) :
    pieces.length ≤ 1 := by
  match pieces with
  | [] => simp
  | [_] => simp
  | first :: second :: later =>
      have member : second ∈ first :: second :: later := by simp
      obtain ⟨byte, rest, shape⟩ :=
        List.exists_cons_of_ne_nil (nonempty second member)
      have byteMember : byte ∈ second := by simp [shape]
      have equal : byte = blank :=
        holds.1 second (by simp) byte byteMember
      exact absurd (equal ▸ byteMember) (solid second member)

theorem getD_eq_blank_of_forall
    {bytes : List α} (allBlank : ∀ byte ∈ bytes, byte = blank)
    (index : Nat) :
    bytes.getD index blank = blank := by
  rw [List.getD_eq_getElem?_getD]
  cases found : bytes[index]? with
  | none => rfl
  | some byte =>
      exact allBlank byte (List.mem_of_getElem? found)

/-- Position by position, the blank condition makes the two agree. -/
theorem getD_overlay_eq_flatten
    {first : List α} {later : List (List α)} (size : Nat)
    (holds : BlankAfterFirst blank (first :: later)) (index : Nat) :
    (overlay (first :: later) (List.replicate size blank)).getD
        index blank =
      (first :: later).flatten.getD index blank := by
  obtain ⟨laterBlank, underBlank⟩ := holds
  have flatBlank : ∀ byte ∈ later.flatten, byte = blank := by
    intro byte member
    obtain ⟨piece, pieceMember, byteMember⟩ := List.mem_flatten.mp member
    exact laterBlank piece pieceMember byte byteMember
  have flat :
      (first :: later).flatten.getD index blank =
        first.getD index blank := by
    rw [List.flatten_cons]
    by_cases inside : index < first.length
    · rw [List.getD_append _ _ _ _ inside]
    · have outside : first.length ≤ index := Nat.le_of_not_lt inside
      rw [List.getD_append_right _ _ _ _ outside,
        getD_eq_blank_of_forall blank flatBlank,
        List.getD_eq_default _ _ outside]
  rw [flat, overlay_cons]
  by_cases covered : ∃ piece ∈ later, index < piece.length
  · obtain ⟨before, piece, after, split, inside, value⟩ :=
      getD_overlay_covered blank
        (overwrite (List.replicate size blank) first) covered
    have member : piece ∈ later := by simp [split]
    rw [value, underBlank piece member index inside,
      getD_eq_blank_of_forall blank (laterBlank piece member)]
  · rw [getD_overlay_uncovered blank _ (by
      intro piece member
      by_contra reaches
      exact covered ⟨piece, member, by omega⟩)]
    by_cases inside : index < first.length
    · exact getD_overwrite_inside blank _ inside
    · have outside : first.length ≤ index := Nat.le_of_not_lt inside
      rw [getD_overwrite_outside blank _ outside,
        getD_replicate_blank, List.getD_eq_default _ _ outside]

/--
If overlay and concatenation agree, nothing beyond the first piece is
non-blank.  The induction runs down from the end of the concatenation: a
non-blank value there was copied from a later position.
-/
theorem flatten_blank_beyond_first
    {first : List α} {later : List (List α)} {size : Nat}
    (nonempty : first ≠ [])
    (agree : ∀ index < (first :: later).flatten.length,
      (overlay (first :: later) (List.replicate size blank)).getD
          index blank =
        (first :: later).flatten.getD index blank)
    (distance : Nat) {index : Nat}
    (near : (first :: later).flatten.length ≤ index + distance)
    (beyond : first.length ≤ index) :
    (first :: later).flatten.getD index blank = blank := by
  induction distance using Nat.strong_induction_on generalizing index with
  | _ distance induction =>
      by_cases inside : index < (first :: later).flatten.length
      · rw [← agree index inside]
        by_cases covered :
            ∃ piece ∈ first :: later, index < piece.length
        · obtain ⟨before, piece, after, split, reaches, value⟩ :=
            getD_overlay_covered blank (List.replicate size blank) covered
          rw [value]
          cases before with
          | nil =>
              simp only [List.nil_append, List.cons.injEq] at split
              obtain ⟨rfl, -⟩ := split
              omega
          | cons other before =>
              simp only [List.cons_append, List.cons.injEq] at split
              obtain ⟨rfl, split⟩ := split
              have positive : 0 < first.length :=
                List.length_pos_iff.mpr nonempty
              have position :
                  (first :: later).flatten.getD
                      (first.length + before.flatten.length + index)
                      blank =
                    piece.getD index blank := by
                rw [split]
                simp only [List.flatten_cons, List.flatten_append]
                rw [List.getD_append_right _ _ _ _ (by omega),
                  List.getD_append_right _ _ _ _ (by omega),
                  List.getD_append _ _ _ _ (by omega)]
                congr 1
                omega
              rw [← position]
              exact induction
                (distance - (first.length + before.flatten.length))
                (by omega) (by omega) (by omega)
        · rw [getD_overlay_uncovered blank _ (by
            intro piece member
            by_contra reaches
            exact covered ⟨piece, member, by omega⟩)]
          exact getD_replicate_blank blank size index
      · exact List.getD_eq_default _ _ (by omega)

theorem blankAfterFirst_of_agree
    {pieces : List (List α)} (size : Nat)
    (nonempty : ∀ piece ∈ pieces, piece ≠ [])
    (agree : ∀ index < pieces.flatten.length,
      (overlay pieces (List.replicate size blank)).getD index blank =
        pieces.flatten.getD index blank) :
    BlankAfterFirst blank pieces := by
  cases pieces with
  | nil => exact True.intro
  | cons first later =>
      have firstNonempty : first ≠ [] := nonempty first List.mem_cons_self
      have beyond : ∀ index, first.length ≤ index →
          (first :: later).flatten.getD index blank = blank := by
        intro index outside
        exact flatten_blank_beyond_first blank firstNonempty agree
          (first :: later).flatten.length (by omega) outside
      have laterBlank : ∀ piece ∈ later, ∀ byte ∈ piece,
          byte = blank := by
        intro piece member byte byteMember
        have inFlat : byte ∈ later.flatten :=
          List.mem_flatten.mpr ⟨piece, member, byteMember⟩
        obtain ⟨index, bound, found⟩ := List.mem_iff_getElem.mp inFlat
        have value := beyond (first.length + index) (by omega)
        rw [List.flatten_cons,
          List.getD_append_right _ _ _ _ (by omega),
          Nat.add_sub_cancel_left, List.getD_eq_getElem _ _ bound,
          found] at value
        exact value
      refine ⟨laterBlank, ?_⟩
      intro piece member index reaches
      by_cases inside : index < first.length
      · have total : index < (first :: later).flatten.length := by
          rw [List.flatten_cons, List.length_append]
          omega
        have here := agree index total
        rw [List.flatten_cons, List.getD_append _ _ _ _ inside] at here
        rw [← here, overlay_cons]
        obtain ⟨before, other, after, split, -, value⟩ :=
          getD_overlay_covered blank
            (overwrite (List.replicate size blank) first)
            ⟨piece, member, reaches⟩
        rw [value]
        exact getD_eq_blank_of_forall blank
          (laterBlank other (by simp [split])) index
      · exact List.getD_eq_default _ _ (by omega)

/--
On a blank buffer with room to spare, the overlay starts with the whole
concatenation exactly when the later pieces are blank over blank.
-/
theorem take_overlay_eq_flatten_iff
    {pieces : List (List α)} {size : Nat}
    (nonempty : ∀ piece ∈ pieces, piece ≠ [])
    (room : pieces.flatten.length < size) :
    (overlay pieces (List.replicate size blank)).take
        pieces.flatten.length = pieces.flatten ↔
      BlankAfterFirst blank pieces := by
  have fits : ∀ piece ∈ pieces,
      piece.length ≤ (List.replicate size blank).length := by
    intro piece member
    have sublist : piece.length ≤ pieces.flatten.length :=
      (List.sublist_flatten_of_mem member).length_le
    rw [List.length_replicate]
    omega
  have full : (overlay pieces (List.replicate size blank)).length =
      size := by
    rw [length_overlay fits, List.length_replicate]
  constructor
  · intro equal
    apply blankAfterFirst_of_agree blank size nonempty
    intro index inside
    rw [List.getD_eq_getElem?_getD, List.getD_eq_getElem?_getD]
    conv_rhs => rw [← equal]
    rw [List.getElem?_take_of_lt inside]
  · intro holds
    apply List.ext_getElem
    · rw [List.length_take, full]
      omega
    · intro index left right
      have agree :
          (overlay pieces (List.replicate size blank)).getD index blank =
            pieces.flatten.getD index blank := by
        cases pieces with
        | nil => simp at right
        | cons first later =>
            exact getD_overlay_eq_flatten blank size holds index
      rw [List.getElem_take]
      rw [List.getD_eq_getElem _ _ (by omega),
        List.getD_eq_getElem _ _ right] at agree
      exact agree

/-- The buffer still ends the concatenation with a blank. -/
theorem getElem?_overlay_length
    {pieces : List (List α)} {size : Nat}
    (room : pieces.flatten.length < size) :
    (overlay pieces (List.replicate size blank))[pieces.flatten.length]? =
      some blank := by
  have short : ∀ piece ∈ pieces,
      piece.length ≤ pieces.flatten.length := fun piece member =>
    (List.sublist_flatten_of_mem member).length_le
  have full : (overlay pieces (List.replicate size blank)).length =
      size := by
    rw [length_overlay, List.length_replicate]
    intro piece member
    have bounded := short piece member
    rw [List.length_replicate]
    omega
  have value :=
    getD_overlay_uncovered blank (List.replicate size blank) short
  rw [getD_replicate_blank, List.getD_eq_getElem _ _ (by omega)] at value
  rw [List.getElem?_eq_getElem (by omega), value]

end InternetWavPlayer.Overlay
