import InternetWavPlayer.Run
import InternetWavPlayer.Vsnprintf

/-!
# Texts from outside as formats

A text that is handed over as a format, with no arguments behind it, is printed
as it stands exactly when no `%` in it is followed by a character that the
formatter takes for more than itself.  Any other text loses characters or asks
for an argument.
-/

namespace InternetWavPlayer.PlainFormats

open InternetWavPlayer.Run
open InternetWavPlayer.Vsnprintf

/-- The flags. -/
def flagBytes : List UInt8 :=
  [ascii '-', ascii '+', ascii ' ', ascii '#', ascii '0']

/-- The characters that a directive may have before its conversion. -/
def modifierBytes : List UInt8 :=
  flagBytes ++
    [ascii '1', ascii '2', ascii '3', ascii '4', ascii '5', ascii '6',
      ascii '7', ascii '8', ascii '9', ascii '*', ascii '.', ascii 'h',
      ascii 'l']

/-- The conversions that take an argument. -/
def conversionBytes : List UInt8 :=
  [ascii 'c', ascii 's', ascii 'p', ascii 'o', ascii 'X', ascii 'x',
    ascii 'd', ascii 'i', ascii 'u']

/-- The characters that do not stand for themselves after a `%`. -/
def directiveBytes : List UInt8 :=
  modifierBytes ++ conversionBytes ++ [ascii '%']

/-- No `%` of the text is followed by a character of a directive. -/
def Verbatim : List UInt8 → Prop
  | [] => True
  | [_] => True
  | character :: next :: rest =>
      (character = ascii '%' → next ∉ directiveBytes) ∧
        Verbatim (next :: rest)

instance decidableVerbatim : DecidablePred Verbatim
  | [] => inferInstanceAs (Decidable True)
  | [_] => inferInstanceAs (Decidable True)
  | character :: next :: rest =>
      have := decidableVerbatim (next :: rest)
      inferInstanceAs (Decidable
        ((character = ascii '%' → next ∉ directiveBytes) ∧
          Verbatim (next :: rest)))

/-- A directive with a width, a precision or a conversion from outside. -/
def TakesArgument (found : Directive) : Prop :=
  found.fieldWidth = .argument ∨ found.precision = .argument ∨
    ∃ conversion, found.conversion = some conversion ∧
      conversion ∈ conversionBytes

/-! ## The kinds of characters -/

theorem kinds_of_modifier :
    ∀ character ∈ modifierBytes,
      character ∈ flagBytes ∨
        (isDigit character = true ∨ character = ascii '*') ∨
        character = ascii '.' ∨
        character = ascii 'h' ∨ character = ascii 'l' := by
  decide +kernel

theorem modifier_of_digit {character : UInt8}
    (digit : isDigit character = true) : character ∈ modifierBytes := by
  have all : ∀ code : Fin 256, isDigit (UInt8.ofFin code) = true →
      UInt8.ofFin code ∈ modifierBytes := by
    decide +kernel
  exact all character.toFin digit

/-! ## The parts of a directive -/

theorem takeFlags_length (flags : Flags) (fmt : List UInt8) :
    (takeFlags flags fmt).2.length ≤ fmt.length := by
  induction fmt generalizing flags with
  | nil => exact Nat.le_refl _
  | cons character rest induction =>
      rw [takeFlags]
      repeat' split
      all_goals first
        | exact (induction _).trans (Nat.le_succ _)
        | exact Nat.le_refl _

/-- A flag is taken. -/
theorem takeFlags_shorter
    (flags : Flags) {character : UInt8} (rest : List UInt8)
    (flag : character ∈ flagBytes) :
    (takeFlags flags (character :: rest)).2.length ≤ rest.length := by
  rw [takeFlags]
  repeat' split
  all_goals first
    | exact takeFlags_length _ rest
    | simp_all [flagBytes]

/-- Another character ends the flags. -/
theorem takeFlags_stop
    (flags : Flags) {character : UInt8} (rest : List UInt8)
    (other : character ∉ flagBytes) :
    takeFlags flags (character :: rest) = (flags, character :: rest) := by
  simp only [flagBytes, List.mem_cons, List.not_mem_nil, or_false,
    not_or] at other
  obtain ⟨minus, plus, space, hash, zero⟩ := other
  rw [takeFlags, if_neg minus, if_neg plus, if_neg space, if_neg hash,
    if_neg zero]

theorem skipAtoi_length (i : BitVec 32) (fmt : List UInt8) :
    (skipAtoi i fmt).2.length ≤ fmt.length := by
  induction fmt generalizing i with
  | nil => exact Nat.le_refl _
  | cons character rest induction =>
      rw [skipAtoi]
      split
      · exact (induction _).trans (Nat.le_succ _)
      · exact Nat.le_refl _

theorem takeCount_length (missing : Count) (fmt : List UInt8) :
    (takeCount missing fmt).2.length ≤ fmt.length := by
  cases fmt with
  | nil => exact Nat.le_refl _
  | cons character rest =>
      rw [takeCount]
      split
      · exact skipAtoi_length 0 (character :: rest)
      · split
        · exact Nat.le_succ _
        · exact Nat.le_refl _

/-- A digit or a `*` is taken. -/
theorem takeCount_shorter
    (missing : Count) {character : UInt8} (rest : List UInt8)
    (count : isDigit character = true ∨ character = ascii '*') :
    (takeCount missing (character :: rest)).2.length ≤ rest.length := by
  rw [takeCount]
  by_cases digit : isDigit character = true
  · rw [if_pos digit]
    show (skipAtoi 0 (character :: rest)).2.length ≤ rest.length
    rw [skipAtoi, if_pos digit]
    exact skipAtoi_length _ rest
  · rw [if_neg digit, if_pos (count.resolve_left digit)]

theorem takeCount_stop
    (missing : Count) {character : UInt8} (rest : List UInt8)
    (digit : ¬ isDigit character = true)
    (star : character ≠ ascii '*') :
    takeCount missing (character :: rest) =
      (missing, character :: rest) := by
  rw [takeCount, if_neg digit, if_neg star]

theorem takePrecision_length (fmt : List UInt8) :
    (takePrecision fmt).2.length ≤ fmt.length := by
  cases fmt with
  | nil => exact Nat.le_refl _
  | cons character rest =>
      rw [takePrecision]
      split
      · exact (takeCount_length _ rest).trans (Nat.le_succ _)
      · exact Nat.le_refl _

theorem takeQualifier_length (fmt : List UInt8) :
    (takeQualifier fmt).2.length ≤ fmt.length := by
  cases fmt with
  | nil => exact Nat.le_refl _
  | cons character rest =>
      rw [takeQualifier]
      split
      · exact Nat.le_succ _
      · exact Nat.le_refl _

/-! ## Directives -/

/-- What is left before the conversion character. -/
def beforeConversion (fmt : List UInt8) : List UInt8 :=
  (takeQualifier (takePrecision (takeCount .absent
    (takeFlags .clear fmt).2).2).2).2

theorem directive_conversion (fmt : List UInt8) :
    (directive fmt).1.conversion = (beforeConversion fmt).head? ∧
      (directive fmt).2 = (beforeConversion fmt).tail := by
  rw [directive, beforeConversion]
  dsimp only
  cases (takeQualifier (takePrecision (takeCount .absent
    (takeFlags .clear fmt).2).2).2).2 with
  | nil => exact ⟨rfl, rfl⟩
  | cons character rest => exact ⟨rfl, rfl⟩

theorem beforeConversion_length (fmt : List UInt8) :
    (beforeConversion fmt).length ≤ fmt.length :=
  (takeQualifier_length _).trans ((takePrecision_length _).trans
    ((takeCount_length _ _).trans (takeFlags_length _ fmt)))

/-- A directive does not reach behind its format. -/
theorem directive_length (fmt : List UInt8) :
    (directive fmt).2.length ≤ fmt.length := by
  rw [(directive_conversion fmt).2, List.length_tail]
  exact (Nat.sub_le _ _).trans (beforeConversion_length fmt)

/-- A modifier is taken before the conversion. -/
theorem beforeConversion_shorter
    {character : UInt8} (rest : List UInt8)
    (modifier : character ∈ modifierBytes) :
    (beforeConversion (character :: rest)).length ≤ rest.length := by
  by_cases flag : character ∈ flagBytes
  · exact (takeQualifier_length _).trans ((takePrecision_length _).trans
      ((takeCount_length _ _).trans (takeFlags_shorter _ rest flag)))
  · have kinds := (kinds_of_modifier character modifier).resolve_left flag
    rw [beforeConversion, takeFlags_stop _ rest flag]
    by_cases count : isDigit character = true ∨ character = ascii '*'
    · exact (takeQualifier_length _).trans
        ((takePrecision_length _).trans (takeCount_shorter _ rest count))
    · have others := kinds.resolve_left count
      rw [not_or] at count
      rw [takeCount_stop _ rest count.1 count.2]
      by_cases point : character = ascii '.'
      · have later : (takePrecision (character :: rest)).2.length ≤
            rest.length := by
          rw [takePrecision, if_pos point]
          exact takeCount_length _ rest
        exact (takeQualifier_length _).trans later
      · have stays : takePrecision (character :: rest) =
            (.absent, character :: rest) := by
          rw [takePrecision, if_neg point]
        rw [stays, takeQualifier, if_pos (others.resolve_left point)]

/-- A character that is no modifier is the conversion. -/
theorem directive_plain
    {character : UInt8} (rest : List UInt8)
    (plain : character ∉ modifierBytes) :
    directive (character :: rest) =
      (⟨.clear, .absent, .absent, none, some character⟩, rest) := by
  have flag : character ∉ flagBytes :=
    fun member => plain (List.mem_append_left _ member)
  have digit : ¬ isDigit character = true :=
    fun digit => plain (modifier_of_digit digit)
  have star : character ≠ ascii '*' := by
    rintro rfl
    exact plain (by decide)
  have point : character ≠ ascii '.' := by
    rintro rfl
    exact plain (by decide)
  have qualifier : ¬ (character = ascii 'h' ∨ character = ascii 'l') := by
    rintro (rfl | rfl)
    · exact plain (by decide)
    · exact plain (by decide)
  rw [directive]
  simp only [takeFlags_stop _ rest flag, takeCount_stop _ rest digit star,
    takePrecision, if_neg point, takeQualifier, if_neg qualifier,
    takeConversion]

/-! ## Conversions without arguments -/

/-- What a directive prints without arguments. -/
def printedAlone (found : Directive) : List UInt8 :=
  match found.conversion with
  | none => [ascii '%']
  | some conversion =>
      if conversion = ascii '%' then [ascii '%']
      else [ascii '%', conversion]

theorem readWidth_number
    {count : Count} (flags : Flags) (number : count ≠ .argument) :
    ∃ fieldWidth,
      readWidth count flags [] = .ok (fieldWidth, flags, []) := by
  cases count with
  | absent => exact ⟨-1, rfl⟩
  | number value => exact ⟨value, rfl⟩
  | argument => exact absurd rfl number

theorem readPrecision_number
    {count : Count} (number : count ≠ .argument) :
    ∃ precision, readPrecision count [] = .ok (precision, []) := by
  cases count with
  | absent => exact ⟨-1, rfl⟩
  | number value => exact ⟨max value 0, rfl⟩
  | argument => exact absurd rfl number

theorem convertAs_fails
    {conversion : UInt8} (takes : conversion ∈ conversionBytes)
    (qualifier : Option UInt8) (fieldWidth precision : Int)
    (flags : Flags) :
    convertAs conversion qualifier fieldWidth precision flags [] =
      .error .argument := by
  fin_cases takes <;> rfl

theorem convertAs_alone
    {conversion : UInt8} (plain : conversion ∉ conversionBytes)
    (qualifier : Option UInt8) (fieldWidth precision : Int)
    (flags : Flags) :
    convertAs conversion qualifier fieldWidth precision flags [] =
      .ok (if conversion = ascii '%' then [ascii '%']
        else [ascii '%', conversion], []) := by
  simp only [conversionBytes, List.mem_cons, List.not_mem_nil, or_false,
    not_or] at plain
  obtain ⟨c, s, p, o, large, x, d, i, u⟩ := plain
  have noNumber : integerBase conversion flags = none := by
    rw [integerBase, if_neg o, if_neg large, if_neg x,
      if_neg (fun signed => signed.elim d i), if_neg u]
  rw [convertAs, if_neg c, if_neg s, if_neg p]
  split
  · rfl
  · rw [noNumber]

/-- Without arguments a directive that takes one fails. -/
theorem convert_fails {found : Directive} (takes : TakesArgument found) :
    convert found [] = .error .argument := by
  rw [convert]
  by_cases width : found.fieldWidth = .argument
  · rw [width]
    rfl
  obtain ⟨fieldWidth, read⟩ := readWidth_number found.flags width
  rw [read]
  by_cases least : found.precision = .argument
  · rw [least]
    rfl
  obtain ⟨precision, counted⟩ := readPrecision_number least
  simp only [bind, Except.bind, counted]
  obtain ⟨conversion, is, member⟩ :=
    (takes.resolve_left width).resolve_left least
  rw [is]
  exact convertAs_fails member _ _ _ _

/-- Any other directive prints a `%`, and a conversion it does not know. -/
theorem convert_alone
    {found : Directive} (takes : ¬ TakesArgument found) :
    convert found [] = .ok (printedAlone found, []) := by
  rw [TakesArgument, not_or, not_or] at takes
  obtain ⟨width, least, none⟩ := takes
  obtain ⟨fieldWidth, read⟩ := readWidth_number found.flags width
  obtain ⟨precision, counted⟩ := readPrecision_number least
  rw [convert, read, printedAlone]
  simp only [bind, Except.bind, counted]
  cases is : found.conversion with
  | none => rfl
  | some conversion =>
      exact convertAs_alone
        (fun member => none ⟨conversion, is, member⟩) _ _ _ _

/-! ## Whole texts -/

/-- A directive prints no more characters than it takes. -/
theorem printedAlone_length (fmt : List UInt8) :
    (printedAlone (directive fmt).1).length + (directive fmt).2.length ≤
      fmt.length + 1 := by
  obtain ⟨conversion, rest⟩ := directive_conversion fmt
  have before := beforeConversion_length fmt
  rw [printedAlone, conversion, rest]
  cases left : beforeConversion fmt with
  | nil =>
      simp only [List.head?_nil, List.tail_nil, List.length_nil,
        List.length_singleton]
      omega
  | cons character rest =>
      rw [left, List.length_cons] at before
      simp only [List.head?_cons, List.tail_cons]
      split
      · simp only [List.length_singleton]
        omega
      · simp only [List.length_cons, List.length_nil]
        omega

/-- After a character of a directive it prints fewer. -/
theorem printedAlone_shorter
    {character : UInt8} (rest : List UInt8)
    (special : character ∈ directiveBytes)
    (takes : ¬ TakesArgument (directive (character :: rest)).1) :
    (printedAlone (directive (character :: rest)).1).length +
        (directive (character :: rest)).2.length <
      (character :: rest).length + 1 := by
  by_cases modifier : character ∈ modifierBytes
  · obtain ⟨conversion, behind⟩ :=
      directive_conversion (character :: rest)
    have before := beforeConversion_shorter rest modifier
    rw [printedAlone, conversion, behind]
    cases left : beforeConversion (character :: rest) with
    | nil =>
        simp only [List.head?_nil, List.tail_nil, List.length_nil,
          List.length_cons]
        omega
    | cons next others =>
        rw [left, List.length_cons] at before
        simp only [List.head?_cons, List.tail_cons]
        split
        · simp only [List.length_cons, List.length_nil]
          omega
        · simp only [List.length_cons, List.length_nil]
          omega
  · rw [directive_plain rest modifier] at takes ⊢
    have percent : character = ascii '%' := by
      rcases List.mem_append.mp special with other | percent
      · rcases List.mem_append.mp other with found | conversion
        · exact absurd found modifier
        · exact absurd (Or.inr (Or.inr ⟨character, rfl, conversion⟩))
            takes
      · exact List.mem_singleton.mp percent
    simp only [printedAlone, if_pos percent, List.length_cons,
      List.length_nil]
    omega

theorem verbatim_cons_iff
    {character : UInt8} (other : character ≠ ascii '%')
    (rest : List UInt8) :
    Verbatim (character :: rest) ↔ Verbatim rest := by
  cases rest with
  | nil => exact Iff.rfl
  | cons next rest =>
      rw [Verbatim]
      exact ⟨fun both => both.2,
        fun later => ⟨fun percent => absurd percent other, later⟩⟩

/-- A `%` and the character it prints are verbatim before the rest is. -/
theorem verbatim_percent_iff
    {next : UInt8} (plain : next ∉ directiveBytes)
    (rest : List UInt8) :
    Verbatim (ascii '%' :: next :: rest) ↔ Verbatim rest := by
  have other : next ≠ ascii '%' := by
    rintro rfl
    exact plain (by decide)
  rw [Verbatim, verbatim_cons_iff other]
  exact ⟨fun both => both.2, fun later => ⟨fun _ => plain, later⟩⟩

/-- A character that is not special is no modifier. -/
theorem not_modifier {character : UInt8}
    (plain : character ∉ directiveBytes) : character ∉ modifierBytes :=
  fun member => plain (List.mem_append_left _
    (List.mem_append_left _ member))

/-- A directive of a single character which the formatter does not know. -/
theorem convert_plain
    {character : UInt8} (rest : List UInt8)
    (plain : character ∉ directiveBytes) :
    convert (directive (character :: rest)).1 [] =
      .ok ([ascii '%', character], []) := by
  have percent : character ≠ ascii '%' := by
    rintro rfl
    exact plain (by decide)
  have alone : ¬ TakesArgument (directive (character :: rest)).1 := by
    rw [directive_plain rest (not_modifier plain)]
    rintro (width | least | ⟨conversion, is, member⟩)
    · cases width
    · cases least
    · cases is
      exact plain
        (List.mem_append_left _ (List.mem_append_right _ member))
  rw [convert_alone alone, directive_plain rest (not_modifier plain)]
  simp only [printedAlone, if_neg percent]

/-- One pass of the loop at a `%`. -/
theorem formatLoop_percent (fuel : Nat) (fmt : List UInt8)
    (printed : List UInt8)
    (converted : convert (directive fmt).1 [] = .ok (printed, [])) :
    formatLoop (fuel + 1) (ascii '%' :: fmt) [] =
      (formatLoop fuel (directive fmt).2 []).map (printed ++ ·) := by
  rw [formatLoop, if_neg (fun other => other rfl)]
  show (convert (directive fmt).1 [] >>= _) = _
  rw [converted]
  rfl

/-- One pass of the loop at another character. -/
theorem formatLoop_literal (fuel : Nat) {character : UInt8}
    (other : character ≠ ascii '%') (fmt : List UInt8) :
    formatLoop (fuel + 1) (character :: fmt) [] =
      (formatLoop fuel fmt []).map (character :: ·) := by
  rw [formatLoop, if_pos other]
  rfl

/-- A verbatim text is printed as it stands. -/
theorem formatLoop_verbatim
    (fuel : Nat) {text : List UInt8} (verbatim : Verbatim text)
    (enough : text.length ≤ fuel) :
    formatLoop fuel text [] = .ok text := by
  induction fuel using Nat.strong_induction_on generalizing text with
  | h fuel induction =>
      cases text with
      | nil => cases fuel <;> rfl
      | cons character rest =>
          rw [List.length_cons] at enough
          obtain ⟨fuel, rfl⟩ : ∃ less, fuel = less + 1 :=
            ⟨fuel - 1, by omega⟩
          by_cases percent : character = ascii '%'
          · subst percent
            cases rest with
            | nil =>
                rw [formatLoop_percent fuel [] [ascii '%'] rfl]
                cases fuel <;> rfl
            | cons next rest =>
                rw [List.length_cons] at enough
                have plain : next ∉ directiveBytes := verbatim.1 rfl
                rw [formatLoop_percent fuel _ _ (convert_plain rest plain),
                  directive_plain rest (not_modifier plain),
                  induction fuel (by omega)
                    ((verbatim_percent_iff plain rest).mp verbatim)
                    (by omega)]
                rfl
          · rw [formatLoop_literal fuel percent,
              induction fuel (by omega)
                ((verbatim_cons_iff percent rest).mp verbatim) (by omega)]
            rfl

/-- A text loses characters unless it is verbatim. -/
theorem formatLoop_shrinks
    (fuel : Nat) {text printed : List UInt8}
    (enough : text.length ≤ fuel)
    (ran : formatLoop fuel text [] = .ok printed) :
    printed.length ≤ text.length ∧
      (printed.length = text.length → Verbatim text) := by
  induction fuel generalizing text printed with
  | zero =>
      have empty : text = [] :=
        List.length_eq_zero_iff.mp (Nat.le_zero.mp enough)
      subst empty
      cases ran
      exact ⟨Nat.le_refl _, fun _ => trivial⟩
  | succ fuel induction =>
      cases text with
      | nil =>
          cases ran
          exact ⟨Nat.le_refl _, fun _ => trivial⟩
      | cons character rest =>
          rw [List.length_cons] at enough
          by_cases percent : character = ascii '%'
          · subst percent
            by_cases takes : TakesArgument (directive rest).1
            · rw [formatLoop, if_neg (fun other => other rfl)] at ran
              change (convert (directive rest).1 [] >>= _) = _ at ran
              rw [convert_fails takes] at ran
              cases ran
            · rw [formatLoop_percent fuel rest _ (convert_alone takes)]
                at ran
              obtain ⟨more, behind, rfl⟩ := map_eq_ok_iff.mp ran
              have shorter := directive_length rest
              obtain ⟨least, exact⟩ := induction (by omega) behind
              have most := printedAlone_length rest
              rw [List.length_append, List.length_cons]
              refine ⟨by omega, fun same => ?_⟩
              cases rest with
              | nil => trivial
              | cons next rest =>
                  by_cases special : next ∈ directiveBytes
                  · have fewer := printedAlone_shorter rest special takes
                    omega
                  · rw [directive_plain rest (not_modifier special)]
                      at exact same
                    have percent : next ≠ ascii '%' := by
                      rintro rfl
                      exact special (by decide)
                    simp only [printedAlone, if_neg percent,
                      List.length_cons, List.length_nil] at same
                    exact (verbatim_percent_iff special rest).mpr
                      (exact (by dsimp only; omega))
          · rw [formatLoop_literal fuel percent] at ran
            obtain ⟨more, behind, rfl⟩ := map_eq_ok_iff.mp ran
            obtain ⟨least, exact⟩ := induction (by omega) behind
            rw [List.length_cons, List.length_cons,
              verbatim_cons_iff percent]
            exact ⟨by omega, fun same => exact (by omega)⟩

/-! ## The results -/

theorem format_verbatim {text : List UInt8} (verbatim : Verbatim text) :
    format text [] = .ok text :=
  formatLoop_verbatim _ verbatim (Nat.le_refl _)

/-- Without arguments no text prints more characters than it has. -/
theorem format_length
    {text printed : List UInt8} (ran : format text [] = .ok printed) :
    printed.length ≤ text.length :=
  (formatLoop_shrinks _ (Nat.le_refl _) ran).1

/-- A text that keeps its length is printed as it stands. -/
theorem verbatim_of_length
    {text printed : List UInt8} (ran : format text [] = .ok printed)
    (same : printed.length = text.length) : Verbatim text :=
  (formatLoop_shrinks _ (Nat.le_refl _) ran).2 same

/-- The directives of a format, with enough fuel. -/
def directivesLoop : Nat → List UInt8 → List Directive
  | 0, _ => []
  | _ + 1, [] => []
  | fuel + 1, character :: fmt =>
      if character ≠ ascii '%' then directivesLoop fuel fmt
      else (directive fmt).1 :: directivesLoop fuel (directive fmt).2

/-- No directive of the text takes an argument. -/
def TakesNone (text : List UInt8) : Prop :=
  ∀ found ∈ directivesLoop text.length text, ¬ TakesArgument found

theorem formatLoop_ok_iff (fuel : Nat) (text : List UInt8) :
    (∃ printed, formatLoop fuel text [] = .ok printed) ↔
      ∀ found ∈ directivesLoop fuel text, ¬ TakesArgument found := by
  induction fuel generalizing text with
  | zero => exact ⟨fun _ => by simp [directivesLoop], fun _ => ⟨[], rfl⟩⟩
  | succ fuel induction =>
      cases text with
      | nil => exact ⟨fun _ => by simp [directivesLoop], fun _ => ⟨[], rfl⟩⟩
      | cons character rest =>
          rw [directivesLoop]
          by_cases percent : character = ascii '%'
          · subst percent
            rw [if_neg (fun other => other rfl), List.forall_mem_cons,
              ← induction]
            by_cases takes : TakesArgument (directive rest).1
            · constructor
              · rintro ⟨printed, ran⟩
                rw [formatLoop, if_neg (fun other => other rfl)] at ran
                change (convert (directive rest).1 [] >>= _) = _ at ran
                rw [convert_fails takes] at ran
                cases ran
              · exact fun both => absurd takes both.1
            · rw [formatLoop_percent fuel rest _ (convert_alone takes)]
              constructor
              · rintro ⟨printed, ran⟩
                obtain ⟨more, behind, -⟩ := map_eq_ok_iff.mp ran
                exact ⟨takes, more, behind⟩
              · rintro ⟨-, more, behind⟩
                exact ⟨_, map_eq_ok_iff.mpr ⟨more, behind, rfl⟩⟩
          · rw [if_pos percent, ← induction,
              formatLoop_literal fuel percent]
            constructor
            · rintro ⟨printed, ran⟩
              obtain ⟨more, behind, -⟩ := map_eq_ok_iff.mp ran
              exact ⟨more, behind⟩
            · rintro ⟨more, behind⟩
              exact ⟨_, map_eq_ok_iff.mpr ⟨more, behind, rfl⟩⟩

/-- A text is printed without arguments exactly when it takes none. -/
theorem format_ok_iff (text : List UInt8) :
    (∃ printed, format text [] = .ok printed) ↔ TakesNone text :=
  formatLoop_ok_iff _ text

end InternetWavPlayer.PlainFormats
