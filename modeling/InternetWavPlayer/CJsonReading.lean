import InternetWavPlayer.CJsonPrinting

/-!
# Reading back strings and numbers

What the printing functions write for a string and for a number, the parsing
functions read back, whatever follows.
-/

namespace InternetWavPlayer.CJsonReading

open InternetWavPlayer.CJsonMemory
open InternetWavPlayer.CJsonParse
open InternetWavPlayer.CJsonPrint
open InternetWavPlayer.CJsonPrinting
open InternetWavPlayer.CJsonSafety
open InternetWavPlayer.Contract
open InternetWavPlayer.ResourceLedger
open InternetWavPlayer.Songlist (blockText)
open InternetWavPlayer.Vsnprintf (ascii isDigit)

/-! ## Strings -/

section Strings

/-- What is written for a byte: itself, or a backslash and a known escape. -/
inductive Escapes (byte : UInt8) : List UInt8 → Prop where
  | plain (quote : byte ≠ ascii '"') (some : byte ≠ 0)
      (other : byte ≠ ascii '\\') : Escapes byte [byte]
  | short (letter : UInt8) (some : letter ≠ 0) (other : letter ≠ ascii 'u')
      (read : ∀ rest,
        escape (letter :: rest) = .ok ([byte], letter :: rest)) :
      Escapes byte [ascii '\\', letter]
  | control (high low : UInt8) (first : (hexDigit high).isSome)
      (second : (hexDigit low).isSome)
      (read : ∀ rest,
        escape (ascii 'u' :: ascii '0' :: ascii '0' :: high :: low :: rest) =
          .ok ([byte], low :: rest)) :
      Escapes byte
        [ascii '\\', ascii 'u', ascii '0', ascii '0', high, low]

theorem hexDigit_hexCharacter {digit : Nat} (small : digit < 16) :
    hexDigit (hexCharacter digit) = some digit := by
  revert digit
  decide

/-- A control character is read back from its four digits. -/
theorem escape_control {byte : UInt8} (some : byte ≠ 0) (low : byte < 32)
    (rest : Ptr) :
    escape (ascii 'u' :: ascii '0' :: ascii '0' ::
        hexCharacter (byte.toNat / 16) :: hexCharacter (byte.toNat % 16) ::
          rest) =
      .ok ([byte], hexCharacter (byte.toNat % 16) :: rest) := by
  have bound : byte.toNat < 32 := UInt8.lt_iff_toNat_lt.mp low
  have positive : byte.toNat ≠ 0 :=
    fun zero => some (UInt8.toNat_inj.mp (by rw [zero]; rfl))
  have digits : parseHex4 (ascii '0' :: ascii '0' ::
      hexCharacter (byte.toNat / 16) :: hexCharacter (byte.toNat % 16) ::
        rest) = .ok byte.toNat := by
    have zero : hexDigit (ascii '0') = Option.some 0 := by decide
    simp only [parseHex4, parseHex, deref, List.drop_succ_cons,
      List.drop_zero, bind, Except.bind, zero,
      hexDigit_hexCharacter (show byte.toNat / 16 < 16 by omega),
      hexDigit_hexCharacter (show byte.toNat % 16 < 16 by omega),
      Nat.shiftLeft_eq]
    congr 1
    omega
  have written : utf8 byte.toNat = [byte] := by
    have one : utf8Length byte.toNat = 1 := by
      rw [utf8Length, if_pos (by omega)]
    rw [utf8, one, utf8Write]
    simp [firstByteMark]
  have transcoded : transcode (ascii 'u' :: ascii '0' :: ascii '0' ::
      hexCharacter (byte.toNat / 16) :: hexCharacter (byte.toNat % 16) ::
        rest) = .ok ([byte], hexCharacter (byte.toNat % 16) :: rest) := by
    rw [transcode]
    simp only [List.drop_succ_cons, List.drop_zero, digits, bind, Except.bind]
    rw [if_neg (by omega), if_neg (by omega), written]
    rfl
  rw [← transcoded]
  rfl

theorem escapeByte_escapes {byte : UInt8} (some : byte ≠ 0) :
    Escapes byte (escapeByte byte) := by
  rw [escapeByte]
  by_cases plain : byte > 31 ∧ byte ≠ ascii '"' ∧ byte ≠ ascii '\\'
  · rw [if_pos plain]
    exact .plain plain.2.1 some plain.2.2
  rw [if_neg plain]
  by_cases backslash : byte = ascii '\\'
  · rw [if_pos backslash, backslash]
    exact .short _ (by decide) (by decide) fun rest => rfl
  rw [if_neg backslash]
  by_cases quote : byte = ascii '"'
  · rw [if_pos quote, quote]
    exact .short _ (by decide) (by decide) fun rest => rfl
  rw [if_neg quote]
  have low : byte < 32 := by
    rw [UInt8.lt_iff_toNat_lt]
    by_contra high
    refine plain ⟨UInt8.lt_iff_toNat_lt.mpr ?_, quote, backslash⟩
    have bound : ¬ byte.toNat < 32 := high
    show 31 < byte.toNat
    omega
  split_ifs with back feed line return_ tab
  · rw [back]
    exact .short _ (by decide) (by decide) fun rest => rfl
  · rw [feed]
    exact .short _ (by decide) (by decide) fun rest => rfl
  · rw [line]
    exact .short _ (by decide) (by decide) fun rest => rfl
  · rw [return_]
    exact .short _ (by decide) (by decide) fun rest => rfl
  · rw [tab]
    exact .short _ (by decide) (by decide) fun rest => rfl
  · have bound : byte.toNat < 32 := UInt8.lt_iff_toNat_lt.mp low
    refine .control _ _ ?_ ?_ (escape_control some low)
    · rw [hexDigit_hexCharacter (by omega)]
      rfl
    · rw [hexDigit_hexCharacter (by omega)]
      rfl

/-- A text without a flagged character is written as it is. -/
theorem escaped_eq {str : List UInt8} (solid : Solid str) :
    escaped str = str.flatMap escapeByte := by
  rw [escaped]
  split
  · rfl
  · next unflagged =>
      have itself : ∀ byte ∈ str, escapeByte byte = [byte] := by
        intro byte member
        have plain : flagged byte = false := by
          by_contra flag
          exact unflagged (List.any_eq_true.mpr
            ⟨byte, member, by simpa using flag⟩)
        have positive : byte.toNat ≠ 0 :=
          fun zero => solid byte member (UInt8.toNat_inj.mp (by rw [zero]; rfl))
        simp only [flagged, Bool.or_eq_false_iff, Bool.and_eq_false_iff,
          decide_eq_false_iff_not, beq_eq_false_iff_ne,
          UInt8.lt_iff_toNat_lt] at plain
        obtain ⟨⟨range, quote⟩, backslash⟩ := plain
        rw [escapeByte, if_pos]
        refine ⟨UInt8.lt_iff_toNat_lt.mpr ?_, quote, backslash⟩
        have zero : (0 : UInt8).toNat = 0 := rfl
        have blank : (32 : UInt8).toNat = 32 := rfl
        show 31 < byte.toNat
        omega
      calc str = str.flatMap fun byte => [byte] := by
            rw [List.flatMap_singleton']
        _ = str.flatMap escapeByte := by
            refine (List.flatMap_congr fun byte member => ?_).symm
            exact itself byte member

theorem escaped_longer {str : List UInt8} (solid : Solid str) :
    str.length ≤ (str.flatMap escapeByte).length := by
  induction str with
  | nil => exact Nat.le_refl _
  | cons byte str ih =>
      have rest := ih fun other among => solid other (by simp [among])
      have one : 1 ≤ (escapeByte byte).length := by
        have escapes := escapeByte_escapes (solid byte (by simp))
        generalize escapeByte byte = written at escapes ⊢
        cases escapes <;> simp
      rw [List.flatMap_cons, List.length_append, List.length_cons]
      omega

/-- The first pass counts at least what the string has. -/
theorem stringLength_escaped {str : List UInt8} (solid : Solid str)
    (rest : Ptr) :
    ∃ n,
      stringLength (str.flatMap escapeByte ++ ascii '"' :: rest) = .ok n ∧
      str.length ≤ n := by
  induction str with
  | nil => exact ⟨0, by rw [stringLength.eq_def]; rfl, Nat.le_refl _⟩
  | cons byte str ih =>
      obtain ⟨n, counted, length⟩ :=
        ih fun other among => solid other (by simp [among])
      have more : ∃ k, 1 ≤ k ∧ Counts
          (escapeByte byte ++
            (str.flatMap escapeByte ++ ascii '"' :: rest)) k
          (str.flatMap escapeByte ++ ascii '"' :: rest) := by
        have escapes := escapeByte_escapes (solid byte (by simp))
        generalize escapeByte byte = written at escapes ⊢
        cases escapes with
        | plain quote some other =>
            exact ⟨1, Nat.le_refl _, counts_plain quote some other⟩
        | short letter => exact ⟨1, Nat.le_refl _, counts_escape letter _⟩
        | control high low first second =>
            exact ⟨5, by norm_num, counts_unicode _ (by decide) (by decide)
              first second⟩
      obtain ⟨k, positive, counts⟩ := more
      refine ⟨n + k, ?_, ?_⟩
      · rw [List.flatMap_cons, List.append_assoc]
        exact counts n counted
      · rw [List.length_cons]
        omega

/-- The second pass gives back the string. -/
theorem unescape_escaped {str : List UInt8} (solid : Solid str) (rest : Ptr) :
    ∀ {fuel room : Nat}, str.length < fuel → str.length < room →
      unescape fuel room (str.flatMap escapeByte ++ ascii '"' :: rest) =
        .ok (str, ascii '"' :: rest) := by
  induction str with
  | nil =>
      intro fuel room enough fits
      obtain ⟨fuel, rfl⟩ :=
        Nat.exists_eq_succ_of_ne_zero (by omega : fuel ≠ 0)
      have last : write [0] room = .ok (room - 1) := by
        have room : [(0 : UInt8)].length ≤ room := Nat.succ_le_of_lt fits
        rw [write, if_pos room]
        rfl
      rw [List.flatMap_nil, List.nil_append, unescape]
      simp only [deref, bind, Except.bind, true_or, if_true, last, pure,
        Except.pure]
  | cons byte str ih =>
      intro fuel room enough fits
      obtain ⟨fuel, rfl⟩ :=
        Nat.exists_eq_succ_of_ne_zero (by omega : fuel ≠ 0)
      rw [List.length_cons] at enough fits
      have tail : unescape fuel (room - 1)
          (str.flatMap escapeByte ++ ascii '"' :: rest) =
            .ok (str, ascii '"' :: rest) :=
        ih (fun other among => solid other (by simp [among])) (by omega)
          (by omega)
      have one : write [byte] room = .ok (room - 1) := by
        rw [write, if_pos (by simp; omega)]
        rfl
      rw [List.flatMap_cons, List.append_assoc]
      have escapes := escapeByte_escapes (solid byte (by simp))
      generalize escapeByte byte = start at escapes ⊢
      cases escapes with
      | plain quote some other =>
          rw [unescape]
          simp only [List.cons_append, List.nil_append, deref, bind,
            Except.bind, quote, some, other, or_self, if_false, one,
            List.drop_succ_cons, List.drop_zero, tail, pure, Except.pure]
      | short letter some other read =>
          rw [unescape]
          simp only [List.cons_append, List.nil_append, deref, bind,
            Except.bind, show ascii '\\' ≠ ascii '"' by decide,
            show ascii '\\' ≠ 0 by decide, or_self, if_false, if_true,
            List.drop_succ_cons, List.drop_zero, read, one, tail, pure,
            Except.pure]
      | control high low first second read =>
          rw [unescape]
          simp only [List.cons_append, List.nil_append, deref, bind,
            Except.bind, show ascii '\\' ≠ ascii '"' by decide,
            show ascii '\\' ≠ 0 by decide, or_self, if_false, if_true,
            List.drop_succ_cons, List.drop_zero, read, one, tail, pure,
            Except.pure]

variable {D : Type} {allocates : Nat → Bool} {heap : Heap}

/-- `parse_string` reads back what `print_string_ptr` writes. -/
theorem parseString_quoted {str : List UInt8} (solid : Solid str) (rest : Ptr)
    (item : Item D) :
    Yields (parseString allocates item (quoted str ++ rest) heap) fun parsed =>
      (parsed.stop = none ∧ parsed.item = item ∧
        Refused allocates heap parsed.heap) ∨
      (parsed.stop = some rest ∧ heap.calls ≤ parsed.heap.calls ∧ ∃ out,
        parsed.item =
          { item with
            valuestring := some ⟨out, str⟩
            type := .string }) := by
  obtain ⟨n, counted, length⟩ := stringLength_escaped solid rest
  have body : quoted str ++ rest =
      ascii '"' :: (str.flatMap escapeByte ++ ascii '"' :: rest) := by
    rw [quoted, escaped_eq solid]
    simp
  rw [body, parseString]
  simp only [deref, bind, Except.bind, ne_eq, not_true_eq_false, if_false,
    List.drop_succ_cons, List.drop_zero, counted]
  split
  · next failed =>
      exact yields_pure (.inl ⟨rfl, rfl, malloc_refused failed⟩)
  · next out after allocated =>
      have enough : str.length < (ascii '"' ::
          (str.flatMap escapeByte ++ ascii '"' :: rest)).length := by
        have longer := escaped_longer solid
        simp only [List.length_cons, List.length_append]
        omega
      rw [unescape_escaped solid rest enough (by omega : str.length < n + 1)]
      simp only [if_true, List.drop_succ_cons, List.drop_zero]
      exact yields_pure (.inr
        ⟨rfl, (malloc_calls allocated).symm ▸ Nat.le_succ _, out, rfl⟩)

end Strings

/-! ## Numbers -/

section Numbers

variable {D : Type} {printing : Printing D}

/-- What follows a number does not go on with it. -/
def Ends (rest : Ptr) : Prop :=
  ∃ byte tail, rest = byte :: tail ∧ isDigit byte = false ∧
    byte ≠ ascii '.' ∧ byte ≠ ascii 'e' ∧ byte ≠ ascii 'E'

/-- The value of a run of digits behind a value. -/
def digitsValue (ds : List Nat) (n : Nat) : Nat :=
  ds.foldl (fun n digit => n * 10 + digit) n

theorem le_digitsValue (ds : List Nat) (n : Nat) : n ≤ digitsValue ds n := by
  induction ds generalizing n with
  | nil => exact Nat.le_refl _
  | cons digit ds ih => exact le_trans (by omega) (ih (n * 10 + digit))

theorem digitsValue_digits (n : Nat) :
    digitsValue (Nat.digits 10 n).reverse 0 = n := by
  rw [digitsValue, List.foldl_reverse]
  conv_rhs => rw [← Nat.ofDigits_digits 10 n, Nat.ofDigits_eq_foldr]
  congr 1
  funext digit n
  simp only [Nat.cast_id]
  ring

/-- The character of a digit. -/
def digitByte (digit : Nat) : UInt8 := UInt8.ofNat (48 + digit)

theorem isDigit_digitByte {digit : Nat} (small : digit < 10) :
    isDigit (digitByte digit) = true ∧
      ((digitByte digit).toNat : Int) - 48 = digit := by
  revert digit
  decide

/-- The loop over the digits of a number of up to 53 bits. -/
theorem digits_reads (exact_ : Exact printing) {rest : Ptr}
    (ends : Ends rest) (scale : D) (ds : List Nat) :
    ∀ {n : Nat},
      (∀ digit ∈ ds, digit < 10) → digitsValue ds n ≤ 2 ^ 53 →
      digits printing.toDouble false (printing.ofInt n) scale
          (ds.map digitByte ++ rest) =
        .ok (printing.ofInt (digitsValue ds n), scale, rest) := by
  induction ds with
  | nil =>
      intro n _ _
      obtain ⟨byte, tail, rfl, notDigit, -⟩ := ends
      rw [List.map_nil, List.nil_append, digits, notDigit]
      rfl
  | cons digit ds ih =>
      intro n small bound
      have bound : digitsValue ds (n * 10 + digit) ≤ 2 ^ 53 := bound
      have reached := (le_digitsValue ds (n * 10 + digit)).trans bound
      obtain ⟨isDigit, value⟩ := isDigit_digitByte (small digit (by simp))
      have low : digit < 10 := small digit (by simp)
      have times : printing.mul (printing.ofInt n) (printing.ofInt 10) =
          printing.ofInt ((n : Int) * 10) := by
        refine exact_.mul _ _ ?_ (by norm_num) ?_ (.inl ⟨?_, by norm_num⟩)
        · exact abs_le.mpr ⟨by omega, by omega⟩
        · exact abs_le.mpr ⟨by omega, by omega⟩
        · omega
      have plus : printing.add (printing.ofInt ((n : Int) * 10))
          (printing.ofInt digit) =
            printing.ofInt ((n * 10 + digit : Nat) : Int) := by
        rw [exact_.add]
        · norm_cast
        · exact abs_le.mpr ⟨by omega, by omega⟩
        · exact abs_le.mpr ⟨by omega, by omega⟩
        · exact abs_le.mpr ⟨by omega, by omega⟩
      rw [List.map_cons, List.cons_append, digits, if_pos isDigit, value,
        times, plus]
      exact ih (fun other among => small other (by simp [among])) bound

/-- A number whose digits start with one from 1 to 9. -/
theorem wholePart_reads (exact_ : Exact printing) {rest : Ptr}
    (ends : Ends rest) {n : Nat} (positive : 0 < n) (bound : n ≤ 2 ^ 53) :
    wholePart printing.toDouble
        ((Nat.digits 10 n).reverse.map digitByte ++ rest) =
      .ok (printing.ofInt n, rest) := by
  have small : ∀ digit ∈ (Nat.digits 10 n).reverse, digit < 10 := by
    intro digit member
    exact Nat.digits_lt_base (by norm_num) (List.mem_reverse.mp member)
  have value : digitsValue (Nat.digits 10 n).reverse 0 = n :=
    digitsValue_digits n
  have nonempty : Nat.digits 10 n ≠ [] :=
    Nat.digits_ne_nil_iff_ne_zero.mpr (by omega)
  have read := digits_reads exact_ ends (printing.ofInt 0)
    (Nat.digits 10 n).reverse (n := 0) small (by rw [value]; exact bound)
  rw [value] at read
  obtain ⟨first, ds, split⟩ : ∃ first ds,
      (Nat.digits 10 n).reverse = first :: ds :=
    List.exists_cons_of_ne_nil (by simpa using nonempty)
  have leading : first ≠ 0 := by
    have last := Nat.getLast_digit_ne_zero 10 (m := n) (by omega)
    rw [List.getLast_eq_head_reverse] at last
    simpa [split] using last
  have digit : first < 10 := small first (by simp [split])
  have shapes : ∀ digit < 10, digit ≠ 0 →
      digitByte digit ≠ ascii '0' ∧
      ascii '1' ≤ digitByte digit ∧ digitByte digit ≤ ascii '9' := by
    decide
  obtain ⟨notZero, shape⟩ := shapes first digit leading
  rw [split] at read ⊢
  rw [List.map_cons, List.cons_append] at read ⊢
  rw [wholePart]
  simp only [deref, bind, Except.bind, notZero, if_false, shape, and_self,
    if_true]
  rw [show printing.ofInt ((0 : Nat) : Int) = printing.ofInt 0 from rfl]
    at read
  rw [read]
  rfl

/-- Nothing more of the number follows. -/
theorem fractionalPart_ends {rest : Ptr} (ends : Ends rest) (n : D) :
    fractionalPart printing.toDouble n rest =
      .ok (n, printing.ofInt 0, rest) := by
  obtain ⟨byte, tail, rfl, -, point, -⟩ := ends
  simp [fractionalPart, deref, bind, Except.bind, point, pure, Except.pure]

theorem exponent_ends {rest : Ptr} (ends : Ends rest) :
    exponent rest = .ok (0, rest) := by
  obtain ⟨byte, tail, rfl, -, -, small, large⟩ := ends
  simp [exponent, deref, bind, Except.bind, small, large, pure, Except.pure]

/-- The scale of a number without fraction and exponent. -/
theorem scaled (exact_ : Exact printing) (value : Int)
    (bound : |value| ≤ 2 ^ 53) (sign : Int) (unit : sign = 1 ∨ sign = -1)
    (signed : sign = 1 ∧ 0 ≤ value ∨ sign = -1 ∧ value < 0) :
    printing.mul
        (printing.mul (printing.ofInt sign) (printing.ofInt (sign * value)))
        (printing.pow (printing.ofInt 10)
          (printing.add (printing.ofInt 0) (printing.ofInt 0))) =
      printing.ofInt value := by
  obtain ⟨above, below⟩ := abs_le.mp bound
  have zero : printing.add (printing.ofInt 0) (printing.ofInt 0) =
      printing.ofInt 0 := by
    have sum := exact_.add 0 0 (by norm_num) (by norm_num) (by norm_num)
    simpa using sum
  have product : printing.mul (printing.ofInt sign)
      (printing.ofInt (sign * value)) = printing.ofInt value := by
    have same : sign * (sign * value) = value := by
      rcases unit with rfl | rfl <;> ring
    rw [exact_.mul, same]
    · rcases unit with rfl | rfl <;> norm_num
    · rcases unit with rfl | rfl
      · simpa using bound
      · rw [neg_one_mul, abs_neg]
        exact bound
    · rw [same]
      exact bound
    · rw [same]
      rcases signed with ⟨rfl, positive⟩ | ⟨rfl, negative⟩
      · exact .inl ⟨by norm_num, by simpa using positive⟩
      · exact .inr (by omega)
  rw [zero, exact_.pow, product, exact_.mul value 1 bound (by norm_num)
    (by simpa using bound), mul_one]
  rcases signed with ⟨-, positive⟩ | ⟨-, negative⟩
  · exact .inl ⟨positive, by norm_num⟩
  · exact .inr (by omega)

/-- `parse_number` reads back an `int`. -/
theorem parseNumber_decimal (exact_ : Exact printing) {rest : Ptr}
    (ends : Ends rest) {value : Int} (low : -2147483648 ≤ value)
    (high : value ≤ 2147483647) (item : Item D) :
    parseNumber printing.toDouble item (decimal value ++ rest) =
      .ok (rest,
        { item with
          valuedouble := printing.ofInt value
          valueint := value
          type := .number }) := by
  have bound : |value| ≤ 2 ^ 53 := abs_le.mpr ⟨by omega, by omega⟩
  have back := exact_.toInt value low high
  rcases lt_trichotomy value 0 with negative | rfl | positive
  · have whole := wholePart_reads exact_ ends (n := value.natAbs)
      (by omega) (by omega)
    have magnitude : ((value.natAbs : Nat) : Int) = -1 * value := by omega
    have product := scaled exact_ value bound (-1) (.inr rfl)
      (.inr ⟨rfl, negative⟩)
    rw [magnitude] at whole
    rw [decimal, if_pos negative, parseNumber]
    simp only [List.cons_append, deref, bind, Except.bind, if_true,
      List.drop_succ_cons, List.drop_zero]
    rw [show (Nat.digits 10 value.natAbs).reverse.map
      (fun digit => UInt8.ofNat (48 + digit)) =
        (Nat.digits 10 value.natAbs).reverse.map digitByte from rfl, whole]
    simp only [fractionalPart_ends ends, exponent_ends ends, product, back,
      pure, Except.pure]
  · -- the zero, which is skipped as a leading one
    obtain ⟨byte, tail, rfl, notDigit, rest⟩ := id ends
    have notNonzero : ¬ (ascii '1' ≤ byte ∧ byte ≤ ascii '9') := by
      rintro ⟨above, below⟩
      have digit : isDigit byte = true := by
        rw [isDigit]
        simp only [Bool.and_eq_true, decide_eq_true_eq]
        exact ⟨UInt8.le_trans (by decide) above, below⟩
      rw [notDigit] at digit
      cases digit
    have whole : wholePart printing.toDouble (ascii '0' :: byte :: tail) =
        .ok (printing.ofInt 0, byte :: tail) := by
      rw [wholePart]
      simp only [deref, bind, Except.bind, if_true, List.drop_succ_cons,
        List.drop_zero]
      rw [if_neg notNonzero]
      rfl
    have product := scaled exact_ 0 (by norm_num) 1 (.inl rfl)
      (.inl ⟨rfl, le_refl _⟩)
    rw [mul_zero] at product
    rw [decimal, if_neg (by norm_num), if_pos rfl, parseNumber]
    simp only [List.cons_append, List.nil_append, deref, bind, Except.bind,
      show ascii '0' ≠ ascii '-' by decide, if_false, whole,
      fractionalPart_ends ends, exponent_ends ends, product, back, pure,
      Except.pure]
  · have whole := wholePart_reads exact_ ends (n := value.natAbs)
      (by omega) (by omega)
    have magnitude : ((value.natAbs : Nat) : Int) = 1 * value := by omega
    have product := scaled exact_ value bound 1 (.inl rfl)
      (.inl ⟨rfl, positive.le⟩)
    rw [magnitude] at whole
    obtain ⟨first, ds, split⟩ : ∃ first ds,
        (Nat.digits 10 value.natAbs).reverse = first :: ds := by
      refine List.exists_cons_of_ne_nil ?_
      rw [ne_eq, List.reverse_eq_nil_iff]
      exact Nat.digits_ne_nil_iff_ne_zero.mpr (by omega)
    have notSign : digitByte first ≠ ascii '-' := by
      have small : first < 10 := by
        refine Nat.digits_lt_base (b := 10) (m := value.natAbs) (by norm_num)
          (List.mem_reverse.mp ?_)
        simp [split]
      clear split
      revert first
      decide
    rw [decimal, if_neg (by omega), if_neg (by omega), parseNumber]
    rw [show (Nat.digits 10 value.natAbs).reverse.map
      (fun digit => UInt8.ofNat (48 + digit)) =
        (Nat.digits 10 value.natAbs).reverse.map digitByte from rfl]
    rw [split] at whole ⊢
    simp only [List.map_cons, List.cons_append] at whole ⊢
    simp only [deref, bind, Except.bind, notSign, if_false, whole,
      fractionalPart_ends ends, exponent_ends ends, product, back, pure,
      Except.pure]

end Numbers

end InternetWavPlayer.CJsonReading
