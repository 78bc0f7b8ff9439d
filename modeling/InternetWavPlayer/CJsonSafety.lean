import InternetWavPlayer.Contract
import InternetWavPlayer.CJsonParse

/-!
# What the parser touches

Two texts lead `parse_string` out of its blocks: a backslash before the NUL,
and `\u` before fewer than four digits, where the second pass moves on by four
characters which the first did not count.  Whenever every escape is whole, the
parser reads up to the NUL and no further, and every string fits the block
that the first pass measured, whatever the allocator does.
-/

namespace InternetWavPlayer.CJsonSafety

open InternetWavPlayer.CJsonParse
open InternetWavPlayer.Contract
open InternetWavPlayer.ResourceLedger
open InternetWavPlayer.Vsnprintf

/-- There is a NUL, and every escape before it is whole. -/
inductive Whole : Ptr → Prop where
  | nul (rest : Ptr) : Whole (0 :: rest)
  | plain {byte : UInt8} {rest : Ptr} (some : byte ≠ 0)
      (other : byte ≠ ascii '\\') (whole : Whole rest) : Whole (byte :: rest)
  | escape {character : UInt8} {rest : Ptr} (some : character ≠ 0)
      (other : character ≠ ascii 'u') (whole : Whole rest) :
      Whole (ascii '\\' :: character :: rest)
  | unicode {a b c d : UInt8} {rest : Ptr}
      (first : (hexDigit a).isSome) (second : (hexDigit b).isSome)
      (third : (hexDigit c).isSome) (fourth : (hexDigit d).isSome)
      (whole : Whole rest) :
      Whole (ascii '\\' :: ascii 'u' :: a :: b :: c :: d :: rest)

/-- If a pointer is left, it is further on in a text with whole escapes. -/
def Advances (from_ : Ptr) (stop : Option Ptr) : Prop :=
  ∀ ptr, stop = some ptr → Whole ptr ∧ ptr.length < from_.length

theorem advances_none (from_ : Ptr) : Advances from_ none := by
  rintro ptr ⟨⟩

theorem advances_some {from_ ptr : Ptr} (whole : Whole ptr)
    (shorter : ptr.length < from_.length) : Advances from_ (some ptr) := by
  rintro _ ⟨⟩
  exact ⟨whole, shorter⟩

theorem Advances.trans {from_ middle : Ptr} {stop : Option Ptr}
    (advances : Advances middle stop)
    (shorter : middle.length ≤ from_.length) : Advances from_ stop := by
  intro ptr stopped
  obtain ⟨whole, further⟩ := advances ptr stopped
  exact ⟨whole, by omega⟩

/-! ## Reading on -/

section Reading

variable {p : Ptr} {byte : UInt8} {rest : Ptr}

theorem Whole.ne_nil (whole : Whole p) : ∃ byte rest, p = byte :: rest := by
  cases whole <;> exact ⟨_, _, rfl⟩

/-- Behind a character which is neither the NUL nor a backslash. -/
theorem Whole.tail (whole : Whole (byte :: rest)) (some : byte ≠ 0)
    (other : byte ≠ ascii '\\') : Whole rest := by
  cases whole with
  | nul => exact absurd rfl some
  | plain _ _ whole => exact whole
  | escape => exact absurd rfl other
  | unicode => exact absurd rfl other

theorem deref_returns (whole : Whole p) :
    Returns (deref p) fun byte => ∃ rest, p = byte :: rest := by
  obtain ⟨byte, rest, rfl⟩ := whole.ne_nil
  exact returns_ok ⟨rest, rfl⟩

theorem deref_cons (byte : UInt8) (rest : Ptr) :
    deref (byte :: rest) = .ok byte :=
  rfl

theorem skip_returns (whole : Whole p) :
    Returns (skip p) fun q => Whole q ∧ q.length ≤ p.length := by
  induction whole with
  | nul rest => exact returns_ok ⟨.nul rest, Nat.le_refl _⟩
  | @plain byte rest some other whole ih =>
      rw [skip]
      split
      · exact ih.mono fun q left =>
          ⟨left.1, by simpa using Nat.le_succ_of_le left.2⟩
      · exact returns_ok ⟨.plain some other whole, Nat.le_refl _⟩
  | escape some other whole =>
      exact returns_ok ⟨.escape some other whole, Nat.le_refl _⟩
  | unicode first second third fourth whole =>
      exact returns_ok
        ⟨.unicode first second third fourth whole, Nat.le_refl _⟩

/-- Neither the NUL nor a backslash. -/
def plainByte (byte : UInt8) : Bool :=
  byte != 0 && byte != ascii '\\'

theorem plainByte_iff {byte : UInt8} :
    plainByte byte = true ↔ byte ≠ 0 ∧ byte ≠ ascii '\\' := by
  simp [plainByte]

/-- A literal of plain characters is compared inside the text. -/
theorem startsWith_returns {literal : List UInt8}
    (plain : literal.all plainByte = true)
    (whole : Whole p) :
    Returns (startsWith literal p) fun matched =>
      matched = true →
        Whole (p.drop literal.length) ∧ literal.length ≤ p.length := by
  induction literal generalizing p with
  | nil => exact returns_ok fun _ => ⟨whole, Nat.zero_le _⟩
  | cons character literal ih =>
      obtain ⟨byte, rest, rfl⟩ := whole.ne_nil
      rw [List.all_cons, Bool.and_eq_true] at plain
      obtain ⟨some, other⟩ := plainByte_iff.mp plain.1
      rw [startsWith]
      split
      · next same =>
          subst same
          refine (ih plain.2 (whole.tail some other)).mono
            fun matched left same => ?_
          obtain ⟨whole, fits⟩ := left same
          exact ⟨whole, by simpa using fits⟩
      · exact returns_ok (by simp)

end Reading

/-! ## Digits -/

theorem isDigit_plain {byte : UInt8} (digit : isDigit byte) :
    byte ≠ 0 ∧ byte ≠ ascii '\\' := by
  constructor <;> rintro rfl <;> exact absurd digit (by decide)

theorem hexDigit_plain {byte : UInt8} (digit : (hexDigit byte).isSome) :
    byte ≠ 0 ∧ byte ≠ ascii '\\' ∧ byte ≠ ascii '"' := by
  refine ⟨?_, ?_, ?_⟩ <;> rintro rfl <;> exact absurd digit (by decide)

theorem hexDigit_lt {byte : UInt8} {value : Nat}
    (digit : hexDigit byte = some value) : value < 16 := by
  have bounds : byte.toNat < 256 := byte.toNat_lt
  simp only [hexDigit, isDigit, UInt8.le_iff_toNat_le, Bool.and_eq_true,
    decide_eq_true_eq,
    show (ascii '0').toNat = 48 from rfl, show (ascii '9').toNat = 57 from rfl,
    show (ascii 'A').toNat = 65 from rfl, show (ascii 'F').toNat = 70 from rfl,
    show (ascii 'a').toNat = 97 from rfl,
    show (ascii 'f').toNat = 102 from rfl] at digit
  split at digit
  · cases digit
    omega
  · split at digit
    · cases digit
      omega
    · split at digit
      · cases digit
        omega
      · cases digit

/-- Four digits are read, and give 16 bits. -/
theorem parseHex4_returns {a b c d : UInt8} {rest : Ptr}
    (first : (hexDigit a).isSome) (second : (hexDigit b).isSome)
    (third : (hexDigit c).isSome) (fourth : (hexDigit d).isSome) :
    Returns (parseHex4 (a :: b :: c :: d :: rest)) (· < 0x10000) := by
  obtain ⟨w, digitA⟩ := Option.isSome_iff_exists.mp first
  obtain ⟨x, digitB⟩ := Option.isSome_iff_exists.mp second
  obtain ⟨y, digitC⟩ := Option.isSome_iff_exists.mp third
  obtain ⟨z, digitD⟩ := Option.isSome_iff_exists.mp fourth
  have boundA := hexDigit_lt digitA
  have boundB := hexDigit_lt digitB
  have boundC := hexDigit_lt digitC
  have boundD := hexDigit_lt digitD
  refine ⟨(((0 <<< 4 + w) <<< 4 + x) <<< 4 + y) <<< 4 + z, ?_, ?_⟩
  · simp only [parseHex4, parseHex, deref, List.drop_succ_cons, List.drop_zero,
      bind, Except.bind, digitA, digitB, digitC, digitD]
  · simp only [Nat.shiftLeft_eq]
    omega

section Numbers

variable {D : Type} (double : Double D)

theorem digits_returns (fraction : Bool) {p : Ptr} (whole : Whole p) :
    ∀ n scale, Returns (digits double fraction n scale p) fun left =>
      Whole left.2.2 ∧ left.2.2.length ≤ p.length := by
  induction whole with
  | nul rest => exact fun n scale => returns_ok ⟨.nul rest, Nat.le_refl _⟩
  | @plain byte rest some other whole ih =>
      intro n scale
      rw [digits]
      split
      · exact (ih _ _).mono fun left further =>
          ⟨further.1, by simpa using Nat.le_succ_of_le further.2⟩
      · exact returns_ok ⟨.plain some other whole, Nat.le_refl _⟩
  | escape some other whole =>
      exact fun n scale =>
        returns_ok ⟨.escape some other whole, Nat.le_refl _⟩
  | unicode first second third fourth whole =>
      exact fun n scale => returns_ok
        ⟨.unicode first second third fourth whole, Nat.le_refl _⟩

/-- A run of digits that has a first one is left further on. -/
theorem digits_advances (fraction : Bool) {byte : UInt8} {rest : Ptr}
    (whole : Whole (byte :: rest)) (digit : isDigit byte) (n scale : D) :
    Returns (digits double fraction n scale (byte :: rest)) fun left =>
      Whole left.2.2 ∧ left.2.2.length ≤ rest.length := by
  obtain ⟨some, other⟩ := isDigit_plain digit
  rw [digits, if_pos digit]
  exact digits_returns double fraction (whole.tail some other) _ _

theorem exponentDigits_returns {p : Ptr} (whole : Whole p) :
    ∀ subscale, Returns (exponentDigits subscale p) fun left =>
      Whole left.2 ∧ left.2.length ≤ p.length := by
  induction whole with
  | nul rest => exact fun subscale => returns_ok ⟨.nul rest, Nat.le_refl _⟩
  | @plain byte rest some other whole ih =>
      intro subscale
      rw [exponentDigits]
      split
      · exact (ih _).mono fun left further =>
          ⟨further.1, by simpa using Nat.le_succ_of_le further.2⟩
      · exact returns_ok ⟨.plain some other whole, Nat.le_refl _⟩
  | escape some other whole =>
      exact fun subscale =>
        returns_ok ⟨.escape some other whole, Nat.le_refl _⟩
  | unicode first second third fourth whole =>
      exact fun subscale => returns_ok
        ⟨.unicode first second third fourth whole, Nat.le_refl _⟩

theorem exponent_returns {p : Ptr} (whole : Whole p) :
    Returns (exponent p) fun left =>
      Whole left.2 ∧ left.2.length ≤ p.length := by
  rw [exponent]
  refine (deref_returns whole).bind ?_
  rintro letter ⟨rest, rfl⟩
  split
  · next isLetter =>
      have tail : Whole rest := by
        refine whole.tail ?_ ?_ <;> rintro rfl <;>
          rcases isLetter with same | same <;> exact absurd same (by decide)
      refine (deref_returns tail).bind ?_
      rintro sign ⟨rest, rfl⟩
      have behind (known : sign = ascii '+' ∨ sign = ascii '-') :
          Whole rest := by
        refine tail.tail ?_ ?_ <;> rintro rfl <;>
          rcases known with same | same <;> exact absurd same (by decide)
      split
      · next plus =>
          refine (exponentDigits_returns (behind (.inl plus)) 0).mono ?_
          rintro left ⟨whole, further⟩
          exact ⟨whole, by simp only [List.length_cons]; omega⟩
      · split
        · next minus =>
            refine (exponentDigits_returns (behind (.inr minus)) 0).bind ?_
            rintro left ⟨whole, further⟩
            exact returns_pure
              ⟨whole, by simp only [List.length_cons]; omega⟩
        · refine (exponentDigits_returns tail 0).mono ?_
          rintro left ⟨whole, further⟩
          exact ⟨whole, by
            simp only [List.length_cons] at further ⊢
            omega⟩
  · exact returns_pure ⟨whole, Nat.le_refl _⟩

/-- The whole part takes a first digit with it. -/
theorem wholePart_returns {p : Ptr} (whole : Whole p) :
    Returns (wholePart double p) fun left =>
      Whole left.2 ∧ left.2.length ≤ p.length ∧
        ∀ byte rest, p = byte :: rest → isDigit byte →
          left.2.length ≤ rest.length := by
  rw [wholePart]
  refine (deref_returns whole).bind ?_
  rintro first ⟨rest, rfl⟩
  by_cases zero : first = ascii '0'
  · have tail : Whole rest :=
      whole.tail (by rw [zero]; decide) (by rw [zero]; decide)
    simp only [zero, if_true, List.drop_succ_cons, List.drop_zero]
    refine (deref_returns tail).bind ?_
    rintro second ⟨rest, rfl⟩
    split
    · refine (digits_returns double false tail _ _).bind ?_
      rintro left ⟨whole, further⟩
      refine returns_pure ⟨whole, ?_, ?_⟩
      · simpa using Nat.le_succ_of_le further
      · rintro _ _ ⟨⟩ -
        exact further
    · refine returns_pure ⟨tail, by simp, ?_⟩
      rintro _ _ ⟨⟩ -
      exact Nat.le_refl _
  · simp only [zero, if_false]
    refine (deref_returns whole).bind ?_
    rintro _ ⟨_, ⟨⟩⟩
    split
    · next nonzero =>
        have digit : isDigit first := by
          have low : ascii '0' ≤ first :=
            UInt8.le_trans (by decide) nonzero.1
          simpa [isDigit] using ⟨low, nonzero.2⟩
        refine (digits_advances double false whole digit _ _).bind ?_
        rintro left ⟨whole, further⟩
        refine returns_pure ⟨whole, ?_, ?_⟩
        · simpa using Nat.le_succ_of_le further
        · rintro _ _ ⟨⟩ -
          exact further
    · next other =>
        refine returns_pure ⟨whole, Nat.le_refl _, ?_⟩
        rintro _ _ ⟨⟩ digit
        -- a digit which is neither 0 nor from 1 to 9
        exfalso
        simp only [isDigit, Bool.and_eq_true, decide_eq_true_eq] at digit
        refine other ⟨?_, digit.2⟩
        have distinct : first.toNat ≠ (ascii '0').toNat :=
          fun same => zero (UInt8.toNat_inj.mp same)
        have low := UInt8.le_iff_toNat_le.mp digit.1
        rw [UInt8.le_iff_toNat_le]
        simp only [show (ascii '0').toNat = 48 from rfl,
          show (ascii '1').toNat = 49 from rfl] at *
        omega

theorem fractionalPart_returns {p : Ptr} (whole : Whole p) (n : D) :
    Returns (fractionalPart double n p) fun left =>
      Whole left.2.2 ∧ left.2.2.length ≤ p.length := by
  rw [fractionalPart]
  refine (deref_returns whole).bind ?_
  rintro point ⟨rest, rfl⟩
  split
  · next same =>
      have tail : Whole rest :=
        whole.tail (by rw [same]; decide) (by rw [same]; decide)
      refine (deref_returns tail).bind ?_
      rintro first ⟨rest, rfl⟩
      split
      · refine (digits_returns double true tail _ _).mono ?_
        rintro left ⟨whole, further⟩
        exact ⟨whole, by simpa using Nat.le_succ_of_le further⟩
      · exact returns_pure ⟨whole, Nat.le_refl _⟩
  · exact returns_pure ⟨whole, Nat.le_refl _⟩

theorem parseNumber_returns {p : Ptr} {first : UInt8} {rest : Ptr}
    (start : p = first :: rest) (whole : Whole p)
    (numeric : first = ascii '-' ∨ isDigit first) (item : Item D) :
    Returns (parseNumber double item p) fun left =>
      Whole left.1 ∧ left.1.length < p.length := by
  subst start
  rw [parseNumber]
  refine (deref_returns whole).bind ?_
  rintro _ ⟨_, ⟨⟩⟩
  -- behind a sign the number may be empty; without one it has a digit
  have unsigned : ∃ num : Ptr,
      num = (if first = ascii '-' then (first :: rest).drop 1
        else first :: rest) ∧ Whole num ∧
      Returns (wholePart double num) fun left =>
        Whole left.2 ∧ left.2.length ≤ rest.length := by
    by_cases minus : first = ascii '-'
    · have tail : Whole rest :=
        whole.tail (by rw [minus]; decide) (by rw [minus]; decide)
      refine ⟨rest, by simp [minus], tail, ?_⟩
      exact (wholePart_returns double tail).mono
        fun left further => ⟨further.1, further.2.1⟩
    · have digit : isDigit first := numeric.resolve_left minus
      refine ⟨first :: rest, by simp [minus], whole, ?_⟩
      exact (wholePart_returns double whole).mono
        fun left further => ⟨further.1, further.2.2 first rest rfl digit⟩
  obtain ⟨num, same, -, returns⟩ := unsigned
  simp only [← same]
  refine returns.bind ?_
  rintro ⟨n, num⟩ ⟨whole, further⟩
  refine (fractionalPart_returns double whole n).bind ?_
  rintro ⟨n, scale, num⟩ ⟨whole, more⟩
  refine (exponent_returns whole).bind ?_
  rintro ⟨subscale, num⟩ ⟨whole, most⟩
  refine returns_pure ⟨whole, ?_⟩
  simp only [List.length_cons] at *
  omega

end Numbers

/-! ## Strings -/

section Strings

theorem stringLength_plain {byte : UInt8} {rest : Ptr}
    (quote : byte ≠ ascii '"') (some : byte ≠ 0)
    (other : byte ≠ ascii '\\') :
    stringLength (byte :: rest) = (· + 1) <$> stringLength rest := by
  rw [stringLength.eq_def]
  simp [quote, some, other]

theorem stringLength_escape (character : UInt8) (rest : Ptr) :
    stringLength (ascii '\\' :: character :: rest) =
      (· + 1) <$> stringLength rest := by
  rw [stringLength.eq_def]
  rfl

/-- The count at one pointer is so much more than at another. -/
def Counts (p : Ptr) (more : Nat) (q : Ptr) : Prop :=
  ∀ n, stringLength q = .ok n → stringLength p = .ok (n + more)

theorem counts_plain {byte : UInt8} {rest : Ptr}
    (quote : byte ≠ ascii '"') (some : byte ≠ 0)
    (other : byte ≠ ascii '\\') :
    Counts (byte :: rest) 1 rest := by
  intro n counted
  rw [stringLength_plain quote some other, counted]
  rfl

theorem counts_escape (character : UInt8) (rest : Ptr) :
    Counts (ascii '\\' :: character :: rest) 1 rest := by
  intro n counted
  rw [stringLength_escape, counted]
  rfl

theorem Counts.trans {p q r : Ptr} {m n : Nat} (first : Counts p m q)
    (second : Counts q n r) : Counts p (n + m) r := by
  intro k counted
  rw [first _ (second _ counted), Nat.add_assoc]

/-- The two characters and the four digits of a code point are all counted. -/
theorem counts_unicode {a b c d : UInt8} (rest : Ptr)
    (first : (hexDigit a).isSome) (second : (hexDigit b).isSome)
    (third : (hexDigit c).isSome) (fourth : (hexDigit d).isSome) :
    Counts (ascii '\\' :: ascii 'u' :: a :: b :: c :: d :: rest) 5 rest := by
  have digit {x : UInt8} {tail : Ptr} (hex : (hexDigit x).isSome) :
      Counts (x :: tail) 1 tail :=
    counts_plain (hexDigit_plain hex).2.2 (hexDigit_plain hex).1
      (hexDigit_plain hex).2.1
  exact (counts_escape _ _).trans ((digit first).trans
    ((digit second).trans ((digit third).trans (digit fourth))))

theorem stringLength_returns {p : Ptr} (whole : Whole p) :
    ∃ n, stringLength p = .ok n := by
  induction whole with
  | nul rest => exact ⟨0, by rw [stringLength.eq_def]; rfl⟩
  | @plain byte rest some other whole ih =>
      obtain ⟨n, counted⟩ := ih
      by_cases quote : byte = ascii '"'
      · exact ⟨0, by rw [stringLength.eq_def]; simp [quote]⟩
      · exact ⟨n + 1, counts_plain quote some other n counted⟩
  | @escape character rest some other whole ih =>
      obtain ⟨n, counted⟩ := ih
      exact ⟨n + 1, counts_escape character rest n counted⟩
  | @unicode a b c d rest first second third fourth whole ih =>
      obtain ⟨n, counted⟩ := ih
      exact ⟨n + 5,
        counts_unicode rest first second third fourth n counted⟩

theorem utf8Write_length (len count uc : Nat) (after : List UInt8) :
    (utf8Write len count uc after).length = count + after.length := by
  induction count using Nat.strong_induction_on generalizing uc after with
  | _ count ih =>
      match count with
      | 0 => rw [utf8Write, Nat.zero_add]
      | 1 => rw [utf8Write, List.length_cons, Nat.add_comm]
      | count + 2 =>
          rw [utf8Write, ih (count + 1) (by omega), List.length_cons]
          omega

theorem utf8_length (uc : Nat) : (utf8 uc).length = utf8Length uc := by
  rw [utf8, utf8Write_length, List.length_nil, Nat.add_zero]

theorem utf8Length_le_four (uc : Nat) : utf8Length uc ≤ 4 := by
  rw [utf8Length]
  split_ifs <;> omega

/-- What an escape writes is no longer than what was counted for it. -/
def Fits (p : Ptr) (left : List UInt8 × Ptr) : Prop :=
  ∃ counted, Counts p counted (left.2.drop 1) ∧
    left.1.length ≤ counted ∧
    Whole (left.2.drop 1) ∧ (left.2.drop 1).length < p.length

theorem transcodePair_returns {d : UInt8} {p rest : Ptr} {more : Nat}
    (counts : Counts p more rest) (five : 5 ≤ more) (whole : Whole rest)
    (shorter : rest.length < p.length) (uc : Nat) :
    Returns (transcodePair uc (d :: rest)) (Fits p) := by
  have skipped : Fits p ([], d :: rest) :=
    ⟨more, counts, Nat.zero_le _, whole, shorter⟩
  rw [transcodePair]
  refine (deref_returns whole).bind ?_
  rintro backslash ⟨rest, rfl⟩
  split
  · exact returns_pure skipped
  · next notOther =>
      obtain rfl : backslash = ascii '\\' := not_not.mp notOther
      obtain ⟨letter, rest, rfl⟩ :
          ∃ letter tail, rest = letter :: tail := by
        cases whole with
        | plain some other => exact absurd rfl other
        | escape => exact ⟨_, _, rfl⟩
        | unicode => exact ⟨_, _, rfl⟩
      refine returns_bind_of_eq (deref_cons letter rest) ?_
      split
      · exact returns_pure skipped
      · next notLetter =>
          obtain rfl : letter = ascii 'u' := not_not.mp notLetter
          cases whole with
          | plain some other => exact absurd rfl other
          | escape some other => exact absurd rfl other
          | @unicode a b c d rest first second third fourth whole =>
              have further : Counts p (5 + more) rest :=
                counts.trans
                  (counts_unicode rest first second third fourth)
              refine (parseHex4_returns first second third fourth).bind ?_
              intro uc2 _
              simp only [List.length_cons] at shorter
              split
              · exact returns_pure ⟨_, further, Nat.zero_le _, whole,
                  by simp only [List.drop_succ_cons, List.drop_zero]; omega⟩
              · refine returns_pure ⟨_, further, ?_, whole,
                  by simp only [List.drop_succ_cons, List.drop_zero]; omega⟩
                rw [utf8_length]
                exact (utf8Length_le_four _).trans (by omega)

theorem transcode_returns {a b c d : UInt8} {rest : Ptr}
    (first : (hexDigit a).isSome) (second : (hexDigit b).isSome)
    (third : (hexDigit c).isSome) (fourth : (hexDigit d).isSome)
    (whole : Whole rest) :
    Returns (transcode (ascii 'u' :: a :: b :: c :: d :: rest))
      (Fits (ascii '\\' :: ascii 'u' :: a :: b :: c :: d :: rest)) := by
  have counts := counts_unicode rest first second third fourth
  have shorter : rest.length <
      (ascii '\\' :: ascii 'u' :: a :: b :: c :: d :: rest).length := by
    simp only [List.length_cons]
    omega
  rw [transcode]
  refine (parseHex4_returns first second third fourth).bind ?_
  intro uc _
  simp only [List.drop_succ_cons, List.drop_zero]
  split
  · exact returns_pure ⟨5, counts, Nat.zero_le _, whole, shorter⟩
  · split
    · exact transcodePair_returns counts (Nat.le_refl _) whole shorter uc
    · refine returns_pure ⟨5, counts, ?_, whole, shorter⟩
      rw [utf8_length]
      exact (utf8Length_le_four _).trans (by omega)

theorem escape_returns {p : Ptr} (whole : Whole (ascii '\\' :: p)) :
    Returns (escape p) (Fits (ascii '\\' :: p)) := by
  cases whole with
  | plain some other => exact absurd rfl other
  | @escape character rest some other whole =>
      have one (byte : UInt8) :
          Fits (ascii '\\' :: character :: rest)
            ([byte], character :: rest) :=
        ⟨1, counts_escape character rest, Nat.le_refl _, whole, by simp⟩
      rw [escape]
      refine returns_ok_bind ?_
      repeat' split
      all_goals exact returns_pure (one _)
  | unicode first second third fourth whole =>
      exact transcode_returns first second third fourth whole

theorem write_returns {bytes : List UInt8} {room : Nat}
    (fits : bytes.length ≤ room) :
    Returns (write bytes room) (· = room - bytes.length) := by
  rw [write, if_pos fits]
  exact returns_ok rfl

/-- The second pass fits what the first counted, and ends at its end. -/
theorem unescape_returns :
    ∀ {fuel : Nat} {p : Ptr} {n room : Nat}, Whole p → p.length ≤ fuel →
      stringLength p = .ok n → n < room →
        Returns (unescape fuel room p) fun left =>
          Whole left.2 ∧ left.2.length ≤ p.length := by
  intro fuel
  induction fuel with
  | zero =>
      intro p n room whole short
      obtain ⟨byte, rest, rfl⟩ := whole.ne_nil
      simp at short
  | succ fuel ih =>
      intro p n room whole short counted fits
      rw [unescape]
      refine (deref_returns whole).bind ?_
      rintro character ⟨rest, rfl⟩
      split
      · refine (write_returns (by simp; omega)).bind fun _ _ => ?_
        exact returns_pure ⟨whole, Nat.le_refl _⟩
      · next inside =>
          obtain ⟨quote, some⟩ := not_or.mp inside
          split
          · next backslash =>
              subst backslash
              refine (escape_returns whole).bind ?_
              rintro ⟨bytes, stop⟩ ⟨more, counts, length, tail, shorter⟩
              obtain ⟨m, rest⟩ := stringLength_returns tail
              have total := counts m rest
              rw [counted] at total
              obtain rfl : n = m + more := Except.ok.inj total
              simp only [List.length_cons] at counts length tail shorter short
              refine (write_returns (by omega)).bind ?_
              rintro _ rfl
              refine (ih tail (by omega) rest (by omega)).bind ?_
              rintro ⟨written, stop⟩ ⟨whole, further⟩
              refine returns_pure ⟨whole, further.trans ?_⟩
              simp only [List.length_cons]
              omega
          · next other =>
              have tail := whole.tail some other
              obtain ⟨m, rest⟩ := stringLength_returns tail
              have total := counts_plain quote some other m rest
              rw [counted] at total
              obtain rfl : n = m + 1 := Except.ok.inj total
              refine (write_returns (by simp; omega)).bind ?_
              rintro _ rfl
              refine (ih tail (by simpa using short) rest
                (by simp; omega)).bind ?_
              rintro ⟨written, stop⟩ ⟨whole, further⟩
              exact returns_pure
                ⟨whole, by simpa using Nat.le_succ_of_le further⟩

end Strings

/-! ## Values -/

section Values

variable {D : Type} (double : Double D) (allocates : Nat → Bool)

theorem parseString_returns {p : Ptr} (whole : Whole p) (item : Item D)
    (heap : Heap) :
    Returns (parseString allocates item p heap) fun parsed =>
      Advances p parsed.stop := by
  rw [parseString]
  refine (deref_returns whole).bind ?_
  rintro first ⟨rest, rfl⟩
  split
  · exact returns_pure (advances_none _)
  · next notOther =>
      obtain rfl : first = ascii '"' := not_not.mp notOther
      have tail : Whole rest := whole.tail (by decide) (by decide)
      obtain ⟨n, counted⟩ := stringLength_returns tail
      refine returns_bind_of_eq counted ?_
      split
      · exact returns_pure (advances_none _)
      · refine (unescape_returns tail (by simp) counted
          (Nat.lt_succ_self _)).bind ?_
        rintro ⟨written, ptr⟩ ⟨whole, further⟩
        refine (deref_returns whole).bind ?_
        rintro last ⟨after, rfl⟩
        refine returns_pure ?_
        simp only [List.drop_succ_cons, List.drop_zero]
        split
        · next same =>
            refine advances_some
              (whole.tail (by rw [same]; decide) (by rw [same]; decide)) ?_
            simp only [List.length_cons] at further ⊢
            omega
        · refine advances_some whole ?_
          simp only [List.length_cons] at further ⊢
          omega

theorem parseName_returns (container : Container) {p : Ptr} (whole : Whole p)
    (item : Item D) (heap : Heap) :
    Returns (parseName allocates container item p heap) fun parsed =>
      ∀ start, parsed.stop = some start →
        Whole start ∧ start.length ≤ p.length := by
  cases container with
  | array =>
      refine returns_ok ?_
      rintro _ ⟨⟩
      exact ⟨whole, Nat.le_refl _⟩
  | object =>
      rw [parseName]
      refine (parseString_returns allocates whole item heap).bind ?_
      intro parsed advances
      split
      · next failed =>
          refine returns_pure fun start stopped => ?_
          rw [failed] at stopped
          cases stopped
      · next stop stopped =>
          obtain ⟨whole, shorter⟩ := advances stop stopped
          refine (skip_returns whole).bind ?_
          rintro value ⟨whole, further⟩
          refine (deref_returns whole).bind ?_
          rintro colon ⟨rest, rfl⟩
          split
          · exact returns_pure (by rintro _ ⟨⟩)
          · next notOther =>
              obtain rfl : colon = ascii ':' := not_not.mp notOther
              refine (skip_returns
                (whole.tail (by decide) (by decide))).bind ?_
              rintro start ⟨whole, more⟩
              refine returns_pure ?_
              rintro _ ⟨⟩
              refine ⟨whole, ?_⟩
              simp only [List.length_cons] at further
              omega

/-- The loop over the members keeps to the text if it does from its start. -/
theorem parseContainer_returns (container : Container) {first : UInt8}
    {rest : Ptr} (whole : Whole (first :: rest)) (some : first ≠ 0)
    (other : first ≠ ascii '\\')
    {members : Ptr → Heap → Except Fault (Members D)}
    (loop : ∀ q heap, Whole q → q.length ≤ rest.length →
      Returns (members q heap) fun left => Advances q left.stop)
    (item : Item D) (heap : Heap) :
    Returns (parseContainer container members item (first :: rest) heap)
      fun parsed => Advances (first :: rest) parsed.stop := by
  rw [parseContainer]
  refine (skip_returns (whole.tail some other)).bind ?_
  rintro value ⟨whole, further⟩
  refine (deref_returns whole).bind ?_
  rintro closing ⟨after, rfl⟩
  simp only [List.length_cons] at further
  split
  · next same =>
      refine returns_pure (advances_some (whole.tail ?_ ?_) ?_)
      · rw [same]
        cases container <;> decide
      · rw [same]
        cases container <;> decide
      · simp only [List.drop_succ_cons, List.drop_zero, List.length_cons]
        omega
  · refine (loop _ heap whole (by simpa using further)).bind ?_
    intro left advances
    exact returns_pure (advances.trans (by simp; omega))

/-- A value and the members of a container, by induction on the calls left. -/
theorem parse_returns (fuel : Nat) :
    (∀ {p : Ptr}, Whole p → 2 * p.length + 1 ≤ fuel →
      ∀ (item : Item D) heap,
        Returns (parseValue double allocates fuel item p heap) fun parsed =>
          Advances p parsed.stop) ∧
    (∀ {p : Ptr}, Whole p → 2 * p.length + 2 ≤ fuel →
      ∀ container heap,
        Returns (parseMembers double allocates container fuel p heap)
          fun left => Advances p left.stop) := by
  induction fuel with
  | zero =>
      exact ⟨fun _ enough => absurd enough (by omega),
        fun _ enough => absurd enough (by omega)⟩
  | succ fuel ih =>
      obtain ⟨value, members⟩ := ih
      constructor
      · intro p whole enough item heap
        rw [parseValue]
        refine (startsWith_returns rfl whole).bind ?_
        intro isNull null
        split
        · next same =>
            obtain ⟨whole, fits⟩ := null same
            refine returns_pure (advances_some whole ?_)
            have four : nullText.length = 4 := rfl
            rw [List.length_drop]
            omega
        refine (startsWith_returns rfl whole).bind ?_
        intro isFalse false
        split
        · next same =>
            obtain ⟨whole, fits⟩ := false same
            refine returns_pure (advances_some whole ?_)
            have five : falseText.length = 5 := rfl
            rw [List.length_drop]
            omega
        refine (startsWith_returns rfl whole).bind ?_
        intro isTrue true
        split
        · next same =>
            obtain ⟨whole, fits⟩ := true same
            refine returns_pure (advances_some whole ?_)
            have four : trueText.length = 4 := rfl
            rw [List.length_drop]
            omega
        refine (deref_returns whole).bind ?_
        rintro first ⟨rest, rfl⟩
        split
        · exact parseString_returns allocates whole item heap
        split
        · next numeric =>
            refine (parseNumber_returns double rfl whole numeric item).bind ?_
            rintro ⟨stop, item⟩ ⟨whole, shorter⟩
            exact returns_pure (advances_some whole shorter)
        have loop (container : Container) (q : Ptr) (heap : Heap)
            (whole : Whole q) (short : q.length ≤ rest.length) :
            Returns (parseMembers double allocates container fuel q heap)
              fun left => Advances q left.stop :=
          members whole (by simp only [List.length_cons] at enough; omega)
            container heap
        split
        · next same =>
            exact parseContainer_returns .array whole (by rw [same]; decide)
              (by rw [same]; decide) (loop .array) item heap
        split
        · next same =>
            exact parseContainer_returns .object whole (by rw [same]; decide)
              (by rw [same]; decide) (loop .object) item heap
        · exact returns_pure (advances_none _)
      · intro p whole enough container heap
        rw [parseMembers]
        split
        · exact returns_ok (advances_none _)
        · refine (skip_returns whole).bind ?_
          rintro start ⟨whole, further⟩
          refine (parseName_returns allocates container whole _ _).bind ?_
          intro named starts
          split
          · exact returns_pure (advances_none _)
          · next start stopped =>
              obtain ⟨whole, more⟩ := starts start stopped
              refine (value whole (by omega) _ _).bind ?_
              intro parsed advances
              split
              · exact returns_pure (advances_none _)
              · next stop stopped =>
                  obtain ⟨whole, shorter⟩ := advances stop stopped
                  refine (skip_returns whole).bind ?_
                  rintro stop ⟨whole, most⟩
                  refine (deref_returns whole).bind ?_
                  rintro separator ⟨rest, rfl⟩
                  simp only [List.length_cons] at most
                  split
                  · next same =>
                      have tail : Whole rest :=
                        whole.tail (by rw [same]; decide)
                          (by rw [same]; decide)
                      refine (members tail (by omega) container _).bind ?_
                      intro left advances
                      exact returns_pure (advances.trans (by omega))
                  split
                  · next same =>
                      refine returns_pure (advances_some
                        (whole.tail ?_ ?_) ?_)
                      · rw [same]
                        cases container <;> decide
                      · rw [same]
                        cases container <;> decide
                      · simp only [List.drop_succ_cons, List.drop_zero]
                        omega
                  · exact returns_pure (advances_none _)

theorem parseFirst_returns {p : Ptr} (whole : Whole p) (item : Item D)
    (heap : Heap) :
    Returns (parseFirst double allocates item p heap) fun parsed =>
      Advances p parsed.stop := by
  rw [parseFirst]
  refine (skip_returns whole).bind ?_
  rintro start ⟨whole, further⟩
  refine ((parse_returns double allocates (fuelFor p)).1 whole ?_ item
    heap).mono fun parsed advances => advances.trans further
  rw [fuelFor]
  omega

end Values

end InternetWavPlayer.CJsonSafety
