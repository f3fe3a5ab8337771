import Descriptor.Proofs.Number.Nearest
import Descriptor.Proofs.Scanning.Neighbours
import Descriptor.Value.Conversion

/-!
# Which texts are numerals

`Numeral.Denotes` is the grammar of the texts that convert to numbers: nothing, a word for infinity,
or digits with a dot or without and an exponent or none, each of the last two behind a sign or none.
What digits say is the number nearest to their decimal.  `Numeral.read` takes these texts and no
others, `read_iff`.

A reader that knows more words for infinity, in capitals or not, and a word for what is no number,
does the same behind a filter that lets only the characters of numerals through,
`read_eq_readFiltered`.
-/

namespace Descriptor

open Piece

/-! ## The ends of a text -/

namespace Text

/-- The middle of a text between blanks, without blanks at its own ends. -/
def IsTrimmed (text inside : List Char) : Prop :=
  ∃ before behind, text = before ++ inside ++ behind ∧
    (∀ c ∈ before, isBlank c = true) ∧ (∀ c ∈ behind, isBlank c = true) ∧
      inside.head?.any isBlank = false ∧ inside.getLast?.any isBlank = false

theorem isTrimmed_trim (text : List Char) : IsTrimmed text (trim text) := by
  have dropped := List.takeWhile_append_dropWhile (p := isBlank) (l := text)
  generalize isRest : text.dropWhile isBlank = rest at dropped
  have restEnds := List.takeWhile_append_dropWhile (p := isBlank) (l := rest.reverse)
  have whole : rest = trimEnd rest ++ (rest.reverse.takeWhile isBlank).reverse := by
    rw [trimEnd, ← List.reverse_append, restEnds, List.reverse_reverse]
  have blanks : ∀ (text : List Char) (c : Char), c ∈ text.takeWhile isBlank → isBlank c = true :=
    fun _ _ member => List.mem_takeWhile_imp (p := isBlank) member
  have stops := stops_dropWhile isBlank
  refine ⟨text.takeWhile isBlank, (rest.reverse.takeWhile isBlank).reverse, ?_, blanks text, ?_,
    ?_, ?_⟩
  · rw [trim, isRest, List.append_assoc, ← whole, dropped]
  · exact fun c member => blanks _ c (List.mem_reverse.mp member)
  · rw [trim, isRest]
    have restStops := stops text
    rw [isRest] at restStops
    cases first : trimEnd rest with
    | nil => rfl
    | cons c others =>
        rw [whole, first] at restStops
        exact restStops
  · rw [trim, isRest, trimEnd, List.getLast?_reverse]
    exact stops _

/-- A text without blanks is not trimmed. -/
theorem trim_eq_self {text : List Char} (noBlank : ∀ c ∈ text, isBlank c = false) :
    trim text = text := by
  have dropped : ∀ text : List Char, (∀ c ∈ text, isBlank c = false) →
      text.dropWhile isBlank = text := by
    intro text noBlank
    cases text with
    | nil => rfl
    | cons c text => rw [List.dropWhile_cons_of_neg (by simp [noBlank c List.mem_cons_self])]
  rw [trim, trimEnd, dropped text noBlank, dropped text.reverse (by simpa using noBlank),
    List.reverse_reverse]

theorem isBlank_of_isDigit {c : Char} (digit : c.isDigit = true) : isBlank c = false := by
  simp [Char.isDigit, UInt32.le_iff_toNat_le] at digit
  simp [isBlank]
  omega

end Text

/-! ## The grammar -/

namespace Numeral

open Binary64

/-- A sign or none, and whether it is a minus. -/
inductive IsSign : List Char → Bool → Prop where
  | absent : IsSign [] false
  | plus : IsSign ['+'] false
  | minus : IsSign ['-'] true

/-- Digits, at least one, with a dot before, among or behind them or without, and how many of them
stand behind the dot. -/
inductive IsMantissa : (text digits : List Char) → (places : Nat) → Prop where
  | whole {digits : List Char} (isDigits : IsDigits digits) : IsMantissa digits digits 0
  | dotted {whole fraction : List Char} (isDigits : IsDigits (whole ++ fraction)) :
      IsMantissa (whole ++ '.' :: fraction) (whole ++ fraction) fraction.length

/-- Nothing, or `e` in either case, a sign or none, and digits, at least one. -/
inductive IsExponent : List Char → Int → Prop where
  | absent : IsExponent [] 0
  | present {e : Char} {sign digits : List Char} {negative : Bool} (isE : e = 'e' ∨ e = 'E')
      (isSign : IsSign sign negative) (isDigits : IsDigits digits) :
      IsExponent (e :: (sign ++ digits))
        (if negative then -(Decimal.ofDigits digits : Int) else Decimal.ofDigits digits)

/-- The number that a text without blanks at its ends stands for. -/
inductive Denotes : List Char → Float → Prop where
  | nothing : Denotes [] (ofPattern false 0)
  | infinity {sign : List Char} {negative : Bool} (isSign : IsSign sign negative) :
      Denotes (sign ++ "Infinity".toList) (ofPattern negative infinityPattern)
  | decimal {sign mantissa digits power : List Char} {negative : Bool} {places : Nat}
      {exponent : Int} {pattern : Nat} (isSign : IsSign sign negative)
      (isMantissa : IsMantissa mantissa digits places) (isExponent : IsExponent power exponent)
      (isNearest : IsNearest ((Decimal.ofDigits digits : ℚ) * 10 ^ (exponent - places)) pattern) :
      Denotes (sign ++ (mantissa ++ power)) (ofPattern negative pattern)

end Numeral

/-! ## Reading follows the grammar -/

namespace Decimal

open Numeral

theorem isDigits_iff {text : List Char} :
    IsDigits text ↔ (!text.isEmpty && text.all Char.isDigit) = true := by
  simp [IsDigits]

theorem ne_sign_of_isDigit {c : Char} (digit : c.isDigit = true) : c ≠ '-' ∧ c ≠ '+' := by
  constructor <;> rintro rfl <;> contradiction

theorem readExponent?_eq_some_iff {text : List Char} {exponent : Int} :
    readExponent? text = some exponent ↔ IsExponent text exponent := by
  constructor
  · intro isRead
    unfold readExponent? at isRead
    simp only at isRead
    split at isRead
    · cases isRead
      exact .absent
    · split at isRead
      · rename_i isE
        rw [Bool.or_eq_true, beq_iff_eq, beq_iff_eq] at isE
        split at isRead <;>
          simp only [Option.map_eq_some_iff, Option.ite_none_right_eq_some, ← isDigits_iff,
            Option.some.injEq] at isRead
        · rcases isRead with ⟨_, ⟨isDigits, rfl⟩, rfl⟩
          exact .present isE .minus isDigits
        · rcases isRead with ⟨isDigits, rfl⟩
          exact .present isE .plus isDigits
        · rcases isRead with ⟨isDigits, rfl⟩
          exact .present isE .absent isDigits
      · contradiction
  · rintro (_ | @⟨e, sign, digits, negative, isE, isSign, isDigits⟩)
    · rfl
    · have enters : (e == 'e' || e == 'E') = true := by simpa using isE
      have taken := isDigits_iff.mp isDigits
      cases isSign with
      | absent =>
          cases digits with
          | nil => exact absurd rfl isDigits.1
          | cons c digits =>
              have ne := ne_sign_of_isDigit (isDigits.2 c List.mem_cons_self)
              simp only [readExponent?, enters, List.nil_append, if_true]
              split
              · rename_i same
                exact absurd (List.cons.inj same).1 ne.1
              · rename_i same
                exact absurd (List.cons.inj same).1 ne.2
              · rw [if_pos taken]
                rfl
      | plus => simp [readExponent?, enters, taken]
      | minus => simp [readExponent?, enters, taken]

/-- What an exponent begins with belongs to no digits before it. -/
theorem stops_of_isExponent {power : List Char} {exponent : Int}
    (isExponent : IsExponent power exponent) :
    Stops Char.isDigit power ∧ Stops (· == '.') power := by
  cases isExponent with
  | absent => exact ⟨stops_nil, stops_nil⟩
  | present isE => rcases isE with rfl | rfl <;> exact ⟨stops_cons.mpr rfl, stops_cons.mpr rfl⟩

/-- A decimal is read from the digits of a mantissa, moved by its places and the exponent. -/
theorem read?_eq_some_iff {text : List Char} {d : Decimal} :
    read? text = some d ↔ ∃ mantissa digits power places exponent,
      text = mantissa ++ power ∧ IsMantissa mantissa digits places ∧ IsExponent power exponent ∧
        d = ⟨ofDigits digits, exponent - places⟩ := by
  have digit : ∀ text : List Char, ∀ c ∈ text.takeWhile Char.isDigit, c.isDigit = true :=
    fun _ _ member => List.mem_takeWhile_imp (p := Char.isDigit) member
  constructor
  · intro isRead
    have whole := List.takeWhile_append_dropWhile (p := Char.isDigit) (l := text)
    unfold read? at isRead
    simp only at isRead
    split at isRead
    all_goals
      simp only [List.isEmpty_iff, Option.ite_none_left_eq_some, Option.map_eq_some_iff,
        readExponent?_eq_some_iff] at isRead
      rcases isRead with ⟨nonempty, exponent, isExponent, rfl⟩
    · rename_i fraction rest begins
      have behind := List.takeWhile_append_dropWhile (p := Char.isDigit) (l := rest)
      refine ⟨_, _, _, _, exponent, ?_, .dotted ⟨nonempty, ?_⟩, isExponent, rfl⟩
      · rw [List.append_assoc, List.cons_append, behind, ← begins, whole]
      · intro c member
        exact (List.mem_append.mp member).elim (digit _ c) (digit _ c)
    · rw [List.append_nil] at nonempty ⊢
      exact ⟨_, _, _, _, exponent, whole.symm, .whole ⟨nonempty, digit text⟩, isExponent, rfl⟩
  · rintro ⟨mantissa, digits, power, places, exponent, rfl, isMantissa, isExponent, rfl⟩
    rcases stops_of_isExponent isExponent with ⟨stopsDigit, stopsDot⟩
    cases isMantissa with
    | whole isDigits =>
        have noDot : ∀ rest, power ≠ '.' :: rest := by
          rintro rest rfl
          exact absurd (stops_cons.mp stopsDot) (by decide)
        simp only [read?, takeWhile_of_stops isDigits.2 stopsDigit,
          dropWhile_of_stops isDigits.2 stopsDigit, List.append_nil, List.isEmpty_iff, isDigits.1,
          if_false, readExponent?_eq_some_iff.mpr isExponent, Option.map_some, List.length_nil]
    | @dotted whole fraction isDigits =>
        have stopsWhole : Stops Char.isDigit ('.' :: (fraction ++ power)) := stops_cons.mpr rfl
        have inWhole : ∀ c ∈ whole, c.isDigit = true := fun c member =>
          isDigits.2 c (List.mem_append_left _ member)
        have inFraction : ∀ c ∈ fraction, c.isDigit = true := fun c member =>
          isDigits.2 c (List.mem_append_right _ member)
        simp only [read?, List.append_assoc, List.cons_append,
          takeWhile_of_stops inWhole stopsWhole, dropWhile_of_stops inWhole stopsWhole,
          takeWhile_of_stops inFraction stopsDigit, dropWhile_of_stops inFraction stopsDigit,
          List.isEmpty_iff, isDigits.1, if_false, readExponent?_eq_some_iff.mpr isExponent,
          Option.map_some]

end Decimal

namespace Numeral

open Binary64

theorem splitSign_append {sign unsigned : List Char} {negative : Bool}
    (isSign : IsSign sign negative) (noSign : ∀ c ∈ unsigned.head?, c ≠ '-' ∧ c ≠ '+') :
    splitSign (sign ++ unsigned) = (negative, unsigned) := by
  cases isSign with
  | absent =>
      rw [List.nil_append]
      unfold splitSign
      split
      · exact absurd rfl (noSign _ rfl).1
      · exact absurd rfl (noSign _ rfl).2
      · rfl
  | plus => rfl
  | minus => rfl

theorem exists_sign (text : List Char) :
    ∃ sign negative unsigned, IsSign sign negative ∧ text = sign ++ unsigned ∧
      splitSign text = (negative, unsigned) := by
  unfold splitSign
  split
  · exact ⟨_, _, _, .minus, rfl, rfl⟩
  · exact ⟨_, _, _, .plus, rfl, rfl⟩
  · exact ⟨_, _, _, .absent, rfl, rfl⟩

/-- A mantissa begins with a digit or a dot. -/
theorem noSign_of_isMantissa {mantissa digits : List Char} {places : Nat}
    (isMantissa : IsMantissa mantissa digits places) (power : List Char) :
    ∀ c ∈ (mantissa ++ power).head?, c ≠ '-' ∧ c ≠ '+' := by
  have ofDigits : ∀ text rest : List Char, (∀ c ∈ text, c.isDigit = true) → text ≠ [] →
      ∀ c ∈ (text ++ rest).head?, c ≠ '-' ∧ c ≠ '+' := by
    intro text rest digits nonempty c head
    cases text with
    | nil => exact absurd rfl nonempty
    | cons d text =>
        obtain rfl : d = c := Option.some.inj head
        exact Decimal.ne_sign_of_isDigit (digits d List.mem_cons_self)
  cases isMantissa with
  | whole isDigits => exact ofDigits _ power isDigits.2 isDigits.1
  | @dotted whole fraction isDigits =>
      rw [List.append_assoc]
      cases whole with
      | nil =>
          rintro c ⟨⟩
          decide
      | cons d whole =>
          exact ofDigits _ _ (fun c member => isDigits.2 c (List.mem_append_left _ member))
            (List.cons_ne_nil d whole)

section Sign

variable {text unsigned : List Char} {negative : Bool}
  (isSplit : splitSign text = (negative, unsigned))
include isSplit

/-- A text stands for infinity or for a decimal behind its sign, unless it is empty. -/
theorem Denotes.behind_sign {x : Float} (denotes : Denotes text x) :
    text = [] ∧ x = ofPattern false 0 ∨
      text ≠ [] ∧ (unsigned = "Infinity".toList ∧ x = ofPattern negative infinityPattern ∨
        ∃ d, Decimal.read? unsigned = some d ∧ x = d.toFloat negative) := by
  cases denotes with
  | nothing => exact .inl ⟨rfl, rfl⟩
  | infinity isSign =>
      rw [splitSign_append isSign (by rintro c ⟨⟩; decide)] at isSplit
      obtain ⟨rfl, rfl⟩ := Prod.mk.inj isSplit
      exact .inr ⟨by simp, .inl ⟨rfl, rfl⟩⟩
  | @decimal sign mantissa digits power isNegative places exponent pattern isSign isMantissa
      isExponent isNearest =>
      have isRead : Decimal.read? (mantissa ++ power) =
          some ⟨Decimal.ofDigits digits, exponent - places⟩ :=
        Decimal.read?_eq_some_iff.mpr
          ⟨mantissa, digits, power, places, exponent, rfl, isMantissa, isExponent, rfl⟩
      rw [splitSign_append isSign (noSign_of_isMantissa isMantissa power)] at isSplit
      obtain ⟨rfl, rfl⟩ := Prod.mk.inj isSplit
      refine .inr ⟨?_, .inr ⟨_, isRead, ?_⟩⟩
      · intro none
        rw [(List.append_eq_nil_iff.mp none).2] at isRead
        contradiction
      · have nearest :=
          Decimal.isNearest_nearestPattern ⟨Decimal.ofDigits digits, exponent - places⟩
        rw [Decimal.value] at nearest
        rw [Decimal.toFloat, isNearest.unique nearest]

/-- How a text that is not empty is read behind its sign. -/
theorem read_of_sign {source : String} (isTrim : Text.trim source.toList = text)
    (nonempty : text ≠ []) :
    read source =
      if unsigned = "Infinity".toList then ofPattern negative infinityPattern
      else match Decimal.read? unsigned with
        | some decimal => decimal.toFloat negative
        | none => nan := by
  rw [read, isTrim]
  cases text with
  | nil => exact absurd rfl nonempty
  | cons c text =>
      simp only [isSplit]
      exact if_congr beq_iff_eq rfl rfl

end Sign

theorem read_of_trim_nil {source : String} (empty : Text.trim source.toList = []) :
    read source = ofPattern false 0 := by
  rw [read, empty]

/-- A text is read as the number that it stands for. -/
theorem Denotes.read_eq {source : String} {x : Float}
    (denotes : Denotes (Text.trim source.toList) x) : read source = x := by
  rcases exists_sign (Text.trim source.toList) with ⟨sign, negative, unsigned, -, -, isSplit⟩
  rcases denotes.behind_sign isSplit with ⟨empty, rfl⟩ | ⟨nonempty, ⟨isInfinity, rfl⟩ | found⟩
  · exact read_of_trim_nil empty
  · rw [read_of_sign isSplit rfl nonempty, if_pos isInfinity]
  · rcases found with ⟨d, isRead, rfl⟩
    have noInfinity : unsigned ≠ "Infinity".toList := by
      rintro rfl
      contradiction
    rw [read_of_sign isSplit rfl nonempty, if_neg noInfinity, isRead]

/-- What a text is read as it stands for, unless it stands for nothing and is read as no number. -/
theorem denotes_read (source : String) :
    Denotes (Text.trim source.toList) (read source) ∨
      (∀ x, ¬Denotes (Text.trim source.toList) x) ∧ read source = nan := by
  rcases exists_sign (Text.trim source.toList) with
    ⟨sign, negative, unsigned, isSign, whole, isSplit⟩
  by_cases empty : Text.trim source.toList = []
  · rw [read_of_trim_nil empty, empty]
    exact .inl .nothing
  · rw [read_of_sign isSplit rfl empty]
    by_cases isInfinity : unsigned = "Infinity".toList
    · rw [if_pos isInfinity, whole, isInfinity]
      exact .inl (.infinity isSign)
    · rw [if_neg isInfinity]
      cases isRead : Decimal.read? unsigned with
      | none =>
          refine .inr ⟨fun x denotes => ?_, rfl⟩
          rcases denotes.behind_sign isSplit with ⟨isEmpty, -⟩ | ⟨-, ⟨same, -⟩ | ⟨d, found, -⟩⟩
          · exact empty isEmpty
          · exact isInfinity same
          · rw [isRead] at found
            contradiction
      | some d =>
          rcases Decimal.read?_eq_some_iff.mp isRead with
            ⟨mantissa, digits, power, places, exponent, rfl, isMantissa, isExponent, rfl⟩
          rw [whole]
          exact .inl (.decimal isSign isMantissa isExponent (Decimal.isNearest_nearestPattern _))

/-- A text is read as the number that it stands for, and as no number if it stands for none. -/
theorem read_iff {source : String} {x : Float} :
    read source = x ↔ Denotes (Text.trim source.toList) x ∨
      (∀ y, ¬Denotes (Text.trim source.toList) y) ∧ x = nan := by
  constructor
  · rintro rfl
    exact denotes_read source
  · rintro (denotes | ⟨none, rfl⟩)
    · exact denotes.read_eq
    · exact ((denotes_read source).resolve_left (none _)).2

/-! ## The characters of numerals -/

/-- The characters that numerals are made of. -/
def isNumeralChar (c : Char) : Bool :=
  c.isDigit || c == '.' || c == 'e' || c == 'E' || c == '+' || c == '-'

theorem isNumeralChar_of_isSign {sign : List Char} {negative : Bool}
    (isSign : IsSign sign negative) : ∀ c ∈ sign, isNumeralChar c = true := by
  cases isSign <;> simp [isNumeralChar]

theorem isNumeralChar_of_isDigits {digits : List Char} (isDigits : IsDigits digits) :
    ∀ c ∈ digits, isNumeralChar c = true := fun c member => by
  simp [isNumeralChar, isDigits.2 c member]

/-- Numerals are made of no other characters. -/
theorem isNumeralChar_of_read? {unsigned : List Char} {d : Decimal}
    (isRead : Decimal.read? unsigned = some d) : ∀ c ∈ unsigned, isNumeralChar c = true := by
  rcases Decimal.read?_eq_some_iff.mp isRead with
    ⟨mantissa, digits, power, places, exponent, rfl, isMantissa, isExponent, -⟩
  have inMantissa : ∀ c ∈ mantissa, isNumeralChar c = true := by
    cases isMantissa with
    | whole isDigits => exact isNumeralChar_of_isDigits isDigits
    | dotted isDigits =>
        have inDigits := isNumeralChar_of_isDigits isDigits
        rw [List.forall_mem_append] at inDigits ⊢
        exact ⟨inDigits.1, List.forall_mem_cons.mpr ⟨rfl, inDigits.2⟩⟩
  have inPower : ∀ c ∈ power, isNumeralChar c = true := by
    cases isExponent with
    | absent => nofun
    | present isE isSign isDigits =>
        rw [List.forall_mem_cons, List.forall_mem_append]
        refine ⟨?_, isNumeralChar_of_isSign isSign, isNumeralChar_of_isDigits isDigits⟩
        rcases isE with rfl | rfl <;> rfl
  exact List.forall_mem_append.mpr ⟨inMantissa, inPower⟩

theorem isBlank_of_isNumeralChar {c : Char} (belongs : isNumeralChar c = true) :
    Text.isBlank c = false := by
  simp only [isNumeralChar, Bool.or_eq_true, beq_iff_eq] at belongs
  rcases belongs with ((((digit | rfl) | rfl) | rfl) | rfl) | rfl
  · exact Text.isBlank_of_isDigit digit
  all_goals decide

theorem exists_signed_eq (negative : Bool) (text : List Char) :
    ∃ sign, IsSign sign negative ∧ signed negative text = sign ++ text := by
  cases negative
  · exact ⟨[], .absent, rfl⟩
  · exact ⟨['-'], .minus, rfl⟩

/-- A numeral with a sign or without is read as its decimal with that sign. -/
theorem read_signed {body : List Char} {d : Decimal} (isRead : Decimal.read? body = some d)
    (negative : Bool) : read (.ofList (signed negative body)) = d.toFloat negative := by
  rcases exists_signed_eq negative body with ⟨sign, isSign, whole⟩
  have belong : ∀ c ∈ signed negative body, isNumeralChar c = true := by
    rw [whole]
    exact List.forall_mem_append.mpr
      ⟨isNumeralChar_of_isSign isSign, isNumeralChar_of_read? isRead⟩
  have isTrim : Text.trim (String.ofList (signed negative body)).toList = sign ++ body := by
    rw [String.toList_ofList,
      Text.trim_eq_self fun c member => isBlank_of_isNumeralChar (belong c member), whole]
  have noSign : ∀ c ∈ body.head?, c ≠ '-' ∧ c ≠ '+' := by
    rcases Decimal.read?_eq_some_iff.mp isRead with ⟨_, _, power, _, _, rfl, isMantissa, -⟩
    exact noSign_of_isMantissa isMantissa power
  have nonempty : sign ++ body ≠ [] := by
    intro none
    rw [(List.append_eq_nil_iff.mp none).2] at isRead
    contradiction
  have noInfinity : body ≠ "Infinity".toList := by
    rintro rfl
    contradiction
  rw [read_of_sign (splitSign_append isSign noSign) isTrim nonempty, if_neg noInfinity, isRead]

/-! ## Reading through a filter -/

/-- A reader of numerals that also knows `inf`, `infinity` and `nan`, in capitals or not. -/
def parse? (text : List Char) : Option Float :=
  let (negative, unsigned) := splitSign text
  let word := unsigned.map Char.toLower
  if word = "inf".toList ∨ word = "infinity".toList then
    some (ofPattern negative infinityPattern)
  else if word = "nan".toList then some nan
  else (Decimal.read? unsigned).map (·.toFloat negative)

/-- Blanks and `Infinity` are read apart, and other texts by that reader if they are made of the
characters of numerals behind their sign. -/
def readFiltered (text : String) : Float :=
  match Text.trim text.toList with
  | [] => ofPattern false 0
  | trimmed =>
      let unsigned := (splitSign trimmed).2
      if unsigned = "Infinity".toList then
        ofPattern (trimmed.head? == some '-') infinityPattern
      else if unsigned.all isNumeralChar then (parse? trimmed).getD nan
      else nan

/-- None of the words passes the filter, since both their first letters are missing. -/
theorem toLower_of_isNumeralChar {c : Char} (belongs : isNumeralChar c = true) :
    c.toLower ≠ 'i' ∧ c.toLower ≠ 'n' := by
  simp only [isNumeralChar, Bool.or_eq_true, beq_iff_eq] at belongs
  rcases belongs with ((((digit | rfl) | rfl) | rfl) | rfl) | rfl
  · have same : c.toLower = c := by
      simp [Char.isDigit, UInt32.le_iff_toNat_le] at digit
      rw [Char.toLower, dif_neg]
      simp [UInt32.le_iff_toNat_le]
      omega
    rw [same]
    constructor <;> rintro rfl <;> contradiction
  all_goals decide

theorem parse?_of_numeral {text unsigned : List Char} {negative : Bool}
    (isSplit : splitSign text = (negative, unsigned))
    (belong : ∀ c ∈ unsigned, isNumeralChar c = true) :
    parse? text = (Decimal.read? unsigned).map (·.toFloat negative) := by
  have noWord : ∀ word : List Char, (∃ c ∈ word.head?, c = 'i' ∨ c = 'n') →
      unsigned.map Char.toLower ≠ word := by
    rintro _ ⟨c, head, first⟩ rfl
    rw [List.head?_map] at head
    rcases Option.map_eq_some_iff.mp head with ⟨d, isFirst, rfl⟩
    have noLetter := toLower_of_isNumeralChar (belong d (List.mem_of_mem_head? isFirst))
    exact first.elim noLetter.1 noLetter.2
  have infinity := not_or.mpr ⟨noWord "inf".toList ⟨'i', by decide, .inl rfl⟩,
    noWord "infinity".toList ⟨'i', by decide, .inl rfl⟩⟩
  rw [parse?, isSplit]
  simp only
  rw [if_neg infinity, if_neg (noWord "nan".toList ⟨'n', by decide, .inr rfl⟩)]

theorem splitSign_fst (text : List Char) : (splitSign text).1 = (text.head? == some '-') := by
  unfold splitSign
  split
  · rfl
  · rfl
  · rename_i noMinus _
    cases text with
    | nil => rfl
    | cons c text =>
        have ne : c ≠ '-' := fun same => noMinus text (by rw [same])
        simp [ne]

/-- The filter leaves exactly the numerals of the other reader's language. -/
theorem read_eq_readFiltered (source : String) : read source = readFiltered source := by
  unfold readFiltered
  split
  · rename_i empty
    exact read_of_trim_nil empty
  · rename_i nonempty
    generalize isTrim : Text.trim source.toList = text at *
    rcases exists_sign text with ⟨sign, negative, unsigned, -, -, isSplit⟩
    have isMinus := splitSign_fst text
    rw [isSplit] at isMinus
    simp only [isSplit] at isMinus ⊢
    rw [read_of_sign isSplit isTrim nonempty, ← isMinus]
    split
    · rfl
    · by_cases belong : unsigned.all isNumeralChar = true
      · rw [if_pos belong, parse?_of_numeral isSplit (List.all_eq_true.mp belong)]
        cases Decimal.read? unsigned <;> rfl
      · rw [if_neg belong]
        cases isRead : Decimal.read? unsigned with
        | none => rfl
        | some d => exact absurd (List.all_eq_true.mpr (isNumeralChar_of_read? isRead)) belong

end Numeral

/-! ## Texts and tokens as numbers -/

/-- A number without a fault has the value that its lexeme is read as. -/
theorem Piece.Cut.value_of_number {piece : Piece} {rest : List Char} (cut : Cut piece rest)
    {value : Float} (isNumber : piece.content = .token (.number value) none) :
    Numeral.read (.ofList piece.lexeme) = value := by
  cases cut with
  | number => exact Kind.number.inj (Content.token.inj isNumber).1
  | @name lexeme =>
      have isKind := (Content.token.inj isNumber).1
      unfold nameKind at isKind
      split at isKind <;> contradiction
  | _ => nomatch isNumber

/-- A text between its blanks converts to the number that it stands for, and to what is no number if
it stands for none.  A number of a descriptor without an error has the value that its lexeme
converts to. -/
theorem toNumber_of_text (heap : Heap) :
    (∀ text : String, ∃ inside, Text.IsTrimmed text.toList inside ∧
      (∀ x, (Value.string text).toNumber heap = x ↔
        Numeral.Denotes inside x ∨ (∀ y, ¬Numeral.Denotes inside y) ∧ x = Binary64.nan) ∧
      (Value.string text).toNumber heap = Numeral.readFiltered text) ∧
    ∀ source : String, ∀ piece ∈ pieces source.toList, ∀ line token value,
      piece.token? line = some token → token.kind = .number value → piece.error? line = none →
        (Value.string token.lexeme).toNumber heap = value := by
  constructor
  · intro text
    exact ⟨Text.trim text.toList, Text.isTrimmed_trim _, fun x => Numeral.read_iff,
      Numeral.read_eq_readFiltered text⟩
  · intro source piece member line token value isToken isNumber noError
    rcases List.append_of_mem member with ⟨before, behind, split⟩
    rcases cut_of_pieces_eq split with ⟨rest, cut, -⟩
    rcases piece with ⟨_ | _ | ⟨kind, fault⟩, lexeme⟩ <;> cases isToken
    cases isNumber
    cases fault with
    | none => exact cut.value_of_number rfl
    | some fault => cases noError

end Descriptor
