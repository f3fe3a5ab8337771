import Descriptor.Token.Scan
import Mathlib

/-!
# What a piece of a text can be

`Piece.Cut` lists the forms that a first piece can have in front of the text behind it: the lexeme
of each form, and what may not stand next because it would belong to the piece.  What a text is cut
into is so related, `cut_first`, and a text that is put together so is cut there again,
`Cut.first_eq`.  So the pieces of a text can be read off it.
-/

namespace Descriptor.Piece

/-! ## Which rule a character selects -/

/-- The characters that signs begin with. -/
def signStarts : List Char :=
  [':', ',', '.', '{', '}', '[', ']', '(', ')', '-', '%', '+', '/', '*', '!', '=', '<', '>']

/-- Whether a token begins with a character. -/
def startsToken (c : Char) : Bool :=
  signStarts.contains c || c == ';' || c == '\n' || c == '"' || c == '\'' || c.isDigit ||
    startsName c

/-- A sign is found wherever one can begin. -/
theorem isSome_sign? {c : Char} (starts : c ∈ signStarts) {text rest : List Char}
    (begins : text = c :: rest) : (sign? text).isSome = true := by
  fun_cases sign? text
  case case25 =>
    simp only [signStarts, List.mem_cons, List.not_mem_nil, or_false] at starts
    rcases starts with rfl | rfl | rfl | rfl | rfl | rfl | rfl | rfl | rfl | rfl | rfl | rfl |
      rfl | rfl | rfl | rfl | rfl | rfl
    all_goals
      exfalso
      solve_by_elim
  all_goals rfl

/-- The characters of a sign are such as signs begin with. -/
theorem mem_signStarts_of_sign? {text lexeme rest : List Char} {sign : Sign}
    (found : sign? text = some (sign, lexeme, rest)) : ∀ c ∈ lexeme, c ∈ signStarts := by
  unfold sign? at found
  split at found <;> cases found <;> simp [signStarts]

theorem sign?_eq_none_iff {c : Char} {rest : List Char} :
    sign? (c :: rest) = none ↔ c ∉ signStarts := by
  constructor
  · intro unfound starts
    have found : (sign? (c :: rest)).isSome = true := isSome_sign? starts rfl
    rw [unfound] at found
    contradiction
  · intro noStart
    cases found : sign? (c :: rest) with
    | none => rfl
    | some result =>
        rcases result with ⟨sign, lexeme, behind⟩
        rcases append_of_sign? found with ⟨whole, nonempty⟩
        cases lexeme with
        | nil => exact absurd rfl nonempty
        | cons d lexeme =>
            rw [List.cons_append, List.cons.injEq] at whole
            have starts := mem_signStarts_of_sign? found d List.mem_cons_self
            rw [whole.1] at starts
            exact absurd starts noStart

theorem isAlpha_of_isDigit {c : Char} (digit : c.isDigit = true) : c.isAlpha = false := by
  simp [Char.isAlpha, Char.isUpper, Char.isLower, Char.isDigit, UInt32.le_iff_toNat_le] at digit ⊢
  omega

theorem startsName_of_isDigit {c : Char} (digit : c.isDigit = true) : startsName c = false := by
  simp only [startsName, isAlpha_of_isDigit digit, Bool.false_or, beq_eq_false_iff_ne]
  rintro rfl
  contradiction

section Rules

variable {c : Char} {rest : List Char}

theorem first_of_sign {sign : Sign} {lexeme behind : List Char}
    (found : sign? (c :: rest) = some (sign, lexeme, behind)) :
    first c rest = (good (.sign sign) lexeme, behind) := by
  simp [first, found]

theorem first_of_separator (separates : c = ';' ∨ c = '\n') :
    first c rest = (good .separator [c], rest) := by
  rcases separates with rfl | rfl <;> rfl

theorem first_of_isSpace (space : isSpace c = true) : first c rest = (⟨.blank, [c]⟩, rest) := by
  simp only [isSpace, Bool.or_eq_true, beq_iff_eq] at space
  rcases space with (rfl | rfl) | rfl <;> rfl

theorem first_of_quote (quote : c = '"' ∨ c = '\'') : first c rest = string c rest := by
  rcases quote with rfl | rfl <;> rfl

theorem first_of_isDigit (digit : c.isDigit = true) : first c rest = number (c :: rest) := by
  have ne : ∀ d : Char, d.isDigit = false → c ≠ d := by grind
  have noSign : c ∉ signStarts := fun member =>
    ne c (by fin_cases member <;> rfl) rfl
  simp [first, sign?_eq_none_iff.mpr noSign, isSpace, digit, ne]

theorem first_of_startsName (starts : startsName c = true) : first c rest = name (c :: rest) := by
  have ne : ∀ d : Char, startsName d = false → c ≠ d := by grind
  have noSign : c ∉ signStarts := fun member =>
    ne c (by fin_cases member <;> rfl) rfl
  have notDigit : c.isDigit = false := by
    grind [startsName_of_isDigit]
  have noSeparator : c ≠ ';' ∧ c ≠ '\n' := ⟨ne _ rfl, ne _ rfl⟩
  simp [first, sign?_eq_none_iff.mpr noSign, isSpace, starts, notDigit, ne ' ' rfl, ne '\t' rfl,
    ne '\r' rfl, ne '"' rfl, ne '\'' rfl, noSeparator]

end Rules

/-! ## The forms of a piece -/

/-- Digits, at least one. -/
def IsDigits (text : List Char) : Prop :=
  text ≠ [] ∧ ∀ c ∈ text, c.isDigit = true

/-- Nothing, or a dot with digits behind it. -/
def IsFraction (text : List Char) : Prop :=
  text = [] ∨ ∃ digits, IsDigits digits ∧ text = '.' :: digits

/-- The kind of a name: the keyword of that spelling, or else an identifier. -/
def nameKind (lexeme : List Char) : Kind :=
  match Keyword.ofText? (.ofList lexeme) with
  | some keyword => .keyword keyword
  | none => .identifier

/-- The kind of a number that begins with a whole part and a fraction. -/
def numberKind (whole decimals : List Char) : Kind :=
  .number (Numeral.read (.ofList (whole ++ decimals)))

/-- Whether a text does not begin with a character of a class. -/
def Stops (belongs : Char → Bool) (text : List Char) : Prop :=
  text.head?.any belongs = false

/-- Whether a dot does not go on with a number: behind a whole part it needs a digit to do so,
behind a fraction it does in any case. -/
def StopsNumber (decimals rest : List Char) : Prop :=
  if decimals = [] then (fraction rest).1 = [] else Stops (· == '.') rest

/-- The first piece of a text in front of the text behind it. -/
inductive Cut : Piece → List Char → Prop where
  | sign {sign : Sign} {lexeme rest : List Char}
      (found : sign? (lexeme ++ rest) = some (sign, lexeme, rest)) :
      Cut (good (.sign sign) lexeme) rest
  | separator {c : Char} {rest : List Char} (separates : c = ';' ∨ c = '\n') :
      Cut (good .separator [c]) rest
  | blank {c : Char} {rest : List Char} (space : isSpace c = true) : Cut ⟨.blank, [c]⟩ rest
  | closed {quote : Char} {inside rest : List Char} (isQuote : quote = '"' ∨ quote = '\'')
      (noQuote : quote ∉ inside) :
      Cut (good (.string (.ofList inside)) (quote :: inside ++ [quote])) rest
  | unclosed {quote : Char} {inside : List Char} (isQuote : quote = '"' ∨ quote = '\'')
      (noQuote : quote ∉ inside) :
      Cut ⟨.token (.string (.ofList inside)) (some .unterminatedString), quote :: inside⟩ []
  | number {whole decimals rest : List Char} (digits : IsDigits whole)
      (fraction : IsFraction decimals) (stops : Stops isName rest)
      (stopsDot : StopsNumber decimals rest) :
      Cut (good (numberKind whole decimals) (whole ++ decimals)) rest
  | dotted {whole decimals more rest : List Char} (digits : IsDigits whole)
      (fraction : IsFraction decimals) (nonempty : decimals ≠ []) (dot : more.head? = some '.')
      (belongs : ∀ c ∈ more, (c == '.' || c.isDigit) = true)
      (stops : Stops (fun c => c == '.' || c.isDigit) rest) :
      Cut ⟨.token (numberKind whole decimals) (some .extraDecimalPoint),
        whole ++ decimals ++ more⟩ rest
  | lettered {whole decimals more rest : List Char} (digits : IsDigits whole)
      (fraction : IsFraction decimals) (letter : more.head?.any startsName = true)
      (belongs : ∀ c ∈ more, isName c = true) (stops : Stops isName rest) :
      Cut ⟨.token (numberKind whole decimals) (some .letterAfterNumber),
        whole ++ decimals ++ more⟩ rest
  | name {lexeme rest : List Char} (starts : lexeme.head?.any startsName = true)
      (belongs : ∀ c ∈ lexeme, isName c = true) (stops : Stops isName rest) :
      Cut (good (nameKind lexeme) lexeme) rest
  | unknown {c : Char} {rest : List Char} (noToken : startsToken c = false)
      (noSpace : isSpace c = false) : Cut ⟨.unknown c, [c]⟩ rest

/-! ## Runs of characters -/

section Runs

variable {belongs : Char → Bool} {used rest : List Char}

theorem stops_nil : Stops belongs [] :=
  rfl

theorem stops_cons {c : Char} : Stops belongs (c :: rest) ↔ belongs c = false := by
  simp [Stops]

theorem stops_dropWhile (belongs : Char → Bool) (text : List Char) :
    Stops belongs (text.dropWhile belongs) := by
  have head := List.head?_dropWhile_not belongs text
  unfold Stops
  cases dropped : text.dropWhile belongs with
  | nil => rfl
  | cons c rest => simpa [dropped] using head

/-- A run ends where the next character does not belong to it. -/
theorem takeWhile_of_stops (run : ∀ c ∈ used, belongs c = true) (stops : Stops belongs rest) :
    (used ++ rest).takeWhile belongs = used := by
  rw [List.takeWhile_append_of_pos run]
  cases rest with
  | nil => simp
  | cons c rest => simp [stops_cons.mp stops]

theorem dropWhile_of_stops (run : ∀ c ∈ used, belongs c = true) (stops : Stops belongs rest) :
    (used ++ rest).dropWhile belongs = rest := by
  rw [List.dropWhile_append_of_pos run]
  cases rest with
  | nil => simp
  | cons c rest => simp [stops_cons.mp stops]

end Runs

/-! ## A first piece has one of these forms -/

theorem isFraction_fraction (text : List Char) : IsFraction (fraction text).1 := by
  unfold fraction
  split
  · rename_i rest
    split
    · rename_i digit
      refine .inr ⟨_, ⟨?_, ?_⟩, rfl⟩
      · cases rest with
        | nil => simp at digit
        | cons c rest => simpa using digit
      · intro c member
        exact List.mem_takeWhile_imp (p := Char.isDigit) member
    · exact .inl rfl
  · exact .inl rfl

theorem isDigits_takeWhile {c : Char} (digit : c.isDigit = true) (rest : List Char) :
    IsDigits ((c :: rest).takeWhile Char.isDigit) :=
  ⟨by simp [digit], fun _ member => List.mem_takeWhile_imp (p := Char.isDigit) member⟩

theorem cut_string {quote : Char} (isQuote : quote = '"' ∨ quote = '\'') (text : List Char) :
    Cut (string quote text).1 (string quote text).2 := by
  have noQuote : quote ∉ text.takeWhile (· != quote) := fun member => by
    simpa using List.mem_takeWhile_imp (p := (· != quote)) member
  unfold string
  split
  · exact .unclosed isQuote noQuote
  · exact .closed isQuote noQuote

theorem cut_name {c : Char} (starts : startsName c = true) (rest : List Char) :
    Cut (name (c :: rest)).1 (name (c :: rest)).2 := by
  have belongs : isName c = true := by
    simp only [startsName, isName, Char.isAlphanum, Bool.or_eq_true] at starts ⊢
    tauto
  refine .name ?_ (fun d member => ?_) (stops_dropWhile isName _)
  · simp [belongs, starts]
  · exact List.mem_takeWhile_imp (p := isName) member

/-- Behind digits and a fraction there is no further digit. -/
theorem stops_fraction {text : List Char} (stops : Stops Char.isDigit text) :
    Stops Char.isDigit (fraction text).2 := by
  unfold fraction
  split
  · split
    · exact stops_dropWhile Char.isDigit _
    · exact stops
  · exact stops

/-- Where a fraction is missing, it is still missing behind the digits. -/
theorem stopsNumber_fraction (text : List Char)
    (stops : (fraction text).1 ≠ [] → Stops (· == '.') (fraction text).2) :
    StopsNumber (fraction text).1 (fraction text).2 := by
  unfold StopsNumber
  split
  · rename_i missing
    have whole := append_fraction text
    rw [missing, List.nil_append] at whole
    rw [whole, missing]
  · rename_i present
    exact stops present

theorem isName_iff {c : Char} : isName c = true ↔ startsName c = true ∨ c.isDigit = true := by
  simp only [startsName, isName, Char.isAlphanum, Bool.or_eq_true]
  tauto

theorem cut_number {c : Char} (digit : c.isDigit = true) (rest : List Char) :
    Cut (number (c :: rest)).1 (number (c :: rest)).2 := by
  have digits := isDigits_takeWhile digit rest
  have isFraction := isFraction_fraction ((c :: rest).dropWhile Char.isDigit)
  have noDigit := stops_fraction (stops_dropWhile Char.isDigit (c :: rest))
  have stopsDot := stopsNumber_fraction ((c :: rest).dropWhile Char.isDigit)
  unfold number
  simp only
  generalize fraction ((c :: rest).dropWhile Char.isDigit) = parts at *
  rcases parts with ⟨decimals, behind⟩
  split
  · rename_i dotted
    rw [Bool.and_eq_true] at dotted
    refine .dotted digits isFraction (by simpa using dotted.1) ?_
      (fun d member => List.mem_takeWhile_imp (p := fun c => c == '.' || c.isDigit) member)
      (stops_dropWhile (fun c => c == '.' || c.isDigit) behind)
    cases behind with
    | nil => simp at dotted
    | cons d behind => simp_all
  · rename_i notDotted
    split
    · rename_i letter
      refine .lettered digits isFraction ?_
        (fun d member => List.mem_takeWhile_imp (p := isName) member)
        (stops_dropWhile isName behind)
      cases behind with
      | nil => simp at letter
      | cons d behind =>
          have belongs := isName_iff.mpr (.inl (by simpa using letter))
          simpa [belongs] using letter
    · rename_i noLetter
      refine .number digits isFraction ?_ (stopsDot fun present => ?_)
      · cases behind with
        | nil => rfl
        | cons d behind =>
            rw [stops_cons, ← Bool.not_eq_true, isName_iff]
            rintro (letter | digit)
            · exact noLetter (by simpa using letter)
            · rw [stops_cons.mp noDigit] at digit
              contradiction
      · simpa [Stops, present] using notDotted

/-- A first piece is in one of the forms. -/
theorem cut_first (c : Char) (rest : List Char) : Cut (first c rest).1 (first c rest).2 := by
  unfold first
  split
  · rename_i found
    rcases append_of_sign? found with ⟨whole, -⟩
    exact .sign (by rw [whole, found])
  · rename_i noSign
    rw [sign?_eq_none_iff] at noSign
    repeat' split
    · rename_i separates
      exact .separator (by simpa using separates)
    · rename_i space
      exact .blank space
    · rename_i isQuote
      exact cut_string (by simpa using isQuote) rest
    · rename_i digit
      exact cut_number digit rest
    · rename_i starts
      exact cut_name starts rest
    · rename_i noSpace _ _ _
      refine .unknown ?_ (by simpa using noSpace)
      simp_all [startsToken]

/-! ## A piece in one of these forms is cut -/

theorem string_of_closed {quote : Char} {inside : List Char} (noQuote : quote ∉ inside)
    (rest : List Char) :
    string quote (inside ++ quote :: rest) =
      (good (.string (.ofList inside)) (quote :: inside ++ [quote]), rest) := by
  have run : ∀ c ∈ inside, (c != quote) = true := by
    intro c member
    simp only [bne_iff_ne]
    rintro rfl
    exact noQuote member
  have stops : Stops (· != quote) (quote :: rest) := by simp [stops_cons]
  unfold string
  rw [takeWhile_of_stops run stops, dropWhile_of_stops run stops]

theorem string_of_unclosed {quote : Char} {inside : List Char} (noQuote : quote ∉ inside) :
    string quote inside =
      (⟨.token (.string (.ofList inside)) (some .unterminatedString), quote :: inside⟩, []) := by
  have run : ∀ c ∈ inside, (c != quote) = true := by
    intro c member
    simp only [bne_iff_ne]
    rintro rfl
    exact noQuote member
  have stops : Stops (· != quote) [] := stops_nil
  have taken := takeWhile_of_stops run stops
  have dropped := dropWhile_of_stops run stops
  rw [List.append_nil] at taken dropped
  unfold string
  rw [taken, dropped]

/-- A fraction is found in front of what does not go on with it. -/
theorem fraction_append {decimals rest : List Char} (isFraction : IsFraction decimals)
    (stops : decimals = [] → (fraction rest).1 = [])
    (stopsDigit : Stops Char.isDigit rest) : fraction (decimals ++ rest) = (decimals, rest) := by
  rcases isFraction with rfl | ⟨digits, ⟨nonempty, run⟩, rfl⟩
  · have whole := append_fraction rest
    rw [stops rfl, List.nil_append] at whole
    rw [List.nil_append]
    exact Prod.ext (stops rfl) whole
  · cases digits with
    | nil => exact absurd rfl nonempty
    | cons d digits =>
        have digit := run d List.mem_cons_self
        have taken := takeWhile_of_stops run stopsDigit
        have dropped := dropWhile_of_stops run stopsDigit
        rw [List.cons_append] at taken dropped
        simp only [fraction, List.cons_append, List.head?_cons, Option.any_some, digit, if_true,
          taken, dropped]

/-- What number is cut from digits and a fraction depends on what stands behind them. -/
theorem number_append {whole decimals behind : List Char} (digits : IsDigits whole)
    (isFraction : IsFraction decimals) (stops : decimals = [] → (fraction behind).1 = [])
    (stopsDigit : Stops Char.isDigit behind) :
    number (whole ++ (decimals ++ behind)) =
      if !decimals.isEmpty && behind.head?.any (· == '.') then
        (⟨.token (numberKind whole decimals) (some .extraDecimalPoint),
          whole ++ decimals ++ behind.takeWhile fun c => c == '.' || c.isDigit⟩,
          behind.dropWhile fun c => c == '.' || c.isDigit)
      else if behind.head?.any startsName then
        (⟨.token (numberKind whole decimals) (some .letterAfterNumber),
          whole ++ decimals ++ behind.takeWhile isName⟩, behind.dropWhile isName)
      else
        (good (numberKind whole decimals) (whole ++ decimals), behind) := by
  have stopsWhole : Stops Char.isDigit (decimals ++ behind) := by
    rcases isFraction with rfl | ⟨digits, -, rfl⟩
    · exact stopsDigit
    · exact stops_cons.mpr (by decide)
  unfold number
  simp only [takeWhile_of_stops digits.2 stopsWhole, dropWhile_of_stops digits.2 stopsWhole,
    fraction_append isFraction stops stopsDigit, numberKind]

theorem Stops.mono {belongs belongs' : Char → Bool} {text : List Char}
    (fewer : ∀ c, belongs' c = true → belongs c = true) (stops : Stops belongs text) :
    Stops belongs' text := by
  cases text with
  | nil => rfl
  | cons c text =>
      rw [stops_cons, ← Bool.not_eq_true] at stops ⊢
      exact fun member => stops (fewer c member)

theorem stopsDigit_of_stopsName {text : List Char} (stops : Stops isName text) :
    Stops Char.isDigit text :=
  stops.mono fun _ digit => isName_iff.mpr (.inr digit)

/-- A number without a fault is cut from its text. -/
theorem number_of_stops {whole decimals rest : List Char} (digits : IsDigits whole)
    (isFraction : IsFraction decimals) (stops : Stops isName rest)
    (stopsDot : StopsNumber decimals rest) :
    number (whole ++ decimals ++ rest) =
      (good (numberKind whole decimals) (whole ++ decimals), rest) := by
  unfold StopsNumber at stopsDot
  have noLetter : rest.head?.any startsName = false :=
    stops.mono fun _ starts => isName_iff.mpr (.inl starts)
  have missing : decimals = [] → (fraction rest).1 = [] := by
    intro none
    rwa [if_pos none] at stopsDot
  rw [List.append_assoc, number_append digits isFraction missing (stopsDigit_of_stopsName stops),
    if_neg, if_neg (by simp [noLetter])]
  rw [Bool.and_eq_true]
  rintro ⟨present, dot⟩
  rw [if_neg (by simpa using present), Stops, dot] at stopsDot
  contradiction

/-- A number with a second dot is cut from its text. -/
theorem number_of_dotted {whole decimals more rest : List Char} (digits : IsDigits whole)
    (isFraction : IsFraction decimals) (nonempty : decimals ≠ []) (dot : more.head? = some '.')
    (belongs : ∀ c ∈ more, (c == '.' || c.isDigit) = true)
    (stops : Stops (fun c => c == '.' || c.isDigit) rest) :
    number (whole ++ decimals ++ more ++ rest) =
      (⟨.token (numberKind whole decimals) (some .extraDecimalPoint),
        whole ++ decimals ++ more⟩, rest) := by
  cases more with
  | nil => simp at dot
  | cons c more =>
      rw [List.head?_cons, Option.some.injEq] at dot
      subst dot
      have stopsDigit : Stops Char.isDigit ('.' :: more ++ rest) := stops_cons.mpr (by decide)
      rw [List.append_assoc, List.append_assoc, number_append digits isFraction
        (fun missing => absurd missing nonempty) stopsDigit, if_pos,
        takeWhile_of_stops belongs stops, dropWhile_of_stops belongs stops]
      simpa using nonempty

/-- A number with letters behind it is cut from its text. -/
theorem number_of_lettered {whole decimals more rest : List Char} (digits : IsDigits whole)
    (isFraction : IsFraction decimals) (letter : more.head?.any startsName = true)
    (belongs : ∀ c ∈ more, isName c = true) (stops : Stops isName rest) :
    number (whole ++ decimals ++ more ++ rest) =
      (⟨.token (numberKind whole decimals) (some .letterAfterNumber),
        whole ++ decimals ++ more⟩, rest) := by
  cases more with
  | nil => simp at letter
  | cons c more =>
      rw [List.head?_cons, Option.any_some] at letter
      have noDot : c ≠ '.' := by
        rintro rfl
        contradiction
      have noDigit : c.isDigit = false := by
        rw [← Bool.not_eq_true]
        intro digit
        rw [startsName_of_isDigit digit] at letter
        contradiction
      have stopsDigit : Stops Char.isDigit (c :: more ++ rest) := stops_cons.mpr noDigit
      have missing : (fraction (c :: more ++ rest)).1 = [] := by
        unfold fraction
        split
        · simp_all
        · rfl
      rw [List.append_assoc, List.append_assoc, number_append digits isFraction
        (fun _ => missing) stopsDigit, if_neg (by simp [noDot]), if_pos (by simpa using letter),
        takeWhile_of_stops belongs stops, dropWhile_of_stops belongs stops]

theorem IsDigits.head {whole text : List Char} {c : Char} (digits : IsDigits whole)
    (begins : whole <+: c :: text) : c.isDigit = true := by
  cases whole with
  | nil => exact absurd rfl digits.1
  | cons d whole =>
      rcases begins with ⟨rest, same⟩
      rw [List.cons_append, List.cons.injEq] at same
      rw [← same.1]
      exact digits.2 d List.mem_cons_self

/-- A piece in one of the forms is cut from its text. -/
theorem Cut.first_eq {piece : Piece} {rest : List Char} (cut : Cut piece rest) {c : Char}
    {text : List Char} (whole : piece.lexeme ++ rest = c :: text) :
    first c text = (piece, rest) := by
  cases cut with
  | sign found =>
      simp only [good] at whole
      rw [whole] at found
      exact first_of_sign found
  | separator separates =>
      cases whole
      exact first_of_separator separates
  | blank space =>
      cases whole
      exact first_of_isSpace space
  | closed isQuote noQuote =>
      simp only [good, List.cons_append, List.append_assoc, List.cons.injEq] at whole
      rcases whole with ⟨rfl, rfl⟩
      rw [first_of_quote isQuote]
      exact string_of_closed noQuote rest
  | unclosed isQuote noQuote =>
      simp only [List.append_nil, List.cons.injEq] at whole
      rcases whole with ⟨rfl, rfl⟩
      rw [first_of_quote isQuote]
      exact string_of_unclosed noQuote
  | number digits fraction stops stopsDot =>
      simp only [good] at whole
      have begins := digits.head ⟨_, (List.append_assoc ..).symm.trans whole⟩
      rw [first_of_isDigit begins, ← whole]
      exact number_of_stops digits fraction stops stopsDot
  | dotted digits fraction nonempty dot belongs stops =>
      have begins := digits.head ⟨_, by simpa only [List.append_assoc] using whole⟩
      rw [first_of_isDigit begins, ← whole]
      exact number_of_dotted digits fraction nonempty dot belongs stops
  | lettered digits fraction letter belongs stops =>
      have begins := digits.head ⟨_, by simpa only [List.append_assoc] using whole⟩
      rw [first_of_isDigit begins, ← whole]
      exact number_of_lettered digits fraction letter belongs stops
  | @name lexeme rest starts belongs stops =>
      simp only [good] at whole
      have begins : startsName c = true := by
        cases lexeme with
        | nil => simp at starts
        | cons d lexeme =>
            rw [List.cons_append, List.cons.injEq] at whole
            simpa [whole.1] using starts
      rw [first_of_startsName begins, ← whole]
      unfold Piece.name
      rw [takeWhile_of_stops belongs stops, dropWhile_of_stops belongs stops]
      rfl
  | unknown noToken noSpace =>
      cases whole
      simp only [startsToken, Bool.or_eq_false_iff, beq_eq_false_iff_ne, List.contains_eq_mem,
        decide_eq_false_iff_not] at noToken
      rcases noToken with ⟨⟨⟨⟨⟨⟨noSign, noSemicolon⟩, noNewline⟩, noDouble⟩, noSingle⟩, noDigit⟩,
        noName⟩
      simp [first, sign?_eq_none_iff.mpr noSign, noSemicolon, noNewline, noSpace, noDouble,
        noSingle, noDigit, noName]

theorem Cut.lexeme_ne_nil {piece : Piece} {rest : List Char} (cut : Cut piece rest) :
    piece.lexeme ≠ [] := by
  cases cut with
  | sign found => exact (append_of_sign? found).2
  | number digits | dotted digits | lettered digits => simp [good, digits.1]
  | name starts =>
      rintro rfl
      simp at starts
  | _ => simp [good]

/-- The pieces of a text begin with a piece that can stand in front of the rest. -/
theorem Cut.pieces_eq {piece : Piece} {rest : List Char} (cut : Cut piece rest) :
    pieces (piece.lexeme ++ rest) = piece :: pieces rest := by
  cases whole : piece.lexeme ++ rest with
  | nil => exact absurd (List.append_eq_nil_iff.mp whole).1 cut.lexeme_ne_nil
  | cons c text => rw [pieces, cut.first_eq whole]

/-! ## A piece in front of another text -/

/-- The sign in front of a text depends on whether the text begins with `=`. -/
theorem sign?_of_stops {sign : Sign} {lexeme rest rest' : List Char}
    (found : sign? (lexeme ++ rest) = some (sign, lexeme, rest))
    (stops : Stops (· == '=') rest → Stops (· == '=') rest') :
    sign? (lexeme ++ rest') = some (sign, lexeme, rest') := by
  generalize whole : lexeme ++ rest = text at found
  unfold sign? at found
  split at found <;> cases found <;> try rfl
  -- The other signs are the beginning of a longer one, which needs `=` next.
  all_goals
    have stops' : Stops (· == '=') rest' := by
      apply stops
      cases rest with
      | nil => rfl
      | cons c rest => rw [stops_cons]; simp_all
    cases rest' with
    | nil => rfl
    | cons d rest' =>
        have noEqual : d ≠ '=' := by simpa using stops_cons.mp stops'
        simp [sign?, noEqual]

theorem fraction_of_stops {text : List Char} (stops : Stops (· == '.') text) :
    fraction text = ([], text) := by
  unfold fraction
  split
  · contradiction
  · rfl

/-! ## Texts with spaces between them -/

/-- All texts but the first one stand behind a space. -/
theorem intercalate_space (text : List Char) (texts : List (List Char)) :
    [' '].intercalate (text :: texts) = text ++ texts.flatMap (' ' :: ·) := by
  induction texts generalizing text with
  | nil => simp [List.intercalate]
  | cons next texts ih =>
      rw [List.flatMap_cons, List.cons_append, ← ih next]
      simp [List.intercalate]

end Descriptor.Piece
