import Descriptor.Proofs.Normalization.Pass
import Descriptor.Proofs.Normalization.Spelling
import Descriptor.Proofs.Scanning.Cut

/-!
# Spelling a descriptor in English

A descriptor is spelled as lexemes with single spaces between them, where phrases may stand for
their operators.  A pass copies each lexeme and replaces each phrase by its operator, so it is
scanned like the descriptor spelled with the operators, `scan_normalize_english`.

Two things could be misread.  A variable named like a word of a phrase could become a part of one.
And `greater than`, `or`, `equal to` are three operators in a row, which are written like the one
operator `greater than or equal to`.
-/

namespace Descriptor

open Descriptor.Piece Descriptor.Text

/-- A text that is one token.  A string has to be closed, or what stands behind would belong to
it. -/
structure Lexeme where
  text : List Char
  kind : Kind
  fault : Option ScanFault
  whole : pieces text = [⟨.token kind fault, text⟩]
  closed : fault ≠ some .unterminatedString

/-- What stands between two spaces: a lexeme as it is, or a spelling of a phrase. -/
inductive Item where
  | itself (lexeme : Lexeme)
  | spelled (phrase : Phrase) (known : phrase ∈ Phrase.all) (text : List Char)
      (spells : phrase.Spells text)

namespace Item

/-- The text of an item. -/
def english : Item → List Char
  | .itself lexeme => lexeme.text
  | .spelled _ _ text _ => text

/-- The text of an item with its operator in place of a phrase. -/
def symbolic : Item → List Char
  | .itself lexeme => lexeme.text
  | .spelled phrase .. => phrase.operator.toList

/-- Whether an item is a variable named like a word of a phrase, case apart. -/
def IsPhraseWord : Item → Prop
  | .itself lexeme => lexeme.kind = .identifier ∧
      ∃ entry ∈ Phrase.inWords, ∃ word ∈ entry.1 :: entry.2.1,
        lexeme.text.map Char.toLower = word.toList
  | .spelled .. => False

/-- Whether an item is a phrase for the operator. -/
def IsPhraseFor (operator : String) : Item → Prop
  | .itself _ => False
  | .spelled phrase .. => phrase.operator = operator

/-- Whether an item is the keyword `or`, spelled as it is. -/
def IsOr : Item → Prop
  | .itself lexeme => lexeme.kind = .keyword .or
  | .spelled .. => False

instance (item : Item) : Decidable item.IsPhraseWord :=
  match item with
  | .itself _ => inferInstanceAs (Decidable (_ ∧ _))
  | .spelled .. => inferInstanceAs (Decidable False)

instance (operator : String) (item : Item) : Decidable (item.IsPhraseFor operator) :=
  match item with
  | .itself _ => inferInstanceAs (Decidable False)
  | .spelled .. => inferInstanceAs (Decidable (_ = _))

instance (item : Item) : Decidable item.IsOr :=
  match item with
  | .itself _ => inferInstanceAs (Decidable (_ = _))
  | .spelled .. => inferInstanceAs (Decidable False)

/-- Whether items are `greater than` or `less than`, `or`, and `equal to`. -/
def AreOneComparison (first second third : Item) : Prop :=
  (first.IsPhraseFor ">" ∨ first.IsPhraseFor "<") ∧ second.IsOr ∧ third.IsPhraseFor "==="

instance (first second third : Item) : Decidable (AreOneComparison first second third) :=
  inferInstanceAs (Decidable (_ ∧ _))

end Item

/-- Texts with single spaces between them. -/
def spaced (texts : List (List Char)) : String :=
  .ofList ([' '].intercalate texts)

/-- Items with a space before each. -/
def behindSpaces (items : List Item) : List Char :=
  items.flatMap fun item => ' ' :: item.english

/-! ## Lexemes -/

/-- A text that is one piece can be cut off in front of nothing. -/
theorem cut_of_pieces_eq_singleton {text : List Char} {piece : Piece}
    (whole : pieces text = [piece]) : Cut piece [] := by
  cases text with
  | nil => simp [pieces] at whole
  | cons c rest =>
      have cut := cut_first c rest
      rw [pieces, List.cons.injEq] at whole
      rcases whole with ⟨isFirst, noMore⟩
      cases behind : (first c rest).2 with
      | nil => rwa [behind, isFirst] at cut
      | cons d rest => simp [behind, pieces] at noMore

theorem isWord_of_isName {c : Char} (belongs : isName c = true) : isWord c = true := by
  rcases isName_iff.mp belongs with starts | digit
  · rw [startsName, Bool.or_eq_true, beq_iff_eq] at starts
    rcases starts with letter | rfl
    · exact isWord_of_isAlpha letter
    · decide
  · exact isWord_of_isDigit digit

/-- Nothing in words may follow a text that ends in a word character. -/
theorem mayFollow_getLast? {text : List Char} (nonempty : text ≠ [])
    (inWords : ∀ c ∈ text, isWord c = true) : Phrase.mayFollow text.getLast? = false := by
  rw [List.getLast?_eq_some_getLast nonempty]
  exact Phrase.mayFollow_of_isWord (inWords _ (List.getLast_mem nonempty))

/-- Whether a text has neither quotes, nor characters of logical signs, nor letters, nor gaps. -/
def IsBare (text : List Char) : Prop :=
  ∀ c ∈ text, isPlain c = true ∧ c.isAlpha = false ∧ Phrase.isGap c = false

theorem IsBare.append {text more : List Char} (bare : IsBare text) (bareMore : IsBare more) :
    IsBare (text ++ more) := by
  intro c member
  rcases List.mem_append.mp member with early | late
  · exact bare c early
  · exact bareMore c late

theorem isBare_of_dotOrDigit {text : List Char}
    (belongs : ∀ c ∈ text, (c == '.' || c.isDigit) = true) : IsBare text := by
  intro c member
  have dotOrDigit := belongs c member
  rw [Bool.or_eq_true, beq_iff_eq] at dotOrDigit
  rcases dotOrDigit with rfl | digit
  · decide
  · have inWord := isWord_of_isDigit digit
    refine ⟨isPlain_iff.mpr ⟨isQuote_of_isWord inWord, isSign_of_isWord inWord⟩,
      isAlpha_of_isDigit digit, ?_⟩
    rw [← Bool.not_eq_true]
    intro gap
    rw [Phrase.isWord_of_isGap gap] at inWord
    contradiction

/-- A number is bare and ends in a digit. -/
theorem isBare_number {whole decimals : List Char} (digits : IsDigits whole)
    (fraction : IsFraction decimals) : IsBare (whole ++ decimals) ∧
      Phrase.mayFollow (whole ++ decimals).getLast? = false := by
  have bareWhole : IsBare whole := isBare_of_dotOrDigit fun c member => by
    simp [digits.2 c member]
  rcases fraction with rfl | ⟨behind, isDigits, rfl⟩
  · rw [List.append_nil]
    exact ⟨bareWhole,
      mayFollow_getLast? digits.1 fun c member => isWord_of_isDigit (digits.2 c member)⟩
  · constructor
    · refine bareWhole.append (isBare_of_dotOrDigit ?_)
      rw [List.forall_mem_cons]
      exact ⟨rfl, fun c member => by simp [isDigits.2 c member]⟩
    · rw [List.append_cons, List.getLast?_append_of_ne_nil _ isDigits.1]
      exact mayFollow_getLast? isDigits.1 fun c member => isWord_of_isDigit (isDigits.2 c member)

/-- The forms of a lexeme. -/
inductive Lexeme.Form (kind : Kind) : List Char → Prop where
  | name {text : List Char} (starts : text.head?.any startsName = true)
      (belongs : ∀ c ∈ text, isName c = true) (isKind : kind = nameKind text) : Form kind text
  | quoted {quote : Char} {inside : List Char} (isQuote : isQuote quote = true)
      (noQuote : quote ∉ inside) : Form kind (quote :: inside ++ [quote])
  | bare {text : List Char} (nonempty : text ≠ []) (bare : IsBare text) : Form kind text
  | lettered {text more : List Char} (nonempty : text ≠ []) (bare : IsBare text)
      (inside : Phrase.mayFollow text.getLast? = false) (belongs : ∀ c ∈ more, isName c = true) :
      Form kind (text ++ more)

theorem Lexeme.form (lexeme : Lexeme) : Lexeme.Form lexeme.kind lexeme.text := by
  have cut := cut_of_pieces_eq_singleton lexeme.whole
  have closed := lexeme.closed
  generalize lexeme.kind = kind, lexeme.fault = fault, lexeme.text = text at cut closed
  cases cut with
  | sign found =>
      have bareStarts : signStarts.all
          (fun c => isPlain c && (!c.isAlpha && !Phrase.isGap c)) = true := by decide
      refine .bare (append_of_sign? found).2 fun c member => ?_
      simpa using List.all_eq_true.mp bareStarts c (mem_signStarts_of_sign? found c member)
  | separator separates =>
      refine .bare (List.cons_ne_nil _ _) ?_
      rw [IsBare, List.forall_mem_singleton]
      rcases separates with rfl | rfl <;> decide
  | closed isQuote noQuote => exact .quoted (isQuote_iff.mpr isQuote) noQuote
  | unclosed => exact absurd rfl closed
  | number digits fraction =>
      exact .bare (by simp [digits.1]) (isBare_number digits fraction).1
  | dotted digits fraction _ _ belongs =>
      exact .bare (by simp [digits.1])
        ((isBare_number digits fraction).1.append (isBare_of_dotOrDigit belongs))
  | lettered digits fraction _ belongs =>
      rcases isBare_number digits fraction with ⟨bare, inside⟩
      exact .lettered (by simp [digits.1]) bare inside belongs
  | name starts belongs => exact .name starts belongs rfl

/-- A lexeme begins with no gap, and with a letter only if it is a name. -/
theorem Lexeme.exists_cons (lexeme : Lexeme) (tail : List Char) :
    ∃ c rest, lexeme.text ++ tail = c :: rest ∧ Phrase.isGap c = false ∧
      (c.isAlpha = true →
        (∀ d ∈ lexeme.text, isName d = true) ∧ lexeme.kind = nameKind lexeme.text) := by
  have form := lexeme.form
  generalize lexeme.kind = kind, lexeme.text = text at form
  have ofBare : ∀ {text : List Char}, text ≠ [] → IsBare text →
      ∃ c rest, text = c :: rest ∧ Phrase.isGap c = false ∧ c.isAlpha = false := by
    intro text nonempty bare
    cases text with
    | nil => exact absurd rfl nonempty
    | cons c rest =>
        rcases bare c List.mem_cons_self with ⟨-, noLetter, noGap⟩
        exact ⟨c, rest, rfl, noGap, noLetter⟩
  cases form with
  | name starts belongs isKind =>
      cases text with
      | nil => simp at starts
      | cons c rest =>
          refine ⟨c, rest ++ tail, rfl, ?_, fun _ => ⟨belongs, isKind⟩⟩
          rw [← Bool.not_eq_true]
          intro gap
          have inWord := isWord_of_isName (belongs c List.mem_cons_self)
          rw [Phrase.isWord_of_isGap gap] at inWord
          contradiction
  | quoted isQuote =>
      refine ⟨_, _, rfl, ?_⟩
      rcases isQuote_iff.mp isQuote with rfl | rfl <;> exact ⟨rfl, nofun⟩
  | bare nonempty bare =>
      rcases ofBare nonempty bare with ⟨c, rest, rfl, noGap, noLetter⟩
      exact ⟨c, _, rfl, noGap, by simp [noLetter]⟩
  | lettered nonempty bare =>
      rcases ofBare nonempty bare with ⟨c, rest, rfl, noGap, noLetter⟩
      exact ⟨c, _, rfl, noGap, by simp [noLetter]⟩

/-! ## The first word of an item -/

/-- The words of phrases. -/
def IsVocabulary (word : String) : Prop :=
  ∃ entry ∈ Phrase.inWords, word ∈ entry.1 :: entry.2.1

theorem IsVocabulary.lower {word : String} (known : IsVocabulary word) :
    word.toList ≠ [] ∧ ∀ c ∈ word.toList, c.isLower = true := by
  rcases known with ⟨entry, known, member⟩
  exact Phrase.isLower_of_mem_inWords known word member

theorem isName_of_isGap {c : Char} (gap : Phrase.isGap c = true) : isName c = false := by
  rcases Phrase.isGap_iff.mp gap with rfl | rfl <;> rfl

theorem isName_of_spells {word spelled : List Char} (lower : ∀ c ∈ word, c.isLower = true)
    (spells : spelled.map Char.toLower = word) : ∀ c ∈ spelled, isName c = true := by
  intro c member
  have letter := Phrase.isAlpha_of_spells lower spells c member
  exact isName_iff.mpr (.inl (by simp [startsName, letter]))

/-- What is spelled like a word, and stands alone, is a whole name. -/
theorem eq_of_spells_of_stops {word name spelled tail rest : List Char}
    (belongs : ∀ c ∈ name, isName c = true) (stops : Stops isName tail)
    (lower : ∀ c ∈ word, c.isLower = true) (spells : spelled.map Char.toLower = word)
    (alone : Stops isWord rest) (whole : name ++ tail = spelled ++ rest) :
    name = spelled ∧ tail = rest := by
  have letters := isName_of_spells lower spells
  have stopsRest : Stops isName rest := alone.mono fun _ => isWord_of_isName
  constructor
  · rw [← takeWhile_of_stops belongs stops, whole, takeWhile_of_stops letters stopsRest]
  · rw [← dropWhile_of_stops belongs stops, whole, dropWhile_of_stops letters stopsRest]

/-- Where a lexeme stands alone, a word of a phrase is only found if the lexeme is that word. -/
theorem Lexeme.eq_of_dropWord? {lexeme : Lexeme} {tail rest : List Char} {word : String}
    (known : IsVocabulary word) (stops : Stops isName tail) (alone : Stops isWord rest)
    (found : Phrase.dropWord? word.toList (lexeme.text ++ tail) = some rest) :
    lexeme.text.map Char.toLower = word.toList ∧ rest = tail ∧
      lexeme.kind = nameKind lexeme.text := by
  rcases known.lower with ⟨nonempty, lower⟩
  rcases Phrase.dropWord?_eq_some_iff.mp found with ⟨spelled, spells, whole⟩
  rcases lexeme.exists_cons tail with ⟨c, more, begins, -, isName⟩
  have letter : c.isAlpha = true := by
    rw [whole] at begins
    cases spelled with
    | nil => exact absurd spells.symm nonempty
    | cons d spelled =>
        rw [List.cons_append, List.cons.injEq] at begins
        rw [← begins.1]
        exact Phrase.isAlpha_of_spells lower spells d List.mem_cons_self
  rcases isName letter with ⟨belongs, isKind⟩
  rcases eq_of_spells_of_stops belongs stops lower spells alone whole with ⟨same, sameRest⟩
  exact ⟨same ▸ spells, sameRest.symm, isKind⟩

/-- The only keyword that is a word of a phrase is `or`. -/
theorem nameKind_of_isVocabulary {word : String} (known : IsVocabulary word) {text : List Char}
    (spells : text.map Char.toLower = word.toList) :
    nameKind text = .identifier ∨ (word = "or" ∧ nameKind text = .keyword .or) := by
  unfold nameKind
  split
  · rename_i keyword isKeyword
    have isText : keyword.text.toList = text := by
      have same := List.find?_some isKeyword
      rw [beq_iff_eq] at same
      rw [same, String.toList_ofList]
    rcases known with ⟨entry, known, member⟩
    have keywords : ∀ keyword ∈ Keyword.all, ∀ entry ∈ Phrase.inWords,
        ∀ word ∈ entry.1 :: entry.2.1, keyword.text.toList.map Char.toLower = word.toList →
          word = "or" ∧ keyword = .or := by decide
    rw [← isText] at spells
    rcases keywords keyword (Keyword.mem_all keyword) entry known word member spells with
      ⟨isOr, rfl⟩
    exact .inr ⟨isOr, rfl⟩
  · exact .inl rfl

theorem stops_behindSpaces {belongs : Char → Bool} (noSpace : belongs ' ' = false)
    (items : List Item) : Stops belongs (behindSpaces items) := by
  cases items with
  | nil => exact stops_nil
  | cons item items => exact stops_cons.mpr noSpace

namespace Item

/-- No item begins with a gap. -/
theorem isGap_english (item : Item) (tail : List Char) :
    (item.english ++ tail).head?.any Phrase.isGap = false := by
  rcases item with lexeme | ⟨phrase, known, text, spells⟩
  · rcases lexeme.exists_cons tail with ⟨c, rest, begins, noGap, -⟩
    simp [english, begins, noGap]
  · rcases spells.exists_cons known with ⟨c, rest, rfl, begins⟩
    simp only [english, List.cons_append, List.head?_cons, Option.any_some]
    rw [← Bool.not_eq_true]
    intro gap
    rcases Phrase.inert_of_isGap gap with ⟨-, noSign, noLetter⟩
    simp [noSign, noLetter] at begins

/-- Words behind an item begin with the next item. -/
theorem exists_cons_of_dropWords? {word : String} {words : List String} {items : List Item}
    {after : List Char}
    (found : Phrase.dropWords? (word :: words) (behindSpaces items) = some after) :
    ∃ item others rest, items = item :: others ∧
      Phrase.dropWord? word.toList (item.english ++ behindSpaces others) = some rest ∧
        Phrase.dropWords? words rest = some after := by
  cases items with
  | nil => simp [behindSpaces, Phrase.dropWords?] at found
  | cons item others =>
      have text : behindSpaces (item :: others) =
          [' '] ++ (item.english ++ behindSpaces others) := rfl
      rw [text, Phrase.dropWords?_gap (by simp) (by simp [Phrase.isGap])
        (item.isGap_english _)] at found
      rcases Option.bind_eq_some_iff.mp found with ⟨rest, dropped, behind⟩
      exact ⟨item, others, rest, rfl, dropped, behind⟩

/-- Where a phrase is spelled, a word of a phrase is only found if the phrase begins with it. -/
theorem exists_entry_of_dropWord? {phrase : Phrase} (member : phrase ∈ Phrase.all)
    {text : List Char} (spells : phrase.Spells text) {word : String} (known : IsVocabulary word)
    {tail rest : List Char} (stops : Stops isName tail) (alone : Stops isWord rest)
    (found : Phrase.dropWord? word.toList (text ++ tail) = some rest) :
    ∃ entry ∈ Phrase.inWords, entry.1 = word ∧ entry.2.2 = phrase.operator := by
  rcases known.lower with ⟨nonempty, lower⟩
  rcases Phrase.dropWord?_eq_some_iff.mp found with ⟨spelledWord, spellsWord, whole⟩
  cases spells with
  | @words first others operator spelled behind spells more =>
      refine ⟨(first, others, operator), Phrase.mem_inWords member rfl, ?_, rfl⟩
      have isFirst : IsVocabulary first := ⟨_, Phrase.mem_inWords member rfl, List.mem_cons_self⟩
      have stopsBehind : Stops isName (behind ++ tail) := by
        cases more with
        | nil => exact stops
        | @cons _ _ gap _ _ nonempty gaps =>
            cases gap with
            | nil => exact absurd rfl nonempty
            | cons c gap => exact stops_cons.mpr (isName_of_isGap (gaps c List.mem_cons_self))
      rw [List.append_assoc] at whole
      have same := (eq_of_spells_of_stops (isName_of_spells isFirst.lower.2 spells) stopsBehind
        lower spellsWord alone whole).1
      rw [← same, spells] at spellsWord
      exact String.toList_inj.mp spellsWord
  | sign =>
      rcases Phrase.exists_pair_of_sign (Phrase.mem_signs member rfl) with ⟨a, pair, isA, -⟩
      rw [pair] at whole
      cases spelledWord with
      | nil => exact absurd spellsWord.symm nonempty
      | cons c spelledWord =>
          have letter := Phrase.isAlpha_of_spells lower spellsWord c List.mem_cons_self
          have same := (List.cons.inj whole).1
          rw [same, isSign_of_isWord (isWord_of_isAlpha letter)] at isA
          contradiction

/-- Where an item stands alone, a word of a phrase is only found if the item is the keyword `or`
or a phrase that begins with the word. -/
theorem of_dropWord? {item : Item} (clear : ¬item.IsPhraseWord) {word : String}
    (known : IsVocabulary word) {tail rest : List Char} (stops : Stops isName tail)
    (alone : Stops isWord rest)
    (found : Phrase.dropWord? word.toList (item.english ++ tail) = some rest) :
    (word = "or" ∧ item.IsOr ∧ rest = tail) ∨
      ∃ entry ∈ Phrase.inWords, entry.1 = word ∧ item.IsPhraseFor entry.2.2 := by
  rcases item with lexeme | ⟨phrase, member, text, spells⟩
  · rcases Lexeme.eq_of_dropWord? known stops alone found with ⟨spells, same, isKind⟩
    rcases nameKind_of_isVocabulary known spells with isIdentifier | ⟨isOr, isKeyword⟩
    · rcases known with ⟨entry, isEntry, isWord⟩
      exact absurd ⟨isKind.trans isIdentifier, entry, isEntry, word, isWord, spells⟩ clear
    · exact .inl ⟨isOr, isKind.trans isKeyword, same⟩
  · rcases exists_entry_of_dropWord? member spells known stops alone found with
      ⟨entry, isEntry, isFirst, isOperator⟩
    exact .inr ⟨entry, isEntry, isFirst, isOperator.symm⟩

/-! ## Items through a pass -/

/-- A comparison does not go on with `or equal to`. -/
theorem dropWords?_orEqualTo {item : Item} {items : List Item}
    (noWord : ∀ other ∈ items, ¬other.IsPhraseWord)
    (comparison : item.IsPhraseFor ">" ∨ item.IsPhraseFor "<")
    (apart : ∀ second third rest, items = second :: third :: rest →
      ¬AreOneComparison item second third) :
    Phrase.dropWords? ["or", "equal", "to"] (behindSpaces items) = none := by
  refine Option.eq_none_iff_forall_ne_some.mpr fun after found => ?_
  have isVocabulary : ∀ word ∈ ["or", "equal", "to"], IsVocabulary word := by
    intro word member
    exact ⟨("greater", ["than", "or", "equal", "to"], ">="), by decide,
      List.mem_cons_of_mem _ (List.mem_cons_of_mem _ member)⟩
  have stopsName : ∀ items, Stops isName (behindSpaces items) := stops_behindSpaces rfl
  have stopsGap : ∀ {word words text after},
      Phrase.dropWords? (word :: words) text = some after → Stops isWord text := by
    intro word words text after found
    have gap := (Phrase.dropWords?_cons_eq_some_iff.mp found).1
    cases text with
    | nil => exact stops_nil
    | cons c text => exact stops_cons.mpr (Phrase.isWord_of_isGap (by simpa using gap))
  rcases exists_cons_of_dropWords? found with ⟨second, others, rest, rfl, isOr, found⟩
  rw [List.forall_mem_cons] at noWord
  rcases of_dropWord? noWord.1 (isVocabulary "or" (by decide)) (stopsName _) (stopsGap found)
    isOr with ⟨-, second_isOr, rfl⟩ | ⟨entry, known, isFirst, -⟩
  · rcases exists_cons_of_dropWords? found with ⟨third, others, rest, rfl, isEqual, found⟩
    rw [List.forall_mem_cons] at noWord
    rcases of_dropWord? noWord.2.1 (isVocabulary "equal" (by decide)) (stopsName _)
      (stopsGap found) isEqual with ⟨isOr, -⟩ | ⟨entry, known, isFirst, isPhrase⟩
    · contradiction
    · have equalTo : ∀ entry ∈ Phrase.inWords, entry.1 = "equal" → entry.2.2 = "===" := by decide
      rw [equalTo entry known isFirst] at isPhrase
      exact apart second third others rfl ⟨comparison, second_isOr, isPhrase⟩
  · have noOr : ∀ entry ∈ Phrase.inWords, entry.1 ≠ "or" := by decide
    exact noOr entry known isFirst

end Item

/-- No phrase is found at a name that is no word of a phrase. -/
theorem find?_name {lexeme : Lexeme} (clear : ¬(Item.itself lexeme).IsPhraseWord)
    (starts : lexeme.text.head?.any startsName = true)
    (belongs : ∀ c ∈ lexeme.text, isName c = true) {tail : List Char}
    (stops : Stops isName tail) (previous : Option Char) :
    Phrase.find? previous (lexeme.text ++ tail) = none := by
  refine Option.eq_none_iff_forall_ne_some.mpr fun ⟨phrase, after⟩ found => ?_
  have isWords : ∃ first others, phrase.spelling = .words first others := by
    cases text : lexeme.text with
    | nil => simp [text] at starts
    | cons c rest =>
        rw [text, List.cons_append] at found
        exact Phrase.exists_words_of_find? (isWord_of_isName (belongs c (by simp [text]))) found
  rcases isWords with ⟨first, others, spelled⟩
  rcases Phrase.mem_of_find?_eq_some found with ⟨known, dropped⟩
  rw [Phrase.drop?_of_words spelled, Option.ite_none_right_eq_some] at dropped
  rcases Phrase.standing?_eq_some_iff.mp dropped.2 with ⟨⟨rest, isFirst, isOthers⟩, alone⟩
  have entry := Phrase.mem_inWords known spelled
  have isVocabulary : IsVocabulary first := ⟨_, entry, List.mem_cons_self⟩
  have aloneRest : Stops isWord rest := by
    rw [Stops, ← Bool.not_eq_true]
    intro inWord
    rw [Phrase.isWord_of_dropWords? inWord isOthers] at alone
    contradiction
  rcases Item.of_dropWord? clear isVocabulary stops aloneRest isFirst with
    ⟨isOr, -⟩ | ⟨_, -, -, isPhrase⟩
  · have noOr : ∀ entry ∈ Phrase.inWords, entry.1 ≠ "or" := by decide
    exact noOr _ entry isOr
  · exact isPhrase

/-- A lexeme is copied. -/
theorem normalizeAfter_lexeme {lexeme : Lexeme} (clear : ¬(Item.itself lexeme).IsPhraseWord)
    {tail : List Char} (stops : Stops isName tail) (previous : Option Char) :
    ∃ last, normalizeAfter previous (lexeme.text ++ tail) =
      lexeme.text ++ normalizeAfter last tail := by
  have plainWords : ∀ {text : List Char}, (∀ c ∈ text, isName c = true) →
      text.all isPlain = true ∧ text.all isWord = true := by
    intro text belongs
    constructor
    · refine List.all_eq_true.mpr fun c member => isPlain_iff.mpr ?_
      have inWord := isWord_of_isName (belongs c member)
      exact ⟨isQuote_of_isWord inWord, isSign_of_isWord inWord⟩
    · exact List.all_eq_true.mpr fun c member => isWord_of_isName (belongs c member)
  have plainBare : ∀ {text : List Char}, IsBare text →
      text.all isPlain = true ∧ text.all (!·.isAlpha) = true := by
    intro text bare
    constructor
    · exact List.all_eq_true.mpr fun c member => (bare c member).1
    · exact List.all_eq_true.mpr fun c member => by simp [(bare c member).2.1]
  have form := lexeme.form
  have unfound := fun starts belongs => find?_name clear starts belongs stops previous
  generalize lexeme.kind = kind, lexeme.text = text at form unfound
  cases form with
  | name starts belongs =>
      cases text with
      | nil => simp at starts
      | cons c text =>
          have unfound := unfound starts belongs
          rw [List.forall_mem_cons] at belongs
          have inWord := isWord_of_isName belongs.1
          rcases plainWords belongs.2 with ⟨plain, inWords⟩
          rw [List.cons_append] at unfound ⊢
          rw [normalizeAfter_copied (isQuote_of_isWord inWord) unfound,
            normalizeAfter_append_of_copied plain
              (.inr ⟨Phrase.mayFollow_of_isWord inWord, inWords⟩)]
          exact ⟨_, rfl⟩
  | @quoted quote inside isQuote noQuote =>
      have run : ∀ c ∈ inside, (c != quote) = true := by
        intro c member
        rw [bne_iff_ne]
        rintro rfl
        exact noQuote member
      have stopsQuote : Stops (· != quote) (quote :: tail) := by simp [stops_cons]
      rw [List.append_assoc, List.singleton_append, List.cons_append,
        normalizeAfter_quoted isQuote (dropWhile_of_stops run stopsQuote),
        takeWhile_of_stops run stopsQuote]
      exact ⟨some quote, by simp⟩
  | bare _ bare =>
      rcases plainBare bare with ⟨plain, noLetters⟩
      exact ⟨_, normalizeAfter_append_of_copied plain (.inl noLetters) tail⟩
  | lettered nonempty bare inside belongs =>
      rcases plainBare bare with ⟨plain, noLetters⟩
      rcases plainWords belongs with ⟨plainMore, inWords⟩
      rw [List.append_assoc, normalizeAfter_append_of_copied plain (.inl noLetters),
        normalizeAfter_append_of_copied plainMore (.inr ⟨?_, inWords⟩), ← List.append_assoc]
      · exact ⟨_, rfl⟩
      · rwa [List.getLast?_eq_some_getLast nonempty] at inside ⊢

/-- A phrase is replaced by its operator. -/
theorem normalizeAfter_spelled {phrase : Phrase} (known : phrase ∈ Phrase.all)
    {text : List Char} (spells : phrase.Spells text) {tail : List Char}
    (alone : Stops isWord tail)
    (missing : phrase.operator ∈ [">", "<"] →
      Phrase.dropWords? ["or", "equal", "to"] tail = none)
    {previous : Option Char} (follows : Phrase.mayFollow previous = true) :
    ∃ last, normalizeAfter previous (text ++ tail) =
      phrase.operator.toList ++ normalizeAfter last tail := by
  have found := Phrase.find?_of_spells known spells follows alone missing
  rcases spells.exists_cons known with ⟨c, rest, rfl, begins⟩
  have plain : isQuote c = false := by
    rcases begins with letter | sign
    · exact isQuote_of_isWord (isWord_of_isAlpha letter)
    · rcases isSign_iff.mp sign with rfl | rfl <;> rfl
  rw [List.cons_append] at found ⊢
  refine ⟨phrase.operator.toList.getLast?, ?_⟩
  rw [normalizeAfter_replaced plain found, Phrase.isWord_of_mayFollow follows, alone]
  simp

/-- An item that is not misread becomes its operator. -/
theorem normalizeAfter_item {item : Item} {items : List Item}
    (noWord : ∀ other ∈ item :: items, ¬other.IsPhraseWord)
    (apart : ∀ first second third, [first, second, third] <:+: item :: items →
      ¬Item.AreOneComparison first second third)
    {previous : Option Char} (follows : Phrase.mayFollow previous = true) :
    ∃ last, normalizeAfter previous (item.english ++ behindSpaces items) =
      item.symbolic ++ normalizeAfter last (behindSpaces items) := by
  rw [List.forall_mem_cons] at noWord
  rcases item with lexeme | ⟨phrase, known, text, spells⟩
  · exact normalizeAfter_lexeme noWord.1 (stops_behindSpaces rfl items) previous
  · refine normalizeAfter_spelled known spells (stops_behindSpaces (by decide) items) ?_ follows
    intro comparison
    have isPhrase : (Item.spelled phrase known text spells).IsPhraseFor ">" ∨
        (Item.spelled phrase known text spells).IsPhraseFor "<" := by
      simpa [Item.IsPhraseFor] using comparison
    refine Item.dropWords?_orEqualTo noWord.2 isPhrase ?_
    rintro second third rest rfl
    exact apart _ second third ⟨[], rest, rfl⟩

/-- Items that are not misread become their operators, and the spaces stay. -/
theorem normalizeAfter_behindSpaces {items : List Item}
    (noWord : ∀ item ∈ items, ¬item.IsPhraseWord)
    (apart : ∀ first second third, [first, second, third] <:+: items →
      ¬Item.AreOneComparison first second third) (previous : Option Char) :
    normalizeAfter previous (behindSpaces items) =
      items.flatMap fun item => ' ' :: item.symbolic := by
  induction items generalizing previous with
  | nil => exact normalizeAfter_nil
  | cons item items ih =>
      have follows : Phrase.mayFollow (some ' ') = true := by decide
      rcases normalizeAfter_item noWord apart follows with ⟨last, replaced⟩
      have text : behindSpaces (item :: items) = ' ' :: (item.english ++ behindSpaces items) := rfl
      rw [List.forall_mem_cons] at noWord
      rw [text, normalizeAfter_space, replaced, ih noWord.2
        (fun first second third inside => apart first second third (inside.trans
          (List.suffix_cons item items).isInfix))]
      rfl

/-- A descriptor spelled in English is scanned like the same descriptor spelled with operators. -/
theorem scan_normalize_english (items : List Item)
    (noWord : ∀ item ∈ items, ¬item.IsPhraseWord)
    (apart : ∀ first second third, [first, second, third] <:+: items →
      ¬Item.AreOneComparison first second third) :
    scan (normalize (spaced (items.map Item.english))) =
      scan (spaced (items.map Item.symbolic)) := by
  have same : normalize (spaced (items.map Item.english)) =
      spaced (items.map Item.symbolic) := by
    rw [normalize, spaced, spaced, String.toList_ofList]
    congr 1
    cases items with
    | nil => exact normalizeAfter_nil
    | cons item items =>
        rcases normalizeAfter_item noWord apart Phrase.mayFollow_none with ⟨last, replaced⟩
        rw [List.forall_mem_cons] at noWord
        have behind := normalizeAfter_behindSpaces noWord.2 (fun first second third inside =>
          apart first second third (inside.trans (List.suffix_cons item items).isInfix)) last
        rw [List.map_cons, List.map_cons, intercalate_space, intercalate_space,
          List.flatMap_map, List.flatMap_map]
        exact replaced.trans (congrArg (item.symbolic ++ ·) behind)
  rw [same]

/-- A lexeme that is a piece in front of nothing. -/
def Lexeme.ofCut {text : List Char} {kind : Kind} {fault : Option ScanFault}
    (cut : Cut ⟨.token kind fault, text⟩ []) (closed : fault ≠ some .unterminatedString) :
    Lexeme where
  text := text
  kind := kind
  fault := fault
  whole := by simpa [pieces] using cut.pieces_eq
  closed := closed

namespace Item

/-- A variable or a keyword as an item. -/
def name (text : List Char) (starts : text.head?.any startsName = true)
    (belongs : text.all isName = true) : Item :=
  .itself (.ofCut (.name starts (List.all_eq_true.mp belongs) stops_nil) nofun)

/-- A string as an item. -/
def string (quote : Char) (inside : List Char) (isQuote : quote = '"' ∨ quote = '\'')
    (noQuote : inside.contains quote = false) : Item :=
  .itself (.ofCut (.closed isQuote (by simpa using noQuote)) nofun)

/-- A phrase of two words as an item. -/
def twoWords {first second operator : String}
    (known : ⟨.words first [second], operator⟩ ∈ Phrase.all) (one gap two : List Char)
    (spellsOne : one.map Char.toLower = first.toList) (nonempty : gap ≠ [])
    (gaps : gap.all Phrase.isGap = true) (spellsTwo : two.map Char.toLower = second.toList) :
    Item :=
  .spelled ⟨.words first [second], operator⟩ known (one ++ (gap ++ two ++ []))
    (.words spellsOne (.cons nonempty (List.all_eq_true.mp gaps) spellsTwo .nil))

end Item

/-- A comparison with a phrase, the keyword `or`, and another comparison. -/
def twoComparisons : List Item :=
  [.name "age".toList (by decide) (by decide),
   .twoWords (by decide : ⟨.words "greater" ["than"], ">"⟩ ∈ Phrase.all)
     "GREATER".toList [' ', '\t'] "than".toList (by decide) (by decide) (by decide) (by decide),
   .name "limit".toList (by decide) (by decide),
   .name "or".toList (by decide) (by decide),
   .name "kind".toList (by decide) (by decide),
   .twoWords (by decide : ⟨.words "equal" ["to"], "==="⟩ ∈ Phrase.all)
     "Equal".toList [' '] "to".toList (by decide) (by decide) (by decide) (by decide),
   .string '\'' "equal to".toList (.inr rfl) (by decide)]

theorem scan_normalize_english_twoComparisons :
    (∀ item ∈ twoComparisons, ¬item.IsPhraseWord) ∧
      (∀ first second third, [first, second, third] <:+: twoComparisons →
        ¬Item.AreOneComparison first second third) ∧
      scan (normalize "age GREATER \tthan limit or kind Equal to 'equal to'") =
        scan "age > limit or kind === 'equal to'" := by
  have noWord : ∀ item ∈ twoComparisons, ¬item.IsPhraseWord := by
    decide
  have apart : ∀ first second third, [first, second, third] <:+: twoComparisons →
      ¬Item.AreOneComparison first second third := by
    rintro first second third ⟨before, after, same⟩
    rcases before with _ | ⟨_, _ | ⟨_, _ | ⟨_, _ | ⟨_, _ | ⟨_, before⟩⟩⟩⟩⟩
    case cons.cons.cons.cons.cons =>
      have lengths := congrArg List.length same
      simp [twoComparisons] at lengths
      omega
    all_goals
      simp only [twoComparisons, List.cons_append, List.nil_append, List.cons.injEq] at same
      rcases same with ⟨rfl, rfl, rfl, rfl, rfl, rfl, rfl, -⟩
      decide
  exact ⟨noWord, apart, scan_normalize_english twoComparisons noWord apart⟩

end Descriptor
