import Descriptor.Phrase
import Mathlib

/-!
# Where phrases are found

Phrases begin with a letter, case apart, or with one of the characters of the logical signs.  Which
phrase is found at a place of a text is decided by its characters against the table of phrases: two
words that have different letters at some position are never found in one place.

The facts about single phrases are checked on the table.  `inWords` and `signs` list it by spelling.
-/

namespace Descriptor

open Descriptor.Text

/-! ## Characters -/

/-- The characters of the logical signs. -/
def isSign (c : Char) : Bool :=
  c == '|' || c == '&'

theorem isSign_iff {c : Char} : isSign c = true ↔ c = '|' ∨ c = '&' := by
  simp [isSign]

theorem isQuote_iff {c : Char} : isQuote c = true ↔ c = '"' ∨ c = '\'' := by
  simp [isQuote]

theorem isQuote_of_isWord {c : Char} (inWord : isWord c = true) : isQuote c = false := by
  rw [← Bool.not_eq_true, isQuote_iff]
  rintro (rfl | rfl) <;> contradiction

theorem isSign_of_isWord {c : Char} (inWord : isWord c = true) : isSign c = false := by
  rw [← Bool.not_eq_true, isSign_iff]
  rintro (rfl | rfl) <;> contradiction

/-- Whether neither quoted text nor a logical sign begins with a character. -/
def isPlain (c : Char) : Bool :=
  !isQuote c && !isSign c

theorem isPlain_iff {c : Char} : isPlain c = true ↔ isQuote c = false ∧ isSign c = false := by
  simp [isPlain]

theorem isWord_of_isAlpha {c : Char} (letter : c.isAlpha = true) : isWord c = true := by
  have ascii : c.toNat < 0x80 := by
    simp [Char.isAlpha, Char.isUpper, Char.isLower, UInt32.le_iff_toNat_le] at letter
    omega
  simp [isWord_of_ascii ascii, Char.isAlphanum, letter]

theorem isWord_of_isDigit {c : Char} (digit : c.isDigit = true) : isWord c = true := by
  have ascii : c.toNat < 0x80 := by
    simp [Char.isDigit, UInt32.le_iff_toNat_le] at digit
    omega
  simp [isWord_of_ascii ascii, Char.isAlphanum, digit]

/-- What counts as a lower-case letter is a letter. -/
theorem isAlpha_of_toLower_eq {c w : Char} (lower : w.isLower = true) (same : c.toLower = w) :
    c.isAlpha = true := by
  rw [← Char.isLower_toLower_eq_isAlpha, same, lower]

/-- What counts as another character is that character. -/
theorem eq_of_toLower_eq {c w : Char} (notLower : w.isLower = false) (same : c.toLower = w) :
    c = w := by
  rw [← same, Char.isLower_toLower_eq_isAlpha, Char.isAlpha, Bool.or_eq_false_iff] at notLower
  rw [← same, Char.toLower_eq_of_not_isUpper (by simp [notLower.1])]

namespace Phrase

theorem isGap_iff {c : Char} : isGap c = true ↔ c = ' ' ∨ c = '\t' := by
  simp [isGap]

theorem isWord_of_isGap {c : Char} (gap : isGap c = true) : isWord c = false := by
  rcases isGap_iff.mp gap with rfl | rfl <;> decide

/-- Gaps begin neither quoted text nor a phrase. -/
theorem inert_of_isGap {c : Char} (gap : isGap c = true) :
    isQuote c = false ∧ isSign c = false ∧ c.isAlpha = false := by
  rcases isGap_iff.mp gap with rfl | rfl <;> decide

/-! ## Words -/

theorem dropWord?_cons_eq_some_iff {w c : Char} {word text after : List Char} :
    dropWord? (w :: word) (c :: text) = some after ↔
      c.toLower = w ∧ dropWord? word text = some after := by
  simp [dropWord?]

/-- Of several words the first one stands behind gaps, and the others behind it. -/
theorem dropWords?_cons_eq_some_iff {word : String} {words : List String}
    {text after : List Char} :
    dropWords? (word :: words) text = some after ↔
      text.head?.any isGap = true ∧ ∃ rest,
        dropWord? word.toList (text.dropWhile isGap) = some rest ∧
          dropWords? words rest = some after := by
  rw [dropWords?]
  split
  · rename_i gap
    simp [gap, Option.bind_eq_some_iff]
  · rename_i noGap
    simp [noGap]

/-- Words that are found where another word goes on do not stand alone. -/
theorem isWord_of_dropWords? {words : List String} {text after : List Char}
    (inWord : text.head?.any isWord = true) (found : dropWords? words text = some after) :
    after.head?.any isWord = true := by
  cases words with
  | nil =>
      cases found
      exact inWord
  | cons word words =>
      have gap := (dropWords?_cons_eq_some_iff.mp found).1
      cases text with
      | nil => simp at gap
      | cons c rest =>
          simp only [List.head?_cons, Option.any_some] at gap inWord
          rw [isWord_of_isGap gap] at inWord
          contradiction

/-- If words stand alone, then so do the first ones of them. -/
theorem dropWords?_of_prefix {words others : List String} (shorter : words <+: others)
    {text after : List Char} (found : dropWords? others text = some after)
    (alone : after.head?.any isWord = false) :
    ∃ after', dropWords? words text = some after' ∧ after'.head?.any isWord = false := by
  rcases shorter with ⟨more, rfl⟩
  induction words generalizing text with
  | nil =>
      refine ⟨text, rfl, ?_⟩
      rw [← Bool.not_eq_true]
      intro inWord
      rw [isWord_of_dropWords? inWord found] at alone
      contradiction
  | cons word words ih =>
      rw [List.cons_append, dropWords?_cons_eq_some_iff] at found
      rcases found with ⟨gap, rest, dropped, others⟩
      rcases ih others with ⟨after', others', alone'⟩
      exact ⟨after', dropWords?_cons_eq_some_iff.mpr ⟨gap, rest, dropped, others'⟩, alone'⟩

/-- Whether a text has another character than a word at some position, case apart. -/
def clash (text word : List Char) : Bool :=
  (text.zip word).any fun pair => pair.1.toLower != pair.2

theorem dropWord?_append_of_clash {text word : List Char} (clashes : clash text word = true)
    (rest : List Char) : dropWord? word (text ++ rest) = none := by
  induction text generalizing word with
  | nil => simp [clash] at clashes
  | cons c text ih =>
      cases word with
      | nil => simp [clash] at clashes
      | cons w word =>
          simp only [List.cons_append, dropWord?]
          split
          · rename_i same
            apply ih
            simp_all [clash]
          · rfl

theorem dropWord?_append {word text after : List Char} (found : dropWord? word text = some after)
    (rest : List Char) : dropWord? word (text ++ rest) = some (after ++ rest) := by
  induction word generalizing text with
  | nil =>
      cases found
      rfl
  | cons w word ih =>
      cases text with
      | nil => simp [dropWord?] at found
      | cons c text =>
          rcases dropWord?_cons_eq_some_iff.mp found with ⟨same, found⟩
          exact dropWord?_cons_eq_some_iff.mpr ⟨same, ih found⟩

/-- A text that begins with a word begins with no other one that clashes with it. -/
theorem dropWord?_of_clash {word other text after : List Char}
    (clashes : clash word other = true) (lower : word.all (fun c => c.toLower == c) = true)
    (found : dropWord? word text = some after) : dropWord? other text = none := by
  induction word generalizing other text with
  | nil => simp [clash] at clashes
  | cons w word ih =>
      cases other with
      | nil => simp [clash] at clashes
      | cons o other =>
          cases text with
          | nil => rfl
          | cons c text =>
              rcases dropWord?_cons_eq_some_iff.mp found with ⟨same, found⟩
              simp only [dropWord?]
              split
              · apply ih _ _ found
                · simp_all [clash]
                · simp_all
              · rfl

/-! ## The table of phrases -/

/-- The phrases in words: their first words, their other words and their operators. -/
def inWords : List (String × List String × String) :=
  all.filterMap fun phrase =>
    match phrase.spelling with
    | .words first others => some (first, others, phrase.operator)
    | .sign _ => none

/-- The logical signs and their operators. -/
def signs : List (String × String) :=
  all.filterMap fun phrase =>
    match phrase.spelling with
    | .words _ _ => none
    | .sign sign => some (sign, phrase.operator)

theorem mem_inWords {phrase : Phrase} (known : phrase ∈ all) {first : String}
    {others : List String} (spelled : phrase.spelling = .words first others) :
    (first, others, phrase.operator) ∈ inWords := by
  apply List.mem_filterMap.mpr
  exact ⟨phrase, known, by rw [spelled]⟩

theorem exists_of_mem_inWords {first : String} {others : List String} {operator : String}
    (known : (first, others, operator) ∈ inWords) :
    ∃ phrase ∈ all, phrase.spelling = .words first others ∧ phrase.operator = operator := by
  rcases List.mem_filterMap.mp known with ⟨phrase, member, isEntry⟩
  cases spelled : phrase.spelling with
  | words first' others' =>
      simp only [spelled, Option.some.injEq, Prod.mk.injEq] at isEntry
      rcases isEntry with ⟨rfl, rfl, rfl⟩
      exact ⟨phrase, member, spelled, rfl⟩
  | sign sign => simp [spelled] at isEntry

theorem mem_signs {phrase : Phrase} (known : phrase ∈ all) {sign : String}
    (spelled : phrase.spelling = .sign sign) : (sign, phrase.operator) ∈ signs := by
  apply List.mem_filterMap.mpr
  exact ⟨phrase, known, by rw [spelled]⟩

/-- The first word of a phrase is made of lower-case letters. -/
theorem exists_cons_first {first : String} {others : List String} {operator : String}
    (known : (first, others, operator) ∈ inWords) :
    ∃ f letters, first.toList = f :: letters ∧ f.isLower = true ∧
      letters.all Char.isLower = true := by
  have shape : ∀ entry ∈ inWords, entry.1.toList ≠ [] ∧
      entry.1.toList.all Char.isLower = true := by decide
  rcases shape _ known with ⟨nonempty, lower⟩
  cases letters : first.toList with
  | nil => exact absurd letters nonempty
  | cons f word =>
      rw [letters, List.all_cons, Bool.and_eq_true] at lower
      exact ⟨f, word, rfl, lower⟩

/-- A logical sign is one of its characters twice. -/
theorem exists_pair_of_sign {sign operator : String} (known : (sign, operator) ∈ signs) :
    ∃ a, sign.toList = [a, a] ∧ isSign a = true ∧ a.isLower = false := by
  have shape : ∀ entry ∈ signs,
      entry.1.toList = ['|', '|'] ∨ entry.1.toList = ['&', '&'] := by decide
  rcases shape _ known with bars | ands
  · exact ⟨'|', bars, by decide, by decide⟩
  · exact ⟨'&', ands, by decide, by decide⟩

/-! ## Finding phrases -/

theorem mayFollow_none : mayFollow none = true :=
  rfl

theorem mayFollow_of_isWord {c : Char} (inWord : isWord c = true) :
    mayFollow (some c) = false := by
  simp [mayFollow, inWord]

theorem mayFollow_of_isGap {c : Char} (gap : isGap c = true) : mayFollow (some c) = true := by
  rcases isGap_iff.mp gap with rfl | rfl <;> decide

theorem isWord_of_mayFollow {previous : Option Char} (follows : mayFollow previous = true) :
    previous.any isWord = false := by
  cases previous with
  | none => rfl
  | some c =>
      cases inWord : isWord c with
      | false => simpa using inWord
      | true =>
          rw [mayFollow_of_isWord inWord] at follows
          contradiction

/-- The text after a phrase in words, if the text begins with it and no word goes on behind it. -/
def standing? (first : String) (others : List String) (text : List Char) : Option (List Char) :=
  ((dropWord? first.toList text).bind (dropWords? others)).filter fun after =>
    !after.head?.any isWord

theorem standing?_eq_some_iff {first : String} {others : List String} {text after : List Char} :
    standing? first others text = some after ↔
      (∃ rest, dropWord? first.toList text = some rest ∧ dropWords? others rest = some after) ∧
        after.head?.any isWord = false := by
  simp [standing?, Option.filter_eq_some_iff, Option.bind_eq_some_iff]

theorem drop?_of_words {phrase : Phrase} {first : String} {others : List String}
    (spelled : phrase.spelling = .words first others) (previous : Option Char)
    (text : List Char) : phrase.drop? previous text =
      if mayFollow previous then standing? first others text else none := by
  simp only [drop?, spelled, standing?]

theorem drop?_of_sign {phrase : Phrase} {sign : String}
    (spelled : phrase.spelling = .sign sign) (previous : Option Char) (text : List Char) :
    phrase.drop? previous text = dropWord? sign.toList text := by
  simp only [drop?, spelled]

theorem find?_eq_none_iff {previous : Option Char} {text : List Char} :
    find? previous text = none ↔ ∀ phrase ∈ all, phrase.drop? previous text = none := by
  simp [find?]

theorem mem_of_find?_eq_some {previous : Option Char} {text after : List Char} {phrase : Phrase}
    (found : find? previous text = some (phrase, after)) :
    phrase ∈ all ∧ phrase.drop? previous text = some after := by
  rcases List.exists_of_findSome?_eq_some found with ⟨candidate, known, dropped⟩
  rcases Option.map_eq_some_iff.mp dropped with ⟨rest, dropped, same⟩
  cases same
  exact ⟨known, dropped⟩

/-- Every phrase begins with a letter where it may follow, or with a sign. -/
theorem find?_cons_eq_none {c : Char} (noSign : isSign c = false) {previous : Option Char}
    (inside : mayFollow previous = false ∨ c.isAlpha = false) (rest : List Char) :
    find? previous (c :: rest) = none := by
  rw [find?_eq_none_iff]
  intro phrase known
  cases dropped : phrase.drop? previous (c :: rest) with
  | none => rfl
  | some after =>
      cases spelled : phrase.spelling with
      | words first others =>
          rw [drop?_of_words spelled, Option.ite_none_right_eq_some] at dropped
          rcases dropped with ⟨follows, standing⟩
          rcases standing?_eq_some_iff.mp standing with ⟨⟨rest', isFirst, -⟩, -⟩
          rcases exists_cons_first (mem_inWords known spelled) with ⟨f, letters, cons, lower, -⟩
          rw [cons, dropWord?_cons_eq_some_iff] at isFirst
          have letter := isAlpha_of_toLower_eq lower isFirst.1
          rcases inside with inside | noLetter
          · rw [inside] at follows
            contradiction
          · rw [noLetter] at letter
            contradiction
      | sign sign =>
          rcases exists_pair_of_sign (mem_signs known spelled) with ⟨a, pair, isA, notLower⟩
          rw [drop?_of_sign spelled, pair, dropWord?_cons_eq_some_iff] at dropped
          rw [eq_of_toLower_eq notLower dropped.1, isA] at noSign
          contradiction

/-- No phrase is found where other characters stand than it begins with. -/
theorem find?_append_of_clash {text : List Char}
    (inWords : ∀ entry ∈ inWords, clash text entry.1.toList = true)
    (signs : ∀ entry ∈ signs, clash text entry.1.toList = true) (previous : Option Char)
    (rest : List Char) : find? previous (text ++ rest) = none := by
  rw [find?_eq_none_iff]
  intro phrase known
  cases spelled : phrase.spelling with
  | words first others =>
      rw [drop?_of_words spelled, standing?,
        dropWord?_append_of_clash (inWords _ (mem_inWords known spelled))]
      simp
  | sign sign =>
      rw [drop?_of_sign spelled, dropWord?_append_of_clash (signs _ (mem_signs known spelled))]

/-- Where no phrase in words may follow, only a sign is found. -/
theorem exists_sign_of_find? {previous : Option Char} (inside : mayFollow previous = false)
    {text after : List Char} {phrase : Phrase}
    (found : find? previous text = some (phrase, after)) :
    ∃ sign, (sign, phrase.operator) ∈ signs := by
  rcases mem_of_find?_eq_some found with ⟨known, dropped⟩
  cases spelled : phrase.spelling with
  | words first others =>
      rw [drop?_of_words spelled, inside] at dropped
      contradiction
  | sign sign => exact ⟨sign, mem_signs known spelled⟩

/-- What is found at a word character is a phrase in words. -/
theorem exists_words_of_find? {previous : Option Char} {c : Char} (inWord : isWord c = true)
    {rest after : List Char} {phrase : Phrase}
    (found : find? previous (c :: rest) = some (phrase, after)) :
    ∃ first others, phrase.spelling = .words first others := by
  rcases mem_of_find?_eq_some found with ⟨known, dropped⟩
  cases spelled : phrase.spelling with
  | words first others => exact ⟨first, others, rfl⟩
  | sign sign =>
      rcases exists_pair_of_sign (mem_signs known spelled) with ⟨a, pair, isA, notLower⟩
      rw [drop?_of_sign spelled, pair, dropWord?_cons_eq_some_iff] at dropped
      rw [← eq_of_toLower_eq notLower dropped.1, isSign_of_isWord inWord] at isA
      contradiction

end Phrase

/-! ## Phrases in words at the beginning of a text -/

/-- Whether a text begins with a phrase in words, `not equal to` apart. -/
def BeginsPhrase (text : List Char) : Prop :=
  ∃ phrase ∈ Phrase.all, phrase.operator ∉ ["!==", "or", "and"] ∧
    (phrase.drop? none text).isSome = true

namespace Phrase

/-- The words behind the first one of a phrase, apart from `or` and `equal`. -/
def tailWords : List String :=
  ["than", "to", "string", "boolean"]

/-- A phrase in words, `not equal to` apart, is or begins with one whose other words are tail
words. -/
theorem exists_short {first : String} {others : List String} {operator : String}
    (known : (first, others, operator) ∈ inWords) (operator_ne : operator ≠ "!==") :
    ∃ others' operator', (first, others', operator') ∈ inWords ∧ others' <+: others ∧
      (∀ word ∈ others', word ∈ tailWords) ∧ operator' ∉ ["!==", "or", "and"] := by
  have shorts : ∀ entry ∈ inWords, entry.2.2 ≠ "!==" → ∃ entry' ∈ inWords,
      entry'.1 = entry.1 ∧ entry'.2.1 <+: entry.2.1 ∧ (∀ word ∈ entry'.2.1, word ∈ tailWords) ∧
        entry'.2.2 ∉ ["!==", "or", "and"] := by decide
  rcases shorts _ known operator_ne with ⟨⟨first', others', operator'⟩, known', rfl, spec⟩
  exact ⟨others', operator', known', spec⟩

end Phrase

theorem beginsPhrase_of_standing? {first : String} {others : List String} {operator : String}
    (known : (first, others, operator) ∈ Phrase.inWords)
    (allowed : operator ∉ ["!==", "or", "and"]) {text after : List Char}
    (found : Phrase.standing? first others text = some after) : BeginsPhrase text := by
  rcases Phrase.exists_of_mem_inWords known with ⟨phrase, member, spelled, rfl⟩
  refine ⟨phrase, member, allowed, ?_⟩
  rw [Phrase.drop?_of_words spelled, if_pos Phrase.mayFollow_none, found]
  rfl

/-- A text begins with a phrase in words exactly if it begins with one whose other words are tail
words. -/
theorem beginsPhrase_iff {text : List Char} :
    BeginsPhrase text ↔ ∃ first others operator after,
      (first, others, operator) ∈ Phrase.inWords ∧ (∀ word ∈ others, word ∈ Phrase.tailWords) ∧
        operator ∉ ["!==", "or", "and"] ∧
          Phrase.standing? first others text = some after := by
  constructor
  · rintro ⟨phrase, known, allowed, found⟩
    cases spelled : phrase.spelling with
    | words first others =>
        rw [Phrase.drop?_of_words spelled, if_pos Phrase.mayFollow_none] at found
        rcases Option.isSome_iff_exists.mp found with ⟨after, found⟩
        have unequal : phrase.operator ≠ "!==" := by
          intro same
          simp [same] at allowed
        rcases Phrase.exists_short (Phrase.mem_inWords known spelled) unequal with
          ⟨others', operator', known', shorter, tails, allowed'⟩
        rcases Phrase.standing?_eq_some_iff.mp found with ⟨⟨rest, dropped, isOthers⟩, alone⟩
        rcases Phrase.dropWords?_of_prefix shorter isOthers alone with
          ⟨after', isOthers', alone'⟩
        exact ⟨first, others', operator', after', known', tails, allowed',
          Phrase.standing?_eq_some_iff.mpr ⟨⟨rest, dropped, isOthers'⟩, alone'⟩⟩
    | sign sign =>
        have keywords : ∀ entry ∈ Phrase.signs, entry.2 ∈ ["!==", "or", "and"] := by decide
        exact absurd (keywords _ (Phrase.mem_signs known spelled)) allowed
  · rintro ⟨first, others, operator, after, known, -, allowed, found⟩
    exact beginsPhrase_of_standing? known allowed found

/-- A text that begins with a phrase in words begins with a word character. -/
theorem isWord_of_beginsPhrase {text : List Char} (begins : BeginsPhrase text) :
    text.head?.any isWord = true := by
  rcases beginsPhrase_iff.mp begins with ⟨first, others, operator, after, known, -, -, found⟩
  rcases Phrase.standing?_eq_some_iff.mp found with ⟨⟨rest, dropped, -⟩, -⟩
  rcases Phrase.exists_cons_first known with ⟨f, letters, cons, lower, -⟩
  rw [cons] at dropped
  cases text with
  | nil => simp [Phrase.dropWord?] at dropped
  | cons c text =>
      have same := (Phrase.dropWord?_cons_eq_some_iff.mp dropped).1
      exact isWord_of_isAlpha (isAlpha_of_toLower_eq lower same)

/-- A phrase in words is found wherever it may follow. -/
theorem find?_ne_none_of_beginsPhrase {previous : Option Char}
    (follows : Phrase.mayFollow previous = true) {text : List Char}
    (begins : BeginsPhrase text) : Phrase.find? previous text ≠ none := by
  rcases begins with ⟨phrase, known, allowed, found⟩
  intro unfound
  have missed := Phrase.find?_eq_none_iff.mp unfound phrase known
  cases spelled : phrase.spelling with
  | words first others =>
      rw [Phrase.drop?_of_words spelled, if_pos follows] at missed
      rw [Phrase.drop?_of_words spelled, if_pos Phrase.mayFollow_none, missed] at found
      contradiction
  | sign sign =>
      rw [Phrase.drop?_of_sign spelled] at missed found
      rw [missed] at found
      contradiction

end Descriptor
