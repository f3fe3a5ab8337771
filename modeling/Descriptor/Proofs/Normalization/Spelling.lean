import Descriptor.Proofs.Normalization.Finding

/-!
# How phrases are spelled

A phrase is spelled by its sign, or by its words in any ASCII case with gaps between them.  What is
found at a place of a text is a spelling, `exists_spells_of_find?`.  The other way round a spelling
is dropped wherever the phrase may follow and stands alone, `drop?_of_spells`.  It is found there
unless it begins a longer phrase.
-/

namespace Descriptor.Phrase

open Descriptor.Text

/-- The spellings of the words behind the first one of a phrase. -/
inductive SpellsWords : List String → List Char → Prop where
  | nil : SpellsWords [] []
  | cons {word : String} {words : List String} {gap spelled others : List Char}
      (nonempty : gap ≠ []) (gaps : ∀ c ∈ gap, isGap c = true)
      (spells : spelled.map Char.toLower = word.toList) (more : SpellsWords words others) :
      SpellsWords (word :: words) (gap ++ spelled ++ others)

/-- The spellings of a phrase. -/
inductive Spells : Phrase → List Char → Prop where
  | words {first : String} {others : List String} {operator : String}
      {spelled behind : List Char} (spells : spelled.map Char.toLower = first.toList)
      (more : SpellsWords others behind) :
      Spells ⟨.words first others, operator⟩ (spelled ++ behind)
  | sign {sign operator : String} : Spells ⟨.sign sign, operator⟩ sign.toList

/-! ## From a text to a spelling -/

theorem dropWord?_eq_some_iff {word text after : List Char} :
    dropWord? word text = some after ↔
      ∃ spelled, spelled.map Char.toLower = word ∧ text = spelled ++ after := by
  induction word generalizing text with
  | nil => simp [dropWord?, eq_comm]
  | cons w word ih =>
      cases text with
      | nil => simp [dropWord?]
      | cons c text =>
          rw [dropWord?_cons_eq_some_iff, ih]
          constructor
          · rintro ⟨same, spelled, spells, rfl⟩
            exact ⟨c :: spelled, by rw [List.map_cons, same, spells], rfl⟩
          · rintro ⟨spelled, spells, whole⟩
            cases spelled with
            | nil => simp at spells
            | cons d spelled =>
                rw [List.map_cons, List.cons.injEq] at spells
                rw [List.cons_append, List.cons.injEq] at whole
                rw [whole.1]
                exact ⟨spells.1, spelled, spells.2, whole.2⟩

theorem exists_spellsWords_of_dropWords? {words : List String} {text after : List Char}
    (found : dropWords? words text = some after) :
    ∃ spelled, SpellsWords words spelled ∧ text = spelled ++ after := by
  induction words generalizing text with
  | nil =>
      cases found
      exact ⟨[], .nil, rfl⟩
  | cons word words ih =>
      rcases dropWords?_cons_eq_some_iff.mp found with ⟨gap, rest, dropped, others⟩
      rcases dropWord?_eq_some_iff.mp dropped with ⟨spelled, spells, behind⟩
      rcases ih others with ⟨more, spellsMore, rfl⟩
      refine ⟨text.takeWhile isGap ++ spelled ++ more, .cons ?_ ?_ spells spellsMore, ?_⟩
      · cases text with
        | nil => simp at gap
        | cons c text => simpa using gap
      · exact fun c member => List.mem_takeWhile_imp (p := isGap) member
      · rw [List.append_assoc, List.append_assoc, ← behind, List.takeWhile_append_dropWhile]

/-- The text of a sign is spelled in one way only. -/
theorem eq_of_spells_sign {sign operator : String} (known : (sign, operator) ∈ signs)
    {spelled : List Char} (spells : spelled.map Char.toLower = sign.toList) :
    spelled = sign.toList := by
  rcases exists_pair_of_sign known with ⟨a, pair, -, notLower⟩
  rw [pair] at spells ⊢
  rcases List.map_eq_cons_iff.mp spells with ⟨c, more, rfl, first, spells⟩
  rcases List.map_eq_cons_iff.mp spells with ⟨d, more, rfl, second, spells⟩
  rw [List.map_eq_nil_iff.mp spells, eq_of_toLower_eq notLower first,
    eq_of_toLower_eq notLower second]

/-- What is found at a place of a text is a spelling of the phrase. -/
theorem exists_spells_of_find? {previous : Option Char} {text after : List Char}
    {phrase : Phrase} (found : find? previous text = some (phrase, after)) :
    ∃ spelled, phrase.Spells spelled ∧ text = spelled ++ after := by
  rcases mem_of_find?_eq_some found with ⟨known, dropped⟩
  rcases phrase with ⟨⟨first, others⟩ | sign, operator⟩
  · rw [drop?_of_words rfl, Option.ite_none_right_eq_some] at dropped
    rcases standing?_eq_some_iff.mp dropped.2 with ⟨⟨rest, isFirst, isOthers⟩, -⟩
    rcases dropWord?_eq_some_iff.mp isFirst with ⟨spelled, spells, rfl⟩
    rcases exists_spellsWords_of_dropWords? isOthers with ⟨behind, spellsOthers, rfl⟩
    exact ⟨spelled ++ behind, .words spells spellsOthers, (List.append_assoc ..).symm⟩
  · rw [drop?_of_sign rfl] at dropped
    rcases dropWord?_eq_some_iff.mp dropped with ⟨spelled, spells, rfl⟩
    rw [eq_of_spells_sign (mem_signs known rfl) spells]
    exact ⟨sign.toList, .sign, rfl⟩

/-! ## Letters and gaps -/

/-- The words of phrases are made of lower-case letters. -/
theorem isLower_of_mem_inWords {first : String} {others : List String} {operator : String}
    (known : (first, others, operator) ∈ inWords) :
    ∀ word ∈ first :: others, word.toList ≠ [] ∧ ∀ c ∈ word.toList, c.isLower = true := by
  have lower : ∀ entry ∈ inWords, ∀ word ∈ entry.1 :: entry.2.1,
      word.toList ≠ [] ∧ word.toList.all Char.isLower = true := by decide
  intro word member
  rcases lower _ known word member with ⟨nonempty, lower⟩
  exact ⟨nonempty, List.all_eq_true.mp lower⟩

theorem isAlpha_of_spells {word spelled : List Char} (lower : ∀ c ∈ word, c.isLower = true)
    (spells : spelled.map Char.toLower = word) : ∀ c ∈ spelled, c.isAlpha = true := by
  intro c member
  rw [← Char.isLower_toLower_eq_isAlpha]
  exact lower _ (spells ▸ List.mem_map_of_mem member)

/-- Spelled words are made of letters and gaps. -/
theorem SpellsWords.isAlpha_or_isGap {words : List String} {text : List Char}
    (spells : SpellsWords words text)
    (lower : ∀ word ∈ words, ∀ c ∈ word.toList, c.isLower = true) :
    ∀ c ∈ text, c.isAlpha = true ∨ isGap c = true := by
  induction spells with
  | nil => simp
  | cons nonempty gaps spells more ih =>
      rw [List.forall_mem_cons] at lower
      intro c member
      rcases List.mem_append.mp member with early | late
      · rcases List.mem_append.mp early with gap | letter
        · exact .inr (gaps c gap)
        · exact .inl (isAlpha_of_spells lower.1 spells c letter)
      · exact ih lower.2 c late

/-- A spelling is made of letters and gaps, or of the characters of a sign. -/
theorem Spells.isAlpha_or_isGap_or_isSign {phrase : Phrase} (known : phrase ∈ all)
    {text : List Char} (spells : phrase.Spells text) :
    ∀ c ∈ text, c.isAlpha = true ∨ isGap c = true ∨ isSign c = true := by
  intro c member
  cases spells with
  | words spells more =>
      have lower := isLower_of_mem_inWords (mem_inWords known rfl)
      rw [List.forall_mem_cons] at lower
      rcases List.mem_append.mp member with early | late
      · exact .inl (isAlpha_of_spells lower.1.2 spells c early)
      · rcases more.isAlpha_or_isGap (fun word member => (lower.2 word member).2) c late with
          letter | gap
        · exact .inl letter
        · exact .inr (.inl gap)
  | sign =>
      rcases exists_pair_of_sign (mem_signs known rfl) with ⟨a, pair, isA, -⟩
      rw [pair] at member
      have same : c = a := by simpa using member
      rw [same]
      exact .inr (.inr isA)

/-- A spelling begins with a letter or with a character of a sign. -/
theorem Spells.exists_cons {phrase : Phrase} (known : phrase ∈ all) {text : List Char}
    (spells : phrase.Spells text) :
    ∃ c rest, text = c :: rest ∧ (c.isAlpha = true ∨ isSign c = true) := by
  cases spells with
  | @words first others operator spelled behind spells more =>
      rcases isLower_of_mem_inWords (mem_inWords known rfl) first List.mem_cons_self with
        ⟨nonempty, lower⟩
      cases spelled with
      | nil => exact absurd spells.symm nonempty
      | cons c spelled =>
          exact ⟨c, _, rfl, .inl (isAlpha_of_spells lower spells c List.mem_cons_self)⟩
  | sign =>
      rcases exists_pair_of_sign (mem_signs known rfl) with ⟨a, pair, isA, -⟩
      exact ⟨a, [a], pair, .inr isA⟩

/-! ## From a spelling to what is found -/

theorem dropWord?_of_spells {word spelled : List Char} (spells : spelled.map Char.toLower = word)
    (tail : List Char) : dropWord? word (spelled ++ tail) = some tail :=
  dropWord?_eq_some_iff.mpr ⟨spelled, spells, rfl⟩

/-- The first of several words is looked for behind all gaps. -/
theorem dropWords?_gap {gap text : List Char} (nonempty : gap ≠ [])
    (gaps : ∀ c ∈ gap, isGap c = true) (begins : text.head?.any isGap = false) (word : String)
    (words : List String) :
    dropWords? (word :: words) (gap ++ text) =
      (dropWord? word.toList text).bind (dropWords? words) := by
  have isHead : (gap ++ text).head?.any isGap = true := by
    cases gap with
    | nil => exact absurd rfl nonempty
    | cons c gap => simpa using gaps c List.mem_cons_self
  have dropped : (gap ++ text).dropWhile isGap = text := by
    rw [List.dropWhile_append_of_pos gaps]
    cases text with
    | nil => rfl
    | cons c text => exact List.dropWhile_cons_of_neg (by simpa using begins)
  rw [dropWords?, if_pos isHead, dropped]

theorem dropWords?_append (words others : List String) (text : List Char) :
    dropWords? (words ++ others) text = (dropWords? words text).bind (dropWords? others) := by
  induction words generalizing text with
  | nil => rfl
  | cons word words ih =>
      rw [List.cons_append, dropWords?, dropWords?]
      split
      · cases dropWord? word.toList (text.dropWhile isGap) with
        | none => rfl
        | some rest => exact ih rest
      · rfl

/-- A word that is spelled begins with no gap. -/
theorem isGap_of_spells {word spelled : List Char} (nonempty : word ≠ [])
    (lower : ∀ c ∈ word, c.isLower = true) (spells : spelled.map Char.toLower = word)
    (tail : List Char) : (spelled ++ tail).head?.any isGap = false := by
  cases spelled with
  | nil => exact absurd spells.symm nonempty
  | cons c spelled =>
      have letter := isAlpha_of_spells lower spells c List.mem_cons_self
      rw [List.cons_append, List.head?_cons, Option.any_some, ← Bool.not_eq_true]
      intro gap
      rw [(inert_of_isGap gap).2.2] at letter
      contradiction

/-- Words that are spelled are dropped. -/
theorem dropWords?_of_spells {words : List String} {text : List Char}
    (spells : SpellsWords words text)
    (lower : ∀ word ∈ words, word.toList ≠ [] ∧ ∀ c ∈ word.toList, c.isLower = true)
    (tail : List Char) : dropWords? words (text ++ tail) = some tail := by
  induction spells with
  | nil => rfl
  | cons nonempty gaps spells more ih =>
      rw [List.forall_mem_cons] at lower
      rw [List.append_assoc, List.append_assoc, dropWords?_gap nonempty gaps
        (isGap_of_spells lower.1.1 lower.1.2 spells _), dropWord?_of_spells spells]
      exact ih lower.2

/-- Whether the first of some words that is not the same as in others differs from it in a
letter. -/
def clashWords : List String → List String → Bool
  | word :: words, other :: others =>
      clash word.toList other.toList || (word == other && clashWords words others)
  | _, _ => false

theorem dropWord?_of_spells_of_clash {word other spelled : List Char}
    (same : ∀ c ∈ word, c.toLower = c) (spells : spelled.map Char.toLower = word)
    (clashes : clash word other = true) (tail : List Char) :
    dropWord? other (spelled ++ tail) = none :=
  dropWord?_of_clash clashes (by simpa using same) (dropWord?_of_spells spells tail)

theorem toLower_of_isLower {c : Char} (lower : c.isLower = true) : c.toLower = c := by
  refine Char.toLower_eq_of_not_isUpper ?_
  simp only [Char.isLower, Char.isUpper, Bool.and_eq_true, decide_eq_true_eq,
    UInt32.le_iff_toNat_le] at lower ⊢
  have : 'Z'.val.toNat = 90 := rfl
  have : 'a'.val.toNat = 97 := rfl
  omega

/-- Where words are spelled, no words are dropped that clash with them. -/
theorem dropWords?_of_clashWords {words others : List String} {text : List Char}
    (spells : SpellsWords words text)
    (lower : ∀ word ∈ words, word.toList ≠ [] ∧ ∀ c ∈ word.toList, c.isLower = true)
    (clashes : clashWords words others = true) (tail : List Char) :
    dropWords? others (text ++ tail) = none := by
  induction spells generalizing others with
  | nil => cases others <;> contradiction
  | @cons word words gap spelled more nonempty gaps spells _ ih =>
      cases others with
      | nil => contradiction
      | cons other others =>
          rw [List.forall_mem_cons] at lower
          rw [List.append_assoc, List.append_assoc, dropWords?_gap nonempty gaps
            (isGap_of_spells lower.1.1 lower.1.2 spells _)]
          rw [clashWords, Bool.or_eq_true, Bool.and_eq_true, beq_iff_eq] at clashes
          rcases clashes with here | ⟨rfl, later⟩
          · have same := fun c member => toLower_of_isLower (lower.1.2 c member)
            rw [dropWord?_of_spells_of_clash same spells here]
            rfl
          · rw [dropWord?_of_spells spells]
            exact ih lower.2 later

/-- A sign has no other case. -/
theorem map_toLower_of_mem_signs {sign operator : String} (known : (sign, operator) ∈ signs) :
    sign.toList.map Char.toLower = sign.toList := by
  have same : ∀ entry ∈ signs, entry.1.toList.map Char.toLower = entry.1.toList := by decide
  exact same _ known

/-- The words of a phrase, or its sign. -/
def parts (phrase : Phrase) : List String :=
  match phrase.spelling with
  | .words first others => first :: others
  | .sign sign => [sign]

/-- A phrase is dropped where it is spelled, may follow and stands alone. -/
theorem drop?_of_spells {phrase : Phrase} (known : phrase ∈ all) {text : List Char}
    (spells : phrase.Spells text) {previous : Option Char}
    (follows : mayFollow previous = true) {tail : List Char}
    (alone : tail.head?.any isWord = false) :
    phrase.drop? previous (text ++ tail) = some tail := by
  cases spells with
  | words spells more =>
      have lower := isLower_of_mem_inWords (mem_inWords known rfl)
      rw [List.forall_mem_cons] at lower
      rw [drop?_of_words rfl, if_pos follows, standing?_eq_some_iff, List.append_assoc]
      exact ⟨⟨_, dropWord?_of_spells spells _, dropWords?_of_spells more lower.2 tail⟩, alone⟩
  | sign =>
      rw [drop?_of_sign rfl]
      exact dropWord?_of_spells (map_toLower_of_mem_signs (mem_signs known rfl)) tail

/-- A text that begins with a phrase begins with its first part. -/
theorem exists_of_drop? {phrase : Phrase} {previous : Option Char} {text after : List Char}
    (dropped : phrase.drop? previous text = some after) :
    ∃ word words rest, phrase.parts = word :: words ∧
      dropWord? word.toList text = some rest ∧ dropWords? words rest = some after := by
  rcases phrase with ⟨⟨first, others⟩ | sign, operator⟩
  · rw [drop?_of_words rfl, Option.ite_none_right_eq_some] at dropped
    rcases standing?_eq_some_iff.mp dropped.2 with ⟨⟨rest, isFirst, isOthers⟩, -⟩
    exact ⟨first, others, rest, rfl, isFirst, isOthers⟩
  · rw [drop?_of_sign rfl] at dropped
    exact ⟨sign, [], after, rfl, dropped, rfl⟩

/-- Where a phrase is spelled, no phrase is dropped that clashes with it. -/
theorem drop?_of_clashWords {phrase other : Phrase} (known : phrase ∈ all) {text : List Char}
    (spells : phrase.Spells text) (clashes : clashWords phrase.parts other.parts = true)
    (previous : Option Char) (tail : List Char) :
    other.drop? previous (text ++ tail) = none := by
  refine Option.eq_none_iff_forall_ne_some.mpr fun after dropped => ?_
  rcases exists_of_drop? dropped with ⟨word, words, rest, parts, isFirst, isOthers⟩
  rw [parts] at clashes
  cases spells with
  | @words first others operator spelled behind spells more =>
      have lower := isLower_of_mem_inWords (mem_inWords known rfl)
      rw [List.forall_mem_cons] at lower
      rw [List.append_assoc] at isFirst
      rw [Phrase.parts, clashWords, Bool.or_eq_true, Bool.and_eq_true, beq_iff_eq] at clashes
      rcases clashes with here | ⟨rfl, later⟩
      · have same := fun c member => toLower_of_isLower (lower.1.2 c member)
        rw [dropWord?_of_spells_of_clash same spells here] at isFirst
        contradiction
      · rw [dropWord?_of_spells spells, Option.some.injEq] at isFirst
        rw [← isFirst, dropWords?_of_clashWords more lower.2 later] at isOthers
        contradiction
  | @sign sign operator =>
      rw [Phrase.parts, clashWords, Bool.or_eq_true, Bool.and_eq_true] at clashes
      rcases clashes with here | ⟨-, later⟩
      · rw [dropWord?_append_of_clash here] at isFirst
        contradiction
      · contradiction

/-- An earlier phrase of the table clashes with a later one, or it is a comparison and goes on
with `or equal to`. -/
theorem pairwise_all : all.Pairwise fun other phrase =>
    clashWords phrase.parts other.parts = true ∨
      phrase.operator ∈ [">", "<"] ∧ other.parts = phrase.parts ++ ["or", "equal", "to"] := by
  decide

/-- The phrase that goes on with words is not dropped where they are missing. -/
theorem drop?_of_longer {phrase other : Phrase} (known : phrase ∈ all) {text : List Char}
    (spells : phrase.Spells text) {more : List String}
    (longer : other.parts = phrase.parts ++ more) {tail : List Char}
    (missing : dropWords? more tail = none) (previous : Option Char) :
    other.drop? previous (text ++ tail) = none := by
  refine Option.eq_none_iff_forall_ne_some.mpr fun after dropped => ?_
  rcases exists_of_drop? dropped with ⟨word, words, rest, parts, isFirst, isOthers⟩
  have wordsDropped : dropWords? more tail = some after := by
    cases spells with
    | words spells behind =>
        have lower := isLower_of_mem_inWords (mem_inWords known rfl)
        rw [List.forall_mem_cons] at lower
        rw [parts, Phrase.parts, List.cons_append, List.cons.injEq] at longer
        rcases longer with ⟨rfl, rfl⟩
        rw [List.append_assoc, dropWord?_of_spells spells, Option.some.injEq] at isFirst
        rw [← isFirst, dropWords?_append, dropWords?_of_spells behind lower.2] at isOthers
        exact isOthers
    | sign =>
        have same := map_toLower_of_mem_signs (mem_signs known rfl)
        rw [parts, Phrase.parts, List.cons_append, List.cons.injEq] at longer
        rcases longer with ⟨rfl, rfl⟩
        rw [dropWord?_of_spells same, Option.some.injEq] at isFirst
        rw [← isFirst] at isOthers
        exact isOthers
  rw [missing] at wordsDropped
  contradiction

/-- A phrase is found where it is spelled, may follow and stands alone, unless it is a comparison
that goes on with `or equal to`. -/
theorem find?_of_spells {phrase : Phrase} (known : phrase ∈ all) {text : List Char}
    (spells : phrase.Spells text) {previous : Option Char}
    (follows : mayFollow previous = true) {tail : List Char}
    (alone : tail.head?.any isWord = false)
    (missing : phrase.operator ∈ [">", "<"] → dropWords? ["or", "equal", "to"] tail = none) :
    find? previous (text ++ tail) = some (phrase, tail) := by
  rcases List.append_of_mem known with ⟨earlier, later, split⟩
  have pairs := pairwise_all
  rw [split, List.pairwise_append] at pairs
  refine List.findSome?_eq_some_iff.mpr ⟨earlier, phrase, later, split, ?_, fun other member => ?_⟩
  · rw [drop?_of_spells known spells follows alone]
    rfl
  · rw [Option.map_eq_none_iff]
    rcases pairs.2.2 other member phrase List.mem_cons_self with clashes | ⟨comparison, longer⟩
    · exact drop?_of_clashWords known spells clashes previous tail
    · exact drop?_of_longer known spells longer (missing comparison) previous

end Descriptor.Phrase
