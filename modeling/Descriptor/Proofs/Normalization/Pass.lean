import Descriptor.Proofs.Normalization.Finding

/-!
# What one pass does to words

A pass that copies the first character of a word copies the rest of it.  So a phrase in words that
stands at a copied character after a pass stood there before, and one that stood there before is
still there: `beginsPhrase_of_normalizeAfter` and `beginsPhrase_normalizeAfter`.  Only `equal to`
behind `not` goes away, since it is a phrase itself.

The operators that a pass writes are copied by the next one.
-/

namespace Descriptor

open Descriptor.Text

/-! ## One step of a pass -/

section Steps

variable {previous : Option Char} {c : Char} {rest : List Char}

@[simp]
theorem normalizeAfter_nil : normalizeAfter previous [] = [] := by
  rw [normalizeAfter]

/-- A character that begins neither quoted text nor a phrase is copied. -/
theorem normalizeAfter_copied (plain : isQuote c = false)
    (unfound : Phrase.find? previous (c :: rest) = none) :
    normalizeAfter previous (c :: rest) = c :: normalizeAfter (some c) rest := by
  rw [normalizeAfter, if_neg (by simp [plain])]
  split
  · rfl
  · rename_i found
    rw [unfound] at found
    contradiction

/-- A phrase is replaced by its operator, which a space may keep apart on either side. -/
theorem normalizeAfter_replaced (plain : isQuote c = false) {phrase : Phrase}
    {after : List Char} (found : Phrase.find? previous (c :: rest) = some (phrase, after)) :
    normalizeAfter previous (c :: rest) =
      (if phrase.isKeyword && previous.any isWord then [' '] else []) ++
        phrase.operator.toList ++
          (if phrase.isKeyword && after.head?.any isWord then [' '] else []) ++
            normalizeAfter phrase.operator.toList.getLast? after := by
  rw [normalizeAfter, if_neg (by simp [plain])]
  split
  · rename_i unfound
    rw [unfound] at found
    contradiction
  · rename_i found'
    rw [found'] at found
    cases found
    rfl

/-- Quoted text that is not closed is copied to the end. -/
theorem normalizeAfter_open (quote : isQuote c = true)
    (unclosed : rest.dropWhile (· != c) = []) :
    normalizeAfter previous (c :: rest) = c :: rest := by
  rw [normalizeAfter, if_pos quote]
  split
  · rfl
  · rename_i closed
    rw [unclosed] at closed
    contradiction

/-- Quoted text is copied up to the quote that closes it. -/
theorem normalizeAfter_quoted (quote : isQuote c = true) {close : Char} {after : List Char}
    (closed : rest.dropWhile (· != c) = close :: after) :
    normalizeAfter previous (c :: rest) =
      c :: rest.takeWhile (· != c) ++ c :: normalizeAfter (some c) after := by
  rw [normalizeAfter, if_pos quote]
  split
  · rename_i unclosed
    rw [closed] at unclosed
    contradiction
  · rename_i closed'
    rw [closed] at closed'
    cases closed'
    rfl

/-- A quote is copied. -/
theorem exists_normalizeAfter_of_isQuote (previous : Option Char) (quote : isQuote c = true)
    (rest : List Char) : ∃ rest', normalizeAfter previous (c :: rest) = c :: rest' := by
  cases closed : rest.dropWhile (· != c) with
  | nil => exact ⟨_, normalizeAfter_open quote closed⟩
  | cons close after => exact ⟨_, normalizeAfter_quoted quote closed⟩

end Steps

/-- Inside a word only a logical sign is replaced. -/
theorem normalizeAfter_of_isWord {c : Char} (inWord : isWord c = true) (d : Char)
    (rest : List Char) :
    (∃ rest', normalizeAfter (some c) (d :: rest) = d :: rest') ∨
      isSign d = true ∧ ∃ operator ∈ ["or", "and"], ∃ rest',
        normalizeAfter (some c) (d :: rest) = ' ' :: (operator.toList ++ rest') := by
  cases quote : isQuote d with
  | true => exact .inl (exists_normalizeAfter_of_isQuote _ quote rest)
  | false =>
      cases found : Phrase.find? (some c) (d :: rest) with
      | none => exact .inl ⟨_, normalizeAfter_copied quote found⟩
      | some pair =>
          rcases pair with ⟨phrase, after⟩
          right
          have inside := Phrase.mayFollow_of_isWord inWord
          constructor
          · rw [← Bool.not_eq_false]
            intro noSign
            rw [Phrase.find?_cons_eq_none noSign (.inl inside)] at found
            contradiction
          · rcases Phrase.exists_sign_of_find? inside found with ⟨sign, known⟩
            have keyword : ∀ entry ∈ Phrase.signs, entry.2 ∈ ["or", "and"] ∧
                entry.2.toList.head?.any Char.isAlpha = true := by decide
            rcases keyword _ known with ⟨isOperator, begins⟩
            rw [normalizeAfter_replaced quote found, Phrase.isKeyword, begins]
            simp only [Option.any_some, inWord, Bool.and_self, if_true, List.append_assoc,
              List.singleton_append]
            exact ⟨phrase.operator, isOperator, _, rfl⟩

namespace Phrase

/-- The characters that operators begin with. -/
def operatorStarts : List Char :=
  all.filterMap (·.operator.toList.head?)

/-- The first character of a pass is copied, or it begins an operator or is the space before
one. -/
theorem exists_cons_normalizeAfter (previous : Option Char) (d : Char) (rest : List Char) :
    ∃ e rest', normalizeAfter previous (d :: rest) = e :: rest' ∧
      (e = d ∨ (e = ' ' ∧ previous.any isWord = true) ∨ e ∈ operatorStarts) := by
  cases quote : isQuote d with
  | true =>
      rcases exists_normalizeAfter_of_isQuote previous quote rest with ⟨rest', copied⟩
      exact ⟨d, rest', copied, .inl rfl⟩
  | false =>
      cases found : find? previous (d :: rest) with
      | none => exact ⟨d, _, normalizeAfter_copied quote found, .inl rfl⟩
      | some pair =>
          rcases pair with ⟨phrase, after⟩
          have known := (mem_of_find?_eq_some found).1
          rw [normalizeAfter_replaced quote found]
          split
          · rename_i apart
            rw [Bool.and_eq_true] at apart
            exact ⟨' ', _, rfl, .inr (.inl ⟨rfl, apart.2⟩)⟩
          · cases letters : phrase.operator.toList with
            | nil =>
                have nonempty : ∀ phrase ∈ all, phrase.operator.toList ≠ [] := by decide
                exact absurd letters (nonempty phrase known)
            | cons e letters' =>
                have begins : e ∈ operatorStarts :=
                  List.mem_filterMap.mpr ⟨phrase, known, by rw [letters]; rfl⟩
                exact ⟨e, _, rfl, .inr (.inr begins)⟩

/-! ## Words through a pass -/

/-- Behind a letter that is copied, the rest of a word is found after a pass exactly if it was
there before. -/
theorem dropWord?_normalizeAfter {word : List Char} (lower : word.all Char.isLower = true)
    {c : Char} (inWord : isWord c = true) (text : List Char) :
    ∃ last, isWord last = true ∧ dropWord? word (normalizeAfter (some c) text) =
      (dropWord? word text).map (normalizeAfter (some last)) := by
  induction word generalizing c text with
  | nil => exact ⟨c, inWord, rfl⟩
  | cons w word ih =>
      rw [List.all_cons, Bool.and_eq_true] at lower
      rcases lower with ⟨isLower, lower⟩
      cases text with
      | nil => exact ⟨c, inWord, by simp [dropWord?]⟩
      | cons d rest =>
          by_cases same : d.toLower = w
          · have inWord' := isWord_of_isAlpha (isAlpha_of_toLower_eq isLower same)
            rw [normalizeAfter_copied (isQuote_of_isWord inWord')
              (find?_cons_eq_none (isSign_of_isWord inWord')
                (.inl (mayFollow_of_isWord inWord)) rest)]
            rcases ih lower inWord' rest with ⟨last, isLast, dropped⟩
            exact ⟨last, isLast, by simp [dropWord?, same, dropped]⟩
          · refine ⟨c, inWord, ?_⟩
            rcases normalizeAfter_of_isWord inWord d rest with
              ⟨rest', copied⟩ | ⟨-, operator, -, rest', replaced⟩
            · simp [copied, dropWord?, same]
            · have noSpace : ' ' ≠ w := by
                rintro rfl
                contradiction
              simp [replaced, dropWord?, same, noSpace]

/-- The first word of a phrase that begins at a copied character is copied. -/
theorem dropWord?_first {first : String} {others : List String} {operator : String}
    (known : (first, others, operator) ∈ inWords) (c : Char) (rest : List Char) :
    ∃ last, isWord last = true ∧
      dropWord? first.toList (c :: normalizeAfter (some c) rest) =
        (dropWord? first.toList (c :: rest)).map (normalizeAfter (some last)) := by
  rcases exists_cons_first known with ⟨f, letters, cons, isLower, lower⟩
  rw [cons]
  by_cases same : c.toLower = f
  · have inWord := isWord_of_isAlpha (isAlpha_of_toLower_eq isLower same)
    rcases dropWord?_normalizeAfter lower inWord rest with ⟨last, isLast, dropped⟩
    exact ⟨last, isLast, by simp [dropWord?, same, dropped]⟩
  · exact ⟨'a', by decide, by simp [dropWord?, same]⟩

/-- A run of gaps is copied. -/
theorem dropWhile_isGap_normalizeAfter (previous : Option Char) {text : List Char}
    (gap : text.head?.any isGap = true) :
    (normalizeAfter previous text).head?.any isGap = true ∧ ∃ g, isGap g = true ∧
      (normalizeAfter previous text).dropWhile isGap =
        normalizeAfter (some g) (text.dropWhile isGap) := by
  induction text generalizing previous with
  | nil => simp at gap
  | cons d rest ih =>
      rw [List.head?_cons, Option.any_some] at gap
      rcases inert_of_isGap gap with ⟨noQuote, noSign, noLetter⟩
      rw [normalizeAfter_copied noQuote (find?_cons_eq_none noSign (.inr noLetter) rest)]
      simp only [List.head?_cons, Option.any_some, gap, List.dropWhile_cons, if_true, true_and]
      cases rest with
      | nil => exact ⟨d, gap, by simp⟩
      | cons d' rest =>
          by_cases gap' : isGap d' = true
          · exact (ih (some d) (by simpa using gap')).2
          · refine ⟨d, gap, ?_⟩
            rw [List.dropWhile_cons_of_neg gap']
            rcases exists_cons_normalizeAfter (some d) d' rest with ⟨e, rest', begins, isHead⟩
            rw [begins, List.dropWhile_cons_of_neg]
            rcases isHead with rfl | ⟨-, inWord⟩ | isHead
            · exact gap'
            · simp [isWord_of_isGap gap] at inWord
            · have noGap : operatorStarts.all (!isGap ·) = true := by decide
              simpa using List.all_eq_true.mp noGap e isHead

/-! ## Words behind a word

The words of a phrase behind its first one are `or` or inner words.  A phrase may replace inner
words, but then what it writes is no such word, or the word goes on: `to` in `toString`.
-/

/-- The words behind the first one of a phrase, apart from `or`. -/
def innerWords : List String :=
  "equal" :: tailWords

/-- Inner and tail words are made of lower-case letters. -/
theorem exists_cons_inner {word : String} (inner : word ∈ innerWords) :
    ∃ w letters, word.toList = w :: letters ∧ w.isLower = true ∧
      letters.all Char.isLower = true := by
  have shape : ∀ word ∈ innerWords, word.toList ≠ [] ∧ word.toList.all Char.isLower = true := by
    decide
  rcases shape word inner with ⟨nonempty, lower⟩
  cases letters : word.toList with
  | nil => exact absurd letters nonempty
  | cons w word' =>
      rw [letters, List.all_cons, Bool.and_eq_true] at lower
      exact ⟨w, word', rfl, lower⟩

/-- Behind a word, gaps and an inner word are found after a pass only where gaps were before. -/
theorem exists_gap_of_dropWords? {word : String} (inner : word ∈ innerWords)
    {words : List String} {c : Char} (inWord : isWord c = true) {text after : List Char}
    (found : dropWords? (word :: words) (normalizeAfter (some c) text) = some after) :
    text.head?.any isGap = true ∧ ∃ g rest, isGap g = true ∧
      dropWord? word.toList (normalizeAfter (some g) (text.dropWhile isGap)) = some rest ∧
        dropWords? words rest = some after := by
  rcases dropWords?_cons_eq_some_iff.mp found with ⟨gap, rest, dropped, others⟩
  cases text with
  | nil => simp at gap
  | cons d rest =>
      rcases normalizeAfter_of_isWord inWord d rest with
        ⟨rest', copied⟩ | ⟨-, operator, isOperator, rest', replaced⟩
      · have gap' : (d :: rest).head?.any isGap = true := by simpa [copied] using gap
        rcases (dropWhile_isGap_normalizeAfter (some c) gap').2 with ⟨g, isGap, behind⟩
        rw [behind] at dropped
        exact ⟨gap', g, _, isGap, dropped, others⟩
      · -- The gap is the space before an operator, which is no inner word.
        have clashes : ∀ operator ∈ ["or", "and"], ∀ word ∈ innerWords,
            clash operator.toList word.toList = true ∧
              operator.toList.dropWhile isGap = operator.toList ∧ operator.toList ≠ [] := by
          decide
        rcases clashes operator isOperator word inner with ⟨clashes, noGap, nonempty⟩
        rw [replaced, List.dropWhile_cons_of_pos (by decide), List.dropWhile_append, noGap,
          if_neg (by simpa using nonempty), dropWord?_append_of_clash clashes] at dropped
        contradiction

/-- An operator that begins with an inner word goes on with more letters. -/
theorem isWord_of_dropWord?_operator {phrase : Phrase} (known : phrase ∈ all) {word : String}
    (inner : word ∈ innerWords) {rest after : List Char}
    (found : dropWord? word.toList (phrase.operator.toList ++ rest) = some after) :
    after.head?.any isWord = true := by
  have goesOn : ∀ phrase ∈ all, ∀ word ∈ innerWords,
      clash phrase.operator.toList word.toList = true ∨
        (dropWord? word.toList phrase.operator.toList).any (·.head?.any isWord) = true := by
    decide
  rcases goesOn phrase known word inner with clashes | goesOn
  · rw [dropWord?_append_of_clash clashes] at found
    contradiction
  · rcases (Option.any_eq_true _ _).mp goesOn with ⟨behind, isPrefix, inWord⟩
    rw [dropWord?_append isPrefix] at found
    cases found
    cases behind with
    | nil => simp at inWord
    | cons c behind => exact inWord

/-- An inner word that is found behind a gap after a pass was there before, unless more letters
follow it. -/
theorem dropWord?_inner {word : String} (inner : word ∈ innerWords) {g : Char}
    (gap : isGap g = true) {text after : List Char}
    (found : dropWord? word.toList (normalizeAfter (some g) text) = some after) :
    (find? (some g) text = none ∧ ∃ last rest, isWord last = true ∧
      dropWord? word.toList text = some rest ∧ after = normalizeAfter (some last) rest) ∨
        after.head?.any isWord = true := by
  rcases exists_cons_inner inner with ⟨w, letters, cons, isLower, lower⟩
  cases text with
  | nil => simp [cons, dropWord?] at found
  | cons d rest =>
      cases quote : isQuote d with
      | true =>
          rcases exists_normalizeAfter_of_isQuote (some g) quote rest with ⟨rest', copied⟩
          rw [copied, cons, dropWord?_cons_eq_some_iff] at found
          have letter := isAlpha_of_toLower_eq isLower found.1
          rw [isQuote_of_isWord (isWord_of_isAlpha letter)] at quote
          contradiction
      | false =>
          cases phraseFound : find? (some g) (d :: rest) with
          | none =>
              left
              rw [normalizeAfter_copied quote phraseFound, cons,
                dropWord?_cons_eq_some_iff] at found
              rcases found with ⟨same, found⟩
              have inWord := isWord_of_isAlpha (isAlpha_of_toLower_eq isLower same)
              rcases dropWord?_normalizeAfter lower inWord rest with ⟨last, isLast, dropped⟩
              rw [dropped] at found
              rcases Option.map_eq_some_iff.mp found with ⟨rest', dropped', rfl⟩
              refine ⟨rfl, last, rest', isLast, ?_, rfl⟩
              rw [cons, dropWord?_cons_eq_some_iff]
              exact ⟨same, dropped'⟩
          | some pair =>
              -- The word has been written by the pass, as the beginning of an operator.
              right
              rcases pair with ⟨phrase, behind⟩
              rw [normalizeAfter_replaced quote phraseFound] at found
              simp only [Option.any_some, isWord_of_isGap gap, Bool.and_false,
                Bool.false_eq_true, if_false, List.nil_append, List.append_assoc] at found
              exact isWord_of_dropWord?_operator (mem_of_find?_eq_some phraseFound).1 inner found

/-- Inner words that stand alone behind a word after a pass stood there before. -/
theorem dropWords?_of_normalizeAfter {words : List String}
    (inner : ∀ word ∈ words, word ∈ innerWords) {c : Char} (inWord : isWord c = true)
    {text after : List Char}
    (found : dropWords? words (normalizeAfter (some c) text) = some after)
    (alone : after.head?.any isWord = false) :
    ∃ after', dropWords? words text = some after' ∧ after'.head?.any isWord = false := by
  induction words generalizing c text with
  | nil =>
      refine ⟨text, rfl, ?_⟩
      cases found
      cases text with
      | nil => rfl
      | cons d rest =>
          rcases normalizeAfter_of_isWord inWord d rest with ⟨rest', copied⟩ | ⟨sign, -⟩
          · simpa [copied] using alone
          · cases inWord' : isWord d with
            | false => simpa using inWord'
            | true =>
                rw [isSign_of_isWord inWord'] at sign
                contradiction
  | cons word words ih =>
      rw [List.forall_mem_cons] at inner
      rcases exists_gap_of_dropWords? inner.1 inWord found with
        ⟨gap, g, rest, isGap, dropped, others⟩
      rcases dropWord?_inner inner.1 isGap dropped with
        ⟨-, last, rest', isLast, dropped', rfl⟩ | goesOn
      · rcases ih inner.2 isLast others with ⟨after', others', alone'⟩
        exact ⟨after', dropWords?_cons_eq_some_iff.mpr ⟨gap, rest', dropped', others'⟩, alone'⟩
      · rw [isWord_of_dropWords? goesOn others] at alone
        contradiction

/-- Behind a word, `equal to` does not stand alone after a pass: it has been replaced. -/
theorem isWord_of_equalTo {c : Char} (inWord : isWord c = true) {text after : List Char}
    (found : dropWords? ["equal", "to"] (normalizeAfter (some c) text) = some after) :
    after.head?.any isWord = true := by
  have inner : ∀ word ∈ ["to"], word ∈ innerWords := by decide
  rcases exists_gap_of_dropWords? (by decide) inWord found with
    ⟨-, g, rest, isGap, dropped, others⟩
  rcases dropWord?_inner (by decide) isGap dropped with
    ⟨unfound, last, rest', isLast, dropped', rfl⟩ | goesOn
  · rw [← Bool.not_eq_false]
    intro alone
    rcases dropWords?_of_normalizeAfter inner isLast others alone with ⟨after', others', alone'⟩
    have known : ⟨.words "equal" ["to"], "==="⟩ ∈ all := by decide
    have missed := find?_eq_none_iff.mp unfound _ known
    rw [drop?_of_words rfl, if_pos (mayFollow_of_isGap isGap),
      standing?_eq_some_iff.mpr ⟨⟨rest', dropped', others'⟩, alone'⟩] at missed
    contradiction
  · exact isWord_of_dropWords? goesOn others

/-- No phrase begins with the letters of a tail word. -/
theorem find?_of_tail {word : String} (isTail : word ∈ tailWords) {text rest : List Char}
    (found : dropWord? word.toList text = some rest) (previous : Option Char) :
    find? previous text = none := by
  rw [find?_eq_none_iff]
  intro phrase known
  have clashes : ∀ word ∈ tailWords, (word.toList.all fun c => c.toLower == c) = true ∧
      (∀ entry ∈ inWords, clash word.toList entry.1.toList = true) ∧
        ∀ entry ∈ signs, clash word.toList entry.1.toList = true := by decide
  rcases clashes word isTail with ⟨lower, inWords, signs⟩
  cases spelled : phrase.spelling with
  | words first others =>
      have clashes := inWords _ (mem_inWords known spelled)
      rw [drop?_of_words spelled, standing?, dropWord?_of_clash clashes lower found]
      simp
  | sign sign =>
      rw [drop?_of_sign spelled,
        dropWord?_of_clash (signs _ (mem_signs known spelled)) lower found]

/-- A tail word is copied. -/
theorem dropWord?_tail {word : String} (isTail : word ∈ tailWords) {text rest : List Char}
    (found : dropWord? word.toList text = some rest) (previous : Option Char) :
    ∃ last, isWord last = true ∧ dropWord? word.toList (normalizeAfter previous text) =
      some (normalizeAfter (some last) rest) := by
  have unfound := find?_of_tail isTail found previous
  rcases exists_cons_inner (List.mem_cons_of_mem _ isTail) with
    ⟨w, letters, cons, isLower, lower⟩
  rw [cons] at found ⊢
  cases text with
  | nil => simp [dropWord?] at found
  | cons d text =>
      rcases dropWord?_cons_eq_some_iff.mp found with ⟨same, found⟩
      have inWord := isWord_of_isAlpha (isAlpha_of_toLower_eq isLower same)
      rcases dropWord?_normalizeAfter lower inWord text with ⟨last, isLast, dropped⟩
      refine ⟨last, isLast, ?_⟩
      rw [normalizeAfter_copied (isQuote_of_isWord inWord) unfound, dropWord?_cons_eq_some_iff,
        dropped, found]
      exact ⟨same, rfl⟩

/-- Tail words that stand alone behind a word stand there after a pass as well. -/
theorem dropWords?_normalizeAfter {words : List String}
    (tails : ∀ word ∈ words, word ∈ tailWords) {c : Char} (inWord : isWord c = true)
    {text after : List Char} (found : dropWords? words text = some after)
    (alone : after.head?.any isWord = false) :
    ∃ after', dropWords? words (normalizeAfter (some c) text) = some after' ∧
      after'.head?.any isWord = false := by
  induction words generalizing c text with
  | nil =>
      refine ⟨_, rfl, ?_⟩
      cases found
      cases after with
      | nil => simp
      | cons d rest =>
          rcases normalizeAfter_of_isWord inWord d rest with
            ⟨rest', copied⟩ | ⟨-, operator, -, rest', replaced⟩
          · simpa [copied] using alone
          · simpa [replaced] using (by decide : isWord ' ' = false)
  | cons word words ih =>
      rw [List.forall_mem_cons] at tails
      rcases dropWords?_cons_eq_some_iff.mp found with ⟨gap, rest, dropped, others⟩
      rcases dropWhile_isGap_normalizeAfter (some c) gap with ⟨gap', g, -, behind⟩
      rcases dropWord?_tail tails.1 dropped (some g) with ⟨last, isLast, dropped'⟩
      rcases ih tails.2 isLast others with ⟨after', others', alone'⟩
      refine ⟨after', dropWords?_cons_eq_some_iff.mpr ⟨gap', _, ?_, others'⟩, alone'⟩
      rw [behind, dropped']

end Phrase

/-! ## Phrases through a pass -/

/-- A phrase in words that stands at a copied character after a pass stood there before. -/
theorem beginsPhrase_of_normalizeAfter {first : String} {others : List String}
    {operator : String} (known : (first, others, operator) ∈ Phrase.inWords) {c : Char}
    {rest after : List Char}
    (found : Phrase.standing? first others (c :: normalizeAfter (some c) rest) = some after) :
    BeginsPhrase (c :: rest) := by
  rcases Phrase.standing?_eq_some_iff.mp found with ⟨⟨rest', dropped, isOthers⟩, alone⟩
  rcases Phrase.dropWord?_first known c rest with ⟨last, isLast, same⟩
  rw [same] at dropped
  rcases Option.map_eq_some_iff.mp dropped with ⟨behind, dropped', rfl⟩
  by_cases unequal : operator = "!=="
  · have isNot : ∀ entry ∈ Phrase.inWords, entry.2.2 = "!==" → entry.2.1 = ["equal", "to"] := by
      decide
    rw [show others = ["equal", "to"] from isNot _ known unequal] at isOthers
    rw [Phrase.isWord_of_equalTo isLast isOthers] at alone
    contradiction
  · rcases Phrase.exists_short known unequal with
      ⟨others', operator', known', shorter, tails, allowed⟩
    rcases Phrase.dropWords?_of_prefix shorter isOthers alone with ⟨after', isOthers', alone'⟩
    rcases Phrase.dropWords?_of_normalizeAfter
      (fun word member => List.mem_cons_of_mem _ (tails word member)) isLast isOthers' alone' with
      ⟨after'', isOthers'', alone''⟩
    exact beginsPhrase_of_standing? known' allowed
      (Phrase.standing?_eq_some_iff.mpr ⟨⟨behind, dropped', isOthers''⟩, alone''⟩)

/-- A phrase in words is still there after a pass that copies its first character. -/
theorem beginsPhrase_normalizeAfter {c : Char} {rest : List Char}
    (begins : BeginsPhrase (c :: rest)) : BeginsPhrase (c :: normalizeAfter (some c) rest) := by
  rcases beginsPhrase_iff.mp begins with
    ⟨first, others, operator, after, known, tails, allowed, found⟩
  rcases Phrase.standing?_eq_some_iff.mp found with ⟨⟨behind, dropped, isOthers⟩, alone⟩
  rcases Phrase.dropWord?_first known c rest with ⟨last, isLast, same⟩
  rcases Phrase.dropWords?_normalizeAfter tails isLast isOthers alone with
    ⟨after', isOthers', alone'⟩
  rw [dropped] at same
  exact beginsPhrase_of_standing? known allowed
    (Phrase.standing?_eq_some_iff.mpr ⟨⟨_, same, isOthers'⟩, alone'⟩)

/-- A phrase in words is replaced without spaces. -/
theorem normalizeAfter_words {previous : Option Char} {c : Char} {rest after : List Char}
    (plain : isQuote c = false) {phrase : Phrase}
    (found : Phrase.find? previous (c :: rest) = some (phrase, after)) {first : String}
    {others : List String} (spelled : phrase.spelling = .words first others) :
    Phrase.standing? first others (c :: rest) = some after ∧
      normalizeAfter previous (c :: rest) = phrase.operator.toList ++
        normalizeAfter phrase.operator.toList.getLast? after := by
  have dropped := (Phrase.mem_of_find?_eq_some found).2
  rw [Phrase.drop?_of_words spelled, Option.ite_none_right_eq_some] at dropped
  rcases dropped with ⟨follows, standing⟩
  constructor
  · exact standing
  · rw [normalizeAfter_replaced plain found, Phrase.isWord_of_mayFollow follows,
      (Phrase.standing?_eq_some_iff.mp standing).2]
    simp

/-- Where a phrase in words is found, a pass changes the text. -/
theorem normalizeAfter_ne_of_words {previous : Option Char} {c : Char} {rest after : List Char}
    (plain : isQuote c = false) {phrase : Phrase}
    (found : Phrase.find? previous (c :: rest) = some (phrase, after)) {first : String}
    {others : List String} (spelled : phrase.spelling = .words first others) :
    normalizeAfter previous (c :: rest) ≠ c :: rest := by
  rcases normalizeAfter_words plain found spelled with ⟨standing, replaced⟩
  have clashes : ∀ entry ∈ Phrase.inWords,
      Phrase.clash entry.2.2.toList entry.1.toList = true := by decide
  have known := Phrase.mem_inWords (Phrase.mem_of_find?_eq_some found).1 spelled
  intro same
  rw [← same, replaced, Phrase.standing?,
    Phrase.dropWord?_append_of_clash (clashes _ known)] at standing
  simp at standing

/-! ## Operators through a pass -/

/-- Characters that go on with a word are copied, and so are those that begin no phrase. -/
theorem normalizeAfter_append_of_copied {text : List Char} (plain : text.all isPlain = true)
    {previous : Option Char}
    (inside : text.all (!·.isAlpha) = true ∨
      Phrase.mayFollow previous = false ∧ text.all isWord = true) (rest : List Char) :
    normalizeAfter previous (text ++ rest) =
      text ++ normalizeAfter (text.getLast?.or previous) rest := by
  induction text generalizing previous with
  | nil => simp
  | cons c text ih =>
      rw [List.all_cons, Bool.and_eq_true] at plain
      rw [List.all_cons, Bool.and_eq_true, List.all_cons, Bool.and_eq_true] at inside
      rcases isPlain_iff.mp plain.1 with ⟨noQuote, noSign⟩
      have unfound : Phrase.find? previous (c :: (text ++ rest)) = none := by
        apply Phrase.find?_cons_eq_none noSign
        rcases inside with ⟨noLetter, -⟩ | ⟨inWord, -⟩
        · exact .inr (by simpa using noLetter)
        · exact .inl inWord
      have inside' : text.all (!·.isAlpha) = true ∨
          Phrase.mayFollow (some c) = false ∧ text.all isWord = true := by
        rcases inside with ⟨-, noLetters⟩ | ⟨-, inWord, inWords⟩
        · exact .inl noLetters
        · exact .inr ⟨Phrase.mayFollow_of_isWord inWord, inWords⟩
      rw [List.cons_append, normalizeAfter_copied noQuote unfound, ih plain.2 inside']
      simp [List.getLast?_cons, Option.or_some]

/-- A pass copies every operator. -/
theorem normalizeAfter_operator {phrase : Phrase} (known : phrase ∈ Phrase.all)
    (previous : Option Char) (rest : List Char) :
    normalizeAfter previous (phrase.operator.toList ++ rest) =
      phrase.operator.toList ++ normalizeAfter phrase.operator.toList.getLast? rest := by
  have shape : ∀ phrase ∈ Phrase.all, phrase.operator.toList ≠ [] ∧
      phrase.operator.toList.all isPlain = true ∧
        (phrase.operator.toList.all (!·.isAlpha) = true ∨
          phrase.operator.toList.all isWord = true ∧
            (∀ entry ∈ Phrase.inWords, Phrase.clash phrase.operator.toList entry.1.toList = true) ∧
              ∀ entry ∈ Phrase.signs,
                Phrase.clash phrase.operator.toList entry.1.toList = true) := by decide
  rcases shape phrase known with ⟨nonempty, plain, noLetters | ⟨letters, inWords, signs⟩⟩
  · rw [normalizeAfter_append_of_copied plain (.inl noLetters)]
    cases last : phrase.operator.toList.getLast? with
    | none => exact absurd (List.getLast?_eq_none_iff.mp last) nonempty
    | some c => rfl
  · have unfound := Phrase.find?_append_of_clash inWords signs previous rest
    generalize phrase.operator.toList = operator at nonempty plain letters unfound ⊢
    cases operator with
    | nil => exact absurd rfl nonempty
    | cons c operator =>
        rw [List.all_cons, Bool.and_eq_true] at plain letters
        rw [List.cons_append] at unfound ⊢
        rw [normalizeAfter_copied (isPlain_iff.mp plain.1).1 unfound,
          normalizeAfter_append_of_copied plain.2 (.inr
            ⟨Phrase.mayFollow_of_isWord letters.1, letters.2⟩)]
        simp [List.getLast?_cons, Option.or_some]

theorem normalizeAfter_space (previous : Option Char) (rest : List Char) :
    normalizeAfter previous (' ' :: rest) = ' ' :: normalizeAfter (some ' ') rest :=
  normalizeAfter_copied (by decide) (Phrase.find?_cons_eq_none (by decide) (.inr (by decide)) rest)

/-- A pass copies every operator with the space that may stand before it. -/
theorem normalizeAfter_space_operator {phrase : Phrase} (known : phrase ∈ Phrase.all)
    (apart : Bool) (previous : Option Char) (rest : List Char) :
    normalizeAfter previous
        ((if apart = true then [' '] else []) ++ phrase.operator.toList ++ rest) =
      (if apart = true then [' '] else []) ++ phrase.operator.toList ++
        normalizeAfter phrase.operator.toList.getLast? rest := by
  cases apart with
  | false => simpa using normalizeAfter_operator known previous rest
  | true =>
      simp only [if_true, List.cons_append, List.nil_append]
      rw [normalizeAfter_space, normalizeAfter_operator known]

end Descriptor
