import Descriptor.Proofs.Normalization.Pass

/-!
# Replacing phrases twice

Between a logical sign and a word behind it, a pass writes the keyword for the sign and a space, but
takes the last letter of the keyword for the character before the word.  So a phrase in words right
behind a sign is not found, and a second pass finds it.  Nothing else is left to a second pass:
`normalize_idempotent_iff`.
-/

namespace Descriptor

open Descriptor.Text

/-! ## The texts behind logical signs -/

/-- The text behind the logical sign that a text begins with. -/
def afterSign? : (text : List Char) → Option (List Char)
  | '|' :: '|' :: after => some after
  | '&' :: '&' :: after => some after
  | _ => none

/-- A sign is two characters long. -/
theorem length_afterSign? {text after : List Char} (found : afterSign? text = some after) :
    text.length = after.length + 2 := by
  unfold afterSign? at found
  split at found
  · cases found
    rfl
  · cases found
    rfl
  · contradiction

/-- The texts behind the logical signs of a text, from left to right.  Quoted text has none. -/
def behindSigns (text : List Char) : List (List Char) :=
  match text with
  | [] => []
  | c :: rest =>
      if isQuote c then
        match _closed : rest.dropWhile (· != c) with
        | [] => []
        | _ :: after => behindSigns after
      else
        match _found : afterSign? (c :: rest) with
        | some after => after :: behindSigns after
        | none => behindSigns rest
termination_by text.length
decreasing_by
  · have := (List.dropWhile_sublist (l := rest) (· != c)).length_le
    simp only [_closed, List.length_cons] at this ⊢
    omega
  · have := length_afterSign? _found
    omega
  · simp

section BehindSigns

variable {c : Char} {rest : List Char}

@[simp]
theorem behindSigns_nil : behindSigns [] = [] := by
  rw [behindSigns]

theorem behindSigns_open (quote : isQuote c = true)
    (unclosed : rest.dropWhile (· != c) = []) : behindSigns (c :: rest) = [] := by
  rw [behindSigns, if_pos quote]
  split
  · rfl
  · rename_i closed
    rw [unclosed] at closed
    contradiction

theorem behindSigns_quoted (quote : isQuote c = true) {close : Char} {after : List Char}
    (closed : rest.dropWhile (· != c) = close :: after) :
    behindSigns (c :: rest) = behindSigns after := by
  rw [behindSigns, if_pos quote]
  split
  · rename_i unclosed
    rw [closed] at unclosed
    contradiction
  · rename_i closed'
    rw [closed] at closed'
    cases closed'
    rfl

theorem behindSigns_sign (plain : isQuote c = false) {after : List Char}
    (found : afterSign? (c :: rest) = some after) :
    behindSigns (c :: rest) = after :: behindSigns after := by
  rw [behindSigns, if_neg (by simp [plain])]
  split
  · rename_i found'
    rw [found] at found'
    cases found'
    rfl
  · rename_i unfound
    rw [found] at unfound
    contradiction

theorem behindSigns_plain (plain : isQuote c = false)
    (unfound : afterSign? (c :: rest) = none) :
    behindSigns (c :: rest) = behindSigns rest := by
  rw [behindSigns, if_neg (by simp [plain])]
  split
  · rename_i found
    rw [unfound] at found
    contradiction
  · rfl

end BehindSigns

theorem eq_of_dropWord?_pair {a : Char} (notLower : a.isLower = false) {text after : List Char}
    (found : Phrase.dropWord? [a, a] text = some after) : text = a :: a :: after := by
  cases text with
  | nil => simp [Phrase.dropWord?] at found
  | cons c text =>
      rcases Phrase.dropWord?_cons_eq_some_iff.mp found with ⟨first, found⟩
      cases text with
      | nil => simp [Phrase.dropWord?] at found
      | cons d text =>
          rcases Phrase.dropWord?_cons_eq_some_iff.mp found with ⟨second, found⟩
          cases found
          rw [eq_of_toLower_eq notLower first, eq_of_toLower_eq notLower second]

/-- The signs of the table are the logical signs. -/
theorem afterSign?_of_dropWord? {sign operator : String}
    (known : (sign, operator) ∈ Phrase.signs) {text after : List Char}
    (found : Phrase.dropWord? sign.toList text = some after) :
    afterSign? text = some after := by
  rcases Phrase.exists_pair_of_sign known with ⟨a, pair, isA, notLower⟩
  rw [pair] at found
  rw [eq_of_dropWord?_pair notLower found]
  rcases isSign_iff.mp isA with rfl | rfl
  · rfl
  · rfl

/-- At a logical sign some phrase is found. -/
theorem afterSign?_eq_none_of_find? {previous : Option Char} {text : List Char}
    (unfound : Phrase.find? previous text = none) : afterSign? text = none := by
  cases found : afterSign? text with
  | none => rfl
  | some after =>
      have missed := Phrase.find?_eq_none_iff.mp unfound
      unfold afterSign? at found
      split at found
      · have missed := missed ⟨.sign "||", "or"⟩ (by decide)
        simp [Phrase.drop?, Phrase.dropWord?] at missed
      · have missed := missed ⟨.sign "&&", "and"⟩ (by decide)
        simp [Phrase.drop?, Phrase.dropWord?] at missed
      · contradiction

theorem afterSign?_of_not_isSign {c : Char} (noSign : isSign c = false) (rest : List Char) :
    afterSign? (c :: rest) = none := by
  unfold afterSign?
  split
  · rename_i same
    cases same
    contradiction
  · rename_i same
    cases same
    contradiction
  · rfl

/-! ## No sign is left -/

/-- Characters that neither quote nor sign begins with have no sign behind them. -/
theorem behindSigns_append {text : List Char} (plain : text.all isPlain = true)
    (rest : List Char) : behindSigns (text ++ rest) = behindSigns rest := by
  induction text with
  | nil => rfl
  | cons c text ih =>
      rw [List.all_cons, Bool.and_eq_true] at plain
      rcases isPlain_iff.mp plain.1 with ⟨noQuote, noSign⟩
      rw [List.cons_append, behindSigns_plain noQuote (afterSign?_of_not_isSign noSign _),
        ih plain.2]

theorem afterSign?_cons_eq_none_iff {c d : Char} {rest : List Char} :
    afterSign? (c :: d :: rest) = none ↔ ¬(c = d ∧ isSign c = true) := by
  rw [isSign_iff]
  unfold afterSign?
  split
  · simp_all
  · simp_all
  · rename_i noBars noAnds
    simp only [true_iff]
    rintro ⟨rfl, rfl | rfl⟩
    · exact noBars rest rfl
    · exact noAnds rest rfl

/-- No sign arises at a character that is copied. -/
theorem afterSign?_normalizeAfter {previous : Option Char} {c : Char} {rest : List Char}
    (unfound : Phrase.find? previous (c :: rest) = none) :
    afterSign? (c :: normalizeAfter (some c) rest) = none := by
  cases rest with
  | nil =>
      rw [normalizeAfter_nil]
      unfold afterSign?
      split <;> simp_all
  | cons d rest =>
      have noSign := afterSign?_cons_eq_none_iff.mp (afterSign?_eq_none_of_find? unfound)
      rcases Phrase.exists_cons_normalizeAfter (some c) d rest with ⟨e, rest', begins, isHead⟩
      rw [begins, afterSign?_cons_eq_none_iff]
      rintro ⟨rfl, sign⟩
      rcases isHead with rfl | ⟨rfl, -⟩ | isHead
      · exact noSign ⟨rfl, sign⟩
      · contradiction
      · have noSigns : Phrase.operatorStarts.all (!isSign ·) = true := by decide
        have noSign := List.all_eq_true.mp noSigns _ isHead
        simp [sign] at noSign

theorem dropWhile_takeWhile_append (c : Char) (rest after : List Char) :
    (rest.takeWhile (· != c) ++ c :: after).dropWhile (· != c) = c :: after := by
  rw [List.dropWhile_append_of_pos fun _ member =>
    List.mem_takeWhile_imp (p := (· != c)) member]
  simp

theorem takeWhile_takeWhile_append (c : Char) (rest after : List Char) :
    (rest.takeWhile (· != c) ++ c :: after).takeWhile (· != c) = rest.takeWhile (· != c) := by
  rw [List.takeWhile_append_of_pos fun _ member =>
    List.mem_takeWhile_imp (p := (· != c)) member]
  simp

/-- A pass leaves no logical sign. -/
theorem behindSigns_normalizeAfter (previous : Option Char) (text : List Char) :
    behindSigns (normalizeAfter previous text) = [] := by
  induction previous, text using normalizeAfter.induct with
  | case1 previous => simp
  | case2 previous c rest quote unclosed =>
      rw [normalizeAfter_open quote unclosed, behindSigns_open quote unclosed]
  | case3 previous c rest quote close after closed ih =>
      rw [normalizeAfter_quoted quote closed, List.cons_append,
        behindSigns_quoted quote (dropWhile_takeWhile_append c rest _), ih]
  | case4 previous c rest plain unfound ih =>
      rw [Bool.not_eq_true] at plain
      rw [normalizeAfter_copied plain unfound,
        behindSigns_plain plain (afterSign?_normalizeAfter unfound), ih]
  | case5 previous c rest plain phrase after found operator ih =>
      rw [Bool.not_eq_true] at plain
      have shape : ∀ phrase ∈ Phrase.all, phrase.operator.toList.all isPlain = true := by decide
      have plainSpace : ∀ apart : Bool,
          (if apart = true then [' '] else []).all isPlain = true := by decide
      rw [normalizeAfter_replaced plain found, List.append_assoc, List.append_assoc,
        behindSigns_append (plainSpace _),
        behindSigns_append (shape phrase (Phrase.mem_of_find?_eq_some found).1),
        behindSigns_append (plainSpace _), ih]

/-! ## A second pass -/

/-- At a copied character a second pass finds no phrase. -/
theorem find?_normalizeAfter {previous : Option Char} {c : Char} {rest : List Char}
    (unfound : Phrase.find? previous (c :: rest) = none) :
    Phrase.find? previous (c :: normalizeAfter (some c) rest) = none := by
  rw [Phrase.find?_eq_none_iff]
  intro phrase known
  cases dropped : phrase.drop? previous (c :: normalizeAfter (some c) rest) with
  | none => rfl
  | some after =>
      cases spelled : phrase.spelling with
      | words first others =>
          rw [Phrase.drop?_of_words spelled, Option.ite_none_right_eq_some] at dropped
          rcases dropped with ⟨follows, found⟩
          have begins := beginsPhrase_of_normalizeAfter
            (Phrase.mem_inWords known spelled) found
          exact absurd unfound (find?_ne_none_of_beginsPhrase follows begins)
      | sign sign =>
          rw [Phrase.drop?_of_sign spelled] at dropped
          have found := afterSign?_of_dropWord? (Phrase.mem_signs known spelled) dropped
          rw [afterSign?_normalizeAfter unfound] at found
          contradiction

/-- At a word character that was copied, a phrase is found behind a space exactly if one stood
there before the pass. -/
theorem find?_space_eq_none_iff {c : Char} (inWord : isWord c = true) (rest : List Char) :
    Phrase.find? (some ' ') (c :: normalizeAfter (some c) rest) = none ↔
      ¬BeginsPhrase (c :: rest) := by
  constructor
  · intro unfound begins
    exact find?_ne_none_of_beginsPhrase (by decide)
      (beginsPhrase_normalizeAfter begins) unfound
  · intro noPhrase
    cases found : Phrase.find? (some ' ') (c :: normalizeAfter (some c) rest) with
    | none => rfl
    | some pair =>
        rcases pair with ⟨phrase, after⟩
        rcases Phrase.exists_words_of_find? inWord found with ⟨first, others, spelled⟩
        have known := Phrase.mem_inWords (Phrase.mem_of_find?_eq_some found).1 spelled
        have standing := (normalizeAfter_words (isQuote_of_isWord inWord) found spelled).1
        exact absurd (beginsPhrase_of_normalizeAfter known standing) noPhrase

/-- Behind the space that keeps a keyword apart, a second pass changes nothing exactly if no phrase
stands there and it changes nothing right behind the keyword. -/
theorem normalizeAfter_space_iff {last c : Char} (isLast : isWord last = true)
    (inWord : isWord c = true) (rest : List Char) :
    normalizeAfter (some ' ') (normalizeAfter (some last) (c :: rest)) =
        normalizeAfter (some last) (c :: rest) ↔
      ¬BeginsPhrase (c :: rest) ∧
        normalizeAfter (some last) (normalizeAfter (some last) (c :: rest)) =
          normalizeAfter (some last) (c :: rest) := by
  have plain := isQuote_of_isWord inWord
  have unfound := Phrase.find?_cons_eq_none (isSign_of_isWord inWord)
    (.inl (Phrase.mayFollow_of_isWord isLast)) rest
  rw [normalizeAfter_copied plain unfound,
    normalizeAfter_copied plain (find?_normalizeAfter unfound)]
  by_cases begins : BeginsPhrase (c :: rest)
  · simp only [begins, not_true_eq_false, false_and, iff_false]
    cases found : Phrase.find? (some ' ') (c :: normalizeAfter (some c) rest) with
    | none => exact absurd begins ((find?_space_eq_none_iff inWord rest).mp found)
    | some pair =>
        rcases pair with ⟨phrase, after⟩
        rcases Phrase.exists_words_of_find? inWord found with ⟨first, others, spelled⟩
        exact normalizeAfter_ne_of_words plain found spelled
  · rw [normalizeAfter_copied plain ((find?_space_eq_none_iff inWord rest).mpr begins)]
    simp [begins]

/-! ## Signs and phrases in words -/

theorem behindSigns_of_dropWord? {word : List Char} (lower : word.all Char.isLower = true)
    {text after : List Char} (found : Phrase.dropWord? word text = some after) :
    behindSigns text = behindSigns after := by
  induction word generalizing text with
  | nil =>
      cases found
      rfl
  | cons w word ih =>
      rw [List.all_cons, Bool.and_eq_true] at lower
      cases text with
      | nil => simp [Phrase.dropWord?] at found
      | cons c text =>
          rcases Phrase.dropWord?_cons_eq_some_iff.mp found with ⟨same, found⟩
          have inWord := isWord_of_isAlpha (isAlpha_of_toLower_eq lower.1 same)
          rw [← ih lower.2 found, behindSigns_plain (isQuote_of_isWord inWord)
            (afterSign?_of_not_isSign (isSign_of_isWord inWord) text)]

theorem behindSigns_dropWhile_isGap (text : List Char) :
    behindSigns (text.dropWhile Phrase.isGap) = behindSigns text := by
  induction text with
  | nil => rfl
  | cons c text ih =>
      cases gap : Phrase.isGap c with
      | false => rw [List.dropWhile_cons_of_neg (by simp [gap])]
      | true =>
          rcases Phrase.inert_of_isGap gap with ⟨noQuote, noSign, -⟩
          rw [List.dropWhile_cons_of_pos gap, ih,
            behindSigns_plain noQuote (afterSign?_of_not_isSign noSign text)]

theorem behindSigns_of_dropWords? {words : List String}
    (lower : ∀ word ∈ words, word.toList.all Char.isLower = true) {text after : List Char}
    (found : Phrase.dropWords? words text = some after) :
    behindSigns text = behindSigns after := by
  induction words generalizing text with
  | nil =>
      cases found
      rfl
  | cons word words ih =>
      rw [List.forall_mem_cons] at lower
      rcases Phrase.dropWords?_cons_eq_some_iff.mp found with ⟨-, rest, dropped, others⟩
      rw [← behindSigns_dropWhile_isGap, behindSigns_of_dropWord? lower.1 dropped,
        ih lower.2 others]

/-- No sign stands inside a phrase in words. -/
theorem behindSigns_of_standing? {first : String} {others : List String} {operator : String}
    (known : (first, others, operator) ∈ Phrase.inWords) {text after : List Char}
    (found : Phrase.standing? first others text = some after) :
    behindSigns text = behindSigns after := by
  have lower : ∀ entry ∈ Phrase.inWords, entry.1.toList.all Char.isLower = true ∧
      ∀ word ∈ entry.2.1, word.toList.all Char.isLower = true := by decide
  rcases lower _ known with ⟨firstLower, othersLower⟩
  rcases Phrase.standing?_eq_some_iff.mp found with ⟨⟨rest, dropped, isOthers⟩, -⟩
  rw [behindSigns_of_dropWord? firstLower dropped,
    behindSigns_of_dropWords? othersLower isOthers]

/-! ## Idempotence -/

/-- A second pass changes nothing exactly if behind no sign there stands a phrase in words,
`not equal to` apart. -/
theorem normalizeAfter_idempotent_iff (previous : Option Char) (text : List Char) :
    normalizeAfter previous (normalizeAfter previous text) = normalizeAfter previous text ↔
      ∀ after ∈ behindSigns text, ¬BeginsPhrase after := by
  induction previous, text using normalizeAfter.induct with
  | case1 previous => simp
  | case2 previous c rest quote unclosed =>
      simp [normalizeAfter_open quote unclosed, behindSigns_open quote unclosed]
  | case3 previous c rest quote close after closed ih =>
      rw [normalizeAfter_quoted quote closed, List.cons_append,
        normalizeAfter_quoted quote (dropWhile_takeWhile_append c rest _),
        takeWhile_takeWhile_append, behindSigns_quoted quote closed, ← ih]
      simp
  | case4 previous c rest plain unfound ih =>
      rw [Bool.not_eq_true] at plain
      rw [normalizeAfter_copied plain unfound,
        normalizeAfter_copied plain (find?_normalizeAfter unfound),
        behindSigns_plain plain (afterSign?_eq_none_of_find? unfound), ← ih]
      simp
  | case5 previous c rest plain phrase after found operator ih =>
      rw [Bool.not_eq_true] at plain
      rcases Phrase.mem_of_find?_eq_some found with ⟨known, dropped⟩
      cases spelled : phrase.spelling with
      | words first others =>
          rcases normalizeAfter_words plain found spelled with ⟨standing, replaced⟩
          rw [replaced, normalizeAfter_operator known,
            behindSigns_of_standing? (Phrase.mem_inWords known spelled) standing, ← ih]
          simp [operator]
      | sign sign =>
          rw [Phrase.drop?_of_sign spelled] at dropped
          have isSign := Phrase.mem_signs known spelled
          have keyword : ∀ entry ∈ Phrase.signs,
              entry.2.toList.head?.any Char.isAlpha = true ∧
                entry.2.toList.getLast?.any isWord = true := by decide
          rcases keyword _ isSign with ⟨begins, ends⟩
          rcases (Option.any_eq_true _ _).mp ends with ⟨last, isLast, lastWord⟩
          rw [behindSigns_sign plain (afterSign?_of_dropWord? isSign dropped),
            List.forall_mem_cons, ← ih, normalizeAfter_replaced plain found, Phrase.isKeyword,
            begins, Bool.true_and, Bool.true_and, List.append_assoc _ _ (normalizeAfter _ _),
            normalizeAfter_space_operator known, List.append_cancel_left_eq]
          simp only [operator, isLast]
          -- Only where a word stands behind the sign, a space keeps the keyword apart from it.
          by_cases inWord : after.head?.any isWord = true
          · cases after with
            | nil => simp at inWord
            | cons d after =>
                rw [if_pos inWord, List.singleton_append, normalizeAfter_space]
                simp only [List.cons.injEq, true_and]
                exact normalizeAfter_space_iff lastWord (by simpa using inWord) after
          · rw [if_neg inWord]
            have noPhrase : ¬BeginsPhrase after := fun begins =>
              inWord (isWord_of_beginsPhrase begins)
            simp [noPhrase]

/-- One pass is not always enough, but two are: a third one changes nothing.  And one pass is
enough exactly if behind no logical sign there stands a phrase in words other than `not equal to`,
since the keyword that replaces the sign hides the phrase. -/
theorem normalize_idempotent_iff (source : String) :
    (normalize (normalize source) = normalize source ↔
      ∀ after ∈ behindSigns source.toList, ¬BeginsPhrase after) ∧
        normalize (normalize (normalize source)) = normalize (normalize source) := by
  have toList : ∀ source : String,
      (normalize source).toList = normalizeAfter none source.toList := by
    intro source
    rw [normalize, String.toList_ofList]
  constructor
  · rw [← String.toList_inj, toList, toList]
    exact normalizeAfter_idempotent_iff none source.toList
  · rw [← String.toList_inj, toList, toList, toList, normalizeAfter_idempotent_iff,
      behindSigns_normalizeAfter]
    simp

/-- The keyword for the sign hides the phrase behind it, and a second pass finds it. -/
theorem normalize_hides_phrase :
    normalize (normalize "a||minus b") ≠ normalize "a||minus b" := by
  decide +kernel

end Descriptor