import Descriptor.Proofs.Normalization.Marks

/-!
# Exchanging separators in a text

A newline and a semicolon outside of quotes may be put for each other, `exchange`.  Texts that
differ by this alone are related by `Exchanged`, which goes through a text quoted part by quoted
part.  Neither of the two characters belongs to a phrase, and none of them is a word character or
a dot.  So the phrases of two such texts stand at the same places, and after a pass the texts still
differ in their separators alone.
-/

namespace Descriptor

open Descriptor.Piece Descriptor.Text

/-! ## The two separators -/

/-- Whether a character separates statements. -/
def separates (c : Char) : Bool :=
  c == ';' || c == '\n'

/-- The other separator, in place of a separator. -/
def otherSeparator (c : Char) : Char :=
  if c = ';' then '\n' else if c = '\n' then ';' else c

theorem separates_iff {c : Char} : separates c = true ↔ c = ';' ∨ c = '\n' := by
  simp [separates]

theorem separates_otherSeparator {c : Char} (separator : separates c = true) :
    separates (otherSeparator c) = true := by
  rcases separates_iff.mp separator with rfl | rfl <;> rfl

theorem otherSeparator_of_not_separates {c : Char} (other : separates c = false) :
    otherSeparator c = c := by
  simp only [separates, Bool.or_eq_false_iff, beq_eq_false_iff_ne] at other
  rw [otherSeparator, if_neg other.1, if_neg other.2]

/-- A class of characters without the two separators. -/
theorem eq_false_of_separates {belongs : Char → Bool} (semicolon : belongs ';' = false)
    (newline : belongs '\n' = false) {c : Char} (separator : separates c = true) :
    belongs c = false := by
  rcases separates_iff.mp separator with rfl | rfl
  · exact semicolon
  · exact newline

theorem isInert_of_not_separates {c : Char} (plain : isQuote c = false)
    (other : separates c = false) : isInert c = true := by
  simp only [separates, Bool.or_eq_false_iff, beq_eq_false_iff_ne] at other
  exact isInert_iff.mpr ⟨plain, other⟩

theorem separates_of_isInert {c : Char} (inert : isInert c = true) : separates c = false := by
  rcases isInert_iff.mp inert with ⟨-, noSemicolon, noNewline⟩
  simp [separates, noSemicolon, noNewline]

/-! ## Texts with other separators -/

/-- The text with the chosen ones of its separators exchanged.  `place` is the place of the text,
counted from zero, and `quote?` is the quote in front of it that is still open.  Between quotes
nothing is exchanged. -/
def exchangeFrom (chosen : Nat → Bool) (place : Nat) (quote? : Option Char) :
    List Char → List Char
  | [] => []
  | c :: rest =>
      match quote? with
      | some quote =>
          c :: exchangeFrom chosen (place + 1) (if c = quote then none else some quote) rest
      | none =>
          (if chosen place then otherSeparator c else c) ::
            exchangeFrom chosen (place + 1) (if isQuote c then some c else none) rest

/-- The descriptor with the separators at the chosen places exchanged, where they are not quoted. -/
def exchange (chosen : Nat → Bool) (source : String) : String :=
  .ofList (exchangeFrom chosen 0 none source.toList)

/-- Two texts that differ in their separators outside of quotes alone. -/
inductive Exchanged : List Char → List Char → Prop where
  | nil : Exchanged [] []
  | separator {c d : Char} {rest rest' : List Char} (first : separates c = true)
      (second : separates d = true) (more : Exchanged rest rest') :
      Exchanged (c :: rest) (d :: rest')
  | plain {c : Char} {rest rest' : List Char} (plain : isQuote c = false)
      (more : Exchanged rest rest') : Exchanged (c :: rest) (c :: rest')
  | quoted {quote : Char} {inside rest rest' : List Char} (isQuote : isQuote quote = true)
      (noQuote : quote ∉ inside) (more : Exchanged rest rest') :
      Exchanged (quote :: inside ++ quote :: rest) (quote :: inside ++ quote :: rest')
  | unclosed {quote : Char} {inside : List Char} (isQuote : isQuote quote = true)
      (noQuote : quote ∉ inside) : Exchanged (quote :: inside) (quote :: inside)

theorem exchangeFrom_quoted (chosen : Nat → Bool) (place : Nat) {quote : Char}
    {inside : List Char} (noQuote : quote ∉ inside) (rest : List Char) :
    exchangeFrom chosen place (some quote) (inside ++ rest) =
      inside ++ exchangeFrom chosen (place + inside.length) (some quote) rest := by
  induction inside generalizing place with
  | nil => rfl
  | cons c inside ih =>
      rw [List.mem_cons, not_or] at noQuote
      simp only [List.cons_append, exchangeFrom, if_neg (Ne.symm noQuote.1), ih _ noQuote.2,
        List.length_cons, Nat.add_assoc, Nat.add_comm 1]

/-- A text goes on behind a quote in one of two ways. -/
theorem quote_not_mem_or_closed (quote : Char) (text : List Char) :
    quote ∉ text ∨ ∃ inside rest, quote ∉ inside ∧ text = inside ++ quote :: rest := by
  by_cases member : quote ∈ text
  · rcases List.eq_append_cons_of_mem member with ⟨inside, rest, whole, noQuote⟩
    exact .inr ⟨inside, rest, noQuote, whole⟩
  · exact .inl member

/-- Exchanging separators leaves all else as it is. -/
theorem exchanged_exchangeFrom (chosen : Nat → Bool) (place : Nat) (text : List Char) :
    Exchanged text (exchangeFrom chosen place none text) := by
  induction length : text.length using Nat.strong_induction_on generalizing place text with
  | _ n ih =>
      subst length
      cases text with
      | nil => exact .nil
      | cons c rest =>
          rw [exchangeFrom]
          cases quote : isQuote c with
          | false =>
              simp only [Bool.false_eq_true, if_false]
              have more := ih _ (Nat.lt_succ_self _) (place + 1) rest rfl
              cases separator : separates c with
              | false =>
                  rw [otherSeparator_of_not_separates separator, ite_self]
                  exact .plain quote more
              | true =>
                  refine .separator separator ?_ more
                  split
                  · exact separates_otherSeparator separator
                  · exact separator
          | true =>
              have same : (if chosen place = true then otherSeparator c else c) = c := by
                rcases isQuote_iff.mp quote with rfl | rfl <;> exact ite_self _
              rw [same, if_pos rfl]
              rcases quote_not_mem_or_closed c rest with noQuote | ⟨inside, after, noQuote, rfl⟩
              · have inside := exchangeFrom_quoted chosen (place + 1) noQuote []
                rw [List.append_nil, exchangeFrom, List.append_nil] at inside
                rw [inside]
                exact .unclosed quote noQuote
              · rw [exchangeFrom_quoted chosen (place + 1) noQuote, exchangeFrom, if_pos rfl]
                refine .quoted quote noQuote (ih _ ?_ _ after rfl)
                simp only [List.length_cons, List.length_append]
                omega

theorem exchanged_exchange (chosen : Nat → Bool) (source : String) :
    Exchanged source.toList (exchange chosen source).toList := by
  rw [exchange, String.toList_ofList]
  exact exchanged_exchangeFrom chosen 0 source.toList

/-- Characters, or none, that are the same or both separators. -/
def Alike (previous previous' : Option Char) : Prop :=
  previous = previous' ∨ previous.any separates = true ∧ previous'.any separates = true

theorem Alike.any_eq {previous previous' : Option Char} (alike : Alike previous previous')
    (belongs : Char → Bool) (semicolon : belongs ';' = false) (newline : belongs '\n' = false) :
    previous.any belongs = previous'.any belongs := by
  rcases alike with rfl | ⟨first, second⟩
  · rfl
  · rcases (Option.any_eq_true _ _).mp first with ⟨c, rfl, separator⟩
    rcases (Option.any_eq_true _ _).mp second with ⟨d, rfl, separator'⟩
    simp [eq_false_of_separates semicolon newline separator,
      eq_false_of_separates semicolon newline separator']

/-! ## What such texts begin with -/

namespace Exchanged

variable {text text' : List Char}

/-- Whether a class of characters has the first one, where the separators are not in the class. -/
theorem any_head? (exchanged : Exchanged text text') (belongs : Char → Bool)
    (semicolon : belongs ';' = false) (newline : belongs '\n' = false) :
    text.head?.any belongs = text'.head?.any belongs := by
  cases exchanged with
  | separator first second =>
      simp [eq_false_of_separates semicolon newline first,
        eq_false_of_separates semicolon newline second]
  | _ => rfl

/-- What begins with inert characters differs behind them. -/
theorem exists_of_append {used rest : List Char} (inert : ∀ c ∈ used, isInert c = true)
    (exchanged : Exchanged (used ++ rest) text') :
    ∃ rest', text' = used ++ rest' ∧ Exchanged rest rest' := by
  induction used generalizing text' with
  | nil => exact ⟨text', rfl, exchanged⟩
  | cons c used ih =>
      rw [List.forall_mem_cons] at inert
      have noQuote := (isInert_iff.mp inert.1).1
      rw [List.cons_append] at exchanged
      generalize whole : used ++ rest = behind at exchanged
      cases exchanged with
      | separator first =>
          rw [separates_of_isInert inert.1] at first
          contradiction
      | plain _ more =>
          rw [← whole] at more
          rcases ih inert.2 more with ⟨rest', rfl, differ⟩
          exact ⟨rest', rfl, differ⟩
      | quoted isQuote | unclosed isQuote =>
          rw [noQuote] at isQuote
          contradiction

/-- The same text without quotes may stand in front. -/
theorem append {used : List Char} (plain : ∀ c ∈ used, isQuote c = false)
    (exchanged : Exchanged text text') : Exchanged (used ++ text) (used ++ text') := by
  induction used with
  | nil => exact exchanged
  | cons c used ih =>
      rw [List.forall_mem_cons] at plain
      exact .plain plain.1 (ih plain.2)

/-! ## Phrases in such texts -/

theorem dropWhile_isGap (exchanged : Exchanged text text') :
    Exchanged (text.dropWhile Phrase.isGap) (text'.dropWhile Phrase.isGap) := by
  induction exchanged with
  | nil => exact .nil
  | separator first second more =>
      have noGap : ∀ c, separates c = true → Phrase.isGap c = false := fun _ =>
        eq_false_of_separates rfl rfl
      simpa [List.dropWhile_cons, noGap _ first, noGap _ second] using
        Exchanged.separator first second more
  | @plain c rest rest' plain more ih =>
      cases gap : Phrase.isGap c with
      | true => simpa [List.dropWhile_cons, gap] using ih
      | false => simpa [List.dropWhile_cons, gap] using Exchanged.plain plain more
  | @quoted quote inside rest rest' isQuote noQuote more =>
      have noGap : Phrase.isGap quote = false := by
        rcases isQuote_iff.mp isQuote with rfl | rfl <;> rfl
      simpa [List.dropWhile_cons, noGap] using Exchanged.quoted isQuote noQuote more
  | @unclosed quote inside isQuote noQuote =>
      have noGap : Phrase.isGap quote = false := by
        rcases isQuote_iff.mp isQuote with rfl | rfl <;> rfl
      simpa [List.dropWhile_cons, noGap] using Exchanged.unclosed isQuote noQuote

/-- A word without quotes and separators is not spelled by a quote or a separator. -/
theorem dropWord?_cons_eq_none {w c : Char} (notInert : isInert c = false)
    (inert : isInert w = true) (word text : List Char) :
    Phrase.dropWord? (w :: word) (c :: text) = none := by
  rw [Phrase.dropWord?, if_neg]
  rw [beq_iff_eq]
  rintro rfl
  cases upper : c.isUpper with
  | false =>
      rw [Char.toLower_eq_of_not_isUpper (by simp [upper]), notInert] at inert
      contradiction
  | true =>
      rw [isInert_of_isAlpha (by simp [Char.isAlpha, upper])] at notInert
      contradiction

theorem isInert_of_separates {c : Char} (separator : separates c = true) : isInert c = false :=
  eq_false_of_separates rfl rfl separator

theorem isInert_of_isQuote {c : Char} (quote : isQuote c = true) : isInert c = false := by
  simp [isInert, quote]

/-- A word without quotes and separators is dropped from both texts or from neither. -/
theorem dropWord? {word : List Char} (inert : ∀ w ∈ word, isInert w = true)
    (exchanged : Exchanged text text') :
    Option.Rel Exchanged (Phrase.dropWord? word text) (Phrase.dropWord? word text') := by
  induction word generalizing text text' with
  | nil => exact .some exchanged
  | cons w word ih =>
      rw [List.forall_mem_cons] at inert
      cases exchanged with
      | nil => exact .none
      | separator first second more =>
          rw [dropWord?_cons_eq_none (isInert_of_separates first) inert.1,
            dropWord?_cons_eq_none (isInert_of_separates second) inert.1]
          exact .none
      | plain _ more =>
          rw [Phrase.dropWord?, Phrase.dropWord?]
          split
          · exact ih inert.2 more
          · exact .none
      | quoted isQuote =>
          rw [List.cons_append, List.cons_append,
            dropWord?_cons_eq_none (isInert_of_isQuote isQuote) inert.1,
            dropWord?_cons_eq_none (isInert_of_isQuote isQuote) inert.1]
          exact .none
      | unclosed isQuote =>
          rw [dropWord?_cons_eq_none (isInert_of_isQuote isQuote) inert.1]
          exact .none

theorem dropWords? {words : List String}
    (inert : ∀ word ∈ words, ∀ w ∈ word.toList, isInert w = true)
    (exchanged : Exchanged text text') :
    Option.Rel Exchanged (Phrase.dropWords? words text) (Phrase.dropWords? words text') := by
  induction words generalizing text text' with
  | nil => exact .some exchanged
  | cons word words ih =>
      rw [List.forall_mem_cons] at inert
      rw [Phrase.dropWords?, Phrase.dropWords?, exchanged.any_head? Phrase.isGap rfl rfl]
      split
      · have first := exchanged.dropWhile_isGap.dropWord? inert.1
        generalize Phrase.dropWord? word.toList (text.dropWhile Phrase.isGap) = found,
          Phrase.dropWord? word.toList (text'.dropWhile Phrase.isGap) = found' at first
        cases first with
        | none => exact .none
        | some more => exact ih inert.2 more
      · exact .none

/-- The characters of phrases are neither quotes nor separators. -/
theorem isInert_of_mem_all {phrase : Phrase} (known : phrase ∈ Phrase.all) :
    ∀ part ∈ phrase.parts, ∀ c ∈ part.toList, isInert c = true := by
  have inert : ∀ phrase ∈ Phrase.all, ∀ part ∈ phrase.parts,
      part.toList.all isInert = true := by decide
  exact fun part member => List.all_eq_true.mp (inert phrase known part member)

/-- A phrase is dropped from both texts or from neither. -/
theorem drop? {phrase : Phrase} (known : phrase ∈ Phrase.all) {previous previous' : Option Char}
    (alike : Alike previous previous') (exchanged : Exchanged text text') :
    Option.Rel Exchanged (phrase.drop? previous text) (phrase.drop? previous' text') := by
  have inert := isInert_of_mem_all known
  rcases phrase with ⟨⟨first, others⟩ | sign, operator⟩
  · rw [Phrase.parts, List.forall_mem_cons] at inert
    have follows : Phrase.mayFollow previous = Phrase.mayFollow previous' :=
      congrArg not (alike.any_eq (fun c => isWord c || c == '.') rfl rfl)
    rw [Phrase.drop?_of_words rfl, Phrase.drop?_of_words rfl, follows]
    split
    · have dropped : Option.Rel Exchanged
          ((Phrase.dropWord? first.toList text).bind (Phrase.dropWords? others))
          ((Phrase.dropWord? first.toList text').bind (Phrase.dropWords? others)) := by
        have isFirst := exchanged.dropWord? inert.1
        generalize Phrase.dropWord? first.toList text = found,
          Phrase.dropWord? first.toList text' = found' at isFirst
        cases isFirst with
        | none => exact .none
        | some more => exact more.dropWords? inert.2
      unfold Phrase.standing?
      generalize (Phrase.dropWord? first.toList text).bind (Phrase.dropWords? others) = found,
        (Phrase.dropWord? first.toList text').bind (Phrase.dropWords? others) = found' at dropped
      cases dropped with
      | none => exact .none
      | @some after after' more =>
          have alone := more.any_head? isWord rfl rfl
          simp only [Option.filter_some, alone]
          split
          · exact .some more
          · exact .none
    · exact .none
  · rw [Phrase.parts, List.forall_mem_singleton] at inert
    exact exchanged.dropWord? inert

/-- The same phrase is found in both texts, or none in both. -/
theorem find? {previous previous' : Option Char} (alike : Alike previous previous')
    (exchanged : Exchanged text text') :
    Option.Rel (fun found found' => found.1 = found'.1 ∧ Exchanged found.2 found'.2)
      (Phrase.find? previous text) (Phrase.find? previous' text') := by
  have dropped : ∀ phrase ∈ Phrase.all,
      Option.Rel Exchanged (phrase.drop? previous text) (phrase.drop? previous' text') :=
    fun _ known => exchanged.drop? known alike
  unfold Phrase.find?
  generalize Phrase.all = phrases at dropped
  induction phrases with
  | nil => exact .none
  | cons phrase phrases ih =>
      rw [List.forall_mem_cons] at dropped
      rcases dropped with ⟨first, others⟩
      rw [List.findSome?_cons, List.findSome?_cons]
      generalize phrase.drop? previous text = found, phrase.drop? previous' text' = found' at first
      cases first with
      | none => exact ih others
      | some more => exact .some ⟨rfl, more⟩

end Exchanged

/-! ## A pass over such texts -/

theorem dropWhile_ne_append (quote : Char) {inside : List Char} (noQuote : quote ∉ inside)
    (rest : List Char) :
    (inside ++ rest).dropWhile (· != quote) = rest.dropWhile (· != quote) := by
  refine List.dropWhile_append_of_pos fun c member => bne_iff_ne.mpr ?_
  rintro rfl
  exact noQuote member

/-- A pass over quoted text that is closed goes on behind it. -/
theorem normalizeAfter_closed {previous : Option Char} {quote : Char}
    (isQuote : isQuote quote = true) {inside : List Char} (noQuote : quote ∉ inside)
    (rest : List Char) :
    normalizeAfter previous (quote :: inside ++ quote :: rest) =
      quote :: inside ++ quote :: normalizeAfter (some quote) rest := by
  have closed : (inside ++ quote :: rest).dropWhile (· != quote) = quote :: rest := by
    rw [dropWhile_ne_append quote noQuote, List.dropWhile_cons_of_neg (by simp)]
  have taken : (inside ++ quote :: rest).takeWhile (· != quote) = inside := by
    refine takeWhile_of_stops (fun c member => bne_iff_ne.mpr ?_) (stops_cons.mpr (by simp))
    rintro rfl
    exact noQuote member
  rw [List.cons_append, normalizeAfter_quoted isQuote closed, taken]

/-- Texts that differ in their separators still do so after a pass. -/
theorem Exchanged.normalizeAfter {text text' : List Char} (exchanged : Exchanged text text')
    {previous previous' : Option Char} (alike : Alike previous previous') :
    Exchanged (normalizeAfter previous text) (normalizeAfter previous' text') := by
  -- A phrase is left behind as a whole, so the induction is on the length of the text.
  induction length : text.length using Nat.strong_induction_on
    generalizing text text' previous previous' with
  | _ n ih =>
      subst length
      have found := exchanged.find? alike
      cases exchanged with
      | nil =>
          rw [normalizeAfter_nil, normalizeAfter_nil]
          exact .nil
      | @separator c d rest rest' first second more =>
          have unfound : ∀ {previous : Option Char} {c : Char}, separates c = true → ∀ rest,
              Phrase.find? previous (c :: rest) = none := fun separator =>
            Phrase.find?_cons_eq_none (eq_false_of_separates rfl rfl separator)
              (.inr (eq_false_of_separates rfl rfl separator))
          rw [normalizeAfter_copied (eq_false_of_separates rfl rfl first) (unfound first rest),
            normalizeAfter_copied (eq_false_of_separates rfl rfl second) (unfound second rest')]
          exact .separator first second (ih _ (Nat.lt_succ_self _) more (.inr ⟨first, second⟩) rfl)
      | @plain c rest rest' plain more =>
          generalize isFound : Phrase.find? previous (c :: rest) = result,
            isFound' : Phrase.find? previous' (c :: rest') = result' at found
          cases found with
          | none =>
              rw [normalizeAfter_copied plain isFound, normalizeAfter_copied plain isFound']
              exact .plain plain (ih _ (Nat.lt_succ_self _) more (.inl rfl) rfl)
          | @some found found' same =>
              rcases found with ⟨phrase, after⟩
              rcases found' with ⟨phrase', after'⟩
              rcases same with ⟨rfl, moreAfter⟩
              have known := (Phrase.mem_of_find?_eq_some isFound).1
              have plainOperator : ∀ phrase ∈ Phrase.all,
                  phrase.operator.toList.all (fun c => !isQuote c) = true := by decide
              have noQuote := List.all_eq_true.mp (plainOperator phrase known)
              rw [normalizeAfter_replaced plain isFound, normalizeAfter_replaced plain isFound',
                alike.any_eq isWord rfl rfl,
                moreAfter.any_head? isWord rfl rfl]
              refine .append ?_ (ih _ (Phrase.length_find?_lt isFound) moreAfter (.inl rfl) rfl)
              intro d member
              simp only [List.mem_append] at member
              rcases member with (before | operator) | behind
              · split at before <;> simp_all [isQuote]
              · simpa using noQuote d operator
              · split at behind <;> simp_all [isQuote]
      | @quoted quote inside rest rest' isQuote noQuote more =>
          rw [normalizeAfter_closed isQuote noQuote, normalizeAfter_closed isQuote noQuote]
          refine .quoted isQuote noQuote (ih _ ?_ more (.inl rfl) rfl)
          simp only [List.length_append, List.length_cons]
          omega
      | @unclosed quote inside isQuote noQuote =>
          have unclosed : inside.dropWhile (· != quote) = [] := by
            simpa using dropWhile_ne_append quote noQuote []
          rw [normalizeAfter_open isQuote unclosed, normalizeAfter_open isQuote unclosed]
          exact .unclosed isQuote noQuote

/-- Replacing the phrases of two descriptors that differ in their separators leaves them so. -/
theorem exchanged_normalize {source source' : String}
    (exchanged : Exchanged source.toList source'.toList) :
    Exchanged (normalize source).toList (normalize source').toList := by
  rw [normalize, normalize, String.toList_ofList, String.toList_ofList]
  exact exchanged.normalizeAfter (.inl rfl)

end Descriptor
