import Descriptor.Text.Word

/-!
# English operator phrases

A descriptor may spell an operator in English: `age greater than 20`.  `normalize` replaces each
phrase by the sign or keyword it stands for, and leaves all other text as it is.

A phrase made of words stands alone: no word character and no dot before it, no word character
after it.  Its words may be in any ASCII case and lie any run of spaces and tabs apart.  Quoted
text is never touched.
-/

namespace Descriptor

open Descriptor.Text

/-- How a phrase is spelled: in words, or by a sign that may touch its neighbours. -/
inductive Spelling where
  | words (first : String) (others : List String)
  | sign (text : String)
  deriving Repr, DecidableEq

/-- The characters that a phrase of this spelling begins with. -/
def Spelling.start : Spelling → List Char
  | .words first _ => first.toList
  | .sign text => text.toList

/-- A phrase and the operator it stands for. -/
structure Phrase where
  spelling : Spelling
  operator : String
  deriving Repr, DecidableEq

namespace Phrase

/-- All phrases.  One that begins with the words of another comes before it. -/
def all : List Phrase :=
  [⟨.words "greater" ["than", "or", "equal", "to"], ">="⟩,
   ⟨.words "less" ["than", "or", "equal", "to"], "<="⟩,
   ⟨.words "not" ["equal", "to"], "!=="⟩,
   ⟨.words "equal" ["to"], "==="⟩,
   ⟨.words "greater" ["than"], ">"⟩,
   ⟨.words "less" ["than"], "<"⟩,
   ⟨.words "the" ["string"], "toString"⟩,
   ⟨.words "the" ["boolean"], "toBool"⟩,
   ⟨.words "plus" [], "+"⟩,
   ⟨.words "minus" [], "-"⟩,
   ⟨.words "multiply" [], "*"⟩,
   ⟨.words "divide" [], "/"⟩,
   ⟨.sign "||", "or"⟩,
   ⟨.sign "&&", "and"⟩]

/-- The blanks that may stand between two words of a phrase. -/
def isGap (c : Char) : Bool :=
  c == ' ' || c == '\t'

/-! ## Finding a phrase -/

/-- The text after `word`, if it begins with `word` in any ASCII case.  The word is given in
lower case. -/
def dropWord? : (word text : List Char) → Option (List Char)
  | [], text => some text
  | _ :: _, [] => none
  | w :: word, c :: text => if c.toLower == w then dropWord? word text else none

/-- The text after all of `words`, each with a run of gaps before it. -/
def dropWords? : (words : List String) → (text : List Char) → Option (List Char)
  | [], text => some text
  | word :: words, text =>
      if text.head?.any isGap then
        (dropWord? word.toList (text.dropWhile isGap)).bind (dropWords? words)
      else
        none

/-- Whether words may begin after the character `previous`: `person.plus` names a property and
`surplus` a variable. -/
def mayFollow (previous : Option Char) : Bool :=
  !previous.any fun c => isWord c || c == '.'

/-- The text after the phrase, if it begins with it and stands alone in it. -/
def drop? (phrase : Phrase) (previous : Option Char) (text : List Char) :
    Option (List Char) :=
  match phrase.spelling with
  | .sign sign => dropWord? sign.toList text
  | .words first others =>
      if mayFollow previous then
        ((dropWord? first.toList text).bind (dropWords? others)).filter fun after =>
          !after.head?.any isWord
      else
        none

/-- The first phrase of the table that the text begins with, and the text after it. -/
def find? (previous : Option Char) (text : List Char) : Option (Phrase × List Char) :=
  all.findSome? fun phrase => (phrase.drop? previous text).map (phrase, ·)

/-- Phrases that stand for a keyword need word boundaries on both sides of it. -/
def isKeyword (phrase : Phrase) : Bool :=
  phrase.operator.toList.head?.any Char.isAlpha

/-! ## What is left is shorter -/

theorem length_dropWord? {word text after : List Char}
    (found : dropWord? word text = some after) :
    text.length = word.length + after.length := by
  induction word generalizing text with
  | nil => simp_all [dropWord?]
  | cons w word ih =>
      cases text with
      | nil => simp [dropWord?] at found
      | cons c text =>
          simp only [dropWord?] at found
          split at found
          · simp [ih found]; omega
          · simp at found

theorem length_dropWords?_le {words : List String} {text after : List Char}
    (found : dropWords? words text = some after) : after.length ≤ text.length := by
  induction words generalizing text with
  | nil => simp_all [dropWords?]
  | cons word words ih =>
      simp only [dropWords?] at found
      split at found
      · obtain ⟨rest, first, others⟩ := Option.bind_eq_some_iff.mp found
        have := ih others
        have := length_dropWord? first
        have := (List.dropWhile_sublist (l := text) isGap).length_le
        omega
      · simp at found

theorem length_drop?_lt {phrase : Phrase} (known : phrase ∈ all) {previous : Option Char}
    {text after : List Char} (found : phrase.drop? previous text = some after) :
    after.length < text.length := by
  have nonempty : ∀ phrase ∈ all, 0 < phrase.spelling.start.length := by decide
  replace nonempty := nonempty phrase known
  unfold drop? at found
  split at found <;> rename_i spelled <;> rw [spelled, Spelling.start] at nonempty
  · have := length_dropWord? found
    omega
  · split at found
    · obtain ⟨found, -⟩ := Option.filter_eq_some_iff.mp found
      obtain ⟨rest, first, others⟩ := Option.bind_eq_some_iff.mp found
      have := length_dropWord? first
      have := length_dropWords?_le others
      omega
    · simp at found

theorem length_find?_lt {previous : Option Char} {text after : List Char} {phrase : Phrase}
    (found : find? previous text = some (phrase, after)) : after.length < text.length := by
  obtain ⟨candidate, known, dropped⟩ := List.exists_of_findSome?_eq_some found
  obtain ⟨rest, dropped, same⟩ := Option.map_eq_some_iff.mp dropped
  cases same
  exact length_drop?_lt known dropped

end Phrase

/-! ## Replacing all phrases -/

/-- The two characters that open and close quoted text. -/
def isQuote (c : Char) : Bool :=
  c == '"' || c == '\''

/-- `text` with its phrases replaced, where `previous` is the character already written before
it.  A keyword is kept apart from the word characters on both sides by a space, which does not
count as the previous character. -/
def normalizeAfter (previous : Option Char) (text : List Char) : List Char :=
  match text with
  | [] => []
  | c :: rest =>
      if isQuote c then
        match _closed : rest.dropWhile (· != c) with
        | [] => c :: rest
        | _ :: after => c :: rest.takeWhile (· != c) ++ c :: normalizeAfter (some c) after
      else
        match _found : Phrase.find? previous (c :: rest) with
        | none => c :: normalizeAfter (some c) rest
        | some (phrase, after) =>
            let operator := phrase.operator.toList
            let before := if phrase.isKeyword && previous.any isWord then [' '] else []
            let behind := if phrase.isKeyword && after.head?.any isWord then [' '] else []
            before ++ operator ++ behind ++ normalizeAfter operator.getLast? after
termination_by text.length
decreasing_by
  · have := (List.dropWhile_sublist (l := rest) (· != c)).length_le
    simp only [_closed, List.length_cons] at this ⊢
    omega
  · simp
  · exact Phrase.length_find?_lt _found

/-- The descriptor with every operator phrase replaced. -/
def normalize (source : String) : String :=
  .ofList (normalizeAfter none source.toList)

end Descriptor
