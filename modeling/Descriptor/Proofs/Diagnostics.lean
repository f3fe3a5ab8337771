import Descriptor.Compiled
import Descriptor.Proofs.Cursor.Program
import Descriptor.Proofs.Scanning.Coverage

/-!
# Diagnostics

The errors of a source are those of its pieces and behind them those of its declarations.  Both
lists go down the text.  The errors of the declarations stand at tokens, and there is one of them
for each declaration that was tried and dropped.
-/

namespace Descriptor

open Cursor Grammar

/-! ## Lines of tokens -/

/-- The parts of a text lie on the lines of the text, one behind the other. -/
theorem lines_partsFrom (line : Nat) (pieces : List Piece) :
    (partsFrom line pieces).Pairwise (·.line ≤ ·.line) ∧
      ∀ part ∈ partsFrom line pieces, line ≤ part.line ∧
        part.line ≤ line + (pieces.flatMap Piece.lexeme).count '\n' := by
  induction pieces generalizing line with
  | nil => exact ⟨.nil, List.forall_mem_nil _⟩
  | cons piece pieces ih =>
      rcases ih (line + piece.newlines) with ⟨sorted, within⟩
      rw [partsFrom, List.pairwise_cons, List.forall_mem_cons, Piece.line_toPart,
        List.flatMap_cons, List.count_append, ← Piece.newlines]
      refine ⟨⟨fun part member => ?_, sorted⟩, ⟨Nat.le_refl _, Nat.le_add_right _ _⟩,
        fun part member => ?_⟩
      · have := within part member
        omega
      · have := within part member
        omega

namespace Part

theorem line_of_mem_token? {part : Part} {token : Token} (isToken : part.token? = some token) :
    token.line = part.line := by
  rcases Option.map_eq_some_iff.mp isToken with ⟨kind, -, rfl⟩
  rfl

/-- Errors of parts are errors of scanning. -/
theorem line_of_mem_error? {part : Part} {error : CompileError}
    (isError : part.error? = some error) :
    error.line = part.line ∧ ∃ fault, error.fault = .scan fault := by
  rcases Option.map_eq_some_iff.mp isError with ⟨fault, -, rfl⟩
  exact ⟨rfl, fault, rfl⟩

/-- No part of a text is the end of it. -/
theorem Legal.kind?_ne {part : Part} {behind : List Part} (legal : part.Legal behind) :
    part.kind? ≠ some .endOfText := by
  cases legal with
  | other nonempty noNumber noString noEnd => simpa using noEnd
  | _ => nofun

end Part

/-- The tokens of a text in front of its end. -/
def tokensBeforeEnd (source : String) : List Token :=
  (partsFrom 1 (pieces source.toList)).filterMap Part.token?

theorem scan_fst (source : String) :
    (scan source).1 = tokensBeforeEnd source ++ [⟨.endOfText, "", lineAfter source.toList⟩] := by
  rw [scan, tokensFrom_eq, flatMap_lexeme_pieces]
  rfl

theorem isEnd_of_mem_tokensBeforeEnd {source : String} :
    ∀ token ∈ tokensBeforeEnd source, token.isEnd = false := by
  intro token member
  rcases List.mem_filterMap.mp member with ⟨part, isPart, isToken⟩
  rcases List.append_of_mem isPart with ⟨before, behind, split⟩
  have noEnd := (legal_partsFrom 1 source.toList split).2.kind?_ne
  rcases Option.map_eq_some_iff.mp isToken with ⟨kind, isKind, rfl⟩
  rw [isKind] at noEnd
  simpa [Token.isEnd] using noEnd

/-- The tokens that are read are those before the end, and the end is the one of the text. -/
theorem readTokens_scan (source : String) :
    readTokens (scan source).1 = tokensBeforeEnd source ∧
      closingToken (scan source).1 = ⟨.endOfText, "", lineAfter source.toList⟩ ∧
      closed (scan source).1 = (scan source).1 := by
  rw [scan_fst]
  refine ⟨?_, ?_, ?_⟩
  · rw [readTokens_append isEnd_of_mem_tokensBeforeEnd]
    exact List.append_nil _
  · rw [closingToken_append isEnd_of_mem_tokensBeforeEnd (List.cons_ne_nil _ _)]
    rfl
  · rw [closed, List.getLast?_concat]
    rfl

/-- Diagnostics that go down a text of the given number of lines. -/
structure GoDown (errors : List CompileError) (lines : Nat) : Prop where
  sorted : errors.Pairwise (·.line ≤ ·.line)
  within : ∀ error ∈ errors, 1 ≤ error.line ∧ error.line ≤ lines

/-- The lines of tokens do not decrease. -/
theorem lines_scan (source : String) :
    (scan source).1.Pairwise (·.line ≤ ·.line) ∧
      ∀ token ∈ (scan source).1, 1 ≤ token.line ∧ token.line ≤ lineAfter source.toList := by
  have parts := lines_partsFrom 1 (pieces source.toList)
  rw [flatMap_lexeme_pieces, ← lineAfter] at parts
  rcases parts with ⟨sorted, within⟩
  have tokensWithin : ∀ token ∈ tokensBeforeEnd source,
      1 ≤ token.line ∧ token.line ≤ lineAfter source.toList := by
    intro token member
    rcases List.mem_filterMap.mp member with ⟨part, isPart, isToken⟩
    rw [Part.line_of_mem_token? isToken]
    exact within part isPart
  have tokensSorted : (tokensBeforeEnd source).Pairwise (·.line ≤ ·.line) := by
    refine sorted.filterMap Part.token? fun part part' below token isToken token' isToken' => ?_
    rw [Part.line_of_mem_token? isToken, Part.line_of_mem_token? isToken']
    exact below
  rw [scan_fst]
  constructor
  · refine List.pairwise_append.mpr ⟨tokensSorted, List.pairwise_singleton _ _, ?_⟩
    intro token member last isLast
    rw [List.mem_singleton.mp isLast]
    exact (tokensWithin token member).2
  · rw [List.forall_mem_append, List.forall_mem_singleton]
    exact ⟨tokensWithin, Nat.le_add_right _ _, Nat.le_refl _⟩

theorem goDown_scan (source : String) :
    GoDown (scan source).2 (lineAfter source.toList) ∧
      ∀ error ∈ (scan source).2, ∃ fault, error.fault = .scan fault := by
  have parts := lines_partsFrom 1 (pieces source.toList)
  rw [flatMap_lexeme_pieces, ← lineAfter] at parts
  rcases parts with ⟨sorted, within⟩
  rw [scan, errorsFrom_eq]
  refine ⟨⟨?_, ?_⟩, ?_⟩
  · refine sorted.filterMap Part.error? fun part part' below error isError error' isError' => ?_
    rw [(Part.line_of_mem_error? isError).1, (Part.line_of_mem_error? isError').1]
    exact below
  · intro error member
    rcases List.mem_filterMap.mp member with ⟨part, isPart, isError⟩
    rw [(Part.line_of_mem_error? isError).1]
    exact within part isPart
  · intro error member
    rcases List.mem_filterMap.mp member with ⟨part, -, isError⟩
    exact (Part.line_of_mem_error? isError).2

/-! ## Errors of declarations -/

namespace Cursor

variable {tokens rest : List Token} {errors : List ParseError} {close : Token}

/-- What a list begins with is no later than anything in it. -/
theorem first_line_le {place : List Token} (down : (place ++ [close]).Pairwise (·.line ≤ ·.line)) :
    ∀ token ∈ place ++ [close], (place.head?.getD close).line ≤ token.line := by
  cases place with
  | nil =>
      intro token member
      rw [List.mem_singleton.mp member]
      rfl
  | cons first place =>
      rw [List.cons_append, List.pairwise_cons] at down
      rw [List.cons_append, List.forall_mem_cons]
      exact ⟨Nat.le_refl _, down.1⟩

theorem suffix_concat_close (close : Token) {place : List Token} (ahead : place <:+ tokens) :
    place ++ [close] <:+ tokens ++ [close] := by
  rcases ahead with ⟨used, rfl⟩
  exact ⟨used, (List.append_assoc used place [close]).symm⟩

/-- Errors on the way are reported at tokens of the way or at its end. -/
theorem InPlace.at_token (inPlace : InPlace tokens errors rest) :
    ∀ error ∈ errors, ∃ token ∈ tokens ++ [close],
      (error.report close).line = token.line ∧ (error.report close).text = token.lexeme := by
  induction inPlace with
  | nil forward => exact List.forall_mem_nil _
  | @cons tokens place rest error errors isAt ahead others ih =>
      have within := (suffix_concat_close close ahead).subset
      rw [List.forall_mem_cons]
      constructor
      · refine ⟨place.head?.getD close, within ?_, ?_⟩
        · cases place <;> simp
        · rw [ParseError.report, ← isAt]
          exact ⟨rfl, rfl⟩
      · intro error member
        rcases ih error member with ⟨token, isToken, same⟩
        exact ⟨token, within isToken, same⟩

/-- Errors on the way are reported one behind the other. -/
theorem InPlace.sorted (inPlace : InPlace tokens errors rest)
    (down : (tokens ++ [close]).Pairwise (·.line ≤ ·.line)) :
    (errors.map (·.report close)).Pairwise (·.line ≤ ·.line) := by
  induction inPlace with
  | nil forward => exact .nil
  | @cons tokens place rest error errors isAt ahead others ih =>
      have downPlace := down.sublist (suffix_concat_close close ahead).sublist
      have line : (error.report close).line = (place.head?.getD close).line := by
        rw [ParseError.report, ← isAt]
      rw [List.map_cons, List.pairwise_cons]
      refine ⟨fun later member => ?_, ih downPlace⟩
      rcases List.mem_map.mp member with ⟨other, isOther, rfl⟩
      rcases others.at_token other isOther with ⟨token, isToken, sameLine, -⟩
      rw [line, sameLine]
      exact first_line_le downPlace token isToken

/-- The tokens at which declarations were tried are different tokens of the text. -/
theorem Logged.starts_lt {site : Site} {low : Nat} {attempts : List Attempt}
    (logged : Logged site low tokens errors attempts rest) (isFront : site.front = []) :
    ∀ attempt ∈ attempts, attempt.start < site.text.length := by
  intro attempt member
  rcases logged.consumes attempt member with ⟨consumes, stops⟩
  rw [Site.index, isFront, List.length_nil] at stops
  omega

/-- There are no more declarations than tokens that they could begin with. -/
theorem length_le_of_starts {attempts : List Attempt} {count : Nat}
    (nodup : (attempts.map Attempt.start).Nodup)
    (starts : ∀ attempt ∈ attempts, attempt.start < count) : attempts.length ≤ count := by
  have within : attempts.map Attempt.start ⊆ List.range count := by
    intro start member
    rcases List.mem_map.mp member with ⟨attempt, isAttempt, rfl⟩
    exact List.mem_range.mpr (starts attempt isAttempt)
  have fewer := (List.subperm_of_subset nodup within).length_le
  rwa [List.length_map, List.length_range] at fewer

end Cursor

/-- Diagnostics are complete, in order and in place.  The errors of scanning come first and those
of parsing behind them, and both go down the text.  An error of parsing stands at a token.  Read
with a cursor behind the scan, the declarations that were tried began at different tokens in front
of the end, and the errors of parsing are those of the declarations that were dropped, each of them
once. -/
theorem diagnostics_in_place (source : String) :
    ∃ (parsed : List CompileError) (registers : Registers),
      (parseSource source).2 = (scan source).2 ++ parsed ∧
      (∀ error ∈ (scan source).2, ∃ fault, error.fault = .scan fault) ∧
      (∀ error ∈ parsed, ∃ fault, error.fault = .parse fault) ∧
      GoDown (scan source).2 (lineAfter source.toList) ∧
      GoDown parsed (lineAfter source.toList) ∧
      (∀ error ∈ parsed, ∃ token ∈ (scan source).1,
        error.line = token.line ∧ error.text = token.lexeme) ∧
      (program (rulesWithin (nestingLimit + 1))).run
          ⟨(scan source).1.toArray, (scan source).1.length⟩ { errors := (scan source).2 } =
        .ok (.ok (parseSource source).1, registers) ∧
      registers.errors = (parseSource source).2 ∧
      parsed = registers.attempts.filterMap Attempt.error? ∧
      (registers.attempts.map Attempt.start).Nodup ∧
      (∀ attempt ∈ registers.attempts, attempt.start < (tokensBeforeEnd source).length) ∧
      parsed.length = registers.attempts.countP (·.error?.isSome) ∧
      parsed.length ≤ (tokensBeforeEnd source).length := by
  rcases readTokens_scan source with ⟨read, closing, isClosed⟩
  have enoughTurns : (closed (scan source).1).length ≤ (scan source).1.length := by rw [isClosed]
  rcases run_program enoughTurns (Nat.lt_succ_self nestingLimit) (scan source).2 with
    ⟨site, attempts, rest, -, isFront, isText, isClose, logged, ran⟩
  rw [isClosed] at ran
  rw [read] at isText logged
  rw [closing] at isClose
  have errors_eq := logged.errors_eq
  rw [isClose] at errors_eq
  have parsed_eq : (parse (scan source).1).2 = attempts.filterMap Attempt.error? := by
    rw [parse_eq, closing, errors_eq]
  have tokens_eq := scan_fst source
  rcases lines_scan source with ⟨down, within⟩
  have atToken : ∀ error ∈ (parse (scan source).1).2, ∃ token ∈ (scan source).1,
      error.line = token.line ∧ error.text = token.lexeme := by
    rw [parse_eq, closing, List.forall_mem_map]
    intro error member
    rcases logged.inPlace.at_token error member with ⟨token, isToken, same⟩
    exact ⟨token, tokens_eq ▸ isToken, same⟩
  have starts : ∀ attempt ∈ attempts, attempt.start < (tokensBeforeEnd source).length :=
    isText ▸ logged.starts_lt isFront
  refine ⟨(parse (scan source).1).2, _, rfl, (goDown_scan source).2, ?_, (goDown_scan source).1,
    ⟨?_, ?_⟩, atToken, ran, ?_, parsed_eq, logged.nodup, starts, ?_, ?_⟩
  · rw [parse_eq, List.forall_mem_map]
    exact fun error member => ⟨error.fault, rfl⟩
  · rw [parse_eq, closing]
    exact logged.inPlace.sorted (tokens_eq ▸ down)
  · intro error member
    rcases atToken error member with ⟨token, isToken, sameLine, -⟩
    rw [sameLine]
    exact within token isToken
  · rw [parseSource, parsed_eq]
    rfl
  · rw [parsed_eq, List.length_filterMap_eq_countP]
    rfl
  · rw [parsed_eq]
    exact (List.length_filterMap_le _ _).trans (length_le_of_starts logged.nodup starts)

end Descriptor
