import Descriptor.Proofs.Exchange.Text

/-!
# The tokens of a text with other separators

A piece that is neither quoted nor a separator ends where the next character does not belong to
it, and the two separators belong to no such piece.  So texts that differ in their separators are
cut at the same places, `alike_pieces`, and their tokens have the same shapes, `shape_scan`.
-/

namespace Descriptor

open Descriptor.Piece

/-! ## The same piece in front of another text -/

namespace Piece

/-- What does not go on with a number does not do so with another separator next. -/
theorem fraction_eq_nil {text text' : List Char} (exchanged : Exchanged text text')
    (missing : (fraction text).1 = []) : (fraction text').1 = [] := by
  cases dot : text.head?.any (· == '.') with
  | false =>
      rw [exchanged.any_head? _ rfl rfl] at dot
      rw [fraction_of_stops dot]
  | true =>
      cases text with
      | nil => contradiction
      | cons c rest =>
          rw [List.head?_cons, Option.any_some, beq_iff_eq] at dot
          subst dot
          have inert : ∀ c ∈ ['.'], isInert c = true := List.forall_mem_singleton.mpr rfl
          rcases exchanged.exists_of_append inert with ⟨rest', rfl, more⟩
          rw [List.singleton_append]
          unfold fraction at missing ⊢
          have noDigit : rest.head?.any Char.isDigit = false := by
            cases digit : rest.head?.any Char.isDigit with
            | false => rfl
            | true => simp [digit] at missing
          rw [more.any_head? _ rfl rfl] at noDigit
          simp [noDigit]

/-- A piece without quotes that is no separator is cut as well with other separators behind it. -/
theorem Cut.exchanged {piece : Piece} {rest rest' : List Char} (cut : Cut piece rest)
    (noMark : piece.isMark = false) (exchanged : Exchanged rest rest') : Cut piece rest' := by
  have stops : ∀ {belongs : Char → Bool}, belongs ';' = false → belongs '\n' = false →
      Stops belongs rest → Stops belongs rest' := by
    intro belongs semicolon newline stops
    rwa [Stops, ← exchanged.any_head? _ semicolon newline]
  cases cut with
  | sign found => exact .sign (sign?_of_stops found (stops rfl rfl))
  | blank space => exact .blank space
  | number digits fraction stopsName stopsDot =>
      refine .number digits fraction (stops rfl rfl stopsName) ?_
      unfold StopsNumber at stopsDot ⊢
      split
      · rename_i missing
        rw [if_pos missing] at stopsDot
        exact fraction_eq_nil exchanged stopsDot
      · rename_i present
        rw [if_neg present] at stopsDot
        exact stops rfl rfl stopsDot
  | dotted digits fraction nonempty dot belongs stopsDotted =>
      exact .dotted digits fraction nonempty dot belongs (stops rfl rfl stopsDotted)
  | lettered digits fraction letter belongs stopsName =>
      exact .lettered digits fraction letter belongs (stops rfl rfl stopsName)
  | name starts belongs stopsName => exact .name starts belongs (stops rfl rfl stopsName)
  | unknown noToken noSpace => exact .unknown noToken noSpace
  | separator | closed | unclosed => contradiction

/-! ## All pieces -/

/-- Whether two pieces are the same or both separators. -/
inductive Alike : Piece → Piece → Prop where
  | same (piece : Piece) : Alike piece piece
  | separator {c d : Char} (first : separates c = true) (second : separates d = true) :
      Alike (good .separator [c]) (good .separator [d])

end Piece

/-- Texts that differ in their separators have pieces that differ in their separators. -/
theorem alike_pieces {text text' : List Char} (exchanged : Exchanged text text') :
    List.Forall₂ Piece.Alike (pieces text) (pieces text') := by
  -- A piece is left behind as a whole, so the induction is on the length of the text.
  induction length : text.length using Nat.strong_induction_on generalizing text text' with
  | _ n ih =>
      subst length
      have separator : ∀ {c d : Char} {rest rest' : List Char}, separates c = true →
          separates d = true → List.Forall₂ Piece.Alike (pieces rest) (pieces rest') →
            List.Forall₂ Piece.Alike (pieces (c :: rest)) (pieces (d :: rest')) := by
        intro c d rest rest' first second more
        rw [pieces, pieces, first_of_separator (separates_iff.mp first),
          first_of_separator (separates_iff.mp second)]
        exact .cons (.separator first second) more
      cases exchanged with
      | nil => exact List.forall₂_same.mpr fun piece _ => .same piece
      | separator first second more =>
          exact separator first second (ih _ (Nat.lt_succ_self _) more rfl)
      | @plain c rest rest' plain more =>
          cases isSeparator : separates c with
          | true => exact separator isSeparator isSeparator (ih _ (Nat.lt_succ_self _) more rfl)
          | false =>
              have inert := isInert_of_not_separates plain isSeparator
              have cut := cut_first c rest
              have whole := append_first c rest
              have shorter := length_first_lt c rest
              generalize first c rest = parts at cut whole shorter
              rcases parts with ⟨piece, behind⟩
              rcases cut.marked_or_inert with ⟨-, noInert⟩ | ⟨noMark, allInert⟩
              · cases lexeme : piece.lexeme with
                | nil => exact absurd lexeme cut.lexeme_ne_nil
                | cons d used =>
                    rw [lexeme, List.cons_append, List.cons.injEq] at whole
                    rw [lexeme, List.head?_cons, Option.any_some, whole.1, inert] at noInert
                    contradiction
              · have exchanged : Exchanged (piece.lexeme ++ behind) (c :: rest') := by
                  rw [whole]
                  exact .plain plain more
                rcases exchanged.exists_of_append allInert with ⟨behind', whole', moreBehind⟩
                rw [← whole, whole', cut.pieces_eq,
                  (cut.exchanged noMark moreBehind).pieces_eq]
                exact .cons (.same piece) (ih _ shorter moreBehind rfl)
      | @quoted quote inside rest rest' isQuote noQuote more =>
          have cut : ∀ rest, Cut (good (.string (.ofList inside)) (quote :: inside ++ [quote]))
              rest := fun rest => .closed (isQuote_iff.mp isQuote) noQuote
          have pieces_eq := fun rest => (cut rest).pieces_eq
          simp only [good, List.append_assoc, List.singleton_append] at pieces_eq
          rw [pieces_eq, pieces_eq]
          refine .cons (.same _) (ih _ ?_ more rfl)
          simp only [List.length_append, List.length_cons]
          omega
      | unclosed => exact List.forall₂_same.mpr fun piece _ => .same piece

/-! ## All tokens -/

/-- The token without its line and, if it is a separator, without its text. -/
def Token.shape (token : Token) : Token :=
  ⟨token.kind, if token.isSeparator then "" else token.lexeme, 0⟩

/-- Pieces that differ in their separators have tokens of the same shapes and the same faults,
whatever lines they begin on. -/
theorem shape_tokensFrom {pieces pieces' : List Piece}
    (alike : List.Forall₂ Piece.Alike pieces pieces') (line line' : Nat) :
    (tokensFrom line pieces).map Token.shape = (tokensFrom line' pieces').map Token.shape ∧
      (errorsFrom line pieces).map CompileError.fault =
        (errorsFrom line' pieces').map CompileError.fault := by
  induction alike generalizing line line' with
  | nil => exact ⟨rfl, rfl⟩
  | @cons piece piece' pieces pieces' first others ih =>
      rcases ih (line + piece.newlines) (line' + piece'.newlines) with ⟨tokens, errors⟩
      simp only [tokensFrom, errorsFrom, List.map_append, tokens, errors]
      cases first with
      | same piece => rcases piece with ⟨_ | _ | ⟨_, _ | _⟩, _⟩ <;> exact ⟨rfl, rfl⟩
      | separator => exact ⟨rfl, rfl⟩

/-- Descriptors that differ in their separators have tokens of the same shapes and the same scan
faults. -/
theorem shape_scan {source source' : String}
    (exchanged : Exchanged source.toList source'.toList) :
    (scan source).1.map Token.shape = (scan source').1.map Token.shape ∧
      (scan source).2.map CompileError.fault = (scan source').2.map CompileError.fault :=
  shape_tokensFrom (alike_pieces exchanged) 1 1

end Descriptor
