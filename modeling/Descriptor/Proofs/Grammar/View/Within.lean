import Descriptor.Proofs.Grammar.View.Statement

/-!
# Errors are found at tokens that are there

No rule makes up a token.  A view that shows other tokens than those of a list on other lines shows
nothing else for the list itself, so it shows the errors of the list as they are, and their tokens
are tokens of the list.
-/

namespace Descriptor

namespace Grammar

/-- The view that shows the tokens of a list as they are, and all others one line below. -/
def View.within (known : List Token) : View where
  map token := if known.contains token then token else { token with line := token.line + 1 }
  kind_map token := by
    split <;> rfl
  close := none
  kind_close := kind_of_none
  Shows tokens tokens' := tokens' = tokens ∧ tokens ⊆ known
  nil := by
    rintro _ ⟨rfl, -⟩
    rfl
  cons := by
    rintro token rest _ ⟨rfl, inside⟩
    rcases List.cons_subset.mp inside with ⟨first, others⟩
    exact ⟨rest, by rw [if_pos (List.contains_iff_mem.mpr first)], rfl, others⟩

theorem View.skips_within (known : List Token) : (View.within known).Skips where
  close := rfl
  skip := by
    rintro tokens _ ⟨rfl, inside⟩
    exact ⟨rfl, fun token member => inside ((List.dropWhile_sublist _).subset member)⟩

/-- A token that is shown as it is belongs to the list. -/
theorem View.mem_of_map_within {known : List Token} {token : Token}
    (same : (View.within known).map token = token) : token ∈ known := by
  by_contra other
  have line := congrArg Token.line same
  simp [View.within, other] at line

/-- The error of a declaration that was dropped is at a token that was there, if it is not at the
end. -/
theorem mem_of_mem_declarationsFrom (inBlock : Bool) (room : Nat) (tokens : List Token) :
    ∀ error ∈ (declarationsFrom inBlock (declaration (expression room) (statement room)) tokens).1,
      ∀ token ∈ error.token, token ∈ tokens := by
  have skips := View.skips_within tokens
  have brackets : (View.within tokens).SkipsInBrackets := fun _ _ _ _ _ => skips
  have shows : (View.within tokens).Shows tokens tokens := ⟨rfl, List.Subset.refl tokens⟩
  rcases declarationsFrom_seen skips inBlock (declaration_seen skips
    (expression_seen brackets room) (statement_seen skips room)) shows with ⟨errors, -, -⟩
  have shown := List.map_inj_left.mp (errors.symm.trans (List.map_id _).symm)
  rintro error member token isToken
  have same := congrArg ParseError.token (shown error member)
  rw [Option.mem_def] at isToken
  simp only [View.error, id, isToken, Option.map_some, Option.some_or, Option.some.injEq] at same
  exact View.mem_of_map_within same

end Grammar

end Descriptor
