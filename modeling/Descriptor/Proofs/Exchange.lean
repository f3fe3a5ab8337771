import Descriptor.Proofs.Agreement
import Descriptor.Proofs.Exchange.Scan
import Descriptor.Proofs.Exchange.Tree
import Descriptor.Proofs.Grammar.Reading.Statement
import Descriptor.Proofs.History

/-!
# Newlines, semicolons and lines mean nothing

Descriptors that differ in their separators, where these are not quoted, have tokens of the same
kinds and, separators apart, of the same texts.  So they are read as the same trees up to the lines
of their tokens, with the same faults, and their programs do the same.
-/

namespace Descriptor

/-! ## Programs up to lines -/

/-- The token on no line. -/
def Token.unplaced (token : Token) : Token :=
  { token with line := 0 }

/-- The error on no line. -/
def RuntimeError.unplaced (error : RuntimeError) : RuntimeError :=
  error.mapToken Token.unplaced

theorem sameOnWords_shape : SameOnWords Token.shape Token.unplaced := by
  intro token other
  simp [Token.shape, Token.unplaced, Token.isSeparator, other]

/-- What is read from tokens is the same up to lines where their shapes are. -/
theorem parse_of_shape {tokens tokens' : List Token}
    (shapes : tokens.map Token.shape = tokens'.map Token.shape) :
    mapBody Token.unplaced (parse tokens).1 = mapBody Token.unplaced (parse tokens').1 ∧
      (parse tokens).2.map CompileError.fault = (parse tokens').2.map CompileError.fault := by
  have kinds : ∀ token : Token, token.shape.kind = token.kind := fun _ => rfl
  rcases parse_map kinds tokens with ⟨trees, faults⟩
  rcases parse_map kinds tokens' with ⟨trees', faults'⟩
  rw [← shapes] at trees' faults'
  rw [← mapBody_eq_map] at trees trees'
  constructor
  · rw [← mapBody_congr sameOnWords_shape _ (parse_sound tokens).2.2,
      ← mapBody_congr sameOnWords_shape _ (parse_sound tokens').2.2]
    exact trees.symm.trans trees'
  · exact faults.symm.trans faults'

/-- Descriptors that differ in their separators are read as the same trees up to lines, with the
same faults. -/
theorem parseSource_of_exchanged {source source' : String}
    (exchanged : Exchanged source.toList source'.toList) :
    mapBody Token.unplaced (parseSource source).1 = mapBody Token.unplaced (parseSource source').1 ∧
      (parseSource source).2.map CompileError.fault =
        (parseSource source').2.map CompileError.fault := by
  rcases shape_scan exchanged with ⟨shapes, scanFaults⟩
  rcases parse_of_shape shapes with ⟨trees, parseFaults⟩
  simp only [parseSource, List.map_append]
  exact ⟨trees, by rw [scanFaults, parseFaults]⟩

/-- Programs that are the same up to lines do the same, up to the lines of the errors. -/
theorem evaluate_of_unplaced {program program' : List Stmt}
    (same : mapBody Token.unplaced program = mapBody Token.unplaced program') (state : State) :
    (evaluate program state).1 = (evaluate program' state).1 ∧
      (evaluate program state).2.heap = (evaluate program' state).2.heap ∧
        (evaluate program state).2.errors.map RuntimeError.unplaced =
          (evaluate program' state).2.errors.map RuntimeError.unplaced := by
  have lexemes : ∀ token : Token, token.unplaced.lexeme = token.lexeme := fun _ => rfl
  have alike : state.Alike Token.unplaced 0
      { state with errors := state.errors.map (RuntimeError.mapToken Token.unplaced) } :=
    ⟨rfl, .outside (.refl _), rfl⟩
  rcases evaluate_alike lexemes program alike with ⟨values, heaps, _, errors⟩
  rcases evaluate_alike lexemes program' alike with ⟨values', heaps', _, errors'⟩
  rw [same] at values heaps errors
  exact ⟨values.trans values'.symm, heaps.trans heaps'.symm, errors.trans errors'.symm⟩

/-! ## Calls -/

/-- Descriptors that differ in their separators have the same faults, and calls of them in one heap
do the same, up to the lines of the errors. -/
theorem call_of_exchanged {source source' : String}
    (exchanged : Exchanged source.toList source'.toList) (options : Options)
    (arguments : List Value) (heap : Heap) :
    (compile source options).errors.map CompileError.fault =
        (compile source' options).errors.map CompileError.fault ∧
      ((compile source options).call arguments heap).1.value =
        ((compile source' options).call arguments heap).1.value ∧
      ((compile source options).call arguments heap).2 =
        ((compile source' options).call arguments heap).2 ∧
      ((compile source options).call arguments heap).1.errors.map RuntimeError.unplaced =
        ((compile source' options).call arguments heap).1.errors.map RuntimeError.unplaced := by
  rcases parseSource_of_exchanged (exchanged_normalize exchanged) with ⟨trees, faults⟩
  simp only [compile, Compiled.errors, Compiled.call, Compiled.scope]
  generalize parseSource (normalize source) = parsed,
    parseSource (normalize source') = parsed' at trees faults
  rcases parsed with ⟨program, _ | ⟨error, errors⟩⟩ <;>
    rcases parsed' with ⟨program', _ | ⟨error', errors'⟩⟩
  · rcases evaluate_of_unplaced trees ⟨heap, _, #[]⟩ with ⟨values, heaps, runtimeErrors⟩
    refine ⟨rfl, values, heaps, ?_⟩
    simpa using congrArg Array.toList runtimeErrors
  · simp at faults
  · simp at faults
  · exact ⟨faults, rfl, rfl, rfl⟩

section Renamed

variable {options options' : Options} {R : Renaming} {arguments arguments' : List Value}
  {heap heap' : Heap}

/-- Calls of a descriptor, with or without a program, that are given the same up to the identity of
containers. -/
theorem call_compile_parallel (source : String)
    (parameters : options'.parameters = options.parameters)
    (globals : List.Forall₂ (EntrySame R) options.globals options'.globals)
    (fallback : options.fallback.Same R options'.fallback)
    (same : List.Forall₂ (Value.Same R) arguments arguments') (heaps : heap.Same R heap') :
    ((compile source options).call arguments heap).1.errors =
        ((compile source options').call arguments' heap').1.errors ∧
      ∃ S, R ≤ S ∧ ((compile source options).call arguments heap).2.Same S
          ((compile source options').call arguments' heap').2 ∧
        ((compile source options).call arguments heap).1.value.Same S
          ((compile source options').call arguments' heap').1.value := by
  have frames : (compile source options).globals.Same R (compile source options').globals :=
    ⟨Record.same_ofList globals, rfl⟩
  have programs : (compile source options').program = (compile source options).program := rfl
  cases isProgram : (compile source options).program with
  | ok program =>
      rw [isProgram] at programs
      rcases Compiled.call_parallel isProgram programs parameters.symm frames same heaps with
        ⟨S, le, after, values, errors⟩
      exact ⟨errors, S, le, after, values⟩
  | error faults =>
      rw [isProgram] at programs
      simp only [Compiled.call, isProgram, programs]
      exact ⟨trivial, R, le_rfl, heaps, fallback⟩

/-- Newlines and semicolons mean the same, and lines mean nothing.  Where separators outside of
quotes are exchanged, a descriptor has the same compile faults in the same order.  Called with
arguments that are the same up to the identity of containers, it gives the same value up to that
identity, does the same to the heap and has the same runtime errors but for their lines. -/
theorem call_exchange (source : String) (chosen : Nat → Bool)
    (parameters : options'.parameters = options.parameters)
    (globals : List.Forall₂ (EntrySame R) options.globals options'.globals)
    (fallback : options.fallback.Same R options'.fallback)
    (same : List.Forall₂ (Value.Same R) arguments arguments') (heaps : heap.Same R heap') :
    let built := compile source options
    let built' := compile (exchange chosen source) options'
    built.errors.map CompileError.fault = built'.errors.map CompileError.fault ∧
      (built.call arguments heap).1.errors.map RuntimeError.unplaced =
        (built'.call arguments' heap').1.errors.map RuntimeError.unplaced ∧
      ∃ S, R ≤ S ∧ (built.call arguments heap).2.Same S (built'.call arguments' heap').2 ∧
        (built.call arguments heap).1.value.Same S (built'.call arguments' heap').1.value := by
  intro built built'
  rcases call_of_exchanged (exchanged_exchange chosen source) options arguments heap with
    ⟨faults, values, after, errors⟩
  rcases call_compile_parallel (exchange chosen source) parameters globals fallback same heaps with
    ⟨errors', parallel⟩
  rw [values, after]
  exact ⟨faults, errors.trans (congrArg _ errors'), parallel⟩

end Renamed

/-- The last semicolon and the last newline are exchanged, but not those in the string.  What is
undefined stands on another line then.  The array lies elsewhere in the second heap. -/
theorem call_exchange_two_lines :
    let source := "let b = a; b[0] = '; \n';\nc"
    let chosen : Nat → Bool := fun place => 10 ≤ place
    let options : Options := { parameters := ["a"] }
    let heap : Heap := ⟨#[.array [.null]]⟩
    let heap' : Heap := ⟨#[.array [], .array [.null]]⟩
    let built := compile source options
    let built' := compile (exchange chosen source) options
    exchange chosen source = "let b = a; b[0] = '; \n'\n;c" ∧
      built.errors.map CompileError.fault = built'.errors.map CompileError.fault ∧
      (built.call [.container 0] heap).1.errors.map RuntimeError.unplaced =
        (built'.call [.container 1] heap').1.errors.map RuntimeError.unplaced ∧
      ∃ S : Renaming, (fun old new => old = 0 ∧ new = 1) ≤ S ∧
        (built.call [.container 0] heap).2.Same S (built'.call [.container 1] heap').2 ∧
        (built.call [.container 0] heap).1.value.Same S
          (built'.call [.container 1] heap').1.value := by
  intro source chosen options heap heap' built built'
  let R : Renaming := fun old new => old = 0 ∧ new = 1
  have heaps : heap.Same R heap' := by
    constructor
    · rintro _ _ ⟨rfl, rfl⟩
      exact ⟨_, _, rfl, rfl, .array (.cons .null .nil)⟩
    · constructor
      · rintro _ _ _ ⟨rfl, rfl⟩ ⟨rfl, -⟩
        rfl
      · rintro _ _ _ ⟨rfl, rfl⟩ ⟨-, rfl⟩
        rfl
  exact ⟨by decide +kernel, call_exchange (R := R) source chosen rfl .nil .undefined
    (.cons (.container ⟨rfl, rfl⟩) .nil) heaps⟩

end Descriptor
