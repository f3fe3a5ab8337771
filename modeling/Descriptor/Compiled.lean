import Descriptor.Evaluation
import Descriptor.Grammar.Statement
import Descriptor.Phrase
import Descriptor.Token.Scan

/-!
# Compiled descriptors

A descriptor is compiled once and then called with arguments any number of times.  The arguments
and the globals lie in readonly frames around the frame of the program.  A descriptor with a fault
has no program: calling it gives the fallback value.
-/

namespace Descriptor

/-- What a descriptor is compiled with. -/
structure Options where
  /-- The names that arguments are bound to, by position. -/
  parameters : List String := []
  /-- The globals.  The last of several for one name counts. -/
  globals : List (String × Value) := []
  /-- What a call gives when the descriptor has a fault. -/
  fallback : Value := .undefined

/-- A descriptor that can be called. -/
structure Compiled where
  parameters : List String
  globals : Frame
  fallback : Value
  /-- The program, or else the faults that were found, at least one. -/
  program : Except (List CompileError) (List Stmt)

/-- What came of a call. -/
structure Evaluation where
  value : Value
  errors : List RuntimeError

/-- The statements of a source and its errors, those of scanning first. -/
def parseSource (source : String) : List Stmt × List CompileError :=
  let scanned := scan source
  let parsed := parse scanned.1
  (parsed.1, scanned.2 ++ parsed.2)

/-- Compiles a descriptor, whose operators may be spelled in English. -/
def compile (source : String) (options : Options) : Compiled where
  parameters := options.parameters
  globals := .ofList true options.globals
  fallback := options.fallback
  program :=
    match parseSource (normalize source) with
    | (statements, []) => .ok statements
    | (_, errors) => .error errors

namespace Compiled

/-- The faults that were found, none if there is a program. -/
def errors (compiled : Compiled) : List CompileError :=
  match compiled.program with
  | .ok _ => []
  | .error errors => errors

/-- The parameters with their arguments.  Missing arguments are `undefined` and surplus ones are
left out. -/
def bindArguments (parameters : List String) (arguments : List Value) :
    List (String × Value) :=
  parameters.zip (arguments ++ List.replicate parameters.length .undefined)

/-- The scope that a program is evaluated in. -/
def scope (compiled : Compiled) (arguments : List Value) : Scope :=
  [.ofList true (bindArguments compiled.parameters arguments), compiled.globals]

/-- Calls a descriptor. -/
def call (compiled : Compiled) (arguments : List Value) (heap : Heap) : Evaluation × Heap :=
  match compiled.program with
  | .error _ => (⟨compiled.fallback, []⟩, heap)
  | .ok program =>
      let ran := evaluate program ⟨heap, compiled.scope arguments, #[]⟩
      (⟨ran.1, ran.2.errors.toList⟩, ran.2.heap)

end Compiled

end Descriptor
