import Descriptor.Compiled
import Descriptor.Text.Blank
import Descriptor.Value.Rendering

/-!
# The command line

A descriptor is given as an argument, as a file or line by line at a prompt.  Each is compiled and
called once, without arguments.  Its value is written to the standard output, its faults and those
of the call to the standard error.

Here the command line is a function from the bytes it reads to what it writes.
-/

namespace Descriptor

namespace Console

/-- Why a source could not be run. -/
inductive Failure where
  /-- The source could not be read. -/
  | unreadable (path : String)
  /-- The source has this many faults. -/
  | faulty (count : Nat)
  deriving Repr, DecidableEq

/-- The wording of a failure. -/
def Failure.message : Failure → String
  | .unreadable path => "CompilerInternalError: Failed open descriptor file " ++ path
  | .faulty count => "Generated " ++ toString count ++ " compile errors"

/-- What came of running a source: a value in a heap, and one line for each fault. -/
structure Report where
  result : Except Failure (Value × Heap)
  diagnostics : List String

/-- What is written. -/
structure Output where
  stdout : String
  stderr : String
  deriving Repr, DecidableEq

/-- What a command writes and the code it exits with. -/
structure Outcome where
  output : Output
  code : Nat
  deriving Repr, DecidableEq

/-- A text and the end of its line. -/
def line (text : String) : String :=
  text ++ "\n"

/-- One output after another. -/
def Output.append (first second : Output) : Output :=
  ⟨first.stdout ++ second.stdout, first.stderr ++ second.stderr⟩

instance : Append Output := ⟨Output.append⟩

/-- A compile error with the text it is about. -/
def diagnostic (error : CompileError) : String :=
  error.message ++ " at '" ++ error.text ++ "'"

/-- Compiles a source and calls it without arguments. -/
def run (options : Options) (heap : Heap) (source : String) : Report :=
  let compiled := compile source options
  match compiled.program with
  | .error errors => ⟨.error (.faulty errors.length), errors.map diagnostic⟩
  | .ok _ =>
      let called := compiled.call [] heap
      ⟨.ok (called.1.value, called.2), called.1.errors.map RuntimeError.message⟩

/-- Runs the content of a file, if it is UTF-8.  A file that is missing has no content. -/
def runFile (options : Options) (heap : Heap) (path : String) (content : Option ByteArray) :
    Report :=
  match content.bind String.fromUTF8? with
  | some source => run options heap source
  | none => ⟨.error (.unreadable path), []⟩

/-- What is written about a report, a failure after its introduction. -/
def Report.output (report : Report) (introduction : String) : Output :=
  let diagnostics := report.diagnostics.map line
  match report.result with
  | .ok (value, heap) => ⟨line (heap.render value), String.join diagnostics⟩
  | .error failure =>
      ⟨"", String.join (diagnostics ++ [line (introduction ++ ": " ++ failure.message)])⟩

/-- The outcome of a command that runs one source. -/
def Report.outcome (report : Report) : Outcome :=
  let code := match report.result with
    | .ok _ => 0
    | .error _ => 1
  ⟨report.output "Failed run descriptor", code⟩

/-- Runs a descriptor that is an argument. -/
def evaluateArgument (source : String) : Outcome :=
  (run {} .empty source).outcome

/-- Runs a descriptor that is the content of a file. -/
def evaluateFile (path : String) (content : Option ByteArray) : Outcome :=
  (runFile {} .empty path content).outcome

/-! ## The prompt -/

/-- What the prompt shows before it reads a line. -/
def promptMark : String := "> "

/-- What the prompt shows at the end of the input. -/
def farewell : String := line "\nExited semfn repl"

/-- What the prompt answers to one line.  Blanks at its ends do not count. -/
def answer (input : List UInt8) : Output :=
  match String.fromUTF8? ⟨input.toArray⟩ with
  | some text =>
      (run {} .empty (.ofList (Text.trim text.toList))).output "Failed run prompt"
  | none => ⟨"", line "Failed read line: stream did not contain valid UTF-8"⟩

/-- The byte that ends a line. -/
def newline : UInt8 := 10

/-- The first line of an input with the byte that ends it, and the input behind it. -/
def splitLine : List UInt8 → List UInt8 × List UInt8
  | [] => ([], [])
  | byte :: rest =>
      if byte == newline then ([byte], rest)
      else
        let split := splitLine rest
        (byte :: split.1, split.2)

theorem length_splitLine_le (input : List UInt8) :
    (splitLine input).2.length ≤ input.length := by
  induction input with
  | nil => simp [splitLine]
  | cons byte rest ih =>
      simp only [splitLine]
      split <;> simp only [List.length_cons] <;> omega

theorem length_splitLine_lt (byte : UInt8) (rest : List UInt8) :
    (splitLine (byte :: rest)).2.length < (byte :: rest).length := by
  have := length_splitLine_le rest
  simp only [splitLine]
  split <;> simp only [List.length_cons] <;> omega

/-- All that the prompt writes when it reads the given input to its end. -/
def session (input : List UInt8) : Output :=
  match input with
  | [] => ⟨promptMark ++ farewell, ""⟩
  | byte :: rest =>
      let split := splitLine (byte :: rest)
      ⟨promptMark, ""⟩ ++ answer split.1 ++ session split.2
termination_by input.length
decreasing_by exact length_splitLine_lt byte rest

/-- The outcome of the prompt.  It never fails. -/
def prompt (input : List UInt8) : Outcome :=
  ⟨session input, 0⟩

end Console

end Descriptor
