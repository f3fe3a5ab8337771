import Descriptor.Console

/-!
# The program

Reads the arguments, a file or the standard input, and writes what the command line answers.
-/

namespace Descriptor.Console

/-- Writes both outputs. -/
def writeOutput (output : Output) : IO Unit := do
  (← IO.getStdout).putStr output.stdout
  (← IO.getStderr).putStr output.stderr

/-- Writes an outcome and gives its exit code. -/
def finish (outcome : Outcome) : IO UInt32 := do
  writeOutput outcome.output
  return .ofNat outcome.code

/-- The content of a file, if it can be read. -/
def readContent (path : String) : IO (Option ByteArray) := do
  try
    return some (← IO.FS.readBinFile path)
  catch _ =>
    return none

/-- The bytes of the next line of the standard input, the byte that ends it included. -/
partial def readLine (input : IO.FS.Stream) (line : List UInt8) : IO (List UInt8) := do
  let bytes ← input.read 1
  match bytes.toList with
  | [] => return line.reverse
  | byte :: _ =>
      if byte == newline then return (byte :: line).reverse
      else readLine input (byte :: line)

/-- Answers one line after another. -/
partial def promptLoop : IO Unit := do
  let stdout ← IO.getStdout
  stdout.putStr promptMark
  stdout.flush
  match ← readLine (← IO.getStdin) [] with
  | [] => stdout.putStr farewell
  | line =>
      writeOutput (answer line)
      promptLoop

/-- How the program is called. -/
def usage : String :=
  "usage: eval DESCRIPTOR | file PATH | repl"

end Descriptor.Console

open Descriptor

/-- Runs the command that the arguments name. -/
def main (arguments : List String) : IO UInt32 := do
  match arguments with
  | ["eval", source] => Console.finish (Console.evaluateArgument source)
  | ["file", path] => Console.finish (Console.evaluateFile path (← Console.readContent path))
  | ["repl"] =>
      Console.promptLoop
      return 0
  | _ =>
      (← IO.getStderr).putStr (Console.line Console.usage)
      return 2
