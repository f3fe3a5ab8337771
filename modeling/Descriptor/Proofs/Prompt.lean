import Descriptor.Console
import Descriptor.Proofs.History
import Descriptor.Proofs.Walk

/-!
# Each line of the prompt on its own

The prompt is a loop that keeps something from turn to turn: the buffer that a line is read into
and the heap of the process, in which the containers of all lines are made.  Here it is run as such
a loop, and neither is found to matter.  The buffer is emptied before each line, and a call that is
given no container cannot tell one heap from another, nor can the rendering of its value.

So what the prompt writes is what each line makes it write on its own, one behind the other.  The
lines are the pieces of the input between the bytes that end them: such a byte is a blank, and no
other character is written with it, so that it changes nothing about its line.
-/

namespace Descriptor

/-! ## One rendering in two heaps -/

variable {R : Renaming}

theorem Record.Same.names_eq {left right : Record Value} (same : left.Same R right) :
    left.names = right.names := by
  rw [← List.forall₂_eq_eq_eq]
  exact List.rel_map (fun _ _ entry => entry.1) same

theorem Container.Same.values {container container' : Container}
    (same : container.Same R container') :
    List.Forall₂ (Value.Same R) container.values container'.values := by
  cases same with
  | array elements => exact elements
  | object properties => exact List.rel_map (fun _ _ entry => entry.2) properties

namespace Heap.Same

variable {left right : Heap}

/-- Values that are the same have the same rendering. -/
theorem renderWithin_eq (same : left.Same R right) {opened opened' : List Location}
    (all : List.Forall₂ R opened opened') {value value' : Value} (values : value.Same R value') :
    left.renderWithin opened value = right.renderWithin opened' value' := by
  have ofLeft := Walk.rendering_gives left
  have ofRight := Walk.rendering_gives right
  -- Each container that is opened leaves fewer to be opened.
  induction bound : left.closed opened using Nat.strongRecOn
    generalizing opened opened' value value' with
  | _ n ih =>
      subst bound
      cases values with
      | @container location location' related =>
          rcases same.containers related with ⟨container, container', found, found', held⟩
          have opens : location ∈ opened ↔ location' ∈ opened' :=
            List.rel_mem same.unique related all
          by_cases again : location ∈ opened
          · rw [ofLeft.again found rfl again, ofRight.again found' rfl (opens.mp again)]
            cases held <;> rfl
          · have inside : ∀ {value value' : Value}, value.Same R value' →
                left.renderWithin (location :: opened) value =
                  right.renderWithin (location' :: opened') value' :=
              fun values => ih _ (closed_cons_lt found again) (.cons related all) values rfl
            have items : container.values.map (left.renderWithin (location :: opened)) =
                container'.values.map (right.renderWithin (location' :: opened')) := by
              rw [← List.forall₂_eq_eq_eq]
              exact List.rel_map (fun _ _ values => inside values) held.values
            rw [ofLeft.enter found rfl again, ofRight.enter found' rfl (opens.not.mp again), items]
            cases held with
            | array elements => rfl
            | object properties => simp only [Walk.rendering, properties.names_eq]
      | _ => rw [ofLeft.scalar, ofRight.scalar] <;> simp

theorem render_eq (same : left.Same R right) {value value' : Value}
    (values : value.Same R value') : left.render value = right.render value' :=
  same.renderWithin_eq .nil values

end Heap.Same

namespace Console

/-- What running a source writes does not depend on the heap, if the globals are scalars. -/
theorem output_run_eq (options : Options)
    (scalars : ∀ entry ∈ options.globals, ∀ location, entry.2 ≠ .container location)
    (source : String) (heap heap' : Heap) (introduction : String) :
    (run options heap source).output introduction =
      (run options heap' source).output introduction := by
  cases compiles : (compile source options).program with
  | error errors => simp only [run, compiles]
  | ok program =>
      have globals : (compile source options).globals.Same .empty
          (compile source options).globals := by
        refine ⟨Record.same_ofList (List.forall₂_same.mpr fun entry member => ?_), rfl⟩
        exact ⟨rfl, Value.same_self (scalars entry member)⟩
      rcases Compiled.call_parallel compiles compiles rfl globals .nil
        (Heap.same_empty heap heap') with ⟨R, -, heaps, values, errors⟩
      simp only [run, compiles, Report.output, errors, heaps.render_eq values]

theorem stdout_of_errors_ne_nil {source : String} (faulty : (compile source {}).errors ≠ []) :
    (evaluateArgument source).output.stdout = "" := by
  cases compiles : (compile source {}).program with
  | error errors => simp only [evaluateArgument, run, compiles, Report.outcome, Report.output]
  | ok program => exact absurd (by rw [Compiled.errors, compiles]) faulty

/-! ## The lines of an input -/

/-- The lines of an input, without the bytes that end them.  What is behind the last of those bytes
is a line unless it is empty. -/
def lines (input : List UInt8) : List (List UInt8) :=
  let pieces := input.splitOn newline
  if pieces.getLast? = some [] then pieces.dropLast else pieces

theorem lines_nil : lines [] = [] := by
  simp [lines]

theorem lines_of_not_mem {input : List UInt8} (endless : newline ∉ input) (nonempty : input ≠ []) :
    lines input = [input] := by
  simp [lines, List.splitOn_eq_singleton endless, nonempty]

theorem lines_append_cons {bytes : List UInt8} (endless : newline ∉ bytes) (rest : List UInt8) :
    lines (bytes ++ newline :: rest) = bytes :: lines rest := by
  have pieces : rest.splitOn newline ≠ [] := List.splitOn_ne_nil _ _
  simp only [lines, List.splitOn_append_cons_self_of_not_mem endless]
  rw [List.getLast?_cons_of_ne_nil pieces, List.dropLast_cons_of_ne_nil pieces]
  split <;> rfl

example : lines [0x31, newline, newline, 0x32] = [[0x31], [], [0x32]] := by decide +kernel

example : lines [0x31, newline] = [[0x31]] := by decide +kernel

theorem splitLine_of_not_mem {input : List UInt8} (endless : newline ∉ input) :
    splitLine input = (input, []) := by
  induction input with
  | nil => rfl
  | cons byte rest ih =>
      rw [List.mem_cons, not_or] at endless
      simp [splitLine, ih endless.2, Ne.symm endless.1]

theorem splitLine_append_cons {bytes : List UInt8} (endless : newline ∉ bytes)
    (rest : List UInt8) : splitLine (bytes ++ newline :: rest) = (bytes ++ [newline], rest) := by
  induction bytes with
  | nil => simp [splitLine]
  | cons byte bytes ih =>
      rw [List.mem_cons, not_or] at endless
      simp [splitLine, ih endless.2, Ne.symm endless.1]

theorem splitLine_ne_nil {input : List UInt8} (nonempty : input ≠ []) :
    (splitLine input).1 ≠ [] := by
  rcases List.exists_cons_of_ne_nil nonempty with ⟨byte, rest, rfl⟩
  rw [splitLine]
  split <;> exact List.cons_ne_nil _ _

/-! ## The byte that ends a line -/

/-- No other character is written with the byte that ends a line. -/
theorem isValidUTF8_append_newline (bytes : ByteArray) :
    (bytes ++ "\n".toByteArray).IsValidUTF8 ↔ bytes.IsValidUTF8 := by
  constructor
  · intro valid
    let text := String.fromUTF8 _ valid
    have ends : String.Pos.Raw.IsValid text ⟨bytes.size⟩ := by
      have inside : (⟨bytes.size⟩ : String.Pos.Raw) < text.rawEndPos := by
        simp only [String.Pos.Raw.lt_iff, String.byteIdx_rawEndPos, text, String.fromUTF8,
          ← String.size_toByteArray, ByteArray.size_append, Nat.lt_add_right_iff_pos]
        decide
      refine String.Pos.Raw.isValid_iff_isUTF8FirstByte.mpr (.inr ⟨inside, ?_⟩)
      simp only [String.getUTF8Byte, text, String.fromUTF8]
      rw [ByteArray.getElem_append_right (Nat.le_refl _)]
      simp only [Nat.sub_self]
      exact String.isUTF8FirstByte_getUTF8Byte_zero (b := "\n")
    have kept := ends.isValidUTF8_extract_zero
    simp only [text, String.fromUTF8] at kept
    rwa [ByteArray.extract_append_eq_left rfl] at kept
  · exact fun valid => valid.append "\n".isValidUTF8

theorem fromUTF8?_append_newline (bytes : List UInt8) :
    String.fromUTF8? ⟨(bytes ++ [newline]).toArray⟩ =
      (String.fromUTF8? ⟨bytes.toArray⟩).map (· ++ "\n") := by
  have split : (⟨(bytes ++ [newline]).toArray⟩ : ByteArray) =
      ⟨bytes.toArray⟩ ++ "\n".toByteArray := by
    have written : "\n".toByteArray.data = #[newline] := by decide
    ext1
    simp [written]
  rw [split]
  by_cases valid : (⟨bytes.toArray⟩ : ByteArray).IsValidUTF8
  · have valid' := (isValidUTF8_append_newline _).mpr valid
    simp only [String.fromUTF8?, valid, valid', dif_pos, Option.map_some, Option.some.injEq]
    rw [← String.toByteArray_inj, String.toByteArray_append]
    rfl
  · have valid' := (isValidUTF8_append_newline _).not.mpr valid
    simp only [String.fromUTF8?, valid, valid', dite_false, Option.map_none]

theorem trim_append_newline (text : List Char) : Text.trim (text ++ ['\n']) = Text.trim text := by
  have blank : Text.isBlank '\n' = true := by decide
  have ends : ∀ text, Text.trimEnd (text ++ ['\n']) = Text.trimEnd text := by
    simp [Text.trimEnd, blank]
  rw [Text.trim, List.dropWhile_append, Text.trim]
  split
  · rename_i allBlank
    rw [List.isEmpty_iff] at allBlank
    simp [allBlank, blank]
  · rw [ends]

/-- The source that a line holds, if its bytes are UTF-8: blanks at its ends do not count. -/
def sourceOf? (bytes : List UInt8) : Option String :=
  (String.fromUTF8? ⟨bytes.toArray⟩).map fun text => .ofList (Text.trim text.toList)

theorem sourceOf?_append_newline (bytes : List UInt8) :
    sourceOf? (bytes ++ [newline]) = sourceOf? bytes := by
  simp [sourceOf?, fromUTF8?_append_newline, Function.comp_def, trim_append_newline]

/-! ## What a line makes the prompt write -/

/-- What is shown for a line is what its source shows when it is all there is to be run. -/
def shown (bytes : List UInt8) : String :=
  match sourceOf? bytes with
  | some source => (evaluateArgument source).output.stdout
  | none => ""

/-- The faults of a line. -/
def complaints (bytes : List UInt8) : String :=
  match sourceOf? bytes with
  | some source =>
      let report := run {} .empty source
      let failure := match report.result with
        | .ok _ => ""
        | .error failure => line ("Failed run prompt: " ++ failure.message)
      String.join (report.diagnostics.map line) ++ failure
  | none => line "Failed read line: stream did not contain valid UTF-8"

theorem answer_eq (bytes : List UInt8) : answer bytes = ⟨shown bytes, complaints bytes⟩ := by
  unfold answer shown complaints sourceOf?
  cases String.fromUTF8? ⟨bytes.toArray⟩ with
  | none => rfl
  | some text =>
      simp only [Option.map_some, evaluateArgument, Report.outcome]
      generalize run {} .empty _ = report
      rcases report with ⟨_ | ⟨value, heap⟩, diagnostics⟩
      · simp [Report.output]
      · simp [Report.output]

theorem answer_append_newline (bytes : List UInt8) :
    answer (bytes ++ [newline]) = answer bytes := by
  simp only [answer_eq, shown, complaints, sourceOf?_append_newline]

/-! ## The whole output -/

theorem Output.append_eq (first second : Output) :
    first ++ second = ⟨first.stdout ++ second.stdout, first.stderr ++ second.stderr⟩ :=
  rfl

theorem Output.append_assoc (first second third : Output) :
    first ++ second ++ third = first ++ (second ++ third) := by
  simp only [append_eq, String.append_assoc]

/-- What the prompt writes about some lines and then at the end of the input. -/
def transcript (lines : List (List UInt8)) : Output where
  stdout := String.join (lines.map fun bytes => promptMark ++ shown bytes) ++ promptMark ++ farewell
  stderr := String.join (lines.map complaints)

theorem transcript_cons (bytes : List UInt8) (lines : List (List UInt8)) :
    transcript (bytes :: lines) = ⟨promptMark, ""⟩ ++ answer bytes ++ transcript lines := by
  simp [transcript, answer_eq, Output.append_eq, String.append_assoc]

theorem session_of_ne_nil {input : List UInt8} (nonempty : input ≠ []) :
    session input =
      ⟨promptMark, ""⟩ ++ answer (splitLine input).1 ++ session (splitLine input).2 := by
  rcases List.exists_cons_of_ne_nil nonempty with ⟨byte, rest, rfl⟩
  rw [session]

/-- What the prompt writes, line by line. -/
theorem session_eq (input : List UInt8) : session input = transcript (lines input) := by
  induction length : input.length using Nat.strongRecOn generalizing input with
  | _ n ih =>
      subst length
      by_cases empty : input = []
      · subst empty
        rw [session, lines_nil]
        rfl
      · rw [session_of_ne_nil empty]
        by_cases ends : newline ∈ input
        · rcases List.eq_append_cons_of_mem ends with ⟨bytes, rest, rfl, endless⟩
          have shorter : rest.length < (bytes ++ newline :: rest).length := by
            rw [List.length_append, List.length_cons]
            omega
          rw [splitLine_append_cons endless, lines_append_cons endless, transcript_cons,
            answer_append_newline, ih _ shorter rest rfl]
        · rw [lines_of_not_mem ends empty, splitLine_of_not_mem ends, transcript_cons, session]
          rfl

/-! ## The loop -/

/-- The prompt between two turns: what is still to be read, the text of the last line, the
containers of all lines, and what has been written. -/
structure Terminal where
  unread : List UInt8
  buffer : String
  heap : Heap
  written : Output

namespace Terminal

def write (terminal : Terminal) (output : Output) : Terminal :=
  { terminal with written := terminal.written ++ output }

/-- Reads a line and puts its text behind that in the buffer.  Gives the number of its bytes if they
are UTF-8.  If not, they are lost. -/
def readLine (terminal : Terminal) : Option Nat × Terminal :=
  let split := splitLine terminal.unread
  match String.fromUTF8? ⟨split.1.toArray⟩ with
  | some text =>
      (some split.1.length,
        { terminal with unread := split.2, buffer := terminal.buffer ++ text })
  | none => (none, { terminal with unread := split.2 })

/-- Runs what is in the buffer.  The containers that it makes stay. -/
def runBuffer (terminal : Terminal) : Terminal :=
  let report := run {} terminal.heap (.ofList (Text.trim terminal.buffer.toList))
  let heap := match report.result with
    | .ok (_, heap) => heap
    | .error _ => terminal.heap
  { terminal with heap }.write (report.output "Failed run prompt")

/-- One turn, and whether there is another. -/
def turn (terminal : Terminal) : Bool × Terminal :=
  match ({ terminal with buffer := "" }.write ⟨promptMark, ""⟩).readLine with
  | (some 0, read) => (false, read.write ⟨farewell, ""⟩)
  | (some _, read) => (true, read.runBuffer)
  | (none, read) =>
      (true, read.write ⟨"", line "Failed read line: stream did not contain valid UTF-8"⟩)

variable {terminal : Terminal}

/-- At the end of the input there is nothing to read, and the loop ends. -/
theorem turn_of_nil (ended : terminal.unread = []) :
    terminal.turn.1 = false ∧
      terminal.turn.2.written = terminal.written ++ session terminal.unread := by
  have nothing : String.fromUTF8? ⟨#[]⟩ = some "" := dif_pos ByteArray.isValidUTF8_empty
  simp [turn, readLine, write, ended, splitLine, nothing, session, Output.append_eq,
    String.append_assoc]

/-- A turn takes one line and answers it, whatever is in the buffer and in the heap. -/
theorem turn_of_ne_nil (unended : terminal.unread ≠ []) :
    terminal.turn.1 = true ∧ terminal.turn.2.unread = (splitLine terminal.unread).2 ∧
      terminal.turn.2.written =
        terminal.written ++ (⟨promptMark, ""⟩ ++ answer (splitLine terminal.unread).1) := by
  rcases List.exists_cons_of_ne_nil (splitLine_ne_nil unended) with ⟨byte, bytes, isLine⟩
  cases decodes : String.fromUTF8? ⟨(splitLine terminal.unread).1.toArray⟩ with
  | none =>
      simp only [turn, readLine, write, answer, decodes, Output.append_assoc]
      trivial
  | some text =>
      have alone := output_run_eq {} (List.forall_mem_nil _)
        (.ofList (Text.trim text.toList)) terminal.heap .empty "Failed run prompt"
      rw [isLine] at decodes
      simp only [turn, readLine, write, answer, decodes, runBuffer, isLine, List.length_cons,
        String.empty_append, Output.append_assoc, alone]
      trivial

theorem length_turn_lt (again : terminal.turn.1 = true) :
    terminal.turn.2.unread.length < terminal.unread.length := by
  by_cases ended : terminal.unread = []
  · rw [(turn_of_nil ended).1] at again
    contradiction
  · rw [(turn_of_ne_nil ended).2.1]
    rcases List.exists_cons_of_ne_nil ended with ⟨byte, rest, isInput⟩
    rw [isInput]
    exact length_splitLine_lt byte rest

/-- Turns until the input has ended. -/
def finish (terminal : Terminal) : Terminal :=
  if _again : terminal.turn.1 = true then terminal.turn.2.finish else terminal.turn.2
termination_by terminal.unread.length
decreasing_by exact length_turn_lt _again

/-- Turn by turn, the loop writes what is written in a session. -/
theorem written_finish (terminal : Terminal) :
    terminal.finish.written = terminal.written ++ session terminal.unread := by
  induction terminal using finish.induct with
  | case1 terminal again ih =>
      have unended : terminal.unread ≠ [] := by
        intro ended
        rw [(turn_of_nil ended).1] at again
        contradiction
      rcases turn_of_ne_nil unended with ⟨-, unread, written⟩
      rw [finish, dif_pos again, ih, unread, written, session_of_ne_nil unended,
        Output.append_assoc]
  | case2 terminal last =>
      have ended : terminal.unread = [] :=
        Classical.not_not.mp fun unended => last (turn_of_ne_nil unended).1
      rw [finish, dif_neg last, (turn_of_nil ended).2]

end Terminal

/-- The prompt shows its mark and what a line shows alone for each line of the input, one line after
the other, and then its mark and the farewell.  It tells of the faults of each line in the same
order, and never fails.  For a source that does not compile nothing is shown.  All this is so
whatever was left in the buffer or the heap. -/
theorem prompt_by_lines (input : List UInt8) :
    prompt input =
        ⟨⟨String.join ((lines input).map fun bytes => promptMark ++ shown bytes) ++ promptMark ++
            farewell,
          String.join ((lines input).map complaints)⟩, 0⟩ ∧
      (∀ source, (compile source {}).errors ≠ [] →
        (evaluateArgument source).output.stdout = "") ∧
      ∀ buffer heap,
        (Terminal.finish ⟨input, buffer, heap, ⟨"", ""⟩⟩).written = (prompt input).output := by
  refine ⟨?_, fun source faulty => ?_, fun buffer heap => ?_⟩
  · rw [prompt, session_eq]
    rfl
  · exact stdout_of_errors_ne_nil faulty
  · rw [Terminal.written_finish, prompt, Output.append_eq, String.empty_append, String.empty_append]

end Console

end Descriptor
