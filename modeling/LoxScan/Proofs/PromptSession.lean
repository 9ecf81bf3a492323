import LoxScan.Proofs.DeliveredLines
import LoxScan.Proofs.ScriptRun

/-!
# LoxScan - Sessions at the prompt

The command scans the lines of the standard input one by one, each as a source of its own.
No line has an effect on another one: what is written is what the scans of the lines write,
one after the other, up to the first line that is not text.  That line ends the session with
one message, and neither it nor a later line is scanned.

Main definitions:

- `Command.IsText`, the lines of bytes that are text, and `Command.texts`, the texts of the
  lines before the first one that is not;
- `Command.edited`, what the editor hands on of a line;
- `Command.scanEach`, the output of the scans of some texts, each on its own.

Main results:

- Theorem `Command.runLines_eq`: the outcome of a run on lines, after some output.
- Theorem `Line.delivered_append`: the lines of two inputs in a row, the first of which ends
  in a newline.
- Theorem `Command.run_prompt`: exit code and output of a session, and of two sessions in a
  row.
-/

namespace LoxScan

/-- The lines of two inputs in a row, the first of which ends in a newline, are the lines of
both. -/
theorem Line.delivered_append {α : Type} [DecidableEq α] {newline carriageReturn : α}
    {xs : List α} (h : ∀ x ∈ xs.getLast?, x = newline) (ys : List α) :
    delivered newline carriageReturn (xs ++ ys) =
      delivered newline carriageReturn xs ++ delivered newline carriageReturn ys := by
  fun_induction delivered newline carriageReturn xs with
  | case1 xs hmem ih =>
    have hxs := before_append_cons_after hmem
    have hrest : ∀ x ∈ (after newline xs).getLast?, x = newline := by
      intro x hx
      refine h x ?_
      rw [← hxs, List.getLast?_append, List.getLast?_cons, Option.mem_def.mp hx]
      rfl
    conv_lhs => rw [← hxs]
    rw [List.append_assoc, List.cons_append, delivered_append_cons (not_mem_before newline xs),
      ih hrest, List.cons_append]
  | case2 => rfl
  | case3 xs hmem hne =>
    -- The last element would be a newline, but there is none.
    have hlast := List.getLast?_eq_some_getLast hne
    have hend := h _ hlast
    exact absurd (hend ▸ List.getLast_mem hne) hmem

namespace Command

/-! ## Lines of bytes -/

/-- The text of a line of bytes, if there is one. -/
def text? (line : List UInt8) : Option String :=
  String.fromUTF8? ⟨line.toArray⟩

/-- Whether a line of bytes encodes a text. -/
def IsText (line : List UInt8) : Prop :=
  ∃ text : String, Line.bytes text.toList = line

/-- The text of a line is the one that the line encodes. -/
theorem text?_eq_some_iff {line : List UInt8} {text : String} :
    text? line = some text ↔ Line.bytes text.toList = line := by
  have hbytes : text.toUTF8 = (Line.bytes text.toList).toByteArray := by
    rw [← Line.toUTF8_ofList, String.ofList_toList]
  constructor
  · intro h
    have hline : text.toUTF8 = ⟨line.toArray⟩ := by
      rw [text?, String.fromUTF8?] at h
      split at h
      · obtain rfl := Option.some.inj h
        rfl
      · cases h
    have hdata := congrArg (fun b => b.data.toList) (hbytes.symm.trans hline)
    simpa using hdata
  · rintro rfl
    have hline : (⟨(Line.bytes text.toList).toArray⟩ : ByteArray) = text.toUTF8 := by
      apply ByteArray.ext
      rw [hbytes, List.data_toByteArray]
    rw [text?, hline]
    exact dif_pos text.isValidUTF8

/-- A line is text if it has one. -/
theorem isText_iff {line : List UInt8} : IsText line ↔ (text? line).isSome := by
  simp [Option.isSome_iff_exists, text?_eq_some_iff, IsText]

instance (line : List UInt8) : Decidable (IsText line) :=
  decidable_of_iff _ isText_iff.symm

/-- The texts of the lines before the first one that is not text. -/
def texts (lines : List (List UInt8)) : List String :=
  (lines.takeWhile fun line => IsText line).filterMap text?

/-- The first line is text. -/
theorem texts_cons {line : List UInt8} {text : String} (h : text? line = some text)
    (lines : List (List UInt8)) : texts (line :: lines) = text :: texts lines := by
  have htext : IsText line := ⟨text, text?_eq_some_iff.mp h⟩
  simp [texts, htext, h]

/-- The first line is not text. -/
theorem texts_cons_of_not_isText {line : List UInt8} (h : ¬ IsText line)
    (lines : List (List UInt8)) : texts (line :: lines) = [] := by
  simp [texts, h]

/-- Lines that are all text have their texts before those of the lines after them. -/
theorem texts_append {xs : List (List UInt8)} (h : ∀ line ∈ xs, IsText line)
    (ys : List (List UInt8)) : texts (xs ++ ys) = texts xs ++ texts ys := by
  induction xs with
  | nil => rfl
  | cons line xs ih =>
    rcases h line List.mem_cons_self with ⟨text, hbytes⟩
    have htext := text?_eq_some_iff.mpr hbytes
    rw [List.cons_append, texts_cons htext, texts_cons htext,
      ih fun line hmem => h line (List.mem_cons_of_mem _ hmem), List.cons_append]

/-! ## Runs on lines -/

/-- What the editor hands on of a line. -/
def edited (text : String) : String :=
  String.ofList (Backspace.applied text.toList)

/-- A line without backspaces is handed on as it is. -/
theorem edited_of_not_mem {text : String} (h : '\x08' ∉ text.toList) : edited text = text := by
  rw [edited, Backspace.applied_of_not_mem h, String.ofList_toList]

/-- The output of the scans of some texts, each on its own. -/
def scanEach (quiet : Bool) (sources : List String) : Output where
  stdout := String.join (sources.map fun source => (scanText source promptName quiet).1.stdout)
  stderr := String.join (sources.map fun source => (scanText source promptName quiet).1.stderr)

/-- Output in three parts. -/
theorem Output.append_assoc (a b c : Output) : a ++ b ++ c = a ++ (b ++ c) :=
  congrArg₂ Output.mk String.append_assoc String.append_assoc

@[simp]
theorem Output.empty_append (a : Output) : .empty ++ a = a :=
  congrArg₂ Output.mk String.empty_append String.empty_append

@[simp]
theorem Output.append_empty (a : Output) : a ++ .empty = a :=
  congrArg₂ Output.mk String.append_empty String.append_empty

@[simp]
theorem scanEach_nil (quiet : Bool) : scanEach quiet [] = .empty :=
  rfl

/-- The scan of a text and then those of others. -/
theorem scanEach_cons (quiet : Bool) (source : String) (sources : List String) :
    scanEach quiet (source :: sources) =
      (scanText source promptName quiet).1 ++ scanEach quiet sources := by
  rw [scanEach, List.map_cons, List.map_cons, String.join_cons, String.join_cons]
  rfl

/-- Scans of some texts and then of others. -/
theorem scanEach_append (quiet : Bool) (xs ys : List String) :
    scanEach quiet (xs ++ ys) = scanEach quiet xs ++ scanEach quiet ys := by
  induction xs with
  | nil => simp
  | cons source xs ih =>
    rw [List.cons_append, scanEach_cons, scanEach_cons, ih, Output.append_assoc]

/-- How a run on lines ends: with a failure, if one of them is not text. -/
def ending (lines : List (List UInt8)) : Outcome :=
  if ∀ line ∈ lines, IsText line then ⟨.success, .empty⟩
  else ⟨.unreadable, ⟨"", promptFailure .notText⟩⟩

/-- After lines that are all text, a run ends as it does without them. -/
theorem ending_append {xs : List (List UInt8)} (h : ∀ line ∈ xs, IsText line)
    (ys : List (List UInt8)) : ending (xs ++ ys) = ending ys := by
  have hall : (∀ line ∈ xs ++ ys, IsText line) ↔ ∀ line ∈ ys, IsText line := by
    rw [List.forall_mem_append]
    exact and_iff_right h
  simp only [ending, hall]

/-- A run ends with a failure where a line is not text. -/
theorem ending_cons_of_not_isText {line : List UInt8} (h : ¬ IsText line)
    (lines : List (List UInt8)) :
    ending (line :: lines) = ⟨.unreadable, ⟨"", promptFailure .notText⟩⟩ := by
  simp [ending, h]

/-- A line that is text is scanned, and the run goes on after what the scan writes. -/
theorem runLines_cons {line : List UInt8} {text : String} (h : text? line = some text)
    (quiet : Bool) (written : Output) (lines : List (List UInt8)) :
    runLines quiet written (line :: lines) =
      runLines quiet (written ++ (scanText (edited text) promptName quiet).1) lines := by
  have htyped : typedLine line = .ok (edited text) := by
    have hdecode : String.fromUTF8? ⟨line.toArray⟩ = some text := h
    rw [typedLine, decode, hdecode]
    rfl
  rw [runLines, htyped]

/-- A line that is not text ends the run with a message. -/
theorem runLines_cons_of_not_isText {line : List UInt8} (h : ¬ IsText line) (quiet : Bool)
    (written : Output) (lines : List (List UInt8)) :
    runLines quiet written (line :: lines) =
      ⟨.unreadable, written ++ ⟨"", promptFailure .notText⟩⟩ := by
  have htyped : typedLine line = .error .notText := by
    have hdecode : String.fromUTF8? ⟨line.toArray⟩ = none := by
      rw [isText_iff] at h
      simpa [text?] using h
    rw [typedLine, decode, hdecode]
    rfl
  rw [runLines, htyped]

/-- A run on lines adds to the output before it what the scans of their texts write, each on
its own, and then what it writes at its end. -/
theorem runLines_eq (quiet : Bool) (written : Output) (lines : List (List UInt8)) :
    runLines quiet written lines =
      ⟨(ending lines).status,
        written ++ (scanEach quiet ((texts lines).map edited) ++ (ending lines).output)⟩ := by
  induction lines generalizing written with
  | nil => simp [runLines, texts, ending]
  | cons line lines ih =>
    by_cases htext : IsText line
    · rcases htext with ⟨text, hbytes⟩
      have hline := text?_eq_some_iff.mpr hbytes
      have hfirst : ∀ l ∈ [line], IsText l := by simpa using ⟨text, hbytes⟩
      have hending : ending (line :: lines) = ending lines := ending_append hfirst lines
      rw [runLines_cons hline, ih, texts_cons hline, hending, List.map_cons, scanEach_cons,
        Output.append_assoc, Output.append_assoc]
    · rw [runLines_cons_of_not_isText htext, texts_cons_of_not_isText htext,
        ending_cons_of_not_isText htext, List.map_nil, scanEach_nil, Output.empty_append]

/-! ## Sessions -/

/-- The lines of an input. -/
def inputLines (input : ByteArray) : List (List UInt8) :=
  Line.delivered 10 13 input.data.toList

/-- The texts that are scanned of an input: what the editor hands on of the lines before the
first one that is not text. -/
def scanned (input : ByteArray) : List String :=
  (texts (inputLines input)).map edited

/-- The outcome of a session. -/
theorem runPrompt_eq (input : ByteArray) (quiet : Bool) :
    runPrompt input quiet =
      ⟨(ending (inputLines input)).status,
        scanEach quiet (scanned input) ++ (ending (inputLines input)).output⟩ := by
  rw [runPrompt, runLines_eq, Output.empty_append]
  rfl

/-- The outcome of a session on two inputs in a row, the first of which is text and ends in a
newline. -/
theorem runPrompt_append {a : ByteArray} (hend : ∀ x ∈ a.data.toList.getLast?, x = 10)
    (htext : ∀ line ∈ inputLines a, IsText line) (b : ByteArray) (quiet : Bool) :
    runPrompt (a ++ b) quiet =
      ⟨(runPrompt b quiet).status,
        (runPrompt a quiet).output ++ (runPrompt b quiet).output⟩ := by
  have hlines : inputLines (a ++ b) = inputLines a ++ inputLines b := by
    rw [inputLines, ByteArray.data_append, Array.toList_append, Line.delivered_append hend]
    rfl
  have hscanned : scanned (a ++ b) = scanned a ++ scanned b := by
    rw [scanned, hlines, texts_append htext, List.map_append]
    rfl
  have hfirst : ending (inputLines a) = ⟨.success, .empty⟩ := if_pos htext
  rw [runPrompt_eq, runPrompt_eq a, runPrompt_eq b, hlines, hscanned, ending_append htext, hfirst,
    scanEach_append, Output.append_empty, Output.append_assoc]

/-- A session at the prompt, with what the editor hands on of each line.  If all lines are
text, it ends with the code 0, whatever errors they have, and has written what the scans of
the lines write on each stream, one after the other and each as a source of its own.  If a
line is not text, it ends with the code 74, and has written this of the lines before the
first such line, and then one message.  Without backspaces, what the editor hands on are the
texts of the lines.  A session on two inputs, the first of which is text and ends in a
newline, writes what it writes on the first one and then what it writes on the second one. -/
theorem run_prompt {arguments : List String} {quiet : Bool}
    (harguments : Options.parse arguments = .ok ⟨none, quiet⟩)
    (read : String → Except ReadFailure ByteArray) (input : ByteArray) :
    (run arguments read input).output.stdout =
        String.join ((scanned input).map fun source =>
          (scanText source promptName quiet).1.stdout) ∧
      ((∀ line ∈ inputLines input, IsText line) →
        (run arguments read input).status.code = 0 ∧
        (run arguments read input).output.stderr =
          String.join ((scanned input).map fun source =>
            (scanText source promptName quiet).1.stderr)) ∧
      ((∃ line ∈ inputLines input, ¬ IsText line) →
        (run arguments read input).status.code = 74 ∧
        (run arguments read input).output.stderr =
          String.join ((scanned input).map fun source =>
            (scanText source promptName quiet).1.stderr) ++ promptFailure .notText) ∧
      ((∀ source ∈ texts (inputLines input), '\x08' ∉ source.toList) →
        scanned input = texts (inputLines input)) ∧
      ∀ rest : ByteArray, input.data.toList.getLast? = some 10 →
        (∀ line ∈ inputLines input, IsText line) →
          (run arguments read (input ++ rest)).status = (run arguments read rest).status ∧
          (run arguments read (input ++ rest)).output.stdout =
            (run arguments read input).output.stdout ++ (run arguments read rest).output.stdout ∧
          (run arguments read (input ++ rest)).output.stderr =
            (run arguments read input).output.stderr ++
              (run arguments read rest).output.stderr := by
  have hrun : ∀ input, run arguments read input = runPrompt input quiet := by
    intro input
    rw [run, harguments]
  simp only [hrun]
  refine ⟨?_, ?_, ?_, ?_, ?_⟩
  · rw [runPrompt_eq, ending]
    split <;> exact String.append_empty
  · intro htext
    rw [runPrompt_eq, ending, if_pos htext]
    exact ⟨rfl, String.append_empty⟩
  · intro hfailure
    rw [runPrompt_eq, ending, if_neg (by simpa using hfailure)]
    exact ⟨rfl, rfl⟩
  · intro htyped
    rw [scanned]
    conv_rhs => rw [← List.map_id (texts (inputLines input))]
    exact List.map_congr_left fun source hmem => edited_of_not_mem (htyped source hmem)
  · intro rest hend htext
    have hlast : ∀ x ∈ input.data.toList.getLast?, x = 10 := by
      intro x hx
      rw [hend] at hx
      exact (Option.some.inj hx).symm
    rw [runPrompt_append hlast htext]
    exact ⟨rfl, rfl, rfl⟩

/-- Two lines with errors, one of them with a carriage return at its end and the other with a
string that is left open, and then a line that is not text and one that is never read. -/
theorem run_prompt_bad_line :
    Options.parse [] = .ok ⟨none, false⟩ ∧
      "1 @\r\n\"x\n".toUTF8.data.toList.getLast? = some 10 ∧
      (∀ line ∈ inputLines "1 @\r\n\"x\n".toUTF8, IsText line) ∧
      (∃ line ∈ inputLines ⟨#[49, 255, 10, 50, 10]⟩, ¬ IsText line) ∧
      (run [] (fun _ => .error .notFound)
        ("1 @\r\n\"x\n".toUTF8 ++ ⟨#[49, 255, 10, 50, 10]⟩)).status.code = 74 ∧
      (run [] (fun _ => .error .notFound)
        ("1 @\r\n\"x\n".toUTF8 ++ ⟨#[49, 255, 10, 50, 10]⟩)).output.stdout =
        "NUMBER 1 1.0\nEOF  null\nEOF  null\n" ∧
      (run [] (fun _ => .error .notFound)
        ("1 @\r\n\"x\n".toUTF8 ++ ⟨#[49, 255, 10, 50, 10]⟩)).output.stderr =
        "[line 1] Error: Unexpected character.\n" ++
        "Error: UnexpectedCharacter (`@` does not start any token)\n" ++
        "-> <prompt>\n  |\n1 | 1 @\n\n" ++
        "[line 1] Error: Unterminated string.\n" ++
        "Error: UnterminatedString (Add a closing `\"` to end the string)\n" ++
        "-> <prompt>\n  |\n1 | \"x\n\n" ++
        "Error: failed to read from the prompt: stream did not contain valid UTF-8: " ++
        "stream did not contain valid UTF-8\n" := by
  have hfirst : inputLines "1 @\r\n\"x\n".toUTF8 = [[49, 32, 64], [34, 120]] := by
    have hbytes : "1 @\r\n\"x\n".toUTF8.data.toList = [49, 32, 64, 13, 10, 34, 120, 10] := by
      decide +kernel
    rw [inputLines, hbytes]
    simp [Line.delivered, before, after, dropEnd]
  have hsecond : inputLines ⟨#[49, 255, 10, 50, 10]⟩ = [[49, 255], [50]] := by
    simp [inputLines, Line.delivered, before, after, dropEnd]
  have hparse : Options.parse [] = .ok ⟨none, false⟩ := by decide +kernel
  have hlast : "1 @\r\n\"x\n".toUTF8.data.toList.getLast? = some 10 := by decide +kernel
  have htext : ∀ line ∈ inputLines "1 @\r\n\"x\n".toUTF8, IsText line := by
    rw [hfirst]
    decide +kernel
  have hnot : ∃ line ∈ inputLines ⟨#[49, 255, 10, 50, 10]⟩, ¬ IsText line := by
    rw [hsecond]
    decide +kernel
  rcases run_prompt hparse (fun _ => .error .notFound) "1 @\r\n\"x\n".toUTF8 with
    ⟨hout, herr, _, hedited, happend⟩
  rcases run_prompt hparse (fun _ => .error .notFound) ⟨#[49, 255, 10, 50, 10]⟩ with
    ⟨hout', _, herr', hedited', _⟩
  rcases happend ⟨#[49, 255, 10, 50, 10]⟩ hlast htext with ⟨hstatus, hstdout, hstderr⟩
  have hscanned : scanned "1 @\r\n\"x\n".toUTF8 = ["1 @", "\"x"] := by
    have htexts : texts (inputLines "1 @\r\n\"x\n".toUTF8) = ["1 @", "\"x"] := by
      rw [hfirst]
      decide +kernel
    rw [hedited, htexts]
    rw [htexts]
    decide
  have hscanned' : scanned ⟨#[49, 255, 10, 50, 10]⟩ = [] := by
    have htexts : texts (inputLines ⟨#[49, 255, 10, 50, 10]⟩) = [] := by
      rw [hsecond]
      decide +kernel
    rw [hedited', htexts]
    rw [htexts]
    decide
  refine ⟨hparse, hlast, htext, hnot, ?_, ?_, ?_⟩
  · rw [hstatus, (herr' hnot).1]
  · rw [hstdout, hout, hout', hscanned, hscanned']
    decide +kernel
  · rw [hstderr, (herr htext).2, (herr' hnot).2, hscanned, hscanned']
    decide +kernel

end Command
end LoxScan
