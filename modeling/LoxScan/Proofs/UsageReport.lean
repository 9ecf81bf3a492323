import LoxScan.Command.Run

/-!
# LoxScan - Usage reports

A report on the arguments shows some of them, and an argument may hold sequences that steer a
terminal.  No such sequence gets into the report, whatever the arguments are: all that a run
writes when its arguments end it is plain, so taking control sequences out of it once more
leaves it as it is.

Main results:

- Theorem `Command.UsageError.shown_eq_iff`: the arguments that are shown as they are.
- Theorem `Command.UsageError.isPlain_report`: the report of every usage error is plain.
- Theorem `Command.removed_output_of_stop`: nothing is taken out of what is written when the
  arguments end a run.
-/

namespace LoxScan
namespace Command

open ControlSequence

/-! ## Parts of a report -/

/-- Flags are plain. -/
theorem Flag.isPlain_long (flag : Flag) : IsPlain flag.long := by
  cases flag with
  | quiet | help | version => exact .append (isPlain_ofList rfl) (isPlain_ofList rfl)

namespace UsageError

/-- An argument is shown as it is exactly if it is plain. -/
theorem shown_eq_iff {argument : String} :
    shown argument = "'" ++ argument ++ "'" ↔ IsPlain argument := by
  rw [← removed_eq_self_iff, shown, String.append_left_inj, String.append_right_inj]

/-- What is shown of an argument is plain. -/
theorem isPlain_shown (argument : String) : IsPlain (shown argument) :=
  .append (.append (isPlain_ofList rfl) (isPlain_removed argument)) (isPlain_ofList rfl)

/-- An argument that is shown between two plain texts. -/
theorem isPlain_around {front back : String} (hfront : IsPlain front) (argument : String)
    (hback : IsPlain back) : IsPlain (front ++ shown argument ++ back) :=
  (hfront.append (isPlain_shown argument)).append hback

/-- What is said of an argument that has no meaning is plain. -/
theorem isPlain_unexpected (argument : String) : IsPlain (unexpected argument) :=
  isPlain_around (isPlain_ofList rfl) argument (isPlain_ofList rfl)

/-- What is wrong is said in a plain text. -/
theorem isPlain_message (e : UsageError) : IsPlain e.message := by
  cases e with
  | unknownOption name given => exact isPlain_unexpected _
  | unknownLetter letter => exact isPlain_unexpected _
  | extraArgument argument => exact isPlain_unexpected _
  | repeatedQuiet => exact isPlain_around (isPlain_ofList rfl) _ (isPlain_ofList rfl)
  | needlessValue flag value given =>
    have hvalue := isPlain_around (isPlain_ofList rfl : IsPlain "unexpected value ") value
      (isPlain_ofList rfl : IsPlain " for ")
    exact isPlain_around hvalue flag.long (isPlain_ofList rfl)
  | emptyScript => exact isPlain_ofList rfl

/-- The tip on how to pass an argument as the name of a file is plain. -/
theorem isPlain_passAsValue (argument : String) : IsPlain (passAsValue argument) :=
  .append (isPlain_around (isPlain_ofList rfl) argument (isPlain_ofList rfl)) (isPlain_shown _)

/-- Tips are plain. -/
theorem isPlain_of_mem_tip? {e : UsageError} {tip : String} (h : tip ∈ e.tip?) : IsPlain tip := by
  cases e with
  | unknownOption name given =>
    rw [tip?] at h
    split at h
    · obtain rfl := Option.some.inj h
      exact .append (isPlain_ofList rfl) (isPlain_shown _)
    · obtain rfl := Option.some.inj h
      exact isPlain_passAsValue _
  | unknownLetter letter =>
    obtain rfl := Option.some.inj h
    exact isPlain_passAsValue _
  | _ => cases h

/-- A way to use the command is plain if its parts are. -/
theorem isPlain_synopsis {parts : List String} (h : ∀ part ∈ parts, IsPlain part) :
    IsPlain (synopsis parts) :=
  .intercalate (isPlain_ofList rfl) (List.forall_mem_cons.mpr ⟨isPlain_ofList rfl, h⟩)

/-- The usage with any options is plain. -/
theorem isPlain_anyUsage : IsPlain anyUsage := by
  have hoptions : IsPlain "[OPTIONS]" := isPlain_ofList rfl
  have hscript : IsPlain "[SCRIPT]" := isPlain_ofList rfl
  apply isPlain_synopsis
  simp [hoptions, hscript]

/-- The usage with the options that have been given is plain. -/
theorem isPlain_givenUsage (given : Options) (meant : Option Flag) :
    IsPlain (givenUsage given meant) := by
  unfold givenUsage
  dsimp only
  split
  · exact isPlain_anyUsage
  · apply isPlain_synopsis
    intro part hpart
    rcases List.mem_append.mp hpart with hflag | hscript
    · rcases List.mem_map.mp hflag with ⟨flag, -, rfl⟩
      exact flag.isPlain_long
    · rw [List.mem_singleton.mp hscript]
      split
      · exact isPlain_ofList rfl
      · exact isPlain_ofList rfl

/-- The usage with a flag that was given a value is plain. -/
theorem isPlain_flagUsage (given : Options) (flag : Flag) : IsPlain (flagUsage given flag) := by
  have hscript : IsPlain "[SCRIPT]" := isPlain_ofList rfl
  have hgroup : IsPlain "<SCRIPT|--quiet>" := isPlain_ofList rfl
  unfold flagUsage
  split
  · apply isPlain_synopsis
    simp [flag.isPlain_long, hscript]
  · apply isPlain_synopsis
    split <;> simp [flag.isPlain_long, hgroup]

/-- How the command is used is said in a plain text. -/
theorem isPlain_of_mem_usage? {e : UsageError} {usage : String} (h : usage ∈ e.usage?) :
    IsPlain usage := by
  cases e with
  | unknownOption name given =>
    obtain rfl := Option.some.inj h
    exact isPlain_givenUsage _ _
  | needlessValue flag value given =>
    obtain rfl := Option.some.inj h
    exact isPlain_flagUsage _ _
  | emptyScript => cases h
  | _ =>
    obtain rfl := Option.some.inj h
    exact isPlain_anyUsage

/-! ## Reports -/

/-- The report of every usage error is plain. -/
theorem isPlain_report (e : UsageError) : IsPlain e.report := by
  have hend : IsPlain "\n" := isPlain_ofList rfl
  refine .append (.intercalate (isPlain_ofList rfl) ?_) hend
  intro part hpart
  simp only [List.mem_append, List.mem_singleton, Option.mem_toList, Option.map_eq_some_iff]
    at hpart
  rcases hpart with ((rfl | ⟨tip, hmem, rfl⟩) | husage) | rfl
  · exact .append (isPlain_ofList rfl) e.isPlain_message
  · exact .append (isPlain_ofList rfl) (isPlain_of_mem_tip? hmem)
  · exact isPlain_of_mem_usage? husage
  · exact isPlain_ofList rfl

end UsageError

/-- The text that explains the command is plain, line by line. -/
theorem isPlain_helpText : IsPlain helpText := by
  unfold helpText
  -- The text has eleven lines, and the last one is taken off until one is left.
  iterate 10 refine .append ?_ (isPlain_ofList rfl)
  exact isPlain_ofList rfl

/-- Nothing is taken out of what is written when the arguments end a run, whatever they are. -/
theorem removed_output_of_stop {arguments : List String} {stop : Stop}
    (hparse : Options.parse arguments = .error stop) (read : String → Except ReadFailure ByteArray)
    (input : ByteArray) :
    removed (run arguments read input).output.stdout = (run arguments read input).output.stdout ∧
      removed (run arguments read input).output.stderr =
        (run arguments read input).output.stderr := by
  have hrun : run arguments read input = stop.outcome := by
    rw [run, hparse]
  have hempty : IsPlain "" := isPlain_ofList rfl
  have hversion : IsPlain versionText := by
    unfold versionText
    exact isPlain_ofList rfl
  rw [removed_eq_self_iff, removed_eq_self_iff, hrun]
  cases stop with
  | help => exact ⟨isPlain_helpText, hempty⟩
  | version => exact ⟨hversion, hempty⟩
  | usage e => exact ⟨hempty, e.isPlain_report⟩

end Command
end LoxScan
