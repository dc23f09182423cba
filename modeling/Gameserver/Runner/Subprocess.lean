import Gameserver.Lib.Strings

/-!
# Checkers in a subprocess

`SaarctfServiceRunner.execute_checker_subprocess` and the main program that it starts (both in
`checker_runner/runners/saarctf.py`).  The result comes back on the standard output, after
whatever the checker has printed.

* `subprocessMain` — what the main program prints.
* `executeCheckerSubprocess` — what is made of it.
* `executeCheckerSubprocess_iff` — **which results come back as they were**.
-/

namespace Gameserver.Runner

open Json (Text)
open Strings

/-- `SEPARATOR` -/
def separator : Text := '\n' :: '\n' :: List.replicate 72 '-'

structure CheckerRunOutput where
  status : Text
  output : Option Text := none
  message : Option Text := none
  deriving DecidableEq

/-! ## The subprocess -/

/-- How `subprocess.check_output` ends. -/
inductive Completed where
  | exited (returnCode : ℤ) (output : ByteArray)
  | timeoutExpired (output : Option ByteArray)
  /-- any other `SubprocessError`, as a text -/
  | subprocessError (error : Text)

/-- `print(text)` -/
def print (text : Text) : Text := text ++ ['\n']

/-- What the main program prints in all. -/
def printed (earlier : Text) (result : CheckerRunOutput) : Text :=
  print "(subprocess invoked)".toList ++ earlier ++ print separator ++
    print (result.status ++ '|' :: result.message.getD [])

/-- The main program, for a checker that prints a text and has a result. -/
def subprocessMain (earlier : Text) (result : CheckerRunOutput) : Completed :=
  .exited 0 (encodeUtf8 (printed earlier result))

/-! ## Its caller -/

/-- What `execute_checker_subprocess` raises. -/
inductive Uncaught where
  | unicodeDecodeError
  /-- "substring not found" -/
  | substringNotFound
  /-- "not enough values to unpack (expected 2, got 1)" -/
  | notEnoughValues
  /-- "'NoneType' object has no attribute 'decode'" -/
  | attributeError
  deriving DecidableEq

/-- `text or None` -/
def orNone (text : Text) : Option Text := if text = [] then none else some text

/-- `data.decode('utf-8')` -/
def decode (data : ByteArray) : Except Uncaught Text :=
  match decodeUtf8 data with
  | some text => .ok text
  | none => .error .unicodeDecodeError

/-- The result in the output. -/
def parseOutput (output : Text) : Except Uncaught CheckerRunOutput :=
  match rindex separator output with
  | none => .error .substringNotFound
  | some p =>
    match splitOnce '|' (output.drop (p + separator.length + 1)) with
    | none => .error .notEnoughValues
    | some (status, message) =>
      .ok { status := status, message := orNone (strip isSpace message), output := some output }

/-- `execute_checker_subprocess`. -/
def executeCheckerSubprocess : Completed → Except Uncaught CheckerRunOutput
  | .exited returnCode output => do
    let output ← decode output
    if returnCode = 0 then parseOutput output
    else .ok { status := "CRASHED".toList, output := some output }
  | .timeoutExpired none => .error .attributeError
  | .timeoutExpired (some output) => do
    let output ← decode output
    .ok { status := "TIMEOUT".toList, message := some "Timeout, service too slow".toList,
          output := some output }
  | .subprocessError error => .ok { status := "CRASHED".toList, output := some error }

/-- The result as it should come back. -/
def received (earlier : Text) (result : CheckerRunOutput) : CheckerRunOutput where
  status := result.status
  message := orNone (strip isSpace (result.message.getD []))
  output := some (printed earlier result)

/-! ## Where the marker is -/

variable {earlier text : Text} {result : CheckerRunOutput}

/-- What follows the marker. -/
def body (result : CheckerRunOutput) : Text :=
  ('\n' :: result.status) ++ '|' :: print (result.message.getD [])

theorem exists_printed_eq (earlier : Text) (result : CheckerRunOutput) :
    ∃ before, printed earlier result = before ++ (separator ++ body result) :=
  ⟨print "(subprocess invoked)".toList ++ earlier, by simp [printed, body, print]⟩

theorem executeCheckerSubprocess_main (earlier : Text) (result : CheckerRunOutput) :
    executeCheckerSubprocess (subprocessMain earlier result) =
      parseOutput (printed earlier result) := by
  rw [subprocessMain, executeCheckerSubprocess, decode, decodeUtf8_encodeUtf8]
  rfl

theorem bar_notMem_separator : '|' ∉ separator := by decide

theorem countP_separator : separator.countP (fun c => !isSpace c) = 72 := by decide

/-- Nothing but a dash is its last character. -/
theorem separator_eq : separator = ('\n' :: '\n' :: List.replicate 71 '-') ++ ['-'] := rfl

/-- No line of it ends in a dash. -/
theorem not_isInfix_separator : ¬ ['-', '\n'] <:+: separator := by
  intro h
  rcases List.infix_cons_iff.mp h with hhead | h
  · exact absurd (List.cons_prefix_cons.mp hhead).1 (by decide)
  · rcases List.infix_cons_iff.mp h with hhead | h
    · exact absurd (List.cons_prefix_cons.mp hhead).1 (by decide)
    · have hmem : '\n' ∈ List.replicate 72 '-' := h.subset (by simp)
      exact absurd (List.eq_of_mem_replicate hmem) (by decide)

/-- The marker does not overlap with itself before a line break. -/
theorem isInfix_of_tail (h : separator <:+: (separator ++ '\n' :: text).tail) :
    separator <:+: '\n' :: text := by
  have hshort : ¬ separator <:+: separator.tail := fun hle => absurd hle.length_le (by decide)
  rcases List.infix_append_iff.mp (show separator <:+: separator.tail ++ '\n' :: text from h) with
    hleft | hright | ⟨left, right, heq, hleft, hright⟩
  · exact absurd hleft hshort
  · exact hright
  · cases right with
    | nil =>
      rw [List.append_nil] at heq
      exact absurd (heq ▸ hleft.isInfix) hshort
    | cons c right =>
      obtain ⟨rfl, -⟩ := List.cons_prefix_cons.mp hright
      rcases List.eq_nil_or_concat left with rfl | ⟨left, d, rfl⟩
      · rw [heq]
        exact hright.isInfix
      · -- the left part would end in a dash
        obtain ⟨front, hfront⟩ := hleft
        rw [List.concat_eq_append, ← List.append_assoc] at hfront
        obtain rfl : d = '-' := List.singleton_inj.mp (List.append_inj'
          (hfront.trans (show separator.tail = ('\n' :: List.replicate 71 '-') ++ ['-'] from rfl))
            rfl).2
        refine absurd ⟨left, right, ?_⟩ not_isInfix_separator
        rw [heq]
        simp

/-- The line break after a message is not part of a marker. -/
theorem isInfix_print_iff : separator <:+: print text ↔ separator <:+: text := by
  rw [print, List.infix_concat_iff]
  refine or_iff_right ?_
  rintro ⟨front, hfront⟩
  rw [separator_eq, ← List.append_assoc] at hfront
  exact absurd (List.singleton_inj.mp (List.append_inj' hfront rfl).2) (by decide)

theorem isInfix_body_iff : separator <:+: body result ↔
    separator <:+: '\n' :: result.status ∨ separator <:+: result.message.getD [] := by
  rw [body, isInfix_append_cons_iff bar_notMem_separator, isInfix_print_iff]

/-! ## What is read -/

theorem orNone_inj {a b : Text} (h : orNone a = orNone b) : a = b := by
  unfold orNone at h
  split_ifs at h with ha hb hb
  · rw [ha, hb]
  · exact Option.some.inj h

/-- Without another marker, the result is read. -/
theorem parseOutput_of_not_isInfix (hstatus : '|' ∉ result.status)
    (h : ¬ separator <:+: body result) :
    parseOutput (printed earlier result) = .ok (received earlier result) := by
  obtain ⟨before, hprinted⟩ := exists_printed_eq earlier result
  have hfound : rindex separator (printed earlier result) = some before.length := by
    rw [hprinted]
    exact rindex_append fun htail => h (isInfix_of_tail htail)
  have hrest : (printed earlier result).drop (before.length + separator.length + 1) =
      result.status ++ '|' :: print (result.message.getD []) := by
    rw [hprinted, drop_marker]
    rfl
  have hstrip : strip isSpace (print (result.message.getD [])) =
      strip isSpace (result.message.getD []) :=
    strip_append_of_forall (List.forall_mem_singleton.mpr rfl)
  simp only [parseOutput, hfound, hrest, splitOnce_append hstatus, hstrip]
  rfl

/-- After another marker, it cannot be: fewer characters follow than it has. -/
theorem parseOutput_ne_of_isInfix (h : separator <:+: body result) :
    parseOutput (printed earlier result) ≠ .ok (received earlier result) := by
  obtain ⟨before, hprinted⟩ := exists_printed_eq earlier result
  obtain ⟨p, hp⟩ : ∃ p, rindex separator (body result) = some p := by
    refine Option.ne_none_iff_exists'.mp fun hnone => ?_
    exact rindex_eq_none_iff.mp hnone h
  obtain ⟨skipped, rest, hbody, rfl⟩ := exists_of_rindex hp
  have hfound : rindex separator (printed earlier result) =
      some (before ++ separator ++ skipped).length := by
    rw [hprinted, ← List.append_assoc, rindex_append_of_eq_some hp]
    exact congrArg some List.length_append.symm
  have hrest : (printed earlier result).drop ((before ++ separator ++ skipped).length +
      separator.length + 1) = rest.drop 1 := by
    rw [← drop_marker (before ++ separator ++ skipped) separator rest 1, hprinted, hbody]
    congr 1
    simp only [List.append_assoc]
  intro hok
  simp only [parseOutput, hfound, hrest] at hok
  cases hsplit : splitOnce '|' (rest.drop 1) with
  | none =>
    rw [hsplit] at hok
    cases hok
  | some found =>
    obtain ⟨status, message⟩ := found
    rw [hsplit] at hok
    have hreceived := Except.ok.inj hok
    have hstatus : status = result.status := congrArg CheckerRunOutput.status hreceived
    have hmessage : strip isSpace message = strip isSpace (result.message.getD []) :=
      orNone_inj (congrArg CheckerRunOutput.message hreceived)
    -- characters that are no white space, on both sides of the marker
    have hcount : (body result).countP (fun c => !isSpace c) =
        skipped.countP (fun c => !isSpace c) + (72 + rest.countP fun c => !isSpace c) := by
      rw [hbody, List.countP_append, List.countP_append, countP_separator]
    have hwhole : (body result).countP (fun c => !isSpace c) =
        result.status.countP (fun c => !isSpace c) +
          ((result.message.getD []).countP (fun c => !isSpace c) + 1) := by
      have hbreak : ['\n'].countP (fun c => !isSpace c) = 0 := by decide
      rw [body, print, List.cons_append, List.countP_cons_of_neg (by decide), List.countP_append,
        List.countP_cons_of_pos (by decide), List.countP_append, hbreak, Nat.add_zero]
    have hparts : (rest.drop 1).countP (fun c => !isSpace c) =
        result.status.countP (fun c => !isSpace c) +
          ((result.message.getD []).countP (fun c => !isSpace c) + 1) := by
      rw [eq_of_splitOnce hsplit, hstatus, List.countP_append, List.countP_cons_of_pos (by decide),
        ← countP_strip isSpace message, hmessage, countP_strip]
    have hle := (List.drop_sublist 1 rest).countP_le (p := fun c => !isSpace c)
    omega

/-- **Which results come back as they were**: those whose status and message are free of the
marker.  The checker may have printed anything before. -/
theorem executeCheckerSubprocess_iff (hstatus : '|' ∉ result.status) (earlier : Text) :
    executeCheckerSubprocess (subprocessMain earlier result) = .ok (received earlier result) ↔
      ¬ separator <:+: '\n' :: result.status ∧ ¬ separator <:+: result.message.getD [] := by
  rw [executeCheckerSubprocess_main, ← not_or, ← isInfix_body_iff]
  constructor
  · exact fun hok h => parseOutput_ne_of_isInfix h hok
  · exact parseOutput_of_not_isInfix hstatus

/-- A checker that prints the marker itself, and a status after it. -/
theorem executeCheckerSubprocess_marked :
    executeCheckerSubprocess (subprocessMain (print separator ++ "SUCCESS|".toList)
        { status := "OFFLINE".toList, message := some " no answer ".toList }) =
      .ok { status := "OFFLINE".toList
            message := some "no answer".toList
            output := some (printed (print separator ++ "SUCCESS|".toList)
              { status := "OFFLINE".toList, message := some " no answer ".toList }) } := by
  refine (executeCheckerSubprocess_iff (by decide) _).mpr ⟨?_, ?_⟩
  · exact fun h => absurd h.length_le (by decide)
  · exact fun h => absurd h.length_le (by decide)

/-- The message quotes an answer of the service that contains the marker. -/
def quoting (answer : Text) : CheckerRunOutput where
  status := "MUMBLE".toList
  message := some ("Unexpected answer: ".toList ++ answer)

/-- The service chooses the status, or makes the caller raise. -/
theorem not_received :
    executeCheckerSubprocess (subprocessMain [] (quoting (print separator ++ "SUCCESS|".toList))) =
        .ok { status := "SUCCESS".toList
              output := some (printed [] (quoting (print separator ++ "SUCCESS|".toList))) } ∧
      executeCheckerSubprocess (subprocessMain [] (quoting separator)) = .error .notEnoughValues ∧
      ¬ ∀ earlier result, '|' ∉ result.status →
        executeCheckerSubprocess (subprocessMain earlier result) =
          .ok (received earlier result) := by
  have hraised : executeCheckerSubprocess (subprocessMain [] (quoting separator)) =
      .error .notEnoughValues := by
    rw [executeCheckerSubprocess_main]
    decide +kernel
  refine ⟨?_, hraised, fun h => ?_⟩
  · rw [executeCheckerSubprocess_main]
    decide +kernel
  · cases hraised.symm.trans (h [] (quoting separator) (by decide))

end Gameserver.Runner
