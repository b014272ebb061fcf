import OpenOJ.Guest.Agent
import OpenOJ.Judge.Evaluator

/-!
# What the host makes of its own agent's reports

The agent and the host bound diagnostics in different units: the agent cuts a line to 4096 bytes,
and the host refuses more than 2048 characters (`FitsDiagnostics`). Everything else that the agent
reports is within the host's bounds: the digest is one in hexadecimal (`isHexDigest_hex`), the
output is bounded by what is captured, and so is the number of diagnostics.

* `exists_report`: the agent's report of a command is within the bounds of the domain exactly when
  its time and its diagnostics are;
* `understands_iff`: so the host understands its own agent (`Understands`: an outcome of the kind
  that the exit code stands for) exactly when no diagnostic is too long, and
  `longLine_not_understood` is a line that is.

The second question is whose fault a time limit is. The agent reports a process that it killed under
an exit code that it reserves for this, and a process may end with that code itself.

* `saysWhy_iff`: a verdict says why the process ended (`SaysWhy`) exactly when the process cannot be
  mistaken for one that was killed (`Guest.Ending.Distinct`), and `ownExit_blames_budget` is one
  that is.
-/

namespace OpenOJ

open Outcome Text Guest

/-- The stage of the plan a guest's stage is. -/
def Guest.Stage.kind : Guest.Stage → StageKind
  | .build => .build
  | .run => .run

private theorem kind_isGuest (stage : Guest.Stage) : stage.kind = .build ∨ stage.kind = .run := by
  cases stage
  · exact .inl rfl
  · exact .inr rfl

/-- Every line that is reported is within what the host accepts of a diagnostic. -/
def FitsDiagnostics (stderr : List UInt8) : Prop :=
  ∀ line ∈ (lines (fromUtf8Lossy stderr)).take bootDiagnostics,
    (truncate (String.ofList line) maxDiagnosticMessage).length ≤ maxDiagnosticMessageLength

/-! ### Digests -/

private theorem isLowerHex_hexDigit :
    ∀ n < 16, (String.utf8EncodeChar (hexDigit n)).all isLowerHex = true := by
  decide +kernel

private theorem isLowerHex_hex (digest : List UInt8) :
    ∀ b ∈ bytes (hex digest), isLowerHex b = true := by
  rw [bytes, hex, String.toList_ofList]
  induction digest with
  | nil => simp
  | cons byte digest ih =>
    have hhigh := isLowerHex_hexDigit (byte.toNat / 16) (by have := byte.toNat_lt; omega)
    have hlow := isLowerHex_hexDigit (byte.toNat % 16) (by omega)
    rw [List.all_eq_true] at hhigh hlow
    simp only [List.flatMap_cons, utf8_append, utf8_cons, utf8_nil, List.append_nil]
    intro b hb
    rcases List.mem_append.mp hb with hb | hb
    · rcases List.mem_append.mp hb with hb | hb
      · exact hhigh b hb
      · exact hlow b hb
    · exact ih b hb

/-- SHA-256 in hexadecimal is a digest as the domain has it. -/
theorem isHexDigest_hex [Sha256] (bs : List UInt8) : IsHexDigest (hex (Sha256.digest bs)) := by
  have hlength := length_hex (Sha256.digest bs)
  rw [Sha256.length] at hlength
  exact ⟨hlength, isLowerHex_hex _⟩

/-! ### Diagnostics -/

/-- The agent's code is one of the domain, once it is in upper case. -/
private theorem validate_guestStderr [Uppercase] :
    validateDiagnosticCode (Uppercase.toUppercase "guest_stderr") = .ok () := by
  have hascii : ∀ b ∈ bytes "guest_stderr", b < 128 := by decide +kernel
  have hupper : ("guest_stderr".map Char.toUpper) = "GUEST_STDERR" := by decide +kernel
  rw [Uppercase.ascii _ hascii, hupper]
  decide +kernel

theorem convertible_buildDiagnostics [Uppercase] {stderr : List UInt8} :
    (∀ diagnostic ∈ buildDiagnostics stderr bootDiagnostics, diagnostic.Convertible) ↔
      FitsDiagnostics stderr := by
  unfold buildDiagnostics
  split_ifs with hnil
  · subst hnil
    exact iff_of_true (by simp) (by simp [FitsDiagnostics, fromUtf8Lossy, lines, lines.go])
  · rw [List.forall_mem_map, FitsDiagnostics]
    refine forall₂_congr fun line _ => ?_
    constructor
    · intro h
      exact h.message
    · intro h
      exact ⟨validate_guestStderr, h⟩

/-! ### The agent's stage outputs -/

section Outcomes

variable [Sha256] [Uppercase] {output : CommandOutput} {program : String}
  {arguments : List String} {elapsed : Nat}

/-- **The agent's report** of a command is within the bounds of the domain exactly when its time and
its diagnostics are. -/
theorem exists_report (hstdout : output.stdout.length ≤ bootOutputLimit)
    (hstderr : output.stderr.length ≤ bootDiagnosticsBytes) (program : String)
    (arguments : List String) (elapsed : Nat) :
    ∃ parts, runCommand (program :: arguments) (.ok (output, elapsed)) = .ok parts ∧
      parts.exitCode = output.exitCode ∧
        (Convertible parts.outputDigest parts.outputBytes parts.usage parts.diagnostics ↔
          (elapsedMillis elapsed).toNat ≤ maxWallTimeMs ∧ FitsDiagnostics output.stderr) := by
  have hlimit : bootOutputLimit + bootDiagnosticsBytes ≤ maxOutputBytes := by decide
  have hmax : maxOutputBytes ≤ Json.Value.u64Max := by decide
  have hlength : (truncateBytes output.stdout bootOutputLimit ++ output.stderr).length ≤
      maxOutputBytes := by
    rw [truncateBytes, List.length_append, List.length_take]
    omega
  have hsize : (UInt64.ofNat (truncateBytes output.stdout bootOutputLimit ++
      output.stderr).length).toNat = (truncateBytes output.stdout bootOutputLimit ++
        output.stderr).length := by
    refine UInt64.toNat_ofNat_of_lt' (Nat.lt_of_le_of_lt hlength ?_)
    decide
  have hgo : refuseIf (Json.Value.u64Max < (truncateBytes output.stdout bootOutputLimit ++
      output.stderr).length) (AgentError.io "output length overflow") = .ok () :=
    refuseIf_neg (by omega)
  have hargv : refuseIf (program :: arguments = []) AgentError.emptyArgv = .ok () :=
    refuseIf_neg (List.cons_ne_nil _ _)
  refine ⟨_, by simp only [runCommand, hargv, ok_bind, hgo]; rfl, rfl, ?_⟩
  constructor
  · intro h
    exact ⟨h.usage.wallTimeMs, convertible_buildDiagnostics.mp h.diagnostics⟩
  · rintro ⟨helapsed, hfits⟩
    refine ⟨⟨helapsed, helapsed, Nat.zero_le _, ?_⟩, convertible_buildDiagnostics.mpr hfits,
      isHexDigest_hex _, ?_⟩
    · exact hsize.trans_le hlength
    · refine (hsize.trans_le hlength).trans ?_
      decide

/-- The host's conversion of a report. -/
def outcomeOf (stage : Guest.Stage) (parts : StageOutputParts) :
    Except ApplicationError StageExecution :=
  executionForStageOutput stage.kind parts.exitCode parts.outputDigest parts.outputBytes parts.usage
    parts.diagnostics

/-- The host makes an outcome of a command. -/
def HasOutcome (stage : Guest.Stage) (argv : List String) (output : CommandOutput) (elapsed : Nat)
    (outcome : StageExecution) : Prop :=
  ∃ parts, runCommand argv (.ok (output, elapsed)) = .ok parts ∧ outcomeOf stage parts = .ok outcome

/-- What has an outcome, and which one. -/
theorem hasOutcome_spec (hstdout : output.stdout.length ≤ bootOutputLimit)
    (hstderr : output.stderr.length ≤ bootDiagnosticsBytes) (stage : Guest.Stage)
    (program : String) (arguments : List String) (elapsed : Nat) :
    ((∃ outcome, HasOutcome stage (program :: arguments) output elapsed outcome) ↔
        (elapsedMillis elapsed).toNat ≤ maxWallTimeMs ∧ FitsDiagnostics output.stderr) ∧
      ∀ outcome, HasOutcome stage (program :: arguments) output elapsed outcome →
        (output.exitCode = 0 → ∃ usage diagnostics evidence,
          outcome = .succeeded usage diagnostics evidence none) ∧
        (output.exitCode ≠ 0 → ∃ usage diagnostics evidence, outcome =
          .rejected (rejectionVerdict stage.kind output.exitCode) usage diagnostics evidence) := by
  obtain ⟨parts, hrun, hexit, hconvertible⟩ :=
    exists_report hstdout hstderr program arguments elapsed
  have hparts {outcome : StageExecution}
      (h : HasOutcome stage (program :: arguments) output elapsed outcome) :
      outcomeOf stage parts = .ok outcome := by
    obtain ⟨parts', hrun', houtcome⟩ := h
    cases hrun.symm.trans hrun'
    exact houtcome
  refine ⟨?_, fun outcome h => ?_⟩
  · rw [← hconvertible, ← exists_executionForStageOutput (kind_isGuest stage)]
    constructor
    · rintro ⟨outcome, h⟩
      exact ⟨outcome, hparts h⟩
    · rintro ⟨outcome, h⟩
      exact ⟨outcome, parts, hrun, h⟩
  · obtain ⟨-, hconverts⟩ :=
      converts_of_executionForStageOutput (kind_isGuest stage) (hparts h)
    rw [← hexit]
    exact ⟨hconverts.succeeded, hconverts.rejected⟩

/-! ### Understanding every output -/

/-- The host understands a command: a zero exit is a success, and any other one a rejection with a
verdict of the stage. -/
def Understands (stage : Guest.Stage) (argv : List String) (output : CommandOutput)
    (elapsed : Nat) : Prop :=
  ∃ outcome, HasOutcome stage argv output elapsed outcome ∧
    (output.exitCode = 0 → ∃ usage diagnostics evidence,
      outcome = .succeeded usage diagnostics evidence none) ∧
    (output.exitCode ≠ 0 → ∃ verdict usage diagnostics evidence,
      outcome = .rejected verdict usage diagnostics evidence ∧
        match stage with
        | .build => verdict = .compileError
        | .run => verdict = .runtimeError ∨ verdict = .timeLimitExceeded)

theorem understands_of_limits (hstdout : output.stdout.length ≤ bootOutputLimit)
    (hstderr : output.stderr.length ≤ bootDiagnosticsBytes) (stage : Guest.Stage) :
    Understands stage (program :: arguments) output elapsed ↔
      (elapsedMillis elapsed).toNat ≤ maxWallTimeMs ∧ FitsDiagnostics output.stderr := by
  obtain ⟨hiff, houtcome⟩ := hasOutcome_spec hstdout hstderr stage program arguments elapsed
  rw [← hiff]
  constructor
  · rintro ⟨outcome, h, -⟩
    exact ⟨outcome, h⟩
  · rintro ⟨outcome, h⟩
    obtain ⟨hzero, hnonzero⟩ := houtcome outcome h
    refine ⟨outcome, h, hzero, fun hne => ?_⟩
    obtain ⟨usage, diagnostics, evidence, rfl⟩ := hnonzero hne
    refine ⟨_, usage, diagnostics, evidence, rfl, ?_⟩
    cases stage with
    | build => rfl
    | run =>
      show (if _ then _ else _) = _ ∨ (if _ then _ else _) = _
      split
      · exact .inr rfl
      · exact .inl rfl

/-- **The host understands its own agent** exactly when no diagnostic is too long. -/
theorem understands_iff (stage : Guest.Stage) (program : String) (arguments : List String)
    (exitCode : Int32) {stdout stderr : List UInt8} (hstdout : stdout.length ≤ bootOutputLimit)
    (hstderr : stderr.length ≤ bootDiagnosticsBytes) {elapsed : Nat}
    (helapsed : elapsed ≤ maxWallTimeMs) :
    Understands stage (program :: arguments) ⟨exitCode, stdout, stderr⟩ elapsed ↔
      FitsDiagnostics stderr := by
  have hmillis : (elapsedMillis elapsed).toNat ≤ maxWallTimeMs := by
    have hmax : maxWallTimeMs ≤ Json.Value.u64Max := by decide
    rw [elapsedMillis, if_pos (helapsed.trans hmax),
      UInt64.toNat_ofNat_of_lt' (Nat.lt_succ_of_le (helapsed.trans hmax))]
    exact helapsed
  rw [understands_of_limits hstdout hstderr stage]
  exact and_iff_right hmillis

/-! ### Whose fault it is -/

/-- The verdict the host derives from a run that ended so. -/
def HasVerdict (argv : List String) (ending : Ending) (elapsed : Nat) (verdict : Verdict) : Prop :=
  ∃ usage diagnostics evidence,
    HasOutcome .run argv ending.output elapsed (.rejected verdict usage diagnostics evidence)

/-- A run that did not exit with zero. -/
def Guest.Ending.Fails : Ending → Prop
  | .ended status _ _ => status.code ≠ some 0
  | .timedOut => True

/-- The verdict says why a run failed: its budget ran out, or it failed by itself. -/
structure SaysWhy (argv : List String) (ending : Ending) (elapsed : Nat) : Prop where
  budget : HasVerdict argv ending elapsed .timeLimitExceeded ↔ ending = .timedOut
  other : ending.Fails → ending ≠ .timedOut → HasVerdict argv ending elapsed .runtimeError

/-- An ending whose verdict can be told: a process that does not end with the agent's own exit code
and, when it fails, has diagnostics that fit. -/
def Guest.Ending.Distinct (elapsed : Nat) : Ending → Prop
  | .ended status _ stderr => status.code ≠ some timeoutExitCode ∧
      (status.code ≠ some 0 → (elapsedMillis elapsed).toNat ≤ maxWallTimeMs ∧
        FitsDiagnostics (readPipe bootDiagnosticsBytes [] stderr))
  | .timedOut => (elapsedMillis elapsed).toNat ≤ maxWallTimeMs

theorem hasVerdict_iff {ending : Ending} {verdict : Verdict} :
    HasVerdict (program :: arguments) ending elapsed verdict ↔
      (ending.output.exitCode ≠ 0 ∧ verdict = rejectionVerdict .run ending.output.exitCode) ∧
        (elapsedMillis elapsed).toNat ≤ maxWallTimeMs ∧ FitsDiagnostics ending.output.stderr := by
  obtain ⟨hstdout, hstderr⟩ := ending.length_output_le
  obtain ⟨hiff, houtcome⟩ := hasOutcome_spec hstdout hstderr .run program arguments elapsed
  constructor
  · rintro ⟨usage, diagnostics, evidence, h⟩
    obtain ⟨hzero, hnonzero⟩ := houtcome _ h
    refine ⟨?_, hiff.mp ⟨_, h⟩⟩
    by_cases hexit : ending.output.exitCode = 0
    · obtain ⟨_, _, _, heq⟩ := hzero hexit
      cases heq
    · obtain ⟨_, _, _, heq⟩ := hnonzero hexit
      cases heq
      exact ⟨hexit, rfl⟩
  · rintro ⟨⟨hexit, rfl⟩, hfits⟩
    obtain ⟨outcome, h⟩ := hiff.mpr hfits
    obtain ⟨usage, diagnostics, evidence, rfl⟩ := (houtcome outcome h).2 hexit
    exact ⟨usage, diagnostics, evidence, h⟩

/-- A killed process has its verdict. -/
private theorem saysWhy_timedOut :
    SaysWhy (program :: arguments) .timedOut elapsed ↔ Ending.timedOut.Distinct elapsed := by
  have hfits : FitsDiagnostics Ending.timedOut.output.stderr := by
    show ∀ line ∈ _, _
    decide +kernel
  have hverdict : HasVerdict (program :: arguments) .timedOut elapsed .timeLimitExceeded ↔
      (elapsedMillis elapsed).toNat ≤ maxWallTimeMs := by
    rw [hasVerdict_iff, and_iff_right ⟨by decide, rfl⟩]
    exact and_iff_left hfits
  constructor
  · intro h
    exact hverdict.mp (h.budget.mpr rfl)
  · intro helapsed
    exact ⟨iff_of_true (hverdict.mpr helapsed) rfl, fun _ hne => absurd rfl hne⟩

section Ended

variable {status : ExitStatus} {stdout stderr : List (List UInt8)}

omit [Sha256] [Uppercase] in
/-- A process is reported with an exit code that is not its own only if a signal ended it. -/
private theorem exitCode_ne {code : Int32} (hsignaled : -1 ≠ code) (h : status.code ≠ some code) :
    (Ending.ended status stdout stderr).output.exitCode ≠ code := by
  cases status with
  | exited own => exact fun heq => h (congrArg some heq)
  | signaled signal => exact hsignaled

/-- The process's own exit code is taken for the agent's. -/
private theorem not_saysWhy_of_timeoutExitCode (hcode : status.code = some timeoutExitCode) :
    ¬SaysWhy (program :: arguments) (.ended status stdout stderr) elapsed := by
  intro h
  have hfails : (Ending.ended status stdout stderr).Fails := by
    show status.code ≠ some 0
    rw [hcode]
    decide
  obtain ⟨⟨-, hverdict⟩, -⟩ := hasVerdict_iff.mp (h.other hfails nofun)
  have hexit : (Ending.ended status stdout stderr).output.exitCode = timeoutExitCode := by
    show status.code.getD (-1) = _
    rw [hcode]
    rfl
  rw [hexit] at hverdict
  cases hverdict

/-- With any other exit code, a process that failed by itself has its verdict when the host
understands its report. -/
private theorem saysWhy_ended (hcode : status.code ≠ some timeoutExitCode) :
    SaysWhy (program :: arguments) (.ended status stdout stderr) elapsed ↔
      (Ending.ended status stdout stderr).Distinct elapsed := by
  have hne : Ending.ended status stdout stderr ≠ .timedOut := nofun
  have hrejection : rejectionVerdict .run (Ending.ended status stdout stderr).output.exitCode =
      .runtimeError := if_neg (exitCode_ne (by decide) hcode)
  have hbudget : ¬HasVerdict (program :: arguments) (.ended status stdout stderr) elapsed
      .timeLimitExceeded := by
    rw [hasVerdict_iff, hrejection]
    rintro ⟨⟨-, ⟨⟩⟩, -⟩
  constructor
  · intro h
    refine ⟨hcode, fun hfails => ?_⟩
    exact (hasVerdict_iff.mp (h.other hfails hne)).2
  · rintro ⟨-, hfits⟩
    refine ⟨iff_of_false hbudget hne, fun hfails _ => ?_⟩
    exact hasVerdict_iff.mpr
      ⟨⟨exitCode_ne (by decide) hfails, hrejection.symm⟩, hfits hfails⟩

end Ended

/-- **A time limit is a spent budget** exactly when no process can be mistaken for one that was
killed. -/
theorem saysWhy_iff (program : String) (arguments : List String) (ending : Ending)
    (elapsed : Nat) :
    SaysWhy (program :: arguments) ending elapsed ↔ ending.Distinct elapsed := by
  cases ending with
  | timedOut => exact saysWhy_timedOut
  | ended status stdout stderr =>
    by_cases hcode : status.code = some timeoutExitCode
    · exact iff_of_false (not_saysWhy_of_timeoutExitCode hcode) fun h => h.1 hcode
    · exact saysWhy_ended hcode

end Outcomes

/-! ### Fixtures -/

section Fixtures

attribute [local instance] asciiUppercase fixtureSha256

/-- A run that prints a short line to its standard error is understood. -/
theorem understands_fixture :
    Understands .run ["printf", "ok"] ⟨1, [], [111, 107]⟩ 5 :=
  (understands_iff .run "printf" ["ok"] 1 (by decide) (by decide) (by decide)).mpr
    (show ∀ line ∈ _, _ by decide +kernel)

/-- A successful build with one line of 2049 characters on its standard error has no outcome. -/
theorem longLine_not_understood :
    ¬Understands .build ["printf", "ok"] ⟨0, [], List.replicate 2049 120⟩ 5 := by
  rw [understands_of_limits (Nat.zero_le _) (by decide +kernel)]
  rintro ⟨-, hfits⟩
  have hascii : ∀ b ∈ List.replicate 2049 (120 : UInt8), b < 128 := fun b hb =>
    (List.eq_of_mem_replicate hb).trans_lt (by decide)
  have hlossy : fromUtf8Lossy (List.replicate 2049 120) = List.replicate 2049 'x' := by
    rw [fromUtf8Lossy_ascii hascii, List.map_replicate]
    rfl
  have hlines : lines (List.replicate 2049 'x') = [List.replicate 2049 'x'] := by
    refine lines_of_no_feed (fun hmem => ?_) (List.ne_nil_of_length_pos ?_)
    · exact absurd (List.eq_of_mem_replicate hmem) (by decide)
    · rw [List.length_replicate]
      decide
  have hlen : len (String.ofList (List.replicate 2049 'x')) = 2049 := by
    rw [len, bytes, String.toList_ofList, ← hlossy, utf8_fromUtf8Lossy hascii,
      List.length_replicate]
  have hlong := hfits (List.replicate 2049 'x')
    (by rw [hlossy, hlines]; exact List.mem_singleton_self _)
  rw [truncate, if_pos (by rw [hlen]; decide), String.length_ofList,
    List.length_replicate] at hlong
  exact absurd hlong (by decide)

/-- A process that exits with 124 by itself gets the verdict of one that was killed. -/
theorem ownExit_blames_budget :
    ¬SaysWhy ["printf", "ok"] (.ended (.exited 124) [] []) 5 :=
  not_saysWhy_of_timeoutExitCode rfl

end Fixtures
end OpenOJ
