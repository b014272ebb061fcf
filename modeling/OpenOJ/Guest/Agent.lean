import OpenOJ.Foundation.Lossy
import OpenOJ.Guest.Message

/-!
# The command agent

What the agent inside a guest makes of a command it has run: how the process ended, what of its
output was captured, and the stage output built from both.

* `readPipe` reads a pipe to its end, keeps as much as a limit allows and drops the rest.
  `readPipe_reads` says that what is kept is the first bytes of the pipe, however it is split into
  reads, also where a read crosses the limit;
* an `Ending` is what came of the wait: a process that ended with its status and the reads of its
  two pipes, or one whose time was up. `Ending.output` is the output that is reported of it, with
  `timeoutExitCode` for the second;
* `buildDiagnostics` makes a diagnostic of each line of the error output, up to a number of them;
* `runCommand` puts exit code, digest, output length, usage and diagnostics together, and
  `stageOutput` is the message.

The digest is a parameter (`Sha256`): nothing here depends on which function of the output it is.
-/

namespace OpenOJ.Guest

open Outcome Text

/-- Why the agent gives up on a message. -/
inductive AgentError where
  | io (message : String)
  | emptyArgv
  | unsafeName (name : String)
  | unexpectedMessage (messageType : String)
  deriving DecidableEq

/-- SHA-256, of which only the length of its digests is used. -/
class Sha256 where
  digest : List UInt8 → List UInt8
  length : ∀ bs, (digest bs).length = 32

/-- `TIMEOUT_EXIT_CODE`. -/
def timeoutExitCode : Int32 := 124

def bootOutputLimit : Nat := 1048576

def bootDiagnostics : Nat := 32

def bootDiagnosticsBytes : Nat := 8192

/-! ### Endings -/

/-- How a process ended: by itself, or by a signal. -/
inductive ExitStatus where
  | exited (code : Int32)
  | signaled (signal : Nat)
  deriving DecidableEq

/-- `ExitStatus::code`. -/
def ExitStatus.code : ExitStatus → Option Int32
  | .exited code => some code
  | .signaled _ => none

structure CommandOutput where
  exitCode : Int32
  stdout : List UInt8
  stderr : List UInt8
  deriving DecidableEq

/-- The loop of `read_pipe`: what successive reads bring, until the end or the limit. -/
def readPipe (limit : Nat) (out : List UInt8) : List (List UInt8) → List UInt8
  | [] => out
  | chunk :: reads =>
    if limit ≤ out.length then out
    else readPipe limit (out ++ chunk.take (min (limit - out.length) chunk.length)) reads

/-- What is captured never exceeds the limit. -/
theorem length_readPipe_le {limit : Nat} {out : List UInt8} (h : out.length ≤ limit)
    (reads : List (List UInt8)) : (readPipe limit out reads).length ≤ limit := by
  induction reads generalizing out with
  | nil => exact h
  | cons chunk reads ih =>
    unfold readPipe
    split
    · exact h
    · refine ih ?_
      rw [List.length_append, List.length_take]
      omega

/-- Successive reads of a stream into the buffer of `read_pipe`, each of which brings something
until the stream ends. -/
structure Reads (stream : List UInt8) (reads : List (List UInt8)) : Prop where
  content : reads.flatten = stream
  sizes : ∀ chunk ∈ reads, 1 ≤ chunk.length ∧ chunk.length ≤ 8192

/-- What is captured is what there is room for after what has been captured before. -/
theorem readPipe_eq {limit : Nat} {out : List UInt8} (h : out.length ≤ limit)
    (reads : List (List UInt8)) :
    readPipe limit out reads = out ++ reads.flatten.take (limit - out.length) := by
  induction reads generalizing out with
  | nil => rw [readPipe, List.flatten_nil, List.take_nil, List.append_nil]
  | cons chunk reads ih =>
    rw [readPipe, List.flatten_cons]
    split_ifs with hfull
    · rw [Nat.sub_eq_zero_of_le hfull, List.take_zero, List.append_nil]
    · -- the chunk fits, or it is cut where the limit is
      have hlength : (out ++ chunk.take (min (limit - out.length) chunk.length)).length =
          out.length + min (limit - out.length) chunk.length := by
        rw [List.length_append, List.length_take, Nat.min_assoc, Nat.min_self]
      rw [ih (by omega), hlength, List.take_append, List.append_assoc]
      congr 2
      · rcases Nat.le_total (limit - out.length) chunk.length with hcut | hfits
        · rw [Nat.min_eq_left hcut]
        · rw [Nat.min_eq_right hfits, List.take_length, List.take_of_length_le hfits]
      · congr 1
        omega

/-- **Bounded capture.** However a stream is split into reads, its first bytes up to the limit are
captured. -/
theorem readPipe_reads (limit : Nat) {stream : List UInt8} {reads : List (List UInt8)}
    (h : Reads stream reads) :
    readPipe limit [] reads = stream.take (min limit stream.length) := by
  rw [readPipe_eq (Nat.zero_le limit), List.nil_append, List.length_nil, Nat.sub_zero, h.content]
  rcases Nat.le_total limit stream.length with hcut | hfits
  · rw [Nat.min_eq_left hcut]
  · rw [Nat.min_eq_right hfits, List.take_length, List.take_of_length_le hfits]

/-- Of four bytes in three reads, the second of which crosses the limit. -/
theorem readPipe_reads_crossing :
    readPipe 2 [] [[1], [2, 3], [4]] = [1, 2, 3, 4].take (min 2 [1, 2, 3, 4].length) :=
  readPipe_reads 2 ⟨rfl, by decide⟩

/-- How a command ended: it exited, and its pipes were read, or its budget ran out and the agent
killed it. -/
inductive Ending where
  | ended (status : ExitStatus) (stdout stderr : List (List UInt8))
  | timedOut
  deriving DecidableEq

/-- What `wait_with_timeout` answers for an ending. -/
def Ending.output : Ending → CommandOutput
  | .ended status stdout stderr =>
    { exitCode := status.code.getD (-1)
      stdout := readPipe bootOutputLimit [] stdout
      stderr := readPipe bootDiagnosticsBytes [] stderr }
  | .timedOut =>
    { exitCode := timeoutExitCode, stdout := [], stderr := bytes "guest stage timed out" }

theorem Ending.length_output_le (ending : Ending) :
    ending.output.stdout.length ≤ bootOutputLimit ∧
      ending.output.stderr.length ≤ bootDiagnosticsBytes := by
  cases ending with
  | ended status stdout stderr =>
    exact ⟨length_readPipe_le (Nat.zero_le _) _, length_readPipe_le (Nat.zero_le _) _⟩
  | timedOut => decide +kernel

/-! ### Stage outputs -/

/-- A hexadecimal digit, in lower case. -/
def hexDigit (n : Nat) : Char :=
  if n < 10 then Char.ofNat (48 + n) else Char.ofNat (87 + n)

/-- `hex`. -/
def hex (digest : List UInt8) : String :=
  String.ofList (digest.flatMap fun byte =>
    [hexDigit (byte.toNat / 16), hexDigit (byte.toNat % 16)])

private theorem length_hexDigit : ∀ n < 16, (String.utf8EncodeChar (hexDigit n)).length = 1 := by
  decide +kernel

/-- A digest in hexadecimal has two digits for each of its bytes. -/
theorem length_hex (digest : List UInt8) : (bytes (hex digest)).length = 2 * digest.length := by
  rw [bytes, hex, String.toList_ofList]
  induction digest with
  | nil => rfl
  | cons byte digest ih =>
    have hbyte := byte.toNat_lt
    have hhigh := length_hexDigit (byte.toNat / 16) (by omega)
    have hlow := length_hexDigit (byte.toNat % 16) (by omega)
    simp only [List.flatMap_cons, utf8_append, utf8_cons, utf8_nil, List.append_nil,
      List.length_append, List.length_cons, hhigh, hlow, ih]
    omega

/-- `truncate_bytes`. -/
def truncateBytes (bytes : List UInt8) (limit : Nat) : List UInt8 := bytes.take limit

/-- `build_diagnostics`. -/
def buildDiagnostics (stderr : List UInt8) (limit : Nat) : List GuestDiagnostic :=
  if stderr = [] then []
  else ((lines (fromUtf8Lossy stderr)).take limit).map fun line =>
    GuestDiagnostic.new "guest_stderr" (String.ofList line)

/-- `u64::try_from(elapsed.as_millis()).unwrap_or_default()`. -/
def elapsedMillis (elapsed : Nat) : UInt64 :=
  if elapsed ≤ Json.Value.u64Max then UInt64.ofNat elapsed else 0

structure StageOutputParts where
  exitCode : Int32
  outputDigest : String
  outputBytes : UInt64
  usage : GuestUsage
  diagnostics : List GuestDiagnostic

/-- `run_command`, with what `spawn` and `wait_with_timeout` came to, and the time they took. -/
def runCommand [Sha256] (argv : List String)
    (waited : Except AgentError (CommandOutput × Nat)) : Except AgentError StageOutputParts := do
  refuseIf (argv = []) .emptyArgv
  let (output, elapsed) ← waited
  let stdout := truncateBytes output.stdout bootOutputLimit
  let combined := stdout ++ output.stderr
  let digest := hex (Sha256.digest combined)
  refuseIf (Json.Value.u64Max < combined.length) (.io "output length overflow")
  let outputBytes := UInt64.ofNat combined.length
  let diagnostics := buildDiagnostics output.stderr bootDiagnostics
  let usage : GuestUsage := ⟨elapsedMillis elapsed, elapsedMillis elapsed, 0, outputBytes⟩
  return ⟨output.exitCode, digest, outputBytes, usage, diagnostics⟩

/-- `stage_output`. -/
def stageOutput [Sha256] (stage : Stage) (argv : List String)
    (waited : Except AgentError (CommandOutput × Nat)) : Except AgentError Message := do
  let parts ← runCommand argv waited
  return .stageOutput stage parts.exitCode parts.outputDigest parts.outputBytes parts.usage
    parts.diagnostics

/-- A stand-in with digests of the right length. -/
@[reducible]
def fixtureSha256 : Sha256 where
  digest _ := List.replicate 32 0
  length _ := List.length_replicate

end OpenOJ.Guest
