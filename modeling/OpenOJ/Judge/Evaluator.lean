import OpenOJ.Application.Evaluate
import OpenOJ.Foundation.Lossy
import OpenOJ.Guest.Message

/-!
# Reading a stage output

The evaluator turns what a guest reports about a build or a run into the outcome of that stage
(`executionForStageOutput`). It trusts nothing in the report: usage, diagnostics and digest are all
checked against the bounds of the domain, and one value out of bounds makes the whole conversion
fail.

* `usageFromGuest`, `diagnosticsFromGuest` and `contentDigest` convert the three, and
  `stdoutEvidence` makes the one piece of evidence there is, an artifact with the digest of the
  output;
* the exit code decides: zero is a success, and any other a rejection, with the verdict of the stage
  (`rejectionVerdict`), which for a run depends on whether the code is the one that the agent
  reserves for a time limit (`guestTimeoutExitCode`);
* `hostCheckDecision` is the decision of the check stage, which the host makes itself.

`exists_executionForStageOutput` says that the conversion of a build or a run succeeds exactly
within the bounds of the domain (`Convertible`), and `converts_of_executionForStageOutput` what it
then answers (`Converts`). The upper-casing of a standard library, by which codes of diagnostics are
made, is a parameter (`Uppercase`), with the one fact about it that is needed.
-/

namespace OpenOJ

open Outcome Text

/-- `str::to_uppercase`: a table of Unicode that agrees with ASCII on ASCII. -/
class Uppercase where
  toUppercase : String → String
  ascii : ∀ s, (∀ b ∈ bytes s, b < 128) → toUppercase s = s.map Char.toUpper

/-- `EVIDENCE_STDOUT`. -/
def evidenceStdout : String := "stdout"

/-- `MEDIA_PLAIN_TEXT`. -/
def mediaPlainText : String := "text/plain"

/-- `GUEST_TIMEOUT_EXIT_CODE`. -/
def guestTimeoutExitCode : Int32 := 124

/-- A guest's usage, before the limits of the domain. -/
def Guest.GuestUsage.parts (value : Guest.GuestUsage) : ResourceUsageParts where
  cpuTimeMs := value.cpuTimeMs.toNat
  wallTimeMs := value.wallTimeMs.toNat
  memoryPeakBytes := value.memoryPeakBytes.toNat
  outputBytes := value.outputBytes.toNat

/-- `usage_from_guest`. -/
def usageFromGuest (value : Guest.GuestUsage) : Except ApplicationError ResourceUsage :=
  applicationFromDomain (ResourceUsage.new value.parts)

/-- `content_digest`. -/
def contentDigest (guestDigest : String) : Except ApplicationError ContentDigest :=
  applicationFromDomain (ContentDigest.parse ("sha256:" ++ guestDigest))

/-- `short_token`. -/
def shortToken (digest : String) (maximum : Nat) : String :=
  String.ofList (fromUtf8Lossy ((bytes digest).take (min (bytes digest).length maximum)))

/-- `build_evidence`. -/
def buildEvidence (kind : EvidenceKind) (guestDigest : String) (outputBytes : UInt64) :
    Except ApplicationError EvidenceRef := do
  let digest ← contentDigest guestDigest
  let artifactId ← applicationFromDomain
    (OpaqueId.parse "artifact_id" ("artifact-" ++ shortToken guestDigest 48))
  let mediaType ← applicationFromDomain (MediaType.parse mediaPlainText)
  let artifact ← applicationFromDomain
    (ArtifactRef.new artifactId digest mediaType outputBytes.toNat .privateArtifact)
  let evidenceId ← applicationFromDomain
    (OpaqueId.parse "evidence_id" ("evidence-" ++ kind.value ++ "-" ++ shortToken guestDigest 32))
  return ⟨evidenceId, kind, some artifact⟩

/-- `stdout_evidence`. -/
def stdoutEvidence (guestDigest : String) (outputBytes : UInt64) :
    Except ApplicationError EvidenceRef := do
  let kind ← applicationFromDomain (EvidenceKind.parse evidenceStdout)
  buildEvidence kind guestDigest outputBytes

/-- `host_check_decision`. -/
def hostCheckDecision (exitCode : Int32) : Except ApplicationError Decision := do
  let verdict := if exitCode = 0 then Verdict.accepted else .wrongAnswer
  let score ← applicationFromDomain (if exitCode = 0 then Score.new 1 1 else Score.new 0 1)
  Decision.new verdict score

section Conversion

variable [Uppercase]

/-- One item of `diagnostics_from_guest`. -/
def diagnosticFromGuest (value : Guest.GuestDiagnostic) : Except ApplicationError Diagnostic := do
  let code ← applicationFromDomain (DiagnosticCode.parse (Uppercase.toUppercase value.code))
  applicationFromDomain (Diagnostic.new code value.message value.truncated)

/-- `diagnostics_from_guest`. -/
def diagnosticsFromGuest (values : List Guest.GuestDiagnostic) :
    Except ApplicationError (List Diagnostic) :=
  values.mapM diagnosticFromGuest

/-- The verdict of `execution_for_stage_output` on a stage that did not exit with zero. -/
def rejectionVerdict (stage : StageKind) (exitCode : Int32) : Verdict :=
  match stage with
  | .build => .compileError
  | .run => if exitCode = guestTimeoutExitCode then .timeLimitExceeded else .runtimeError
  | .prepare | .check | .aggregate => .systemError

/-- `execution_for_stage_output`. -/
def executionForStageOutput (stage : StageKind) (exitCode : Int32) (guestDigest : String)
    (outputBytes : UInt64) (usage : Guest.GuestUsage)
    (guestDiagnostics : List Guest.GuestDiagnostic) : Except ApplicationError StageExecution := do
  let usage ← usageFromGuest usage
  let diagnostics ← diagnosticsFromGuest guestDiagnostics
  let evidence ← (match stage with
    | .build | .run => do return [← stdoutEvidence guestDigest outputBytes]
    | .prepare | .check | .aggregate => .ok [] : Except ApplicationError (List EvidenceRef))
  if exitCode = 0 then return .succeeded usage diagnostics evidence none
  else return .rejected (rejectionVerdict stage exitCode) usage diagnostics evidence

end Conversion

/-! ### When a report can be converted -/

/-- 64 lowercase hexadecimal digits. -/
structure IsHexDigest (digest : String) : Prop where
  length : (bytes digest).length = 64
  hex : ∀ b ∈ bytes digest, isLowerHex b = true

theorem exists_contentDigest_iff {guestDigest : String} :
    (∃ digest, contentDigest guestDigest = .ok digest) ↔ IsHexDigest guestDigest := by
  have hstrip : stripSha256 ("sha256:" ++ guestDigest) = some (bytes guestDigest) := by
    have htag : bytes "sha256:" = sha256Tag := by decide +kernel
    rw [stripSha256, bytes_append, htag,
      if_pos (List.isPrefixOf_iff_prefix.mpr (List.prefix_append _ _)), List.drop_left]
  have hvalid : validateContentDigest ("sha256:" ++ guestDigest) = .ok () ↔
      IsHexDigest guestDigest := by
    rw [validateContentDigest, hstrip]
    simp only [ne_eq, Bool.not_eq_true', ite_eq_right_iff, reduceCtorEq, imp_false, not_or,
      not_not, Bool.not_eq_false, List.all_eq_true]
    constructor
    · rintro ⟨hlength, hhex⟩
      exact ⟨hlength, hhex⟩
    · rintro ⟨hlength, hhex⟩
      exact ⟨hlength, hhex⟩
  simp only [contentDigest, applicationFromDomain_eq_ok]
  rw [← hvalid]
  constructor
  · rintro ⟨digest, hparse⟩
    unfold ContentDigest.parse at hparse
    split at hparse
    · assumption
    · cases hparse
  · intro h
    exact ⟨⟨_, h⟩, ContentDigest.parse_value ⟨_, h⟩⟩

/-- Hexadecimal digits are ASCII letters and digits. -/
private theorem isAsciiAlphanumeric_of_hex {b : UInt8} (h : isLowerHex b = true) :
    isAsciiAlphanumeric b = true ∧ b < 128 := by
  have hall : ∀ b, isLowerHex b = true → isAsciiAlphanumeric b = true ∧ b < 128 := by
    rw [Text.forall_byte]
    decide +kernel
  exact hall b h

theorem bytes_shortToken {digest : String} (h : IsHexDigest digest) {maximum : Nat}
    (hmaximum : maximum ≤ 64) :
    bytes (shortToken digest maximum) = (bytes digest).take maximum := by
  have hascii : ∀ b ∈ (bytes digest).take maximum, b < 128 := fun b hb =>
    (isAsciiAlphanumeric_of_hex (h.hex b (List.mem_of_mem_take hb))).2
  rw [shortToken, h.length, Nat.min_eq_right hmaximum, bytes, String.toList_ofList,
    utf8_fromUtf8Lossy hascii]

/-- An identifier that starts with a word and goes on with digits of a digest. -/
private theorem exists_parse_token {field : String} {before digest : String} {maximum : Nat}
    (hbefore : validateOpaque before field maxOpaqueIdLength = .ok ()) (h : IsHexDigest digest)
    (hmaximum : (bytes before).length + maximum ≤ maxOpaqueIdLength) :
    ∃ id, OpaqueId.parse field (before ++ shortToken digest maximum) = .ok id := by
  have htoken : bytes (shortToken digest maximum) = (bytes digest).take maximum := by
    refine bytes_shortToken h ?_
    have hle : maxOpaqueIdLength = 64 := rfl
    omega
  have hvalid : validateOpaque (before ++ shortToken digest maximum) field maxOpaqueIdLength =
      .ok () := by
    obtain ⟨first, rest, hbytes, -, hfirst, hrest⟩ := validateOpaque_eq_ok.mp hbefore
    refine validateOpaque_eq_ok.mpr ⟨first, rest ++ (bytes digest).take maximum, ?_, ?_, hfirst, ?_⟩
    · rw [bytes_append, htoken, hbytes, List.cons_append]
    · rw [bytes_append, htoken, List.length_append, List.length_take]
      omega
    · intro b hb
      rcases List.mem_append.mp hb with hb | hb
      · exact hrest b hb
      · rw [(isAsciiAlphanumeric_of_hex (h.hex b (List.mem_of_mem_take hb))).1]
        rfl
  exact ⟨⟨_, hvalid⟩, OpaqueId.parse_value ⟨_, hvalid⟩⟩

/-- Evidence is built exactly from a digest and a size within bounds. -/
theorem exists_stdoutEvidence {guestDigest : String} {outputBytes : UInt64} :
    (∃ evidence, stdoutEvidence guestDigest outputBytes = .ok evidence) ↔
      IsHexDigest guestDigest ∧ outputBytes.toNat ≤ maxArtifactBytes := by
  -- the constants parse
  have hkind : ∃ kind, EvidenceKind.parse evidenceStdout = .ok kind ∧ kind.value = "stdout" := by
    have hvalid : validateLowerToken "stdout" "evidence_kind" maxEvidenceKindLength = .ok () := by
      decide +kernel
    exact ⟨⟨_, hvalid⟩, EvidenceKind.parse_value ⟨_, hvalid⟩, rfl⟩
  have hmedia : ∃ media, MediaType.parse mediaPlainText = .ok media := by
    have hvalid : validateMediaType "text/plain" = .ok () := by decide +kernel
    exact ⟨⟨_, hvalid⟩, MediaType.parse_value ⟨_, hvalid⟩⟩
  obtain ⟨kind, hkind, hvalue⟩ := hkind
  obtain ⟨media, hmedia⟩ := hmedia
  simp only [stdoutEvidence, hkind, applicationFromDomain, translate_ok, ok_bind]
  constructor
  · rintro ⟨evidence, h⟩
    obtain ⟨digest, hdigest, h⟩ := bind_eq_ok.mp h
    obtain ⟨id, -, h⟩ := bind_eq_ok.mp h
    obtain ⟨_, -, h⟩ := bind_eq_ok.mp h
    obtain ⟨artifact, hartifact, -⟩ := bind_eq_ok.mp h
    refine ⟨exists_contentDigest_iff.mp ⟨digest, hdigest⟩, ?_⟩
    rw [applicationFromDomain_eq_ok, ArtifactRef.new] at hartifact
    split at hartifact
    · assumption
    · cases hartifact
  · rintro ⟨hhex, hsize⟩
    obtain ⟨digest, hdigest⟩ := exists_contentDigest_iff.mpr hhex
    obtain ⟨artifactId, hartifact⟩ : ∃ id, OpaqueId.parse "artifact_id"
        ("artifact-" ++ shortToken guestDigest 48) = .ok id :=
      exists_parse_token (by decide +kernel) hhex (by decide +kernel)
    obtain ⟨evidenceId, hevidence⟩ : ∃ id, OpaqueId.parse "evidence_id"
        ("evidence-" ++ "stdout" ++ "-" ++ shortToken guestDigest 32) = .ok id :=
      exists_parse_token (by decide +kernel) hhex (by decide +kernel)
    rw [buildEvidence, hvalue]
    simp only [hdigest, hartifact, hmedia, hevidence, ArtifactRef.new, hsize, dif_pos,
      applicationFromDomain, translate_ok, ok_bind]
    exact ⟨_, rfl⟩

section Conversion

variable [Uppercase]

/-- A guest's diagnostic that can be converted. -/
structure Guest.GuestDiagnostic.Convertible (value : Guest.GuestDiagnostic) : Prop where
  code : validateDiagnosticCode (Uppercase.toUppercase value.code) = .ok ()
  message : value.message.length ≤ maxDiagnosticMessageLength

theorem exists_diagnosticFromGuest {value : Guest.GuestDiagnostic} :
    (∃ diagnostic, diagnosticFromGuest value = .ok diagnostic) ↔ value.Convertible := by
  constructor
  · rintro ⟨diagnostic, h⟩
    obtain ⟨code, hcode, h⟩ := bind_eq_ok.mp h
    rw [applicationFromDomain_eq_ok] at hcode h
    constructor
    · unfold DiagnosticCode.parse at hcode
      split at hcode
      · assumption
      · cases hcode
    · unfold Diagnostic.new at h
      split at h
      · assumption
      · cases h
  · rintro ⟨hcode, hmessage⟩
    have hparse : DiagnosticCode.parse (Uppercase.toUppercase value.code) = .ok ⟨_, hcode⟩ :=
      DiagnosticCode.parse_value ⟨_, hcode⟩
    simp only [diagnosticFromGuest, hparse, applicationFromDomain, translate_ok, ok_bind,
      Diagnostic.new, hmessage, dif_pos]
    exact ⟨_, rfl⟩

theorem exists_diagnosticsFromGuest {values : List Guest.GuestDiagnostic} :
    (∃ diagnostics, diagnosticsFromGuest values = .ok diagnostics) ↔
      ∀ value ∈ values, value.Convertible := by
  simp only [diagnosticsFromGuest, mapM_eq_ok]
  induction values with
  | nil => exact iff_of_true ⟨[], .nil⟩ (by simp)
  | cons value values ih =>
    rw [List.forall_mem_cons, ← ih, ← exists_diagnosticFromGuest]
    constructor
    · rintro ⟨_, hcons⟩
      cases hcons with
      | cons hhead htail => exact ⟨⟨_, hhead⟩, _, htail⟩
    · rintro ⟨⟨_, hhead⟩, _, htail⟩
      exact ⟨_, .cons hhead htail⟩

/-- A stage output within every bound of the domain. -/
structure Convertible (guestDigest : String) (outputBytes : UInt64) (usage : Guest.GuestUsage)
    (diagnostics : List Guest.GuestDiagnostic) : Prop where
  usage : usage.parts.Bounded
  diagnostics : ∀ diagnostic ∈ diagnostics, diagnostic.Convertible
  digest : IsHexDigest guestDigest
  size : outputBytes.toNat ≤ maxArtifactBytes

/-- What a stage output is converted to. -/
structure Converts (stage : StageKind) (exitCode : Int32) (usage : Guest.GuestUsage)
    (diagnostics : List Guest.GuestDiagnostic) (outcome : StageExecution) : Prop where
  usage : outcome.usage.toResourceUsageParts = usage.parts
  diagnostics : outcome.diagnostics.length = diagnostics.length
  evidence : outcome.evidence.length = 1
  succeeded : exitCode = 0 → ∃ usage diagnostics evidence,
    outcome = .succeeded usage diagnostics evidence none
  rejected : exitCode ≠ 0 → ∃ usage diagnostics evidence,
    outcome = .rejected (rejectionVerdict stage exitCode) usage diagnostics evidence

theorem converts_of_executionForStageOutput {stage : StageKind} {exitCode : Int32}
    {guestDigest : String} {outputBytes : UInt64} {usage : Guest.GuestUsage}
    {diagnostics : List Guest.GuestDiagnostic} {outcome : StageExecution}
    (hstage : stage = .build ∨ stage = .run)
    (h : executionForStageOutput stage exitCode guestDigest outputBytes usage diagnostics =
      .ok outcome) :
    Convertible guestDigest outputBytes usage diagnostics ∧
      Converts stage exitCode usage diagnostics outcome := by
  obtain ⟨used, husage, h⟩ := bind_eq_ok.mp h
  obtain ⟨read, hread, h⟩ := bind_eq_ok.mp h
  obtain ⟨items, hitems, h⟩ := bind_eq_ok.mp h
  obtain ⟨evidence, hevidence, rfl⟩ : ∃ evidence,
      stdoutEvidence guestDigest outputBytes = .ok evidence ∧ items = [evidence] := by
    rcases hstage with rfl | rfl <;>
    · obtain ⟨evidence, hevidence, hitems⟩ := bind_eq_ok.mp hitems
      exact ⟨evidence, hevidence, (Except.ok.inj hitems).symm⟩
  rw [usageFromGuest, applicationFromDomain_eq_ok] at husage
  obtain ⟨hhex, hsize⟩ := exists_stdoutEvidence.mp ⟨evidence, hevidence⟩
  have hlength : read.length = diagnostics.length := (mapM_eq_ok.mp hread).length_eq.symm
  refine ⟨⟨ResourceUsage.exists_new.mp ⟨used, husage⟩,
    exists_diagnosticsFromGuest.mp ⟨read, hread⟩, hhex, hsize⟩, ?_⟩
  split_ifs at h with hexit
  · cases h
    exact ⟨ResourceUsage.new_eq_ok.mp husage, hlength, rfl, fun _ => ⟨_, _, _, rfl⟩,
      fun hne => absurd hexit hne⟩
  · cases h
    exact ⟨ResourceUsage.new_eq_ok.mp husage, hlength, rfl, fun hzero => absurd hzero hexit,
      fun _ => ⟨_, _, _, rfl⟩⟩

/-- **The conversion of a build or a run** succeeds exactly within the bounds of the domain. -/
theorem exists_executionForStageOutput {stage : StageKind} {exitCode : Int32}
    {guestDigest : String} {outputBytes : UInt64} {usage : Guest.GuestUsage}
    {diagnostics : List Guest.GuestDiagnostic} (hstage : stage = .build ∨ stage = .run) :
    (∃ outcome, executionForStageOutput stage exitCode guestDigest outputBytes usage diagnostics =
        .ok outcome) ↔ Convertible guestDigest outputBytes usage diagnostics := by
  refine ⟨fun ⟨_, h⟩ => (converts_of_executionForStageOutput hstage h).1, fun h => ?_⟩
  obtain ⟨used, husage⟩ := ResourceUsage.exists_new.mpr h.usage
  obtain ⟨read, hread⟩ := exists_diagnosticsFromGuest.mpr h.diagnostics
  obtain ⟨evidence, hevidence⟩ := exists_stdoutEvidence.mpr ⟨h.digest, h.size⟩
  rcases hstage with rfl | rfl <;>
  · simp only [executionForStageOutput, usageFromGuest, husage, applicationFromDomain, translate_ok,
      hread, hevidence, ok_bind]
    split <;> exact ⟨_, rfl⟩

end Conversion

/-- The upper case of ASCII. -/
@[reducible]
def asciiUppercase : Uppercase where
  toUppercase s := s.map Char.toUpper
  ascii _ _ := rfl

end OpenOJ
