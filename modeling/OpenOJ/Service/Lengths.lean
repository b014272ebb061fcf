import Mathlib.Algebra.Order.BigOperators.Group.List
import OpenOJ.Service.Submission

/-!
# How long a result can be

The domain bounds each value of a result, and with the values their text: an identifier, a digest, a
media type, a usage, a diagnostic and a piece of evidence each have a longest text.

* `literalLength_le`: a text of printable ASCII without quotes is written in its own length and two
  quotes, and the values of the domain are such texts (`OpaqueId.literalLength_le` and so on);
* `length_diagnosticToValue_le`, `length_evidenceToValue_le`: what an item adds at most to the
  document;
* `StageEntry.length_le`: so a stage is no longer than its items make it.

`resultLength_le` adds them up: everything but the items of its stages takes no more than five
thousand bytes, so a result of which only so many diagnostics and pieces of evidence are known still
has a bound.
-/

namespace OpenOJ

open Outcome

/-! ### Literals -/

theorem literalLength_le (s : String) : literalLength s ≤ 6 * (Text.bytes s).length + 2 :=
  Json.length_toBytes_le (.string s)

/-- No character takes more than six bytes. -/
theorem literalLength_le_length (s : String) : literalLength s ≤ 6 * s.length + 2 := by
  have hchar : ∀ c : Char, Json.escapedSize c ≤ 6 := by
    intro c
    have hutf8 : c.utf8Size ≤ 4 := Char.utf8Size_le_four c
    unfold Json.escapedSize
    split_ifs <;> omega
  have hsum : (s.toList.map Json.escapedSize).sum ≤ (s.toList.map Json.escapedSize).length * 6 :=
    List.sum_le_card_nsmul _ _ (List.forall_mem_map.mpr fun c _ => hchar c)
  have hsize : literalLength s = (s.toList.map Json.escapedSize).sum + 2 :=
    Json.length_printString s
  rw [List.length_map, String.length_toList] at hsum
  omega

theorem OpaqueId.literalLength_le {field : String} (id : OpaqueId field) :
    literalLength id.value ≤ 386 := by
  have hlength := id.length_le
  have hle := OpenOJ.literalLength_le id.value
  omega

theorem ContentDigest.literalLength_le (digest : ContentDigest) :
    literalLength digest.value ≤ 428 := by
  have hlength := digest.length_eq
  have hle := OpenOJ.literalLength_le digest.value
  omega

theorem MediaType.literalLength_le (mediaType : MediaType) :
    literalLength mediaType.value ≤ 776 := by
  have hlength := mediaType.length_le
  have hle := OpenOJ.literalLength_le mediaType.value
  unfold maxMediaTypeLength at hlength
  omega

theorem EvidenceKind.literalLength_le (kind : EvidenceKind) : literalLength kind.value ≤ 386 := by
  have hlength : (Text.bytes kind.value).length ≤ 64 := (validateLowerToken_eq_ok.mp kind.valid).1
  have hle := OpenOJ.literalLength_le kind.value
  omega

theorem DiagnosticCode.literalLength_le (code : DiagnosticCode) :
    literalLength code.value ≤ 386 := by
  have hlength : (Text.bytes code.value).length ≤ 64 := by
    have hvalid := code.valid
    unfold validateDiagnosticCode at hvalid
    split at hvalid
    · cases hvalid
    · rename_i first rest hbytes
      split at hvalid
      · cases hvalid
      · rename_i hlength
        rw [hbytes]
        exact Nat.not_lt.mp hlength
  have hle := OpenOJ.literalLength_le code.value
  omega

theorem digits_le {n k : Nat} (hk : 0 < k) (h : n < 10 ^ k) : digits n ≤ k :=
  Json.length_printNumber_le hk h

/-! ### Values -/

/-- A diagnostic of 2048 characters, each of which is escaped. -/
theorem length_diagnosticToValue_le (diagnostic : Diagnostic) :
    (Json.toBytes (diagnosticToValue diagnostic)).length ≤ 12800 := by
  have hkeys : ["code", "message", "truncated"].map literalLength = [6, 9, 11] := by decide
  simp only [List.map_cons, List.cons.injEq, literalLength] at hkeys
  have hstring : ∀ s, (Json.toBytes (.string s)).length = literalLength s := fun _ => rfl
  have hbool : ∀ b, (Json.toBytes (.bool b)).length ≤ 5 := by decide
  have hcode := diagnostic.code.literalLength_le
  have hmessage := literalLength_le_length diagnostic.message
  have hbounded := diagnostic.bounded
  have htruncated := hbool diagnostic.truncated
  unfold maxDiagnosticMessageLength at hbounded
  simp only [diagnosticToValue, Json.length_toBytes_object, Json.memberLength, hstring,
    List.map_cons, List.map_nil, List.sum_cons, List.sum_nil, List.length_cons, List.length_nil]
  omega

private theorem length_artifactToValue_le (artifact : ArtifactRef) :
    (Json.toBytes (artifactToValue artifact)).length ≤ 1800 := by
  have hkeys : ["artifact_id", "digest", "media_type", "sensitivity", "size_bytes"].map
      literalLength = [13, 8, 12, 13, 12] := by decide
  simp only [List.map_cons, List.cons.injEq, literalLength] at hkeys
  have hstring : ∀ s, (Json.toBytes (.string s)).length = literalLength s := fun _ => rfl
  have hid := artifact.artifactId.literalLength_le
  have hdigest := artifact.digest.literalLength_le
  have hmedia := artifact.mediaType.literalLength_le
  have hsensitivity : literalLength artifact.sensitivity.asStr ≤ 20 := by
    cases artifact.sensitivity <;> decide
  have hsize : digits artifact.sizeBytes ≤ 13 :=
    digits_le (by decide) (artifact.bounded.trans_lt (by decide))
  unfold digits at hsize
  simp only [artifactToValue, Json.length_toBytes_object, Json.memberLength, hstring,
    Json.length_toBytes_number, List.map_cons, List.map_nil, List.sum_cons, List.sum_nil,
    List.length_cons, List.length_nil]
  omega

theorem length_evidenceToValue_le (evidence : EvidenceRef) :
    (Json.toBytes (evidenceToValue evidence)).length ≤ 2700 := by
  have hkeys : ["artifact", "evidence_id", "kind"].map literalLength = [10, 13, 6] := by decide
  simp only [List.map_cons, List.cons.injEq, literalLength] at hkeys
  have hstring : ∀ s, (Json.toBytes (.string s)).length = literalLength s := fun _ => rfl
  have hid := evidence.evidenceId.literalLength_le
  have hkind := evidence.kind.literalLength_le
  obtain ⟨evidenceId, kind, _ | artifact⟩ := evidence
  · simp only [evidenceToValue, Json.length_toBytes_object, Json.memberLength, hstring,
      Option.map_none, Option.toList_none, List.nil_append, List.map_cons, List.map_nil,
      List.sum_cons, List.sum_nil, List.length_cons, List.length_nil]
    simp only at hid hkind
    omega
  · have hartifact := length_artifactToValue_le artifact
    simp only [evidenceToValue, Json.length_toBytes_object, Json.memberLength, hstring,
      Option.map_some, Option.toList_some, List.cons_append, List.nil_append, List.map_cons,
      List.map_nil, List.sum_cons, List.sum_nil, List.length_cons, List.length_nil]
    simp only at hid hkind
    omega

/-- The text of an array whose items are no longer than this. -/
theorem length_toBytes_array_le {α : Type} {toValue : α → Json.Value} {items : List α} {bound : Nat}
    (h : ∀ item ∈ items, (Json.toBytes (toValue item)).length ≤ bound) :
    (Json.toBytes (.array (items.map toValue))).length ≤ items.length * (bound + 1) + 2 := by
  have hsum : ((items.map toValue).map fun v => (Json.toBytes v).length).sum ≤
      ((items.map toValue).map fun v => (Json.toBytes v).length).length * bound :=
    List.sum_le_card_nsmul _ _ (List.forall_mem_map.mpr (List.forall_mem_map.mpr h))
  rw [List.length_map, List.length_map] at hsum
  rw [Json.length_toBytes_array, List.length_map, Nat.mul_add_one]
  omega

/-! ### Stages -/

theorem usageLength_le {usage : ResourceUsageParts} (hcpu : usage.cpuTimeMs < 10 ^ 20)
    (hmemory : usage.memoryPeakBytes < 10 ^ 20) (houtput : usage.outputBytes < 10 ^ 20)
    (hwall : usage.wallTimeMs < 10 ^ 20) : usageLength usage ≤ 149 := by
  have hcpu := digits_le (by decide) hcpu
  have hmemory := digits_le (by decide) hmemory
  have houtput := digits_le (by decide) houtput
  have hwall := digits_le (by decide) hwall
  unfold usageLength
  omega

/-- What a stage adds, by the number of its diagnostics and pieces of evidence. -/
theorem StageEntry.length_le (entry : StageEntry) :
    entry.length ≤ 300 + entry.diagnostics.length * 12801 + entry.evidence.length * 2701 := by
  have hdiagnostics : (Json.toBytes (.array (entry.diagnostics.map diagnosticToValue))).length ≤
      entry.diagnostics.length * 12801 + 2 :=
    length_toBytes_array_le fun diagnostic _ => length_diagnosticToValue_le diagnostic
  have hevidence : (Json.toBytes (.array (entry.evidence.map evidenceToValue))).length ≤
      entry.evidence.length * 2701 + 2 :=
    length_toBytes_array_le fun evidence _ => length_evidenceToValue_le evidence
  have hstage : literalLength entry.stage.asStr ≤ 20 := by cases entry.stage <;> decide
  have hstatus : literalLength entry.status.asStr ≤ 20 := by cases entry.status <;> decide
  obtain ⟨hcpu, hwall, hmemory, houtput⟩ := entry.usage.bounds
  have husage : usageLength entry.usage.toResourceUsageParts ≤ 149 :=
    usageLength_le (hcpu.trans_lt (by decide)) (hmemory.trans_lt (by decide))
      (houtput.trans_lt (by decide)) (hwall.trans_lt (by decide))
  unfold StageEntry.length
  omega

/-- Stages together use no more than so many of them can. -/
theorem totalUsage_le (entries : List StageEntry) :
    (totalUsage entries).cpuTimeMs ≤ entries.length * maxCpuTimeMs ∧
      (totalUsage entries).wallTimeMs ≤ entries.length * maxWallTimeMs ∧
        (totalUsage entries).memoryPeakBytes ≤ entries.length * maxMemoryBytes ∧
          (totalUsage entries).outputBytes ≤ entries.length * maxOutputBytes := by
  induction entries with
  | nil => exact ⟨Nat.zero_le _, Nat.zero_le _, Nat.zero_le _, Nat.zero_le _⟩
  | cons entry entries ih =>
    obtain ⟨ihcpu, ihwall, ihmemory, ihoutput⟩ := ih
    obtain ⟨hcpu, hwall, hmemory, houtput⟩ := entry.usage.bounds
    simp only [totalUsage, ResourceUsageParts.plus, List.length_cons, Nat.add_one_mul]
    refine ⟨by omega, by omega, ?_, by omega⟩
    exact Nat.max_le.mpr
      ⟨hmemory.trans (Nat.le_add_left _ _), ihmemory.trans (Nat.le_add_right _ _)⟩

/-! ### The document -/

/-- **How long a result can be**: everything but its stages takes no more than five thousand
bytes. -/
theorem resultLength_le (request : EvaluationRequest) (kind : ExecutorKind) (eligible : Bool)
    (nodeId : Option NodeId) (terminal : Terminal) {entries : List StageEntry}
    (hlength : entries.length ≤ 5) :
    resultLength request (provenanceLength kind eligible nodeId request.runtime.digest) terminal
      entries ≤ 5000 + (entries.map StageEntry.length).sum := by
  have hattempt := request.attemptId.literalLength_le
  have hevaluation := request.evaluationId.literalLength_le
  have hproblem := request.problemVersion.problemVersionId.literalLength_le
  have hrequest := request.requestId.literalLength_le
  have hruntime := request.runtime.runtimeId.literalLength_le
  have hsubmission := request.submission.submissionId.literalLength_le
  have hdigest := request.runtime.digest.literalLength_le
  have hkind : literalLength kind.asStr ≤ 20 := by cases kind <;> decide
  have hnode : (nodeId.map fun nodeId => 11 + literalLength nodeId.value).getD 0 ≤ 397 := by
    cases nodeId with
    | none => decide
    | some nodeId => exact Nat.add_le_add_left nodeId.literalLength_le 11
  have hprovenance : provenanceLength kind eligible nodeId request.runtime.digest ≤ 909 := by
    unfold provenanceLength
    split_ifs <;> omega
  have hstatus : literalLength terminal.status.asStr ≤ 20 := by cases terminal.status <;> decide
  have hverdict : literalLength terminal.verdict.asStr ≤ 25 := by cases terminal.verdict <;> decide
  have hpossible : terminal.score.possible < 10 ^ 20 :=
    terminal.score.bounded.trans_lt (by decide)
  have hearned := digits_le (by decide) (terminal.score.valid.2.trans_lt hpossible)
  have hpossible := digits_le (by decide) hpossible
  have husage : usageLength (totalUsage entries) ≤ 149 := by
    obtain ⟨hcpu, hwall, hmemory, houtput⟩ := totalUsage_le entries
    exact usageLength_le (hcpu.trans_lt ((Nat.mul_le_mul_right _ hlength).trans_lt (by decide)))
      (hmemory.trans_lt ((Nat.mul_le_mul_right _ hlength).trans_lt (by decide)))
      (houtput.trans_lt ((Nat.mul_le_mul_right _ hlength).trans_lt (by decide)))
      (hwall.trans_lt ((Nat.mul_le_mul_right _ hlength).trans_lt (by decide)))
  unfold resultLength
  omega

end OpenOJ
