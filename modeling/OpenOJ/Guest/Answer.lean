import OpenOJ.Guest.Channel
import OpenOJ.Guest.FrameSize

/-!
# The agent's answers

What the agent answers to a command is encoded after the command was carried out, and by then it may
be too late: the encoder refuses names that neither the decoder nor the agent's own check of paths
does. Every other answer can be encoded, whatever a process puts out.

The messages that a host sends are `Message.FromHost`, and what a command asks for may fail on its
own (`Workspace.SucceedsOn`): an upload that cannot be stored, a command that cannot be waited for.

* `exists_stageOutput_iff`: there is an output of a stage to report exactly when there was a
  command, the wait for it had a result, and the length of its output can be counted
  (`CommandOutput.Countable`);
* `sendable_of_stageOutput`: whatever a process puts out, the agent's report of it can be sent;
* `respond_iff`: a message is answered exactly when the name in it is accepted by the encoder
  (`Message.NameAccepted`) and what it asks for succeeds;
* `answered_iff`: so a host's command that succeeds is answered by one frame with the response to it
  exactly when it is not an upload of a name that the encoder refuses; and an upload is stored
  without an answer exactly when the agent's own check lets such a name through
  (`Message.SlipsThrough`).

`answered_iff_fixture` uploads a source and runs it, over streams that are cut in two, and
`dottedUpload` is the upload that goes without an answer.
-/

namespace OpenOJ.Guest

open Outcome Json Chunks

/-- The messages that a host sends. -/
def Message.FromHost : Message → Prop
  | .negotiate _ | .uploadInput .. | .build .. | .run .. | .stageEvidence _ | .cancel
  | .heartbeat => True
  | _ => False

/-- What an agent can send as one frame that is read as what it is. -/
structure Message.Sendable (message : Message) : Prop where
  writeBounds : message.WriteBounds
  readBounds : message.ReadBounds
  fits : message.Fits

section Frames

variable [JsonText]

theorem Message.Sendable.exists_frame (hprints : Prints) (hreads : ReadsBack) {message : Message}
    (h : message.Sendable) :
    ∃ frame, message.encode = .ok frame ∧ Message.decode frame = .ok message := by
  have hsize := (Message.frameSize_le_iff h.writeBounds).mpr h.fits
  have hencode := Message.encode_eq hprints h.writeBounds
  rw [if_pos hsize] at hencode
  exact ⟨_, hencode, (Message.decode_encode hreads hencode).mpr h.readBounds⟩

/-- A frame that is decoded as a whole is within the bound. -/
theorem length_le_of_decode {message : Message} {frame : List UInt8}
    (hframe : IsFrame frame)
    (hdecode : Message.decode frame = .ok message) : frame.length ≤ maxFrameBytes := by
  have hmax : maxFrameBytes = 1048576 := rfl
  obtain ⟨lengthBuf, body, rfl, hheader, hlength⟩ := hframe
  obtain ⟨_, _, hbody, -⟩ := Message.decode_eq_ok.mp hdecode
  simp only [frameBody, bind_eq_ok, refuseIf_eq_ok, Nat.not_lt, exists_const,
    List.take_left' hheader, hlength] at hbody
  rw [List.length_append]
  omega

end Frames

/-! ### Stage outputs -/

theorem buildDiagnostics_bounded (stderr : List UInt8) :
    (buildDiagnostics stderr bootDiagnostics).length ≤ maxDiagnostics ∧
      ∀ diagnostic ∈ buildDiagnostics stderr bootDiagnostics,
        len diagnostic.code ≤ maxTypeLen := by
  unfold buildDiagnostics
  split_ifs
  · exact ⟨Nat.zero_le _, fun _ h => absurd h List.not_mem_nil⟩
  · refine ⟨?_, List.forall_mem_map.mpr fun line _ => ?_⟩
    · rw [List.length_map]
      exact List.length_take_le _ _
    · show len "guest_stderr" ≤ maxTypeLen
      decide

theorem sendable_stageOutput {stage : Stage} {exitCode : Int32} {outputDigest : String}
    {outputBytes : UInt64} {usage : GuestUsage} {diagnostics : List GuestDiagnostic}
    (hdigest : len outputDigest ≤ maxDigestLen) (hcount : diagnostics.length ≤ maxDiagnostics)
    (hcodes : ∀ diagnostic ∈ diagnostics, len diagnostic.code ≤ maxTypeLen) :
    (Message.stageOutput stage exitCode outputDigest outputBytes usage diagnostics).Sendable :=
  have hwrite := ⟨hdigest, hcount⟩
  ⟨hwrite, ⟨hdigest, hcount, hcodes⟩, Message.fits_of_readable hwrite hcodes nofun⟩

/-- The length of what a process put out is a `u64`. -/
def CommandOutput.Countable (output : CommandOutput) : Prop :=
  (truncateBytes output.stdout bootOutputLimit ++ output.stderr).length ≤ Json.Value.u64Max

/-- What the agent captures can be counted. -/
theorem Ending.countable (ending : Ending) : ending.output.Countable := by
  obtain ⟨hstdout, hstderr⟩ := ending.length_output_le
  have hlimit : bootOutputLimit + bootDiagnosticsBytes ≤ Json.Value.u64Max := by decide
  rw [CommandOutput.Countable, truncateBytes, List.length_append, List.length_take]
  omega

/-- A stage is reported exactly when its process was waited for and its output can be counted. -/
theorem exists_stageOutput_iff [Sha256] (stage : Stage) {argv : List String} (hargv : argv ≠ [])
    (waited : Except AgentError (CommandOutput × Nat)) :
    (∃ message, stageOutput stage argv waited = .ok message) ↔
      ∃ output elapsed, waited = .ok (output, elapsed) ∧ output.Countable := by
  simp only [stageOutput, runCommand, refuseIf_neg hargv, ok_bind, bind_eq_ok, refuseIf_eq_ok,
    Nat.not_lt, exists_const, pure, Except.pure, Except.ok.injEq, Prod.exists]
  constructor
  · rintro ⟨message, parts, ⟨output, elapsed, hwaited, hcount, -⟩, -⟩
    exact ⟨output, elapsed, hwaited, hcount⟩
  · rintro ⟨output, elapsed, hwaited, hcount⟩
    exact ⟨_, _, ⟨output, elapsed, hwaited, hcount, rfl⟩, rfl⟩

/-- **Whatever a process puts out**, the agent's report of it can be sent. -/
theorem sendable_of_stageOutput [Sha256] {stage : Stage} {argv : List String}
    {waited : Except AgentError (CommandOutput × Nat)} {message : Message}
    (h : stageOutput stage argv waited = .ok message) : message.Sendable := by
  simp only [stageOutput, runCommand, bind_eq_ok, pure, Except.pure, Except.ok.injEq] at h
  obtain ⟨_, ⟨_, -, ⟨output, elapsed⟩, -, _, -, rfl⟩, rfl⟩ := h
  obtain ⟨hcount, hcodes⟩ := buildDiagnostics_bounded output.stderr
  refine sendable_stageOutput ?_ hcount hcodes
  rw [len, length_hex, Sha256.length]
  decide

/-- The agent has a report of every ending of a process. -/
theorem exists_stageOutput [Sha256] (stage : Stage) {argv : List String} (hargv : argv ≠ [])
    (ending : Ending) (elapsed : Nat) :
    ∃ message, stageOutput stage argv (.ok (ending.output, elapsed)) = .ok message ∧
      message.Sendable := by
  obtain ⟨message, hmessage⟩ := (exists_stageOutput_iff stage hargv _).mpr
    ⟨ending.output, elapsed, rfl, ending.countable⟩
  exact ⟨message, hmessage, sendable_of_stageOutput hmessage⟩

/-! ### Uploads -/

/-- A name that the encoder accepts is one the agent accepts. -/
theorem safeInputPath_of_checkName {name : String} (h : checkName name = .ok ()) :
    safeInputPath name = .ok () := by
  simp only [checkName, bind_eq_ok, refuseIf_eq_ok, exists_const, not_or] at h
  obtain ⟨⟨hne, -⟩, hslash, hbackslash, hdots⟩ := h
  refine refuseIf_neg fun hunsafe => ?_
  rcases hunsafe with hempty | hslash' | hbackslash' | hparent | hdots'
  · exact hne hempty
  · exact hslash hslash'
  · exact hbackslash hbackslash'
  · exact hdots (hparent ▸ List.infix_refl _)
  · refine hdots (List.IsPrefix.isInfix ?_)
    rw [List.prefix_iff_eq_take]
    exact hdots'.symm

section Uploads

variable [Sha256] {σ : Type} {workspace : Workspace σ} {work : σ}

/-- The write of an upload succeeds, if it comes to it: only an intact one is written. -/
def Workspace.Stores (workspace : Workspace σ) (name digest : String) (bytes : List UInt8)
    (work : σ) : Prop :=
  digest = hex (Sha256.digest bytes) → (workspace.write name bytes work).1 = .ok ()

theorem writeInput_fst {name digest : String} {bytes : List UInt8}
    (hstores : workspace.Stores name digest bytes work) :
    (writeInput workspace name digest bytes work).1 =
      (safeInputPath name).map fun _ => decide (digest = hex (Sha256.digest bytes)) := by
  unfold writeInput
  rcases safeInputPath name with error | ⟨⟩
  · rfl
  · by_cases hdigest : digest = hex (Sha256.digest bytes)
    · simp [hdigest, hstores hdigest, Except.map]
    · simp [hdigest, Except.map]

/-- The response to an upload acknowledges it, unless the agent finds its name unsafe. -/
theorem handle_uploadInput {name digest : String} {bytes : List UInt8}
    (hstores : workspace.Stores name digest bytes work) :
    (handle workspace work (.uploadInput name digest bytes)).1 =
      (safeInputPath name).map fun _ =>
        some (.uploadAck name (decide (digest = hex (Sha256.digest bytes)))) := by
  have hanswer : (handle workspace work (.uploadInput name digest bytes)).1 =
      (writeInput workspace name digest bytes work).1.map fun accepted =>
        some (.uploadAck name accepted) := rfl
  rw [hanswer, writeInput_fst hstores]
  cases safeInputPath name <;> rfl

/-- An upload with a safe name is acknowledged only if its write succeeds. -/
theorem stores_of_writeInput {name digest : String} {bytes : List UInt8} {accepted : Bool}
    (hsafe : safeInputPath name = .ok ())
    (h : (writeInput workspace name digest bytes work).1 = .ok accepted) :
    workspace.Stores name digest bytes work := by
  intro hdigest
  have hnot : ¬digest ≠ hex (Sha256.digest bytes) := not_not.mpr hdigest
  rw [writeInput, hsafe] at h
  simp only [if_neg hnot] at h
  rcases hwritten : (workspace.write name bytes work).1 with error | ⟨⟩
  · rw [hwritten] at h
    cases h
  · rfl

end Uploads

/-! ### Answers -/

section Agent

variable [JsonText] [Sha256] {σ : Type} (workspace : Workspace σ)

/-- What a message asks for succeeds: a file is written, or a process is waited for, whose output
can be counted. -/
def Workspace.SucceedsOn (work : σ) : Message → Prop
  | .uploadInput name digest bytes => workspace.Stores name digest bytes work
  | .build argv wallTimeMs | .run argv wallTimeMs => ∃ output elapsed,
    (workspace.run argv wallTimeMs work).1 = .ok (output, elapsed) ∧ output.Countable
  | _ => True

/-- The frames that `serve_frame` writes. -/
def writtenFrames (work : σ) (stream : Source UInt8) : List (List UInt8) :=
  match receiveFrame stream with
  | .ok (some (message, _)) =>
    match (respond workspace message work).1 with
    | .ok [] | .error _ => []
    | .ok frame => [frame]
  | .ok none | .error _ => []

/-- One frame is written, which is read as the response that was computed. -/
def Answered (work : σ) (message : Message) (frames : List (List UInt8)) : Prop :=
  ∃ response frame, (handle workspace work message).1 = .ok (some response) ∧ frames = [frame] ∧
    Message.decode frame = .ok response

variable {workspace} {work : σ} {message : Message}

theorem respond_of_response {response : Message}
    (h : (handle workspace work message).1 = .ok (some response)) :
    (respond workspace message work).1 =
      translate (fun error => .io s!"encode {error.display}") response.encode := by
  unfold respond
  rcases hhandle : handle workspace work message with ⟨answer, next⟩
  rw [hhandle] at h
  obtain rfl : answer = .ok (some response) := h
  rfl

theorem answered_of_sendable (hprints : Prints) (hreads : ReadsBack) {response : Message}
    {stream rest : Source UInt8} (hreceive : receiveFrame stream = .ok (some (message, rest)))
    (h : (handle workspace work message).1 = .ok (some response)) (hsendable : response.Sendable) :
    Answered workspace work message (writtenFrames workspace work stream) := by
  obtain ⟨frame, hencode, hdecode⟩ := hsendable.exists_frame hprints hreads
  refine ⟨response, frame, h, ?_, hdecode⟩
  have hne : frame ≠ [] := by
    rintro rfl
    cases hdecode
  rw [writtenFrames, hreceive]
  simp only [respond_of_response h, hencode, translate_ok]

theorem respond_of_error {error : AgentError}
    (h : (handle workspace work message).1 = .error error) :
    (respond workspace message work).1 = .error error := by
  unfold respond
  rcases hhandle : handle workspace work message with ⟨answer, next⟩
  rw [hhandle] at h
  obtain rfl : answer = .error error := h
  rfl

theorem writtenFrames_of_error {stream rest : Source UInt8} {error : AgentError}
    (hreceive : receiveFrame stream = .ok (some (message, rest)))
    (h : (respond workspace message work).1 = .error error) :
    writtenFrames workspace work stream = [] := by
  rw [writtenFrames, hreceive]
  simp only [h]

omit [JsonText] in
/-- A stage is answered exactly when its process succeeds. -/
theorem runStage_iff {stage : Stage} {argv : List String} {wallTimeMs : UInt64}
    (hargv : argv ≠ []) :
    (∃ response, (runStage workspace stage argv wallTimeMs work).1 = .ok response) ↔
      ∃ output elapsed, (workspace.run argv wallTimeMs work).1 = .ok (output, elapsed) ∧
        output.Countable := by
  rw [runStage, if_neg hargv]
  exact exists_stageOutput_iff stage hargv _

omit [JsonText] in
theorem sendable_of_runStage {stage : Stage} {argv : List String} {wallTimeMs : UInt64}
    {response : Message}
    (h : (runStage workspace stage argv wallTimeMs work).1 = .ok response) : response.Sendable := by
  rw [runStage] at h
  split_ifs at h
  exact sendable_of_stageOutput h

omit [JsonText] in
/-- **Every other command** of a host is answered. -/
theorem exists_response (hbounds : message.ReadBounds)
    (hhost : message.FromHost) (hsucceeds : workspace.SucceedsOn work message)
    (hupload : ∀ name digest bytes, message ≠ .uploadInput name digest bytes) :
    ∃ response, (handle workspace work message).1 = .ok (some response) ∧ response.Sendable := by
  cases message with
  | negotiate capabilities => exact ⟨_, rfl, trivial, trivial, trivial⟩
  | uploadInput name digest bytes => exact absurd rfl (hupload name digest bytes)
  | build argv wallTimeMs =>
    obtain ⟨response, hresponse⟩ :=
      (@runStage_iff _ _ workspace work .build argv wallTimeMs hbounds.1).mpr hsucceeds
    exact ⟨response, by simp only [handle, hresponse, Except.map], sendable_of_runStage hresponse⟩
  | run argv wallTimeMs =>
    obtain ⟨response, hresponse⟩ :=
      (@runStage_iff _ _ workspace work .run argv wallTimeMs hbounds.1).mpr hsucceeds
    exact ⟨response, by simp only [handle, hresponse, Except.map], sendable_of_runStage hresponse⟩
  | stageEvidence kind =>
    have hfits : (Message.evidenceAck kind true).Fits :=
      Message.fits_of_readable trivial hbounds nofun
    exact ⟨_, rfl, trivial, hbounds, hfits⟩
  | cancel => exact ⟨_, rfl, trivial, trivial, trivial⟩
  | heartbeat => exact ⟨_, rfl, trivial, trivial, trivial⟩
  | negotiated | uploadAck | stageOutput | evidenceAck | cancelled | ack => exact hhost.elim

theorem respond_snd (message : Message) :
    (respond workspace message work).2 = (handle workspace work message).2 := by
  unfold respond
  rcases handle workspace work message with ⟨error | _ | response, next⟩ <;> rfl

theorem respond_of_sendable (hprints : Prints) (hreads : ReadsBack) {response : Message}
    (h : (handle workspace work message).1 = .ok (some response)) (hsendable : response.Sendable) :
    ∃ frame, (respond workspace message work).1 = .ok frame := by
  obtain ⟨frame, hencode, -⟩ := hsendable.exists_frame hprints hreads
  exact ⟨frame, by rw [respond_of_response h, hencode, translate_ok]⟩

/-- An upload has an answer exactly when the encoder accepts its name, and its write succeeds. -/
theorem respond_upload_iff (hprints : Prints) (hreads : ReadsBack) {name digest : String}
    {bytes : List UInt8} :
    (∃ frame, (respond workspace (.uploadInput name digest bytes) work).1 = .ok frame) ↔
      checkName name = .ok () ∧ workspace.Stores name digest bytes work := by
  have hhandle : (handle workspace work (.uploadInput name digest bytes)).1 =
      (writeInput workspace name digest bytes work).1.map fun accepted =>
        some (.uploadAck name accepted) := rfl
  constructor
  · rintro ⟨frame, hframe⟩
    rcases hwritten : (writeInput workspace name digest bytes work).1 with error | accepted
    · rw [hwritten] at hhandle
      cases hframe.symm.trans (respond_of_error hhandle)
    · rw [hwritten] at hhandle
      rw [respond_of_response hhandle, translate_eq_ok] at hframe
      have hname := (Message.encode_eq_ok.mp hframe).1
      exact ⟨hname, stores_of_writeInput (safeInputPath_of_checkName hname) hwritten⟩
  · rintro ⟨hname, hstores⟩
    rw [writeInput_fst hstores, safeInputPath_of_checkName hname] at hhandle
    exact respond_of_sendable hprints hreads hhandle ⟨hname, len_of_checkName hname, trivial⟩

/-- The agent has an answer to a message that it received exactly when a host sends such messages,
the encoder accepts the name in it, and what it asks for succeeds. -/
theorem respond_iff (hprints : Prints) (hreads : ReadsBack) (hbounds : message.ReadBounds) :
    (∃ frame, (respond workspace message work).1 = .ok frame) ↔
      message.FromHost ∧ message.NameAccepted ∧ workspace.SucceedsOn work message := by
  have hanswer (hhost : message.FromHost) (hsucceeds : workspace.SucceedsOn work message)
      (hupload : ∀ name digest bytes, message ≠ .uploadInput name digest bytes) :
      ∃ frame, (respond workspace message work).1 = .ok frame := by
    obtain ⟨response, hresponse, hsendable⟩ := exists_response hbounds hhost hsucceeds hupload
    exact respond_of_sendable hprints hreads hresponse hsendable
  have hstage {stage : Stage} {argv : List String} {wallTimeMs : UInt64} (hargv : argv ≠ [])
      (hhandle : (handle workspace work message).1 =
        (runStage workspace stage argv wallTimeMs work).1.map some)
      (h : ∃ frame, (respond workspace message work).1 = .ok frame) :
      ∃ output elapsed, (workspace.run argv wallTimeMs work).1 = .ok (output, elapsed) ∧
        output.Countable := by
    obtain ⟨frame, hframe⟩ := h
    refine (@runStage_iff _ _ workspace work stage argv wallTimeMs hargv).mp ?_
    rcases hrun : (runStage workspace stage argv wallTimeMs work).1 with error | response
    · rw [hrun] at hhandle
      cases hframe.symm.trans (respond_of_error hhandle)
    · exact ⟨response, rfl⟩
  cases message with
  | uploadInput name digest bytes =>
    rw [respond_upload_iff hprints hreads]
    exact (and_iff_right trivial).symm
  | build argv wallTimeMs =>
    exact ⟨fun h => ⟨trivial, trivial, hstage hbounds.1 rfl h⟩,
      fun ⟨hhost, _, hsucceeds⟩ => hanswer hhost hsucceeds nofun⟩
  | run argv wallTimeMs =>
    exact ⟨fun h => ⟨trivial, trivial, hstage hbounds.1 rfl h⟩,
      fun ⟨hhost, _, hsucceeds⟩ => hanswer hhost hsucceeds nofun⟩
  | negotiate | stageEvidence | cancel | heartbeat =>
    exact iff_of_true (hanswer trivial trivial nofun) ⟨trivial, trivial, trivial⟩
  | negotiated | uploadAck | stageOutput | evidenceAck | cancelled | ack =>
    exact iff_of_false (by rintro ⟨_, ⟨⟩⟩) fun h => h.1.elim

/-- An upload is stored, and nothing is written. -/
def StoredUnanswered (workspace : Workspace σ) (work : σ) (message : Message)
    (frames : List (List UInt8)) : Prop :=
  ∃ name digest bytes, message = .uploadInput name digest bytes ∧
    (writeInput workspace name digest bytes work).1 = .ok true ∧ frames = []

/-- An upload whose name the agent accepts and the encoder refuses. -/
def Message.SlipsThrough : Message → Prop
  | .uploadInput name digest bytes =>
    safeInputPath name = .ok () ∧ digest = hex (Sha256.digest bytes) ∧ checkName name ≠ .ok ()
  | _ => False

/-- An upload is answered exactly when the encoder accepts its name. -/
theorem upload_answered_iff (hprints : Prints) (hreads : ReadsBack) {name digest : String}
    {bytes : List UInt8} {stream rest : Source UInt8}
    (hreceive : receiveFrame stream = .ok (some (.uploadInput name digest bytes, rest)))
    (hstores : workspace.Stores name digest bytes work) :
    (Answered workspace work (.uploadInput name digest bytes)
        (writtenFrames workspace work stream) ↔ checkName name = .ok ()) ∧
      (checkName name ≠ .ok () → writtenFrames workspace work stream = []) := by
  have hhandle : (handle workspace work (.uploadInput name digest bytes)).1 = _ :=
    handle_uploadInput hstores
  have hrefused (hname : checkName name ≠ .ok ()) : writtenFrames workspace work stream = [] := by
    rcases hsafe : safeInputPath name with error | ⟨⟩
    · rw [hsafe] at hhandle
      exact writtenFrames_of_error hreceive (respond_of_error hhandle)
    · rw [hsafe] at hhandle
      have hrespond := respond_of_response hhandle
      rcases ok_or_error (Message.uploadAck name
        (decide (digest = hex (Sha256.digest bytes)))).encode with
        ⟨frame, hencode⟩ | ⟨error, hencode⟩
      · exact absurd (Message.encode_eq_ok.mp hencode).1 hname
      · rw [hencode] at hrespond
        exact writtenFrames_of_error hreceive hrespond
  refine ⟨⟨fun h => ?_, fun hname => ?_⟩, hrefused⟩
  · by_contra hname
    obtain ⟨response, frame, -, hwritten, -⟩ := h
    rw [hrefused hname] at hwritten
    cases hwritten
  · rw [safeInputPath_of_checkName hname] at hhandle
    exact answered_of_sendable hprints hreads hreceive hhandle
      ⟨hname, len_of_checkName hname, trivial⟩

/-- **A host's command is answered**, by one frame with the response to it, exactly when it is not
an upload of a name that the encoder refuses; and where the agent accepts that name, the upload is
stored nevertheless. -/
theorem answered_iff (hprints : Prints) (hreads : ReadsBack) {frame more : List UInt8}
    (hframe : IsFrame frame) (hdecode : Message.decode frame = .ok message)
    (hhost : message.FromHost) {stream : Source UInt8} (hstream : content stream = frame ++ more)
    (hwhole : ∀ cut ∈ cuts stream, 4 ≤ cut) (hsucceeds : workspace.SucceedsOn work message) :
    (Answered workspace work message (writtenFrames workspace work stream) ↔
      message.NameAccepted) ∧
    (StoredUnanswered workspace work message (writtenFrames workspace work stream) ↔
      message.SlipsThrough) := by
  have hlength := length_le_of_decode hframe hdecode
  obtain ⟨rest, -, -, hreceive⟩ := receiveFrame_frame hstream hframe hlength hwhole
  rw [hdecode] at hreceive
  cases message with
  | uploadInput name digest bytes =>
    obtain ⟨hanswered, hrefused⟩ := upload_answered_iff hprints hreads hreceive hsucceeds
    refine ⟨hanswered, ?_, ?_⟩
    · rintro ⟨_, _, _, ⟨⟩, hstored, hnone⟩
      rw [writeInput_fst hsucceeds] at hstored
      rcases hsafe : safeInputPath name with error | ⟨⟩
      · rw [hsafe] at hstored
        cases hstored
      · rw [hsafe] at hstored
        refine ⟨hsafe, of_decide_eq_true (Except.ok.inj hstored), fun hname => ?_⟩
        obtain ⟨response, frame, -, hwritten, -⟩ := hanswered.mpr hname
        cases hnone.symm.trans hwritten
    · rintro ⟨hsafe, hdigest, hname⟩
      refine ⟨_, _, _, rfl, ?_, hrefused hname⟩
      rw [writeInput_fst hsucceeds, hsafe, hdigest]
      exact congrArg Except.ok (decide_eq_true rfl)
  | _ =>
    obtain ⟨-, -, -, -, -, hbounds⟩ := Message.decode_eq_ok.mp hdecode
    obtain ⟨response, hresponse, hsendable⟩ := exists_response hbounds hhost hsucceeds nofun
    have hanswered := answered_of_sendable hprints hreads hreceive hresponse hsendable
    refine ⟨iff_of_true hanswered ?_, iff_of_false (by rintro ⟨_, _, _, ⟨⟩, _⟩) id⟩
    trivial

end Agent

/-! ### Fixtures -/

/-- The digest of the empty input, for every input. -/
@[reducible]
def emptySha256 : Sha256 where
  digest _ := [0xe3, 0xb0, 0xc4, 0x42, 0x98, 0xfc, 0x1c, 0x14, 0x9a, 0xfb, 0xf4, 0xc8, 0x99, 0x6f,
    0xb9, 0x24, 0x27, 0xae, 0x41, 0xe4, 0x64, 0x9b, 0x93, 0x4c, 0xa4, 0x95, 0x99, 0x1b, 0x78, 0x52,
    0xb8, 0x55]
  length _ := rfl

/-- A guest without a task. -/
def idleWorkspace : Workspace Unit where
  write _ _ work := (.ok (), work)
  run _ _ work := (.error (.io "No such file or directory (os error 2)"), work)

/-- A guest whose files can be written, and whose processes exit at once. -/
def promptWorkspace : Workspace Unit where
  write _ _ work := (.ok (), work)
  run _ _ work := (.ok (Ending.output (.ended (.exited 0) [[51, 10]] []), 5), work)

/-- An empty upload with two dots within its name. -/
def dottedUpload : Message :=
  .uploadInput "a..b" "e3b0c44298fc1c149afbf4c8996fb92427ae41e4649b934ca495991b7852b855" []

section Fixtures

attribute [local instance] compactText emptySha256

/-- An empty upload of a source. -/
def sourceUpload : Message :=
  .uploadInput "main.cpp" "e3b0c44298fc1c149afbf4c8996fb92427ae41e4649b934ca495991b7852b855" []

/-- A run of what was built from it. -/
def sourceRun : Message := .run ["./main"] 2000

/-- A message whose frame arrives in two chunks, of which the first holds its length. -/
def inTwo (message : Message) : Source UInt8 :=
  push ((compactFrame message.document).take 20) (push ((compactFrame message.document).drop 20) [])

theorem content_inTwo (message : Message) :
    content (inTwo message) = compactFrame message.document ++ [] := by
  rw [inTwo, content_push, content_push, content, List.append_nil, List.append_nil,
    List.take_append_drop]

/-- The upload of a source and a run, each delivered in two chunks, are answered. -/
theorem answered_iff_fixture :
    Answered promptWorkspace () sourceUpload
        (writtenFrames promptWorkspace () (inTwo sourceUpload)) ∧
      Answered promptWorkspace () sourceRun
        (writtenFrames promptWorkspace () (inTwo sourceRun)) := by
  have hupload : sourceUpload.encode = .ok (compactFrame sourceUpload.document) := by
    decide +kernel
  have hrun : sourceRun.encode = .ok (compactFrame sourceRun.document) := by decide +kernel
  have huploadBounds := (Message.encode_eq_ok.mp hupload).1
  have hrunBounds := (Message.encode_eq_ok.mp hrun).1
  constructor
  · have hdecode : Message.decode (compactFrame sourceUpload.document) = .ok sourceUpload :=
      (Message.decode_encode compactText_readsBack hupload).mpr
        ((Message.readBounds_iff huploadBounds).mpr trivial)
    exact (answered_iff compactText_prints compactText_readsBack (isFrame_of_encode hupload).1
      hdecode trivial (content_inTwo _) (by decide +kernel) fun _ => rfl).1.mpr huploadBounds.1
  · have hdecode : Message.decode (compactFrame sourceRun.document) = .ok sourceRun :=
      (Message.decode_encode compactText_readsBack hrun).mpr
        ((Message.readBounds_iff hrunBounds).mpr trivial)
    exact (answered_iff compactText_prints compactText_readsBack (isFrame_of_encode hrun).1 hdecode
      trivial (content_inTwo _) (by decide +kernel) ⟨_, _, rfl, Ending.countable _⟩).1.mpr trivial

/-- The agent stores it, and has no answer that it can send. -/
theorem dottedUpload_unanswered :
    Message.decode (compactFrame dottedUpload.document) = .ok dottedUpload ∧
      dottedUpload.FromHost ∧ idleWorkspace.SucceedsOn () dottedUpload ∧
      StoredUnanswered idleWorkspace () dottedUpload
        (writtenFrames idleWorkspace () (push (compactFrame dottedUpload.document) [])) := by
  have hframe : IsFrame (compactFrame dottedUpload.document) :=
    ⟨(compactFrame dottedUpload.document).take 4, (compactFrame dottedUpload.document).drop 4,
      by decide +kernel⟩
  have hbounds : dottedUpload.ReadBounds := by
    refine ⟨?_, ?_, ?_⟩ <;> decide +kernel
  have hdecode : Message.decode (compactFrame dottedUpload.document) = .ok dottedUpload :=
    (Message.decode_document compactText_readsBack rfl (by decide +kernel)).mpr hbounds
  obtain ⟨rest, -, -, hreceive⟩ := receiveFrame_frame (content_push _ []) hframe
    (length_le_of_decode hframe hdecode) (by decide +kernel)
  rw [hdecode] at hreceive
  refine ⟨hdecode, trivial, fun _ => rfl, _, _, _, rfl, by decide +kernel, ?_⟩
  -- the encoder refuses the name in the response
  exact (upload_answered_iff compactText_prints compactText_readsBack hreceive fun _ => rfl).2
    (by decide +kernel)

end Fixtures
end OpenOJ.Guest
