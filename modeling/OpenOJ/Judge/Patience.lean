import OpenOJ.Firecracker.Vm
import OpenOJ.Guest.Answer
import OpenOJ.Guest.Process
import OpenOJ.Judge.FirecrackerExecutor

/-!
# How long the host waits for a stage

The host tells its guest how long a stage may take (`stageWallMs`), and waits for the reply as long
as it waits for any (`defaultReadTimeout`). So it receives the report of a stage exactly when this
is over by then, and a build is allowed to take longer.

* `exists_reports`: every stage is reported in a frame that says what the agent said, as soon as the
  wait for its child is over, and this is over by a time exactly when something has stopped it by
  then (`OverBy`);
* `readTimeout_of_openGuestChannel`: every channel that the host opens to its microVM keeps the
  timeout;
* `recv_in_time`, `recv_too_late`: a frame that arrives as a whole is received or not, depending on
  when;
* `recv_iff`: so over every channel, and however the frame is cut, the host receives the report of a
  stage exactly when the wait for its child is over within the host's patience. `overBy_run`: with
  prompt polls that is every run. `slowBuild_late` is a build within its budget whose report comes
  too late.
-/

namespace OpenOJ

open Outcome Json Chunks Arrivals Guest Firecracker

/-- `Duration::from_millis`, in nanoseconds. -/
def fromMillis (wallTimeMs : UInt64) : Nat := wallTimeMs.toNat * 1000000

/-- The budget that the executor sends with a stage. -/
def stageWallMs : Guest.Stage → UInt64
  | .build => buildWallMs
  | .run => runWallMs

/-- The command that the executor sends for a stage. -/
def stageCommand : Guest.Stage → Message
  | .build => buildMessage
  | .run => runMessage

/-- A guest whose commands all come to this child; the time they take is added up. -/
def childWorkspace (capacity : Nat) (schedule : Schedule) (status : ExitStatus)
    (program : List (Pipes.Act Stream UInt8)) (elapsed : Nat) : Workspace Nat where
  write _ _ now := (.ok (), now)
  run _ wallTimeMs now :=
    match waitUntil capacity (fromMillis wallTimeMs) schedule status program with
    | some (ending, time) => (.ok (ending.output, elapsed), now + time)
    -- the loop always comes to an end (`exists_waitUntil`)
    | none => (.error (.io ""), now)

section Replies

variable [JsonText] [Sha256] (capacity : Nat) (schedule : Schedule) (status : ExitStatus)
  (program : List (Pipes.Act Stream UInt8)) (elapsed : Nat)

/-- What the agent answers to a stage's command, the frame it writes for it, and when. -/
structure Reports (stage : Guest.Stage) (message : Message) (frame : List UInt8) (time : Nat) :
    Prop where
  handles : handle (childWorkspace capacity schedule status program elapsed) 0
    (stageCommand stage) = (.ok (some message), time)
  responds : respond (childWorkspace capacity schedule status program elapsed)
    (stageCommand stage) 0 = (.ok frame, time)

variable {capacity schedule status program elapsed}

omit [JsonText] in
/-- The agent answers a stage's command with the report of what came of it. -/
theorem handle_stageCommand {σ : Type} {workspace : Workspace σ} {work next : σ}
    {waited : CommandOutput × Nat} {stage : Guest.Stage} {message : Message}
    (hrun : workspace.run defaultArgv (stageWallMs stage) work = (.ok waited, next))
    (hreport : stageOutput stage defaultArgv (.ok waited) = .ok message) :
    handle workspace work (stageCommand stage) = (.ok (some message), next) := by
  have hargv : defaultArgv ≠ [] := List.cons_ne_nil _ _
  have hstage : runStage workspace stage defaultArgv (stageWallMs stage) work =
      (.ok message, next) := by
    rw [runStage, if_neg hargv, hrun]
    exact congrArg (·, next) hreport
  cases stage with
  | build =>
    rw [stageWallMs] at hstage
    rw [stageCommand, buildMessage, handle, hstage]
    rfl
  | run =>
    rw [stageWallMs] at hstage
    rw [stageCommand, runMessage, handle, hstage]
    rfl

omit [JsonText] [Sha256] in
theorem childWorkspace_run {ending : Ending} {time : Nat} {wallTimeMs : UInt64}
    (h : waitUntil capacity (fromMillis wallTimeMs) schedule status program = some (ending, time))
    (argv : List String) :
    (childWorkspace capacity schedule status program elapsed).run argv wallTimeMs 0 =
      (.ok (ending.output, elapsed), time) := by
  -- the projection is rewritten, as reducing it would start the loop
  have hrun (write : String → List UInt8 → Nat → Except AgentError Unit × Nat)
      (run : List String → UInt64 → Nat → Except AgentError (CommandOutput × Nat) × Nat) :
      (Workspace.mk write run).run = run := rfl
  rw [childWorkspace, hrun, h]
  dsimp only
  rw [Nat.zero_add]

/-- **A stage is reported** in a frame that says what the agent said, as soon as the wait for its
child is over. -/
theorem exists_reports (hprints : Prints) (hreads : ReadsBack) (stage : Guest.Stage) :
    ∃ message frame time,
      Reports capacity schedule status program elapsed stage message frame time ∧
        message.encode = .ok frame ∧ Message.decode frame = .ok message ∧
          ∀ limit, time ≤ limit ↔
            OverBy capacity (fromMillis (stageWallMs stage)) schedule program limit := by
  obtain ⟨ending, time, hwait, htime⟩ : ∃ ending time,
      waitUntil capacity (fromMillis (stageWallMs stage)) schedule status program =
        some (ending, time) ∧ _ := exists_waitUntil program
  obtain ⟨message, hmessage, hsendable⟩ :=
    exists_stageOutput stage (List.cons_ne_nil "printf" ["ok"]) ending elapsed
  obtain ⟨frame, hencode, hdecode⟩ := hsendable.exists_frame hprints hreads
  have hhandle : handle (childWorkspace capacity schedule status program elapsed) 0
      (stageCommand stage) = (.ok (some message), time) :=
    handle_stageCommand (childWorkspace_run hwait defaultArgv) hmessage
  refine ⟨message, frame, time, ⟨hhandle, ?_⟩, hencode, hdecode, htime⟩
  rw [respond, hhandle]
  simp only [hencode, translate_ok]

end Replies

/-! ### The host's patience -/

section Receiving

variable {attempt : Connection (Timed UInt8)} {attempts : List (Connection (Timed UInt8))}
  {host : VmHost} {channel : GuestChannel (Timed UInt8)}

theorem readTimeout_of_openGuestChannel (h : openGuestChannel attempt attempts host = .ok channel) :
    channel.readTimeout = defaultReadTimeout := by
  rw [openGuestChannel, bind_eq_ok] at h
  obtain ⟨-, -, hconnect⟩ := h
  exact readTimeout_of_connectUntilReady hconnect

variable [JsonText] {message : Message} {frame : List UInt8} {time : Nat} {chunks : Source UInt8}

/-- A frame that arrives before the read times out is received. -/
theorem recv_in_time (hopen : openGuestChannel attempt attempts host = .ok channel)
    (hencode : message.encode = .ok frame) (hdecode : Message.decode frame = .ok message)
    (hchunks : content chunks = frame) (later : Timed UInt8)
    (hstream : channel.stream = arriveAt time chunks ++ later) (h : time ≤ defaultReadTimeout) :
    ∃ now rest, channel.recv 0 = .ok (message, now, rest) := by
  obtain ⟨hframe, hfits⟩ := isFrame_of_encode hencode
  obtain ⟨rest, -, hrecv⟩ := recv_frame (hchunks.trans (List.append_nil frame).symm) hframe hfits
  rw [hdecode] at hrecv
  have hintime : time ≤ 0 + channel.readTimeout := by
    rwa [readTimeout_of_openGuestChannel hopen, Nat.zero_add]
  obtain ⟨now, hnow⟩ := GuestChannel.recv_of_recv hrecv later hstream hintime
  exact ⟨now, _, hnow⟩

/-- A frame that arrives later is not. -/
theorem recv_too_late (hopen : openGuestChannel attempt attempts host = .ok channel)
    (hdecode : Message.decode frame = .ok message)
    (hchunks : content chunks = frame) (later : Timed UInt8)
    (hstream : channel.stream = arriveAt time chunks ++ later) (h : defaultReadTimeout < time) :
    channel.recv 0 =
      .error (.io "vsock read failed: Resource temporarily unavailable (os error 11)") := by
  have hne : chunks ≠ [] := by
    rintro rfl
    obtain rfl : [] = frame := hchunks
    cases hdecode
  refine GuestChannel.recv_of_late hne later hstream ?_
  rwa [readTimeout_of_openGuestChannel hopen, Nat.zero_add]

/-- **How long the host waits.** Every stage is reported, and over every channel that is opened the
host receives the report exactly when the wait for the child is over within the timeout of its
reads, whatever budget it sent. -/
theorem recv_iff [Sha256] (hprints : Prints) (hreads : ReadsBack) (capacity : Nat)
    (schedule : Schedule) (status : ExitStatus) (program : List (Pipes.Act Stream UInt8))
    (elapsed : Nat) (stage : Guest.Stage) :
    ∃ message frame time,
      Reports capacity schedule status program elapsed stage message frame time ∧
        ∀ (attempt : Connection (Timed UInt8)) (attempts : List (Connection (Timed UInt8)))
          (host : VmHost) (channel : GuestChannel (Timed UInt8)),
          openGuestChannel attempt attempts host = .ok channel →
          ∀ (chunks : Source UInt8) (later : Timed UInt8), content chunks = frame →
            channel.stream = arriveAt time chunks ++ later →
            ((∃ now rest, channel.recv 0 = .ok (message, now, rest)) ↔
              OverBy capacity (fromMillis (stageWallMs stage)) schedule program
                defaultReadTimeout) := by
  obtain ⟨message, frame, time, hreports, hencode, hdecode, htime⟩ : ∃ message frame time,
      Reports capacity schedule status program elapsed stage message frame time ∧ _ :=
    exists_reports hprints hreads stage
  refine ⟨message, frame, time, hreports, fun _ _ _ _ hopen chunks later hchunks hstream => ?_⟩
  rw [← htime]
  refine ⟨fun ⟨now, rest, hrecv⟩ => ?_, recv_in_time hopen hencode hdecode hchunks later hstream⟩
  by_contra hlate
  rw [recv_too_late hopen hdecode hchunks later hstream (Nat.not_le.mp hlate)] at hrecv
  cases hrecv

end Receiving

/-- With polls that are not delayed, the host waits long enough for every run. -/
theorem overBy_run (capacity : Nat) (program : List (Pipes.Act Stream UInt8)) :
    OverBy capacity (fromMillis (stageWallMs .run)) regularSchedule program defaultReadTimeout := by
  have hbudget : fromMillis (stageWallMs .run) = 10000000000 := by decide +kernel
  refine ⟨1000, .inr ⟨?_, ?_⟩⟩
  · rw [hbudget]
    exact le_rfl
  · rw [defaultReadTimeout]
    decide

/-! ### Fixtures -/

/-- A build that is busy for twenty seconds, of the thirty it is allowed. -/
def slowBuild : List (Pipes.Act Stream UInt8) := [.busy 20000000000]

/-- A microVM that has been bootstrapped. -/
def startedHost : VmHost where
  jailerPath := none
  lifecycle := ⟨.started, 0, none⟩
  child := some 0
  spawned := 1
  reaped := []

/-- The guest accepts the connection, and this is what it sends from then on. -/
def acceptedConnection (stream : Timed UInt8) : Connection (Timed UInt8) :=
  .replied (Text.bytes "OK 1073741824\n") stream

theorem openGuestChannel_accepted (stream : Timed UInt8) :
    openGuestChannel (acceptedConnection stream) [] startedHost =
      .ok ⟨stream, defaultReadTimeout⟩ := by
  have hline : connectOk <+: readLine [] 10 (Text.bytes "OK 1073741824\n") := by decide +kernel
  have hconnect : connect defaultReadTimeout (acceptedConnection stream) =
      .ok ⟨stream, defaultReadTimeout⟩ := by
    simp only [connect, acceptedConnection, refuseIf_neg (not_not.mpr hline)]
    rfl
  rw [openGuestChannel, connectUntilReady, retryUntil, hconnect]
  rfl

section Fixtures

attribute [local instance] compactText fixtureSha256

/-- A run that writes nothing and is done at once. -/
theorem recv_iff_idle :
    ∃ message frame time,
      Reports 65536 regularSchedule (.exited 0) [] 0 .run message frame time ∧
        ((∃ now rest, GuestChannel.recv 0 ⟨arriveAt time (push frame []), defaultReadTimeout⟩ =
            .ok (message, now, rest)) ↔
          OverBy 65536 (fromMillis (stageWallMs .run)) regularSchedule [] defaultReadTimeout) := by
  obtain ⟨message, frame, time, hreports, hrecv⟩ : ∃ message frame time,
      Reports 65536 regularSchedule (.exited 0) [] 0 .run message frame time ∧ _ :=
    recv_iff compactText_prints compactText_readsBack 65536 regularSchedule (.exited 0) [] 0 .run
  refine ⟨message, frame, time, hreports, ?_⟩
  exact hrecv _ _ _ _ (openGuestChannel_accepted _) (push frame []) []
    ((content_push frame []).trans (List.append_nil frame)) (List.append_nil _).symm

/-- It is within its budget, and the host no longer waits for it. -/
theorem slowBuild_late :
    ∃ message frame time,
      Reports 65536 regularSchedule (.exited 0) slowBuild 20000 .build message frame time ∧
        time ≤ fromMillis buildWallMs ∧
        ∃ channel, openGuestChannel (acceptedConnection (arriveAt time (push frame []))) []
            startedHost = .ok channel ∧
          channel.recv 0 =
            .error (.io "vsock read failed: Resource temporarily unavailable (os error 11)") := by
  have hpoll : pollInterval = 10000000 := rfl
  have htimeout : defaultReadTimeout = 15000000000 := rfl
  have hbudget : fromMillis buildWallMs = 30000000000 := by decide +kernel
  have hduration : Pipes.duration slowBuild = 20000000000 := rfl
  have hended : Pipes.duration slowBuild ≤ regularSchedule.tryWait 2000 := by
    rw [hduration]
    decide
  obtain ⟨message, frame, time, hreports, -, hdecode, htime⟩ : ∃ message frame time,
      Reports 65536 regularSchedule (.exited 0) slowBuild 20000 .build message frame time ∧ _ :=
    exists_reports compactText_prints compactText_readsBack .build
  have hwithin : time ≤ fromMillis buildWallMs := by
    -- the look after two thousand intervals finds that it has ended
    refine (htime _).mpr ⟨2000, .inl ⟨⟨fun stream => ?_, hended⟩, ?_⟩⟩
    · exact Nat.zero_le _
    · rw [hbudget]
      decide
  have hlate : defaultReadTimeout < time := by
    rw [← Nat.not_le, htime]
    rintro ⟨k, ⟨⟨-, hlong⟩, hlimit⟩ | ⟨hspent, hlimit⟩⟩
    · omega
    · rw [stageWallMs, hbudget] at hspent
      omega
  refine ⟨message, frame, time, hreports, hwithin, _, openGuestChannel_accepted _, ?_⟩
  exact recv_too_late (openGuestChannel_accepted _) hdecode
    ((content_push frame []).trans (List.append_nil frame)) [] (List.append_nil _).symm hlate

end Fixtures
end OpenOJ
