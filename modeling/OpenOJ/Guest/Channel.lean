import OpenOJ.Foundation.Chunks
import OpenOJ.Guest.Agent
import OpenOJ.Guest.Codec

/-!
# Frames on a stream

The two ends of the channel between a host and its guest. Both cut frames out of the bytes that come
in, the host with reads that fill their buffers (`recv`), the agent with one read for the length of
a frame (`receiveFrame`). A frame (`IsFrame`) is a length of four bytes and a body of that length.

* `recv_frame`: the host receives what is in the next frame, however the stream is cut;
* `receiveFrame_frame`: the agent receives what is in the next frame when its length is delivered
  together, and `receiveFrame_cut` says that it fails when the length is not;
* `receiveFrame_eq_some`, `receiveFrame_eq_none`: what the stream was when the agent has received
  something, or a clean close.

Over these the agent serves: `handle` carries a message out in a `Workspace`, which is what the
agent can do to its files and processes, `respond` encodes the response, `serveFrame` is one
iteration, and `serve` and `session` are the loop. `safeInputPath` is the agent's own check of the
names of uploads.

The errors of both ends are those of the codec (`CodecError.display`, `mapCodec`) and of reading
from a stream (`readLength`, `unexpectedEof`).
-/

namespace OpenOJ.Guest

open Outcome Json Chunks

/-! ### Errors -/

/-- `Display` for `CodecError`. -/
def CodecError.display : CodecError → String
  | .frameTooLarge actual maximum => s!"encoded frame is {actual} bytes, maximum {maximum}"
  | .boundedLengthExceeded actual maximum =>
    s!"declared frame length {actual} exceeds maximum {maximum}"
  | .truncated => "frame is truncated"
  | .malformedJson => "frame body is not valid JSON"
  | .unknownType => "message type is missing or unknown"
  | .typeTooLong => "message type is too long"
  | .unsupportedVersion => "message version is missing or unsupported"
  | .boundsExceeded field actual maximum => s!"field {field} is {actual}, maximum {maximum}"

/-- What the standard library says of a stream that ends before a buffer is full. -/
def unexpectedEof : String := "failed to fill whole buffer"

/-- `FirecrackerError`, of which the channel makes one only. -/
inductive FirecrackerError where
  | io (message : String)
  deriving DecidableEq

/-! ### The host -/

section Streams

variable [JsonText]

/-- `read_length`. -/
def readLength (lengthBuf : List UInt8) : Except FirecrackerError Nat := do
  let length := BigEndian.ofBytes lengthBuf
  refuseIf (maxFrameBytes - 4 < length)
    (.io s!"guest frame length {length} exceeds bound {maxFrameBytes}")
  return length

/-- `map_codec`. -/
def mapCodec (error : CodecError) : FirecrackerError :=
  .io s!"guest message decode failed: {error.display}"

/-- `GuestChannel::recv`. -/
def recv (stream : Source UInt8) : Except FirecrackerError (Message × Source UInt8) := do
  let (lengthBuf, stream) ←
    orRefuse (.io s!"vsock read failed: {unexpectedEof}") (readExact 4 stream)
  let length ← readLength lengthBuf
  let (body, stream) ←
    orRefuse (.io s!"vsock read body failed: {unexpectedEof}") (readExact length stream)
  let message ← translate mapCodec (Message.decode (lengthBuf ++ body))
  return (message, stream)

/-- So many messages are received, or those before the first error. -/
def receive : Nat → Source UInt8 → List Message × Option FirecrackerError
  | 0, _ => ([], none)
  | n + 1, stream =>
    match recv stream with
    | .error error => ([], some error)
    | .ok (message, stream) =>
      let (messages, error) := receive n stream
      (message :: messages, error)

/-! ### The agent -/

/-- `SUPPORTED_CAPABILITIES`. -/
def supportedCapabilities : List String := ["algorithm.batch"]

/-- `accepts_capabilities`. -/
def acceptsCapabilities (capabilities : List String) : Bool :=
  !capabilities.isEmpty && capabilities.all fun capability =>
    supportedCapabilities.contains capability

/-- The directory of a task and the processes that run in it. -/
structure Workspace (σ : Type) where
  write (name : String) (bytes : List UInt8) : σ → Except AgentError Unit × σ
  run (argv : List String) (wallTimeMs : UInt64) : σ → Except AgentError (CommandOutput × Nat) × σ

/-- `safe_input_path`, of which only the refusal matters. -/
def safeInputPath (name : String) : Except AgentError Unit :=
  refuseIf (name = "" ∨ '/' ∈ name.toList ∨ '\\' ∈ name.toList ∨ name = ".." ∨
    name.toList.take 2 = ['.', '.']) (.unsafeName name)

section Agent

variable [Sha256] {σ : Type} (workspace : Workspace σ)

/-- `write_input`. -/
def writeInput (name digest : String) (bytes : List UInt8) (work : σ) :
    Except AgentError Bool × σ :=
  match safeInputPath name with
  | .error error => (.error error, work)
  | .ok () =>
    if digest ≠ hex (Sha256.digest bytes) then (.ok false, work)
    else
      let (written, work) := workspace.write name bytes work
      (written.map fun _ => true, work)

/-- A stage runs, unless there is no command for it. -/
def runStage (stage : Stage) (argv : List String) (wallTimeMs : UInt64) (work : σ) :
    Except AgentError Message × σ :=
  if argv = [] then (.error .emptyArgv, work)
  else
    let (waited, work) := workspace.run argv wallTimeMs work
    (stageOutput stage argv waited, work)

/-- `handle`. -/
def handle (work : σ) : Message → Except AgentError (Option Message) × σ
  | .negotiate capabilities => (.ok (some (.negotiated (acceptsCapabilities capabilities))), work)
  | .uploadInput name digest bytes =>
    let (accepted, work) := writeInput workspace name digest bytes work
    (accepted.map fun accepted => some (.uploadAck name accepted), work)
  | .build argv wallTimeMs =>
    let (output, work) := runStage workspace .build argv wallTimeMs work
    (output.map some, work)
  | .run argv wallTimeMs =>
    let (output, work) := runStage workspace .run argv wallTimeMs work
    (output.map some, work)
  | .stageEvidence kind => (.ok (some (.evidenceAck kind true)), work)
  | .cancel => (.ok (some .cancelled), work)
  | .heartbeat => (.ok (some .ack), work)
  | other => (.error (.unexpectedMessage other.messageType), work)

/-- The second half of `serve_frame`: the frame that answers a message. -/
def respond (message : Message) (work : σ) : Except AgentError (List UInt8) × σ :=
  match handle workspace work message with
  | (.error error, work) => (.error error, work)
  | (.ok none, work) => (.ok [], work)
  | (.ok (some response), work) =>
    (translate (fun error => .io s!"encode {error.display}") response.encode, work)

end Agent

/-- The first half of `serve_frame`: the next message, or `none` at the end of the stream. -/
def receiveFrame (stream : Source UInt8) :
    Except AgentError (Option (Message × Source UInt8)) := do
  -- one read, whatever it brings
  let (lengthBuf, stream) := read 4 stream
  if lengthBuf = [] then return none
  refuseIf (lengthBuf.length < 4) (.io "truncated length prefix")
  let length := BigEndian.ofBytes lengthBuf
  refuseIf (maxFrameBytes < length) (.io s!"frame length {length} exceeds bound")
  let (body, stream) ← orRefuse (.io unexpectedEof) (readExact length stream)
  let message ← translate (fun error => .io s!"decode {error.display}")
    (Message.decode (lengthBuf ++ body))
  return some (message, stream)

section Agent

variable [Sha256] {σ : Type} (workspace : Workspace σ)

/-- `serve_frame`, with the message it decoded: it goes on, or the stream has ended. -/
def serveFrame (work : σ) (stream : Source UInt8) :
    List Message × Except AgentError (Option (σ × Source UInt8)) :=
  match receiveFrame stream with
  | .error error => ([], .error error)
  | .ok none => ([], .ok none)
  | .ok (some (message, stream)) =>
    let (response, work) := respond workspace message work
    ([message], response.map fun _ => some (work, stream))

/-- `while serve_frame(..)? {}`: the messages that are decoded, and how the session ends. -/
def serve : Nat → σ → Source UInt8 → List Message × Option (Except AgentError Unit)
  | 0, _, _ => ([], none)
  | fuel + 1, work, stream =>
    match serveFrame workspace work stream with
    | (decoded, .error error) => (decoded, some (.error error))
    | (decoded, .ok none) => (decoded, some (.ok ()))
    | (decoded, .ok (some (work, stream))) =>
      let (messages, ending) := serve fuel work stream
      (decoded ++ messages, ending)

/-- A session: every frame takes something from the stream. -/
def session (work : σ) (stream : Source UInt8) :
    List Message × Option (Except AgentError Unit) :=
  serve workspace ((content stream).length + 1) work stream

end Agent

/-! ### Frames -/

/-- A frame says how long its body is. -/
def IsFrame (frame : List UInt8) : Prop :=
  ∃ lengthBuf body, frame = lengthBuf ++ body ∧ lengthBuf.length = 4 ∧
    BigEndian.ofBytes lengthBuf = body.length

/-- A message is written as a frame that both ends accept the length of. -/
theorem isFrame_of_encode {message : Message} {frame : List UInt8}
    (h : message.encode = .ok frame) : IsFrame frame ∧ frame.length ≤ maxFrameBytes := by
  have hmax : maxFrameBytes = 1048576 := rfl
  obtain ⟨-, body, -, hfits, rfl⟩ := Message.encode_eq_ok.mp h
  have hheader := BigEndian.length_toBytes 4 body.length
  refine ⟨⟨_, body, rfl, hheader, BigEndian.ofBytes_toBytes (by omega)⟩, ?_⟩
  rw [List.length_append, hheader]
  omega

/-- **The host** receives what is in the next frame, however the stream is cut. -/
theorem recv_frame {stream : Source UInt8} {frame more : List UInt8}
    (h : content stream = frame ++ more) (hframe : IsFrame frame)
    (hfits : frame.length ≤ maxFrameBytes) :
    ∃ rest, content rest = more ∧
      recv stream = (translate mapCodec (Message.decode frame)).map fun message =>
        (message, rest) := by
  obtain ⟨lengthBuf, body, rfl, hheader, hlength⟩ := hframe
  rw [List.append_assoc] at h
  obtain ⟨middle, hmiddle, hcontent⟩ := readExact_append h
  obtain ⟨rest, hrest, hmore⟩ := readExact_append hcontent
  refine ⟨rest, hmore, ?_⟩
  rw [hheader] at hmiddle
  rw [List.length_append, hheader] at hfits
  unfold recv readLength
  simp only [hmiddle, orRefuse_some, ok_bind, hlength,
    refuseIf_neg (show ¬maxFrameBytes - 4 < body.length by omega), pure, Except.pure, hrest]
  cases Message.decode (lengthBuf ++ body) <;> rfl

/-- **The agent** receives what is in the next frame when its length is delivered together. -/
theorem receiveFrame_frame {stream : Source UInt8} {frame more : List UInt8}
    (h : content stream = frame ++ more) (hframe : IsFrame frame)
    (hfits : frame.length ≤ maxFrameBytes) (hwhole : ∀ cut ∈ cuts stream, 4 ≤ cut) :
    ∃ rest, content rest = more ∧
      (∀ cut, 0 < cut → (cut ∈ cuts rest ↔ frame.length + cut ∈ cuts stream)) ∧
      receiveFrame stream =
        (translate (fun error : CodecError => AgentError.io s!"decode {error.display}")
          (Message.decode frame)).map fun message => some (message, rest) := by
  obtain ⟨lengthBuf, body, rfl, hheader, hlength⟩ := hframe
  rw [List.append_assoc] at h
  obtain ⟨middle, hmiddle, hcontent⟩ := readExact_append h
  obtain ⟨rest, hrest, hmore⟩ := readExact_append hcontent
  refine ⟨rest, hmore, fun cut hcut => ?_, ?_⟩
  · rw [mem_cuts_rest hrest hcut, mem_cuts_rest hmiddle (Nat.add_pos_right _ hcut),
      List.length_append, Nat.add_assoc]
  · have hread : read 4 stream = (lengthBuf, middle) := by
      have hlong : 4 ≤ (content stream).length := by
        rw [h, List.length_append, hheader]
        exact Nat.le_add_right _ _
      rw [hheader, read_of_whole hlong hwhole] at hmiddle
      exact Option.some_inj.mp hmiddle
    have hne : lengthBuf ≠ [] := by
      rintro rfl
      cases hheader
    rw [List.length_append, hheader] at hfits
    unfold receiveFrame
    simp only [hread, if_neg hne, refuseIf_neg (show ¬lengthBuf.length < 4 by omega), hlength,
      refuseIf_neg (show ¬maxFrameBytes < body.length by omega), ok_bind, hrest, orRefuse_some]
    cases Message.decode (lengthBuf ++ body) <;> rfl

/-- A length that is cut is taken for the end of the stream. -/
theorem receiveFrame_cut {stream : Source UInt8} {cut : Nat} (hcut : cut ∈ cuts stream)
    (h : cut < 4) : receiveFrame stream = .error (.io "truncated length prefix") := by
  obtain ⟨hpos, hshort⟩ := read_of_cut hcut h
  unfold receiveFrame
  dsimp only
  rw [if_neg (List.length_pos_iff.mp hpos), refuseIf_pos hshort]
  rfl

/-- A message the agent receives is that of a frame. -/
theorem receiveFrame_eq_some {stream rest : Source UInt8} {message : Message}
    (h : receiveFrame stream = .ok (some (message, rest))) :
    ∃ frame, content stream = frame ++ content rest ∧ IsFrame frame ∧
      Message.decode frame = .ok message := by
  have hlength := length_read_le 4 stream
  have hcontent := content_read 4 stream
  unfold receiveFrame at h
  rcases hread : read 4 stream with ⟨lengthBuf, middle⟩
  rw [hread] at h hlength hcontent
  dsimp only at h hlength hcontent
  split_ifs at h with hend
  · cases h
  simp only [bind_eq_ok, refuseIf_eq_ok, orRefuse_eq_ok, translate_eq_ok, pure, Except.pure,
    Except.ok.injEq, Option.some.injEq, Prod.mk.injEq, exists_const] at h
  obtain ⟨hlong, -, ⟨body, rest'⟩, hbody, message', hdecode, rfl, rfl⟩ := h
  obtain ⟨hbodyLength, hmiddle⟩ := readExact_eq_some hbody
  refine ⟨lengthBuf ++ body, ?_, ⟨lengthBuf, body, rfl, by omega, hbodyLength.symm⟩, hdecode⟩
  rw [← hcontent, hmiddle, List.append_assoc]

theorem receiveFrame_eq_none {stream : Source UInt8} (h : receiveFrame stream = .ok none) :
    content stream = [] := by
  unfold receiveFrame at h
  dsimp only at h
  split_ifs at h with hread
  · exact content_eq_nil_of_read (by decide) hread
  · simp [bind_eq_ok, pure, Except.pure] at h

end Streams
end OpenOJ.Guest
