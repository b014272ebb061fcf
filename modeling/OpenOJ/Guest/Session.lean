import OpenOJ.Guest.Answer

/-!
# Sessions

The two loops over a stream of frames: the host receives messages one by one (`receive`), the agent
serves them until the stream ends (`session`). Every message is encoded on its own, and the frames
are put on the stream one after the other; how the stream is cut into reads is the transport's
business.

* `receive_iff`: the host receives all messages exactly when each of them is one its decoder
  accepts, however the stream is cut;
* `serve_iff`: the agent serves all of them, and sees the stream end, exactly when in addition the
  length of each frame is delivered together, and each message is answered where the agent comes to
  it (`Answers`);
* `serve_closed`: when the agent sees a clean close, the stream was a sequence of frames that decode
  to the messages it served;
* `exists_serve`: a session comes to an end, on every stream.

`framing_iff` puts the four together. They follow the list of messages: one frame is taken off the
stream by the lemmas about a single one (`recv_frame`, `receiveFrame_frame`), and what is left is
again a stream of frames. `framing_iff_fixture` delivers an upload and a run in chunks of which one
ends within a body and one spans two frames, and `cutHeartbeat_not_served` is a frame that is cut
within its length.
-/

namespace OpenOJ.Guest

open Outcome Json Chunks

section Streams

variable [JsonText]

theorem length_le_flatten {messages : List Message} {frames : List (List UInt8)}
    (hframes : List.Forall₂ (fun message frame => message.encode = .ok frame) messages frames) :
    messages.length ≤ frames.flatten.length := by
  induction hframes with
  | nil => exact Nat.le_refl 0
  | cons hencode _ ih =>
    obtain ⟨⟨lengthBuf, body, rfl, hheader, -⟩, -⟩ := isFrame_of_encode hencode
    rw [List.length_cons, List.flatten_cons, List.length_append, List.length_append, hheader]
    omega

/-- The host receives all messages exactly when each of them is one its decoder accepts. -/
theorem receive_iff (hreads : ReadsBack) {messages : List Message} {frames : List (List UInt8)}
    (hframes : List.Forall₂ (fun message frame => message.encode = .ok frame) messages frames)
    {stream : Source UInt8} (h : content stream = frames.flatten) :
    receive messages.length stream = (messages, none) ↔ ∀ message ∈ messages, message.Readable := by
  induction hframes generalizing stream with
  | nil => exact iff_of_true rfl fun _ hmem => absurd hmem List.not_mem_nil
  | @cons message frame messages frames hencode _ ih =>
    obtain ⟨hframe, hfits⟩ := isFrame_of_encode hencode
    obtain ⟨rest, hrest, hrecv⟩ := recv_frame h hframe hfits
    rw [List.forall_mem_cons, ← Message.readBounds_iff (Message.encode_eq_ok.mp hencode).1,
      ← Message.decode_encode hreads hencode, ← ih hrest, List.length_cons, receive, hrecv]
    rcases hreceive : receive messages.length rest with ⟨received, error⟩
    cases hdecode : Message.decode frame with
    | error error => simp [Except.map, Outcome.translate]
    | ok message' => simp [Except.map, Outcome.translate, hreceive, and_assoc]

section Agent

variable [Sha256] {σ : Type} (workspace : Workspace σ)

/-- Each message is one that a host sends, the encoder accepts the name in it, and what it asks for
succeeds in the state in which the agent comes to it. -/
def Answers : σ → List Message → Prop
  | _, [] => True
  | work, message :: messages =>
    (message.FromHost ∧ message.NameAccepted ∧ workspace.SucceedsOn work message) ∧
      Answers (handle workspace work message).2 messages

variable {workspace}

/-- One iteration that receives a message. -/
theorem serve_succ {fuel : Nat} {work : σ} {stream rest : Source UInt8} {message : Message}
    (h : receiveFrame stream = .ok (some (message, rest))) {messages : List Message} :
    serve workspace (fuel + 1) work stream = (messages, some (.ok ())) ↔
      ∃ later, messages = message :: later ∧
        (∃ frame, (respond workspace message work).1 = .ok frame) ∧
        serve workspace fuel (respond workspace message work).2 rest = (later, some (.ok ())) := by
  rw [serve, serveFrame, h]
  rcases hrespond : respond workspace message work with ⟨response, work'⟩
  cases response with
  | error error => simp [Except.map, hrespond]
  | ok answer =>
    rcases hserve : serve workspace fuel work' rest with ⟨decoded, ending⟩
    simp only [hrespond, Except.map, hserve, List.singleton_append, Prod.mk.injEq, Except.ok.injEq,
      exists_eq', true_and]
    refine ⟨fun ⟨hmessages, hending⟩ => ⟨decoded, hmessages.symm, rfl, hending⟩, ?_⟩
    rintro ⟨later, rfl, rfl, hending⟩
    exact ⟨rfl, hending⟩

/-- The agent receives all messages exactly when each of them is one its decoder accepts, no length
is cut, and it has an answer to each. -/
theorem serve_iff (hprints : Prints) (hreads : ReadsBack) {messages : List Message}
    {frames : List (List UInt8)}
    (hframes : List.Forall₂ (fun message frame => message.encode = .ok frame) messages frames)
    {fuel : Nat} (hfuel : messages.length < fuel) {work : σ} {stream : Source UInt8}
    (h : content stream = frames.flatten) :
    serve workspace fuel work stream = (messages, some (.ok ())) ↔
      (∀ message ∈ messages, message.Readable) ∧ Whole 4 frames stream ∧
        Answers workspace work messages := by
  induction hframes generalizing fuel work stream with
  | nil =>
    obtain ⟨fuel, rfl⟩ := Nat.exists_eq_add_one_of_ne_zero (Nat.ne_zero_of_lt hfuel)
    rw [content_eq_nil.mp h]
    exact iff_of_true rfl ⟨fun _ hmem => absurd hmem List.not_mem_nil,
      fun _ hstart => absurd hstart List.not_mem_nil, trivial⟩
  | @cons message frame messages frames hencode _ ih =>
    obtain ⟨fuel, rfl⟩ := Nat.exists_eq_add_one_of_ne_zero (Nat.ne_zero_of_lt hfuel)
    obtain ⟨hframe, hfits⟩ := isFrame_of_encode hencode
    by_cases hwhole : ∀ cut ∈ cuts stream, 4 ≤ cut
    · obtain ⟨rest, hrest, hcuts, hreceive⟩ := receiveFrame_frame h hframe hfits hwhole
      rw [List.forall_mem_cons, ← Message.readBounds_iff (Message.encode_eq_ok.mp hencode).1,
        ← Message.decode_encode hreads hencode, whole_cons hcuts, and_iff_right hwhole, Answers]
      cases hdecode : Message.decode frame with
      | error error =>
        rw [hdecode] at hreceive
        refine iff_of_false (fun hserve => ?_) fun hright => nomatch hright.1.1
        rw [serve, serveFrame, hreceive] at hserve
        cases hserve
      | ok message' =>
        rw [hdecode] at hreceive
        rw [serve_succ hreceive, Except.ok.injEq]
        -- what was decoded is within the bounds of the decoder
        obtain ⟨-, -, -, -, -, hbounds⟩ := Message.decode_eq_ok.mp hdecode
        simp only [List.cons.injEq, respond_snd, respond_iff hprints hreads hbounds]
        constructor
        · rintro ⟨_, ⟨rfl, rfl⟩, hanswer, hlater⟩
          obtain ⟨hreadable, hwhole', hanswers⟩ :=
            (ih (Nat.lt_of_succ_lt_succ hfuel) hrest).mp hlater
          exact ⟨⟨rfl, hreadable⟩, hwhole', hanswer, hanswers⟩
        · rintro ⟨⟨rfl, hreadable⟩, hwhole', hanswer, hanswers⟩
          exact ⟨messages, ⟨rfl, rfl⟩, hanswer,
            (ih (Nat.lt_of_succ_lt_succ hfuel) hrest).mpr ⟨hreadable, hwhole', hanswers⟩⟩
    · obtain ⟨cut, hcut, hshort⟩ : ∃ cut ∈ cuts stream, cut < 4 := by
        push Not at hwhole
        exact hwhole
      refine iff_of_false (fun hserve => ?_) fun hright => ?_
      · rw [serve, serveFrame, receiveFrame_cut hcut hshort] at hserve
        cases hserve
      · have hwhole := hright.2.1 0 List.mem_cons_self cut hcut (cuts_pos hcut)
        omega

/-- **A clean close** is answered only where the stream ends with a frame. -/
theorem serve_closed {fuel : Nat} {work : σ} {stream : Source UInt8} {messages : List Message}
    (h : serve workspace fuel work stream = (messages, some (.ok ()))) :
    ∃ frames : List (List UInt8), content stream = frames.flatten ∧
      List.Forall₂ (fun message frame => IsFrame frame ∧ Message.decode frame = .ok message)
        messages frames := by
  induction fuel generalizing work stream messages with
  | zero => cases h
  | succ fuel ih =>
    rcases hreceive : receiveFrame stream with error | _ | ⟨message, rest⟩
    · rw [serve, serveFrame, hreceive] at h
      cases h
    · rw [serve, serveFrame, hreceive] at h
      obtain ⟨rfl, -⟩ := Prod.mk.inj h
      exact ⟨[], receiveFrame_eq_none hreceive, .nil⟩
    · obtain ⟨later, rfl, -, hlater⟩ := (serve_succ hreceive).mp h
      obtain ⟨frame, hcontent, hframe, hdecode⟩ := receiveFrame_eq_some hreceive
      obtain ⟨frames, hrest, hframes⟩ := ih hlater
      refine ⟨frame :: frames, ?_, .cons ⟨hframe, hdecode⟩ hframes⟩
      rw [hcontent, hrest, List.flatten_cons]

/-- A session comes to an end. -/
theorem exists_serve {fuel : Nat} {work : σ} {stream : Source UInt8}
    (h : (content stream).length < fuel) :
    ∃ messages ending, serve workspace fuel work stream = (messages, some ending) := by
  induction fuel generalizing work stream with
  | zero => exact absurd h (Nat.not_lt_zero _)
  | succ fuel ih =>
    rw [serve, serveFrame]
    rcases hreceive : receiveFrame stream with error | _ | ⟨message, rest⟩
    · exact ⟨_, _, rfl⟩
    · exact ⟨_, _, rfl⟩
    · obtain ⟨frame, hcontent, ⟨lengthBuf, body, rfl, hheader, -⟩, -⟩ :=
        receiveFrame_eq_some hreceive
      rw [hcontent, List.length_append, List.length_append, hheader] at h
      rcases hrespond : respond workspace message work with ⟨response, work'⟩
      have hshorter : (content rest).length < fuel := by omega
      obtain ⟨messages, ending, hserve⟩ : ∃ messages ending,
          serve workspace fuel work' rest = (messages, some ending) := ih hshorter
      cases response with
      | error error =>
        refine ⟨[message], .error error, ?_⟩
        simp only [hrespond, Except.map]
      | ok answer =>
        refine ⟨message :: messages, ending, ?_⟩
        simp only [hrespond, Except.map, hserve, List.singleton_append]

/-- **How the stream is cut.** Of a sequence of encodable messages the host receives all exactly
when its decoder accepts each; the agent does, and sees the stream close, exactly when, beside this,
every length is delivered together and every message is a host's, with a name the encoder accepts,
and can be carried out. No stream is closed to the agent but at the end of a frame, and every
session comes to an end; to the host a stream is never closed. -/
theorem framing_iff (hprints : Prints) (hreads : ReadsBack) {messages : List Message}
    {frames : List (List UInt8)}
    (hframes : List.Forall₂ (fun message frame => message.encode = .ok frame) messages frames)
    {stream : Source UInt8} (h : content stream = frames.flatten) (work : σ) :
    (receive messages.length stream = (messages, none) ↔
      ∀ message ∈ messages, message.Readable) ∧
    (session workspace work stream = (messages, some (.ok ())) ↔
      (∀ message ∈ messages, message.Readable) ∧ Whole 4 frames stream ∧
        Answers workspace work messages) ∧
    (∀ (stream' : Source UInt8) (decoded : List Message),
      session workspace work stream' = (decoded, some (.ok ())) →
        ∃ frames' : List (List UInt8), content stream' = frames'.flatten ∧
          List.Forall₂ (fun message frame => IsFrame frame ∧ Message.decode frame = .ok message)
            decoded frames') ∧
    ∀ stream' : Source UInt8, ∃ decoded ending,
      session workspace work stream' = (decoded, some ending) := by
  refine ⟨receive_iff hreads hframes h, serve_iff hprints hreads hframes ?_ h,
    fun _ _ hclosed => serve_closed hclosed, fun _ => exists_serve (Nat.lt_succ_self _)⟩
  rw [h]
  exact Nat.lt_succ_of_le (length_le_flatten hframes)

end Agent
end Streams

/-! ### Fixtures -/

/-- The frame of a heartbeat. -/
def heartbeatFrame : List UInt8 := compactFrame (Message.heartbeat).document

section Fixtures

attribute [local instance] compactText emptySha256

/-- What a host says first, then, and in the end. -/
def hostMessages : List Message := [.negotiate ["algorithm.batch"], sourceRun, .cancel]

/-- Its frames, of 80, 77 and 42 bytes. -/
def hostFrames : List (List UInt8) := hostMessages.map fun message => compactFrame message.document

/-- They arrive in three chunks: the first ends in the body of the first frame, and the second goes
on to the body of the second. -/
def hostChunks : Source UInt8 :=
  push (hostFrames.flatten.take 30) (push ((hostFrames.flatten.drop 30).take 90)
    (push ((hostFrames.flatten.drop 30).drop 90) []))

theorem content_hostChunks : content hostChunks = hostFrames.flatten := by
  rw [hostChunks, content_push, content_push, content_push, content, List.append_nil,
    List.take_append_drop, List.take_append_drop]

/-- However the chunks are cut within the bodies, both sides receive the three messages. -/
theorem framing_iff_fixture :
    receive 3 hostChunks = (hostMessages, none) ∧
      session promptWorkspace () hostChunks = (hostMessages, some (.ok ())) := by
  have hframes : List.Forall₂ (fun message frame => message.encode = .ok frame) hostMessages
      hostFrames := .cons (by decide +kernel) (.cons (by decide +kernel)
        (.cons (by decide +kernel) .nil))
  obtain ⟨hhost, hagent, -⟩ := @framing_iff _ _ _ promptWorkspace compactText_prints
    compactText_readsBack _ _ hframes _ content_hostChunks ()
  have hreadable : ∀ message ∈ hostMessages, message.Readable :=
    List.forall_mem_cons.mpr ⟨trivial, List.forall_mem_cons.mpr ⟨trivial,
      List.forall_mem_singleton.mpr trivial⟩⟩
  have hwhole : Whole 4 hostFrames hostChunks := by
    unfold Whole
    decide +kernel
  have hanswers : Answers promptWorkspace () hostMessages :=
    ⟨⟨trivial, trivial, trivial⟩, ⟨trivial, trivial, _, _, rfl, Ending.countable _⟩,
      ⟨trivial, trivial, trivial⟩, trivial⟩
  exact ⟨hhost.mpr hreadable, hagent.mpr ⟨hreadable, hwhole, hanswers⟩⟩

/-- A heartbeat of which the first byte arrives first: the host receives it, the agent gives up. -/
theorem cutHeartbeat_not_served :
    Message.heartbeat.encode = .ok heartbeatFrame ∧
      content (push (heartbeatFrame.take 1) (push (heartbeatFrame.drop 1) [])) = heartbeatFrame ∧
      receive 1 (push (heartbeatFrame.take 1) (push (heartbeatFrame.drop 1) [])) =
        ([.heartbeat], none) ∧
      session idleWorkspace () (push (heartbeatFrame.take 1) (push (heartbeatFrame.drop 1) [])) =
        ([], some (.error (.io "truncated length prefix"))) := by
  decide +kernel

end Fixtures
end OpenOJ.Guest
