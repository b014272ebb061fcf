import OpenOJ.Firecracker.Api
import OpenOJ.Foundation.Arrivals
import OpenOJ.Guest.Channel

/-!
# Connecting to a guest

The host connects to the socket that is bridged to its guest, asks for a port, and tries again until
the guest is ready or the time for it is over (`connectUntilReady`, by `retryUntil`). A channel that
is opened (`GuestChannel`) keeps the timeout of its reads, and a frame is received over it exactly
when it arrives before a read times out.

* `readTimeout_of_connectUntilReady`: a channel keeps the timeout it was opened with, whichever
  attempt opened it;
* `GuestChannel.recv_of_recv`: what is there in time is received as it would be without a timeout;
* `GuestChannel.recv_of_late`: what comes too late for the first read is not received, and the error
  is that of the read (`shortfallMessage`).

The stream is one that takes its time, as in `OpenOJ.Foundation.Arrivals`, and the receiver is that
of `OpenOJ.Guest.Channel` with its reads replaced.
-/

namespace OpenOJ.Firecracker

open Outcome Json Arrivals

/-- `DEFAULT_READ_TIMEOUT`, in nanoseconds. -/
def defaultReadTimeout : Nat := 15000000000

/-- `CONNECT_OK_PREFIX`. -/
def connectOk : List Char := "OK ".toList

/-- `GuestChannel`. -/
structure GuestChannel (σ : Type) where
  stream : σ
  readTimeout : Nat

/-- What an attempt to connect comes to: an operation on the socket fails, or there is a reply to
the request for the port. -/
inductive Connection (σ : Type) where
  | failed (message : String)
  | replied (reply : List UInt8) (stream : σ)

/-- `read_line`. -/
def readLine (out : List Char) (previous : UInt8) : List UInt8 → List Char
  | [] => out
  | byte :: rest =>
    let out := if previous = 13 ∧ byte = 10 then out.dropLast else out
    if byte = 10 then out else readLine (out ++ [Char.ofNat byte.toNat]) byte rest

variable {σ : Type}

/-- `GuestChannel::connect`. -/
def connect (readTimeout : Nat) : Connection σ → Except FirecrackerError (GuestChannel σ)
  | .failed message => .error (.io message)
  | .replied reply stream => do
    let line := readLine [] 10 reply
    refuseIf (¬connectOk <+: line) (.io s!"vsock CONNECT rejected: {String.ofList line}")
    return ⟨stream, readTimeout⟩

/-- `retry_until`, with the attempts that there is time for. -/
def retryUntil {α β : Type} (operation : α → Except FirecrackerError β) (attempt : α) :
    List α → Except FirecrackerError β
  | [] =>
    match operation attempt with
    | .ok value => .ok value
    | .error error => .error (.io s!"guest channel readiness timed out: {error.display}")
  | later :: attempts =>
    match operation attempt with
    | .ok value => .ok value
    | .error _ => retryUntil operation later attempts

/-- `GuestChannel::connect_until_ready`. -/
def connectUntilReady (readTimeout : Nat) (attempt : Connection σ)
    (attempts : List (Connection σ)) : Except FirecrackerError (GuestChannel σ) :=
  retryUntil (connect readTimeout) attempt attempts

/-- What a retried operation answers is what one of the attempts answered. -/
theorem exists_of_retryUntil {α β : Type} {operation : α → Except FirecrackerError β} {attempt : α}
    {attempts : List α} {value : β} (h : retryUntil operation attempt attempts = .ok value) :
    ∃ attempt, operation attempt = .ok value := by
  induction attempts generalizing attempt with
  | nil =>
    rw [retryUntil] at h
    rcases hoperation : operation attempt with error | value'
    · rw [hoperation] at h
      cases h
    · rw [hoperation] at h
      exact ⟨attempt, hoperation.trans h⟩
  | cons later attempts ih =>
    rw [retryUntil] at h
    rcases hoperation : operation attempt with error | value'
    · rw [hoperation] at h
      exact ih h
    · rw [hoperation] at h
      exact ⟨attempt, hoperation.trans h⟩

/-- **A channel** keeps the timeout it was opened with. -/
theorem readTimeout_of_connectUntilReady {readTimeout : Nat} {attempt : Connection σ}
    {attempts : List (Connection σ)} {channel : GuestChannel σ}
    (h : connectUntilReady readTimeout attempt attempts = .ok channel) :
    channel.readTimeout = readTimeout := by
  obtain ⟨attempt', hconnect⟩ := exists_of_retryUntil h
  cases attempt' with
  | failed message => cases hconnect
  | replied reply stream =>
    rw [connect, bind_eq_ok] at hconnect
    obtain ⟨-, -, hchannel⟩ := hconnect
    rw [← Except.ok.inj hchannel]

/-! ### Receiving -/

/-- What the standard library says of a buffer that is not filled. -/
def shortfallMessage : Shortfall → String
  | .timedOut => "Resource temporarily unavailable (os error 11)"
  | .ended => Guest.unexpectedEof

section Receiving

variable [JsonText]

/-- `recv`, which is called at some time; the bytes that come in each have their own. -/
def GuestChannel.recv (now : Nat) (channel : GuestChannel (Timed UInt8)) :
    Except Guest.FirecrackerError (Guest.Message × Nat × GuestChannel (Timed UInt8)) := do
  let (lengthBuf, now, stream) ←
    translate (fun shortfall => .io s!"vsock read failed: {shortfallMessage shortfall}")
      (readExactWithin channel.readTimeout 4 now channel.stream)
  let length ← Guest.readLength lengthBuf
  let (body, now, stream) ←
    translate (fun shortfall => .io s!"vsock read body failed: {shortfallMessage shortfall}")
      (readExactWithin channel.readTimeout length now stream)
  let message ← translate Guest.mapCodec (Guest.Message.decode (lengthBuf ++ body))
  return (message, now, { channel with stream })

variable {now time : Nat} {channel : GuestChannel (Timed UInt8)}

/-- **What is there in time** is received as it would be without a timeout. -/
theorem GuestChannel.recv_of_recv {s rest : Chunks.Source UInt8} {message : Guest.Message}
    (h : Guest.recv s = .ok (message, rest)) (later : Timed UInt8)
    (hstream : channel.stream = arriveAt time s ++ later)
    (hintime : time ≤ now + channel.readTimeout) :
    ∃ now', channel.recv now =
      .ok (message, now', { channel with stream := arriveAt time rest ++ later }) := by
  simp only [Guest.recv, bind_eq_ok, orRefuse_eq_ok, Prod.exists] at h
  obtain ⟨lengthBuf, middle, hlengthBuf, length, hlength, body, rest', hbody, message', hdecode,
    hanswer⟩ := h
  obtain ⟨rfl, rfl⟩ := Prod.ext_iff.mp (Except.ok.inj hanswer)
  obtain ⟨now₁, hnow₁, hfirst⟩ := readExactWithin_of_readExact hintime hlengthBuf later
  obtain ⟨now₂, -, hsecond⟩ := readExactWithin_of_readExact
    (hintime.trans (Nat.add_le_add_right hnow₁ _)) hbody later
  refine ⟨now₂, ?_⟩
  rw [GuestChannel.recv, hstream, hfirst]
  simp only [translate_ok, ok_bind, hlength, hsecond, hdecode]
  rfl

/-- **What comes too late** for the first read is not received. -/
theorem GuestChannel.recv_of_late {s : Chunks.Source UInt8} (hs : s ≠ []) (later : Timed UInt8)
    (hstream : channel.stream = arriveAt time s ++ later)
    (hlate : now + channel.readTimeout < time) :
    channel.recv now =
      .error (.io "vsock read failed: Resource temporarily unavailable (os error 11)") := by
  rw [GuestChannel.recv, hstream, readExactWithin_of_late (by decide) hs hlate]
  rfl

end Receiving

end OpenOJ.Firecracker
