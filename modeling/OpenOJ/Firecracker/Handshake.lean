import OpenOJ.Firecracker.Vsock
import OpenOJ.Guest.Answer

/-!
# The reply to the request for a port

The reply is a line on the stream that carries the frames from then on. It is read one byte at a
time, so that nothing is taken off the stream beyond the end of the line. A stream that ends is
taken for the end of a line, though, and what has been read by then for a reply.

* `readLineFrom_line`: a line that ends is read up to its end, less a carriage return before it;
* `readLineFrom_unfinished`: a stream that ends before a line does is read to its end;
* `connectOver_eq`: on a stream, `connect` answers what it answers for the bytes of a reply;
* `consumesReply`: so the reply is consumed exactly, whatever the stream (`ConsumesReply`);
* `connectOver_unfinished`: a stream that ends is taken for a reply when it begins like one;
* `handshake_iff`: the reply is consumed exactly and a stream that ends before its line does is
  refused (`RefusesUnfinished`), both, exactly when the stream has an end of a line or does not
  begin like a reply.

The bytes of a line become characters one by one (`latin1`), and distinct bytes distinct ones
(`latin1_injective`), so that what a reply begins with can be looked for in the bytes.
-/

namespace OpenOJ.Firecracker

open Outcome Chunks Json Guest

/-- `byte as char`. -/
def latin1 (byte : UInt8) : Char := Char.ofNat byte.toNat

/-- The loop of `read_line`, with the stream that is read. -/
def readLineFrom : Nat → List Char → UInt8 → Source UInt8 → List Char × Source UInt8
  | 0, out, _, stream => (out, stream)
  | fuel + 1, out, previous, stream =>
    match Chunks.read 1 stream with
    | ([], stream) => (out, stream)
    | (byte :: _, stream) =>
      let out := if previous = 13 ∧ byte = 10 then out.dropLast else out
      if byte = 10 then (out, stream)
      else readLineFrom fuel (out ++ [latin1 byte]) byte stream

/-- `read_line`: every iteration takes a byte off the stream, or is the last one. -/
def readLineOn (stream : Source UInt8) : List Char × Source UInt8 :=
  readLineFrom ((content stream).length + 1) [] 10 stream

/-- `GuestChannel::connect`, from where it reads the reply on. -/
def connectOver (readTimeout : Nat) (stream : Source UInt8) :
    Except Firecracker.FirecrackerError (GuestChannel (Source UInt8)) := do
  let (line, stream) := readLineOn stream
  refuseIf (¬connectOk <+: line) (.io s!"vsock CONNECT rejected: {String.ofList line}")
  return ⟨stream, readTimeout⟩

/-! ### Lines -/

section Lines

variable {fuel : Nat} {out : List Char} {previous : UInt8} {stream : Source UInt8}

/-- One iteration, with a byte to read. -/
theorem readLineFrom_succ {byte : UInt8} {more : List UInt8} (h : content stream = byte :: more) :
    ∃ rest, content rest = more ∧
      readLineFrom (fuel + 1) out previous stream =
        if byte = 10 then (if previous = 13 then out.dropLast else out, rest)
        else readLineFrom fuel (out ++ [latin1 byte]) byte rest := by
  obtain ⟨rest, hread, hrest⟩ := read_one h
  refine ⟨rest, hrest, ?_⟩
  rw [readLineFrom, hread]
  dsimp only
  by_cases hend : byte = 10
  · rw [if_pos hend, if_pos hend]
    simp only [hend, and_true]
  · rw [if_neg hend, if_neg hend, if_neg fun h => hend h.2]

/-- **A line that ends** is read up to its end, less a carriage return before it. -/
theorem readLineFrom_line {line more : List UInt8} (hfuel : (content stream).length < fuel)
    (h : content stream = line ++ 10 :: more) (hline : 10 ∉ line) :
    ∃ rest, content rest = more ∧
      readLineFrom fuel out previous stream =
        (if (line.getLast?).getD previous = 13 then (out ++ line.map latin1).dropLast
          else out ++ line.map latin1, rest) := by
  induction line generalizing fuel out previous stream with
  | nil =>
    obtain ⟨fuel, rfl⟩ := Nat.exists_eq_add_one_of_ne_zero (Nat.ne_zero_of_lt hfuel)
    obtain ⟨rest, hrest, hread⟩ := readLineFrom_succ h
    refine ⟨rest, hrest, ?_⟩
    rw [hread, if_pos rfl, List.map_nil, List.append_nil]
    rfl
  | cons byte line ih =>
    obtain ⟨fuel, rfl⟩ := Nat.exists_eq_add_one_of_ne_zero (Nat.ne_zero_of_lt hfuel)
    have hbyte : byte ≠ 10 := (List.ne_of_not_mem_cons hline).symm
    rw [List.cons_append] at h
    obtain ⟨rest, hrest, hread⟩ := @readLineFrom_succ fuel out previous stream _ _ h
    have hfuel' : (content rest).length < fuel := by
      rw [h, ← hrest] at hfuel
      exact Nat.lt_of_succ_lt_succ hfuel
    obtain ⟨rest', hrest', hread'⟩ := ih hfuel' hrest
      (List.not_mem_of_not_mem_cons hline)
    refine ⟨rest', hrest', ?_⟩
    rw [hread, if_neg hbyte, hread', List.getLast?_cons, List.map_cons,
      List.append_assoc, List.singleton_append]
    rfl

/-- **A stream that ends before a line does** is read to its end. -/
theorem readLineFrom_unfinished (hfuel : (content stream).length < fuel)
    (h : 10 ∉ content stream) :
    readLineFrom fuel out previous stream = (out ++ (content stream).map latin1, []) := by
  induction hcontent : content stream generalizing fuel out previous stream with
  | nil =>
    obtain ⟨fuel, rfl⟩ := Nat.exists_eq_add_one_of_ne_zero (Nat.ne_zero_of_lt hfuel)
    obtain rfl := content_eq_nil.mp hcontent
    rw [List.map_nil, List.append_nil]
    rfl
  | cons byte more ih =>
    obtain ⟨fuel, rfl⟩ := Nat.exists_eq_add_one_of_ne_zero (Nat.ne_zero_of_lt hfuel)
    obtain ⟨rest, hrest, hread⟩ := @readLineFrom_succ fuel out previous stream _ _ hcontent
    rw [hcontent] at hfuel h
    have hbyte : byte ≠ 10 := (List.ne_of_not_mem_cons h).symm
    have hfuel' : (content rest).length < fuel := by
      rw [hrest]
      exact Nat.lt_of_succ_lt_succ hfuel
    have hmore : 10 ∉ content rest := by
      rw [hrest]
      exact List.not_mem_of_not_mem_cons h
    rw [hread, if_neg hbyte, ih hfuel' hmore hrest, List.map_cons, List.append_assoc,
      List.singleton_append]

/-- The line that is read is that of `readLine`. -/
theorem readLineFrom_fst (hfuel : (content stream).length < fuel) :
    (readLineFrom fuel out previous stream).1 = readLine out previous (content stream) := by
  induction hcontent : content stream generalizing fuel out previous stream with
  | nil =>
    obtain ⟨fuel, rfl⟩ := Nat.exists_eq_add_one_of_ne_zero (Nat.ne_zero_of_lt hfuel)
    obtain rfl := content_eq_nil.mp hcontent
    rfl
  | cons byte more ih =>
    obtain ⟨fuel, rfl⟩ := Nat.exists_eq_add_one_of_ne_zero (Nat.ne_zero_of_lt hfuel)
    obtain ⟨rest, hrest, hread⟩ := @readLineFrom_succ fuel out previous stream _ _ hcontent
    rw [hread, readLine]
    by_cases hend : byte = 10
    · simp only [hend, and_true, if_true]
    · have hfuel' : (content rest).length < fuel := by
        rw [hcontent, ← hrest] at hfuel
        exact Nat.lt_of_succ_lt_succ hfuel
      simp only [hend, and_false, if_false]
      exact ih hfuel' hrest

end Lines

/-- Reading the reply off the stream is connecting with the reply and what is left of it. -/
theorem connectOver_eq (readTimeout : Nat) (stream : Source UInt8) :
    connectOver readTimeout stream =
      connect readTimeout (.replied (content stream) (readLineOn stream).2) := by
  have hline : (readLineOn stream).1 = readLine [] 10 (content stream) :=
    readLineFrom_fst (Nat.lt_succ_self _)
  rw [connect, ← hline]
  rfl

/-! ### The reply -/

section Reply

variable [JsonText]

/-- A line and its end are taken off the stream exactly: what is read is the line, what is left is
what follows it, and a frame that follows it is received as it is. -/
def ConsumesReply (stream : Source UInt8) : Prop :=
  ∀ line cr rest : List UInt8, content stream = line ++ cr ++ 10 :: rest → 10 ∉ line →
    line.getLast? ≠ some 13 → cr = [] ∨ cr = [13] →
    ∃ stream', readLineOn stream = (line.map latin1, stream') ∧ content stream' = rest ∧
      ∀ (frame more : List UInt8) (message : Message), rest = frame ++ more → IsFrame frame →
        Message.decode frame = .ok message →
        ∃ after, recv stream' = .ok (message, after) ∧ content after = more

omit [JsonText] in
/-- A stream that ends before the line does is no reply. -/
def RefusesUnfinished (readTimeout : Nat) (stream : Source UInt8) : Prop :=
  10 ∉ content stream → ∀ channel, connectOver readTimeout stream ≠ .ok channel

/-- **The reply is consumed exactly**, whatever the stream. -/
theorem consumesReply (stream : Source UInt8) : ConsumesReply stream := by
  intro line cr rest hcontent hline hlast hcr
  have hend : 10 ∉ line ++ cr := by
    rcases hcr with rfl | rfl
    · rwa [List.append_nil]
    · rw [List.mem_append, not_or]
      exact ⟨hline, by decide⟩
  obtain ⟨stream', hrest, hread⟩ := @readLineFrom_line ((content stream).length + 1) [] 10 stream
    (line ++ cr) rest (Nat.lt_succ_self _) hcontent hend
  refine ⟨stream', ?_, hrest, fun frame more message hframes hframe hdecode => ?_⟩
  · rw [readLineOn, hread, List.nil_append]
    rcases hcr with rfl | rfl
    · rw [List.append_nil, if_neg]
      cases hlast' : line.getLast? with
      | none => decide
      | some byte => exact fun heq => hlast (hlast'.trans (congrArg some heq))
    · rw [List.getLast?_concat, Option.getD_some, if_pos rfl, List.map_append, List.map_singleton,
        List.dropLast_concat]
  · obtain ⟨after, hmore, hrecv⟩ :=
      recv_frame (hrest.trans hframes) hframe (length_le_of_decode hframe hdecode)
    rw [hdecode] at hrecv
    exact ⟨after, hrecv, hmore⟩

end Reply

private theorem toNat_latin1 : ∀ byte, (latin1 byte).toNat = byte.toNat := by
  rw [Text.forall_byte]
  decide +kernel

theorem latin1_injective : Function.Injective latin1 := by
  intro a b h
  have hnat := congrArg Char.toNat h
  rw [toNat_latin1, toNat_latin1] at hnat
  exact UInt8.toNat_inj.mp hnat

/-- Bytes are read as a line that begins like a reply when they do. -/
theorem connectOk_prefix_iff {line : List UInt8} :
    connectOk <+: line.map latin1 ↔ Text.bytes "OK " <+: line := by
  have hok : connectOk = (Text.bytes "OK ").map latin1 := by decide +kernel
  rw [hok, List.prefix_map_iff_of_injective latin1_injective]

/-- **A stream that ends** is taken for a reply when it begins like one. -/
theorem connectOver_unfinished {readTimeout : Nat} {stream : Source UInt8}
    (h : 10 ∉ content stream) :
    (∃ channel, connectOver readTimeout stream = .ok channel) ↔
      Text.bytes "OK " <+: content stream := by
  have hread : readLineOn stream = ((content stream).map latin1, []) :=
    readLineFrom_unfinished (Nat.lt_succ_self _) h
  rw [connectOver, hread]
  dsimp only
  rw [← connectOk_prefix_iff]
  by_cases hok : connectOk <+: (content stream).map latin1
  · rw [refuseIf_neg (not_not.mpr hok)]
    exact iff_of_true ⟨_, rfl⟩ hok
  · rw [refuseIf_pos hok]
    exact iff_of_false (fun ⟨_, herror⟩ => nomatch herror) hok

/-- **The handshake.** The reply is consumed exactly and a stream that ends before its line does is
refused, both, exactly when the stream has an end of a line or does not begin like a reply. -/
theorem handshake_iff [JsonText] (readTimeout : Nat) (stream : Source UInt8) :
    ConsumesReply stream ∧ RefusesUnfinished readTimeout stream ↔
      10 ∈ content stream ∨ ¬Text.bytes "OK " <+: content stream := by
  rw [and_iff_right (consumesReply stream), RefusesUnfinished]
  by_cases hend : 10 ∈ content stream
  · exact iff_of_true (fun h => absurd hend h) (.inl hend)
  · rw [or_iff_right hend, ← connectOver_unfinished hend, not_exists]
    exact forall_prop_of_true hend

/-! ### Fixtures -/

/-- A reply whose line is not finished when the stream ends. -/
def unfinishedReply : Source UInt8 := push (Text.bytes "OK 1073741824") []

section Fixtures

attribute [local instance] compactText

/-- It is taken for a reply. -/
theorem unfinishedReply_accepted :
    10 ∉ content unfinishedReply ∧
      (∃ channel, connectOver defaultReadTimeout unfinishedReply = .ok channel) ∧
      ¬(ConsumesReply unfinishedReply ∧ RefusesUnfinished defaultReadTimeout unfinishedReply) := by
  have hend : 10 ∉ content unfinishedReply := by decide +kernel
  have hok : Text.bytes "OK " <+: content unfinishedReply := by decide +kernel
  obtain ⟨channel, hchannel⟩ :=
    (@connectOver_unfinished defaultReadTimeout unfinishedReply hend).mpr hok
  exact ⟨hend, ⟨channel, hchannel⟩, fun h => h.2 hend channel hchannel⟩

end Fixtures
end OpenOJ.Firecracker
