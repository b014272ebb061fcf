import OpenOJ.Foundation.Outcome
import OpenOJ.Foundation.Search
import OpenOJ.Foundation.Words

/-!
# Responses of the control API

A response is read one byte at a time into a bounded buffer (`BoundedReader`): first until the
buffer holds an empty line (`readHead`), then so many bytes as a header announces (`readBody`). What
was read is parsed again when the buffer is finished (`BoundedReader.finish`), with another search
for the empty line.

* `BoundedReader.push` refuses the byte that would make the buffer longer than `maxApiBody`;
* `contentLength` looks for the header in the lines of the head: its name in any case, and the
  number after the colon with any white space around it (`headerLength`). A head without one
  announces nothing, and has no body;
* `readResponse` is the three together, and answers with an `ApiResponse`, or with one of the errors
  of the transport: a stream that ends early, or a response that is too long or is none.

The errors of the whole crate are here, with their texts (`FirecrackerError.display`).
-/

namespace OpenOJ.Firecracker

open Outcome Search Text

/-! ### Errors -/

/-- `FirecrackerError`, as far as a microVM that is configured already makes it. -/
inductive FirecrackerError where
  | productionRequiresJailer
  | controlApi (status : Nat) (detail : String)
  | io (message : String)
  deriving DecidableEq

/-- `Display` for `FirecrackerError`. -/
def FirecrackerError.display : FirecrackerError → String
  | .productionRequiresJailer => "production profile requires jailer isolation"
  | .controlApi status detail => s!"Firecracker control API returned {status}: {detail}"
  | .io message => s!"I/O error: {message}"

/-! ### The reader -/

/-- `MAX_API_BODY`. -/
def maxApiBody : Nat := 65536

structure ApiResponse where
  status : Nat
  body : List UInt8
  deriving DecidableEq

/-- `BoundedReader`. -/
structure BoundedReader where
  buffer : List UInt8
  maximum : Nat
  bounded : buffer.length ≤ maximum

/-- `BoundedReader::new`. -/
def BoundedReader.new (maximum : Nat) : BoundedReader where
  buffer := []
  maximum
  bounded := Nat.zero_le maximum

/-- `BoundedReader::push`; an error is its message here. -/
def BoundedReader.push (byte : UInt8) (out : BoundedReader) : Except String BoundedReader :=
  if h : out.maximum ≤ out.buffer.length then .error "response exceeds bound"
  else
    .ok { out with
      buffer := out.buffer ++ [byte]
      bounded := by
        rw [List.length_append, List.length_singleton]
        exact Nat.lt_of_not_ge h }

/-- `b"\r\n\r\n"`. -/
def emptyLine : List UInt8 := [13, 10, 13, 10]

/-- `BoundedReader::finish`; nothing when the body is sliced out of range. -/
def BoundedReader.finish (out : BoundedReader) : Option (Nat × List UInt8) :=
  let text := out.buffer
  let index := (position emptyLine text).getD text.length
  let head := fromUtf8Lossy (text.take index)
  let status := ((lines head).head?.bind fun line =>
    (splitWhitespace line)[1]?.bind (parseUnsigned 65535)).getD 0
  if index + 4 ≤ text.length then some (status, text.drop (index + 4)) else none

/-! ### Reading -/

/-- What `read_exact` says of a stream that ends. -/
def earlyEof : String := "early eof"

/-- The loop that reads the head: what it comes to, and what is left of the stream. -/
def readHead : List UInt8 → BoundedReader → Except String Unit × BoundedReader × List UInt8
  | [], out => (.error earlyEof, out, [])
  | byte :: stream, out =>
    match out.push byte with
    | .error error => (.error error, out, stream)
    | .ok out =>
      -- a head that is complete is taken, whatever its length
      if (position emptyLine out.buffer).isSome then (.ok (), out, stream)
      else if 16 * 1024 < out.buffer.length then (.error "headers not terminated", out, stream)
      else readHead stream out

/-- `usize::MAX`. -/
def usizeMax : Nat := 18446744073709551615

/-- What a line announces as the length of the body. -/
def headerLength (line : List Char) : Option Nat := do
  let separator ← line.findIdx? (· = ':')
  if (line.take separator).map Char.toLower ≠ "content-length".toList then none
  else parseUnsigned usizeMax (trim (line.drop (separator + 1)))

/-- `content_length`, of the first line that announces one. -/
def contentLength (buffer : List UInt8) : Option Nat :=
  (lines (fromUtf8Lossy buffer)).findSome? headerLength

/-- The loop that reads the body. -/
def readBody : Nat → List UInt8 → BoundedReader → Except String Unit × BoundedReader × List UInt8
  | 0, stream, out => (.ok (), out, stream)
  | _ + 1, [], out => (.error earlyEof, out, [])
  | remaining + 1, byte :: stream, out =>
    match out.push byte with
    | .error error => (.error error, out, stream)
    | .ok out => readBody remaining stream out

/-- `read_response`. -/
def readResponse (stream : List UInt8) (out : BoundedReader) :
    Except String Unit × BoundedReader × List UInt8 :=
  match readHead stream out with
  | (.error error, out, stream) => (.error error, out, stream)
  | (.ok (), out, stream) =>
    match contentLength out.buffer with
    | none => (.ok (), out, stream)
    | some length =>
      if out.maximum - out.buffer.length < length then
        (.error "content-length exceeds bound", out, stream)
      else readBody length stream out

end OpenOJ.Firecracker
