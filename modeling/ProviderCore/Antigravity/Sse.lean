import ProviderCore.Protocol.Sse

/-!
# The Antigravity event decoder

This decoder hands out whole frames with their delimiters; the data is read from a frame later.
`drain` has a byte of fuel for each byte of the buffer, as in the shared decoder.
-/

namespace ProviderCore.Antigravity

open Protocol (findSlice lfDelimiter crlfDelimiter stripCarriageReturn)

def maxPendingFrame : ℕ := 1024 * 1024

/-- The value of a data line. -/
def dataValue (line : Bytes) : Option Bytes :=
  (Text.afterStart (Text.ascii "data: ") (stripCarriageReturn line)).or
    (Text.afterStart (Text.ascii "data:") (stripCarriageReturn line))

def frameData (frame : Bytes) : Option Bytes :=
  let data := (frame.splitOn 10).foldl (fun data line =>
    match dataValue line with
    | some value => if data.isEmpty then value else data ++ 10 :: value
    | none => data) []
  if data.isEmpty then none else some data

def frameEnd (buffer : Bytes) : Option ℕ :=
  match findSlice lfDelimiter buffer, findSlice crlfDelimiter buffer with
  | some lf, some crlf => some (min lf crlf + 2)
  | some lf, none => some (lf + 2)
  | none, some crlf => some (crlf + 4)
  | none, none => none

/-- The complete frames, and what is left of the buffer. -/
def drain : ℕ → Bytes → List Bytes × Bytes
  | 0, buffer => ([], buffer)
  | fuel + 1, buffer =>
    match frameEnd buffer with
    | none => ([], buffer)
    | some stop =>
      let (frames, left) := drain fuel (buffer.drop stop)
      (buffer.take stop :: frames, left)

structure SseDecoder where
  buffer : Bytes := []
deriving DecidableEq

namespace SseDecoder

/-- An oversized frame is dropped, and the frames before it with it. -/
def push (decoder : SseDecoder) (chunk : Bytes) : SseDecoder × Option (List Bytes) :=
  let buffer := decoder.buffer ++ chunk
  let (frames, left) := drain buffer.length buffer
  if left.length > maxPendingFrame then ({ buffer := [] }, none) else ({ buffer := left }, frames)

def finish (decoder : SseDecoder) : Option Bytes :=
  if decoder.buffer.isEmpty then none else some decoder.buffer

end SseDecoder

end ProviderCore.Antigravity
