import ProviderCore.Proxy.Provider

/-!
# Decoding server-sent events

The decoder cuts a stream of chunks into frames at blank lines and hands out the data of each.  A
frame that grows too large without an end poisons the decoder for good.

`drain` takes the complete frames off the buffer.  It is given as much fuel as the buffer has
bytes, which is enough: each frame takes its delimiter with it.
-/

namespace ProviderCore.Protocol

/-- An item of the upstream. -/
abbrev StreamItem := Except ProviderError Bytes

/-- What waiting for the upstream ends with, if the upstream has not ended. -/
inductive Arrival
  | chunk (bytes : Bytes)
  | error (error : ProviderError)
  | timeout

def maxPendingFrame : ℕ := 1024 * 1024

structure SseFrameTooLarge where
deriving DecidableEq

/-- The one error that every translator reports for an oversized frame. -/
def frameTooLargeError : ProviderError :=
  ⟨.upstream, "upstream sent an oversized event without a frame delimiter", none⟩

/-! ## Frames -/

def findSlice (needle : Bytes) : Bytes → Option ℕ
  | [] => if needle.isEmpty then some 0 else none
  | byte :: rest =>
    if needle <+: byte :: rest then some 0 else (findSlice needle rest).map (· + 1)

def lfDelimiter : Bytes := [10, 10]

def crlfDelimiter : Bytes := [13, 10, 13, 10]

def findFrameEnd (buffer : Bytes) : Option ℕ :=
  match findSlice lfDelimiter buffer, findSlice crlfDelimiter buffer with
  | some lf, some crlf => some (min lf crlf)
  | some lf, none => some lf
  | none, crlf => crlf

def stripCarriageReturn (line : Bytes) : Bytes :=
  if line.getLast? = some 13 then line.dropLast else line

def dataValue (line : Bytes) : Option Bytes :=
  (Text.afterStart (Text.ascii "data:") (stripCarriageReturn line)).map fun value =>
    (Text.afterStart (Text.ascii " ") value).getD value

def frameData (frame : Bytes) : Option Bytes :=
  let data := (frame.splitOn 10).foldl (fun data line =>
    match dataValue line with
    | some value => if data.isEmpty then value else data ++ 10 :: value
    | none => data) []
  if data.isEmpty then none else some data

/-! ## The decoder -/

structure SseDecoder where
  buffer : Bytes := []
  overflowed : Bool := false
deriving DecidableEq

def afterFrame (buffer : Bytes) (frameEnd : ℕ) : Bytes :=
  let rest := buffer.drop frameEnd
  rest.drop (if crlfDelimiter <+: rest then 4 else 2)

/-- The data of the complete frames, and what is left of the buffer. -/
def drain : ℕ → Bytes → List Bytes × Bytes
  | 0, buffer => ([], buffer)
  | fuel + 1, buffer =>
    match findFrameEnd buffer with
    | none => ([], buffer)
    | some frameEnd =>
      let (frames, left) := drain fuel (afterFrame buffer frameEnd)
      ((frameData (buffer.take frameEnd)).toList ++ frames, left)

namespace SseDecoder

def push (decoder : SseDecoder) (chunk : Bytes) :
    SseDecoder × Except SseFrameTooLarge (List Bytes) :=
  if decoder.overflowed then (decoder, .error {})
  else
    let buffer := decoder.buffer ++ chunk
    let (frames, left) := drain buffer.length buffer
    if left.length > maxPendingFrame then ({ buffer := [], overflowed := true }, .error {})
    else ({ decoder with buffer := left }, .ok frames)

/-- The unterminated last frame. -/
def finish (decoder : SseDecoder) : Option Bytes :=
  if decoder.buffer.isEmpty then none else frameData decoder.buffer

end SseDecoder

end ProviderCore.Protocol
