import ProviderCore.Protocol.StreamAdapter
import ProviderCore.Protocol.UsageReport

/-!
# Frames before an oversized one

A push that leaves too large a remainder fails as a whole, and with it go the frames that it had
completed.  Translators and the observer therefore see every frame before an oversized one just if
the chunk that makes it too large completes no other.
-/

namespace ProviderCore.Protocol

section

variable (d : SseDecoder)

/-- The frames that a push completes, whether it succeeds or not. -/
def SseDecoder.completes (chunk : Bytes) : List Bytes :=
  (drain (d.buffer ++ chunk).length (d.buffer ++ chunk)).1

/-- All frames of a stream up to the first oversized one, or to its end. -/
def completedFrames (d : SseDecoder) : List Bytes → List Bytes
  | [] => d.finish.toList
  | chunk :: chunks =>
    match d.push chunk with
    | (d', .ok _) => d.completes chunk ++ completedFrames d' chunks
    | (_, .error _) => d.completes chunk

/-- The other frames that the chunk with too much of an oversized one completes. -/
def besideOversized (d : SseDecoder) : List Bytes → List Bytes
  | [] => []
  | chunk :: chunks =>
    match d.push chunk with
    | (d', .ok _) => besideOversized d' chunks
    | (_, .error _) => d.completes chunk

variable {d}

/-- A push hands out what it completes, or it fails for good. -/
theorem push_cases (hd : d.overflowed = false) (chunk : Bytes) :
    (∃ d', d.push chunk = (d', .ok (d.completes chunk)) ∧ d'.overflowed = false) ∨
      d.push chunk = ({ buffer := [], overflowed := true }, .error {}) := by
  unfold SseDecoder.push
  rw [if_neg (by simp [hd])]
  dsimp only
  split
  · exact .inr rfl
  · exact .inl ⟨_, rfl, hd⟩

theorem completedFrames_eq (hd : d.overflowed = false) (chunks : List Bytes) :
    completedFrames d chunks =
      (received d (chunks.map .ok)).1 ++ besideOversized d chunks := by
  induction chunks generalizing d with
  | nil => simp [completedFrames, received, besideOversized]
  | cons chunk chunks ih =>
    rw [List.map_cons, completedFrames, received, besideOversized]
    rcases push_cases hd chunk with ⟨d', hpush, hd'⟩ | hpush
    · simp [hpush, ih hd']
    · simp [hpush]

/-- An overflowed decoder hands out nothing more. -/
theorem decoded_of_overflowed (chunks : List Bytes) :
    decoded { buffer := [], overflowed := true } (chunks.map .ok) =
      ([], { buffer := [], overflowed := true }) := by
  induction chunks with
  | nil => rfl
  | cons chunk chunks ih =>
    simp [decoded, UsageObservingStream.push_of_overflowed, ih, Except.toOption]

/-- The observer is handed the frames that a translator is handed. -/
theorem decoded_eq_received (hd : d.overflowed = false) (chunks : List Bytes) :
    (decoded d (chunks.map .ok)).1 ++ (decoded d (chunks.map .ok)).2.finish.toList =
      (received d (chunks.map .ok)).1 := by
  induction chunks generalizing d with
  | nil => rfl
  | cons chunk chunks ih =>
    rw [List.map_cons, decoded, received]
    rcases push_cases hd chunk with ⟨d', hpush, hd'⟩ | hpush
    · simp only [hpush, ← ih hd', ← List.append_assoc]
      rfl
    · simp only [hpush, decoded_of_overflowed]
      rfl

end

theorem deliveredFrames_eq (chunks : List Bytes) :
    deliveredFrames (chunks.length + 1) (chunks.map .ok) = (received {} (chunks.map .ok)).1 := by
  rw [← decoded_eq_received rfl]
  simp [deliveredFrames, List.take_of_length_le]

/-- Translators and the observer get all frames before an oversized one just if the chunk that
makes it too large completes no other frame. -/
theorem delivered_before_oversized_iff (chunks : List Bytes) :
    ((received {} (chunks.map .ok)).1 = completedFrames {} chunks ∧
        deliveredFrames (chunks.length + 1) (chunks.map .ok) = completedFrames {} chunks) ↔
      besideOversized {} chunks = [] := by
  rw [deliveredFrames_eq, and_self, completedFrames_eq rfl]
  exact List.self_eq_append_right

/-! ## A frame lost with an oversized one -/

theorem findSlice_eq_none {first : UInt8} {needle buffer : Bytes} (h : first ∉ buffer) :
    findSlice (first :: needle) buffer = none := by
  induction buffer with
  | nil => rfl
  | cons byte buffer ih =>
    rw [List.mem_cons, not_or] at h
    rw [findSlice, if_neg (by simp [h.1]), ih h.2]
    rfl

section

variable {rest : Bytes}

theorem drain_of_no_line_end (hlf : 10 ∉ rest) (hcr : 13 ∉ rest) (fuel : ℕ) :
    drain fuel rest = ([], rest) := by
  cases fuel with
  | zero => rfl
  | succ =>
    rw [drain, findFrameEnd, lfDelimiter, crlfDelimiter, findSlice_eq_none hlf,
      findSlice_eq_none hcr]

theorem drain_frame (hlf : 10 ∉ rest) (hcr : 13 ∉ rest) :
    drain (Text.ascii "data: 1\n\n" ++ rest).length (Text.ascii "data: 1\n\n" ++ rest) =
      ([Text.ascii "1"], rest) := by
  have hfirst : findSlice lfDelimiter (Text.ascii "data: 1\n\n" ++ rest) = some 7 := by
    simp [findSlice, lfDelimiter, Text.ascii]
  have hnone : findSlice crlfDelimiter (Text.ascii "data: 1\n\n" ++ rest) = none :=
    findSlice_eq_none (by simpa [Text.ascii] using hcr)
  have hlength : (Text.ascii "data: 1\n\n" ++ rest).length = rest.length + 8 + 1 := by
    simp [Text.ascii]
  have hafter : afterFrame (Text.ascii "data: 1\n\n" ++ rest) 7 = rest := by
    simp [afterFrame, crlfDelimiter, Text.ascii]
  rw [hlength, drain, findFrameEnd, hfirst, hnone]
  dsimp only
  rw [hafter, drain_of_no_line_end hlf hcr]
  rfl

/-- Too large a remainder fails the push, whatever was before it. -/
theorem received_of_large {buffer : Bytes} {frames : List Bytes}
    (h : drain buffer.length buffer = (frames, rest)) (hlarge : rest.length > maxPendingFrame) :
    received {} [.ok buffer] = ([], some frameTooLargeError) := by
  have hpush : ({} : SseDecoder).push buffer = (⟨[], true⟩, .error {}) := by
    unfold SseDecoder.push
    simp only [List.nil_append, h, if_pos hlarge]
    rfl
  simp [received, hpush]

end

/-- In one chunk with too large a remainder a complete frame is lost, to a translator and to the
observer; in a chunk of its own it is delivered to both. -/
theorem frame_lost_with_oversized :
    let oversized : Bytes := List.replicate (maxPendingFrame + 1) 120
    let together := [Text.ascii "data: 1\n\n" ++ oversized]
    let apart := [Text.ascii "data: 1\n\n", oversized]
    (received {} (together.map .ok)).1 = [] ∧ deliveredFrames 2 (together.map .ok) = [] ∧
      (received {} (apart.map .ok)).1 = [Text.ascii "1"] ∧
      deliveredFrames 3 (apart.map .ok) = [Text.ascii "1"] := by
  intro rest together apart
  have hlf : 10 ∉ rest := by simp [rest]
  have hcr : 13 ∉ rest := by simp [rest]
  have hlarge : rest.length > maxPendingFrame := by simp [rest]
  have hfirst : ({} : SseDecoder).push (Text.ascii "data: 1\n\n") =
      ({}, .ok [Text.ascii "1"]) := rfl
  have htogether : (received {} (together.map .ok)).1 = [] := by
    rw [List.map_singleton, received_of_large (drain_frame hlf hcr) hlarge]
  have hapart : (received {} (apart.map .ok)).1 = [Text.ascii "1"] := by
    rw [List.map_cons, received, List.map_singleton]
    simp [hfirst, received_of_large (drain_of_no_line_end hlf hcr _) hlarge]
  exact ⟨htogether, (deliveredFrames_eq together).trans htogether, hapart,
    (deliveredFrames_eq apart).trans hapart⟩

end ProviderCore.Protocol
