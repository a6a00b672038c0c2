import Mathlib.Data.List.Basic

/-!
# Acknowledgements and markers in a queue

`Ack` is the state of a one-shot acknowledgement: it is sent once, or dropped with whoever held
it.  A queue carries items and markers; `Marked before seen queue` says that a reader who has
seen the items `seen` and works through `queue` in order comes to each marker after exactly the
items that were put in before it.  `Ordered` is the invariant of a queue whose markers are
numbered in the order they were put in, with one lemma for each thing that happens to a queue.
-/

universe u v

/-- A one-shot acknowledgement. -/
inductive Ack
  | pending
  | sent
  | dropped
deriving DecidableEq

namespace Ack

/-- What awaiting the acknowledgement gives, once it is ready. -/
def poll : Ack → Option (Except Unit Unit)
  | pending => none
  | sent => some (.ok ())
  | dropped => some (.error ())

/-- Whoever would have sent the acknowledgement is gone. -/
def abandon : Ack → Ack
  | pending => dropped
  | ack => ack

/-- Awaiting something under a time limit: a result that is ready wins over the limit. -/
def timeout {α : Type u} (elapsed : Bool) : Option α → Option (Except Unit α)
  | some result => some (.ok result)
  | none => if elapsed then some (.error ()) else none

variable {ack : Ack}

theorem eq_sent (hpending : ack ≠ pending) (hdropped : ack ≠ dropped) : ack = sent := by
  cases ack with
  | pending => exact absurd rfl hpending
  | sent => rfl
  | dropped => exact absurd rfl hdropped

/-- Giving up on an acknowledgement sends none. -/
theorem abandon_eq_sent : ack.abandon = sent ↔ ack = sent := by
  cases ack <;> decide

/-- A wait without a limit that answers `true` saw the acknowledgement. -/
theorem sent_of_answer {returned : Option Bool} (h : returned = some true → ack = sent)
    (hanswer : returned.or (ack.poll.map fun result => result.isOk) = some true) : ack = sent := by
  cases returned with
  | some => exact h hanswer
  | none =>
    cases ack with
    | pending => cases hanswer
    | sent => rfl
    | dropped => cases hanswer

end Ack

namespace Channel

variable {α : Type u} {ι : Type v}

def items (queue : List (α ⊕ ι)) : List α := queue.filterMap Sum.getLeft?

def markers (queue : List (α ⊕ ι)) : List ι := queue.filterMap Sum.getRight?

/-- Each marker of the queue comes after exactly the items that were put in before it. -/
def Marked (before : ι → Option (List α)) : List α → List (α ⊕ ι) → Prop
  | _, [] => True
  | seen, .inl item :: queue => Marked before (seen ++ [item]) queue
  | seen, .inr marker :: queue => before marker = some seen ∧ Marked before seen queue

variable {before before' : ι → Option (List α)} {seen : List α} {queue queue' : List (α ⊕ ι)}

@[simp] theorem items_nil : items ([] : List (α ⊕ ι)) = [] := rfl

@[simp] theorem items_inl (item : α) : items (.inl item :: queue) = item :: items queue := rfl

@[simp] theorem items_inr (marker : ι) : items (.inr marker :: queue) = items queue := rfl

@[simp] theorem markers_nil : markers ([] : List (α ⊕ ι)) = [] := rfl

@[simp] theorem markers_inl (item : α) : markers (.inl item :: queue) = markers queue := rfl

@[simp] theorem markers_inr (marker : ι) :
    markers (.inr marker :: queue) = marker :: markers queue := rfl

@[simp] theorem items_append : items (queue ++ queue') = items queue ++ items queue' :=
  List.filterMap_append

@[simp] theorem markers_append : markers (queue ++ queue') = markers queue ++ markers queue' :=
  List.filterMap_append

theorem marked_append :
    Marked before seen (queue ++ queue') ↔
      Marked before seen queue ∧ Marked before (seen ++ items queue) queue' := by
  induction queue generalizing seen with
  | nil => simp [Marked]
  | cons entry _ ih =>
    cases entry with
    | inl => simp [Marked, ih]
    | inr => simp [Marked, ih, and_assoc]

/-- The queue says nothing about markers that are not in it. -/
theorem marked_congr (h : ∀ marker ∈ markers queue, before marker = before' marker) :
    Marked before seen queue ↔ Marked before' seen queue := by
  induction queue generalizing seen with
  | nil => rfl
  | cons entry queue ih =>
    cases entry with
    | inl => exact ih h
    | inr marker =>
      have hrest : ∀ other ∈ markers queue, before other = before' other := fun other hother =>
        h other (List.mem_cons_of_mem _ hother)
      rw [Marked, Marked, h marker List.mem_cons_self, ih hrest]

theorem isSome_of_marked (h : Marked before seen queue) {marker : ι}
    (hmarker : marker ∈ markers queue) : (before marker).isSome := by
  induction queue generalizing seen with
  | nil => simp [markers] at hmarker
  | cons entry _ ih =>
    cases entry with
    | inl => exact ih h hmarker
    | inr =>
      rcases List.mem_cons.mp hmarker with rfl | hmarker
      · exact Option.isSome_of_eq_some h.1
      · exact ih h.2 hmarker

/-! ## Numbered markers -/

/-- A queue with numbered markers: while its reader is alive, what was put in is what the reader
has seen and what is in the queue; `before` lists for each marker what was put in until then. -/
structure Ordered (alive : Prop) (put seen : List α) (queue : List (α ⊕ ℕ))
    (before : List (List α)) : Prop where
  whole : alive → put = seen ++ items queue
  marked : Marked (before[·]?) seen queue
  nodup : (markers queue).Nodup

namespace Ordered

variable {alive alive' : Prop} {put seen : List α} {queue : List (α ⊕ ℕ)} {before : List (List α)}

theorem nil (before : List (List α)) : Ordered alive put put [] before :=
  ⟨fun _ => (List.append_nil put).symm, trivial, List.nodup_nil⟩

/-- The reader is gone and the queue with it. -/
theorem lost (put seen : List α) (before : List (List α)) (h : ¬alive) :
    Ordered alive put seen [] before :=
  ⟨fun halive => absurd halive h, trivial, List.nodup_nil⟩

theorem imp (h : Ordered alive put seen queue before) (himp : alive' → alive) :
    Ordered alive' put seen queue before :=
  ⟨fun halive => h.whole (himp halive), h.marked, h.nodup⟩

variable {marker : ℕ}

section

variable (h : Ordered alive put seen queue before)

include h

theorem lt_length (hmarker : marker ∈ markers queue) : marker < before.length := by
  simpa using isSome_of_marked h.marked hmarker

theorem putItem (item : α) : Ordered alive (put ++ [item]) seen (queue ++ [.inl item]) before := by
  refine ⟨fun halive => ?_, marked_append.mpr ⟨h.marked, trivial⟩, ?_⟩
  · rw [h.whole halive, items_append, List.append_assoc]
    rfl
  · rw [markers_append, markers_inl, markers_nil, List.append_nil]
    exact h.nodup

/-- Give a number to a marker that does not enter the queue. -/
theorem extend (last : List α) : Ordered alive put seen queue (before ++ [last]) := by
  refine ⟨h.whole, (marked_congr fun marker hmarker => ?_).mp h.marked, h.nodup⟩
  exact (List.getElem?_append_left (h.lt_length hmarker)).symm

theorem putMarker (halive : alive) :
    Ordered alive put seen (queue ++ [.inr before.length]) (before ++ [put]) := by
  refine ⟨fun _ => ?_, marked_append.mpr ⟨(h.extend _).marked, ?_, trivial⟩, ?_⟩
  · rw [items_append, items_inr, items_nil, List.append_nil]
    exact h.whole halive
  · simp [h.whole halive]
  · rw [markers_append, List.nodup_append]
    refine ⟨h.nodup, by simp, fun marker hmarker other hother => ?_⟩
    obtain rfl : other = before.length := by simpa using hother
    exact Nat.ne_of_lt (h.lt_length hmarker)

end

theorem see {item : α} (h : Ordered alive put seen (.inl item :: queue) before) :
    Ordered alive put (seen ++ [item]) queue before := by
  refine ⟨fun halive => ?_, h.marked, h.nodup⟩
  rw [h.whole halive, List.append_assoc]
  rfl

/-- The reader has come to a marker: it has seen what was put in before it. -/
theorem seen_eq (h : Ordered alive put seen (.inr marker :: queue) before) :
    before[marker]? = some seen :=
  h.marked.1

theorem pass (h : Ordered alive put seen (.inr marker :: queue) before) :
    Ordered alive put seen queue before :=
  ⟨h.whole, h.marked.2, h.nodup.of_cons⟩

end Ordered

end Channel
