import ProviderCore.Protocol.ResponsesEvents

/-!
# Accounts of a Responses stream

`Ledger log opened closed` says how the items of a stream stand after some events: which are open
and which are done, and what was streamed and told of the text of each.  Every index that was ever
added is in exactly one of the two lists.

There is one rule for each kind of event.  A rule acts on the first open item, and `perm` brings any
open item to the front.
-/

namespace ProviderCore.Protocol

open List

/-- An item of the stream: the pieces of its text so far, and the texts it was said to be. -/
structure Slot where
  index : ℕ
  streamed : String := ""
  told : List String := []
deriving DecidableEq

/-- An event that neither adds nor ends an item, and has no text. -/
structure ResponsesEvent.Neutral (event : ResponsesEvent) : Prop where
  added : event.addedIndex = none := by rfl
  done : event.doneItem = none := by rfl
  piece : ∀ index, event.pieceOf index = none := by exact fun _ => rfl
  whole : ∀ index, event.wholeOf index = none := by exact fun _ => rfl

/-- An event that ends the stream. -/
structure ResponsesEvent.Last (event : ResponsesEvent) : Prop where
  neutral : event.Neutral := by exact {}
  created : event.isCreated = false := by rfl
  terminal : event.isTerminal = true := by rfl

structure Ledger (log : List ResponsesEvent) (opened : List Slot) (closed : List (Slot × Json)) :
    Prop where
  indexes : (added log).Perm ((opened ++ closed.map (·.1)).map (·.index))
  nodup : (added log).Nodup
  done : doneItems log = closed.map fun c => (c.1.index, c.2)
  texts : ∀ slot ∈ opened ++ closed.map (·.1),
    deltas slot.index log = slot.streamed ∧ doneTexts slot.index log = slot.told
  fresh : ∀ index ∉ added log, deltas index log = "" ∧ doneTexts index log = []

/-! ## Single events -/

section

variable (event : ResponsesEvent) (index : ℕ)

@[simp] theorem added_singleton : added [event] = event.addedIndex.toList := by
  cases h : event.addedIndex <;> simp [added, h]

@[simp] theorem doneItems_singleton : doneItems [event] = event.doneItem.toList := by
  cases h : event.doneItem <;> simp [doneItems, h]

@[simp] theorem deltas_singleton : deltas index [event] = (event.pieceOf index).getD "" := by
  cases h : event.pieceOf index <;> simp [deltas, h, String.join]

@[simp] theorem doneTexts_singleton : doneTexts index [event] = (event.wholeOf index).toList := by
  cases h : event.wholeOf index <;> simp [doneTexts, h]

end

variable {event : ResponsesEvent}

namespace Ledger

open ResponsesEvent (addedIndex doneItem pieceOf wholeOf)

variable {log : List ResponsesEvent} {slot : Slot} {opened opened' : List Slot}
  {closed : List (Slot × Json)}

/-! ## Rules -/

theorem empty : Ledger [] [] [] where
  indexes := .refl _
  nodup := .nil
  done := rfl
  texts _ h := by cases h
  fresh _ _ := ⟨rfl, rfl⟩

theorem perm (h : Ledger log opened closed) (hperm : opened.Perm opened') :
    Ledger log opened' closed where
  indexes := h.indexes.trans ((hperm.append_right _).map _)
  nodup := h.nodup
  done := h.done
  texts slot hslot := h.texts slot ((hperm.append_right _).mem_iff.mpr hslot)
  fresh := h.fresh

theorem neutral (h : Ledger log opened closed) (he : event.Neutral) :
    Ledger (log ++ [event]) opened closed where
  indexes := by simpa [he.added] using h.indexes
  nodup := by simpa [he.added] using h.nodup
  done := by simpa [he.done] using h.done
  texts slot hslot := by simpa [he.piece, he.whole] using h.texts slot hslot
  fresh index hindex := by
    have hnew : index ∉ added log := by simpa [he.added] using hindex
    simpa [he.piece, he.whole] using h.fresh index hnew

/-- The first open item has its index alone. -/
theorem ne_index (h : Ledger log (slot :: opened) closed) :
    ∀ other ∈ opened ++ closed.map (·.1), slot.index ≠ other.index := by
  intro other hother heq
  have hnodup := h.indexes.nodup_iff.mp h.nodup
  rw [cons_append, map_cons, nodup_cons] at hnodup
  exact hnodup.1 (heq ▸ mem_map_of_mem hother)

theorem add (h : Ledger log opened closed) {index : ℕ} (hnew : index ∉ added log)
    (item : Json) : Ledger (log ++ [.itemAdded index item]) ({ index } :: opened) closed where
  indexes := by
    rw [added_append]
    exact (perm_append_comm.trans (h.indexes.cons index))
  nodup := by
    simpa [nodup_append, addedIndex] using ⟨h.nodup, fun a ha heq => hnew (heq ▸ ha)⟩
  done := by simpa [doneItem] using h.done
  texts slot hslot := by
    rw [cons_append, mem_cons] at hslot
    obtain rfl | hslot := hslot
    · simpa [pieceOf, wholeOf] using h.fresh index hnew
    · simpa [pieceOf, wholeOf] using h.texts slot hslot
  fresh i hi := by
    rw [added_append, mem_append, not_or] at hi
    simpa [pieceOf, wholeOf] using h.fresh i hi.1

section

variable (h : Ledger log (slot :: opened) closed)

include h

/-- What an event with a text does to the first open item. -/
theorem text_step {slot' : Slot} (hindex : slot'.index = slot.index)
    (hadded : event.addedIndex = none) (hdone : event.doneItem = none)
    (hslot : slot.streamed ++ deltas slot.index [event] = slot'.streamed ∧
    slot.told ++ doneTexts slot.index [event] = slot'.told)
    (hother : ∀ i, slot.index ≠ i → deltas i [event] = "" ∧ doneTexts i [event] = []) :
    Ledger (log ++ [event]) (slot' :: opened) closed where
  indexes := by simpa [hadded, hindex] using h.indexes
  nodup := by simpa [hadded] using h.nodup
  done := by simpa [hdone] using h.done
  texts other hmem := by
    rw [cons_append, mem_cons] at hmem
    rw [deltas_append, doneTexts_append]
    obtain rfl | hmem := hmem
    · obtain ⟨hstreamed, htold⟩ := h.texts slot mem_cons_self
      rw [hindex, hstreamed, htold]
      exact hslot
    · obtain ⟨hstreamed, htold⟩ := h.texts other (mem_cons_of_mem _ hmem)
      obtain ⟨hpiece, hwhole⟩ := hother other.index (h.ne_index other hmem)
      simp [hstreamed, htold, hpiece, hwhole]
  fresh i hi := by
    replace hi : i ∉ added log := by simpa [hadded] using hi
    have hne : slot.index ≠ i := fun heq =>
      hi (heq ▸ h.indexes.mem_iff.mpr (mem_map_of_mem mem_cons_self))
    obtain ⟨hpiece, hwhole⟩ := hother i hne
    simpa [hpiece, hwhole] using h.fresh i hi

theorem piece (channel : Channel) (itemId piece : String) :
    Ledger (log ++ [.delta channel itemId slot.index piece])
      ({ slot with streamed := slot.streamed ++ piece } :: opened) closed :=
  h.text_step rfl rfl rfl (by simp [pieceOf, wholeOf]) fun i hi => by simp [pieceOf, wholeOf, hi]

theorem tell (channel : Channel) (itemId text : String) :
    Ledger (log ++ [.textDone channel itemId slot.index text])
      ({ slot with told := slot.told ++ [text] } :: opened) closed :=
  h.text_step rfl rfl rfl (by simp [pieceOf, wholeOf]) fun i hi => by simp [pieceOf, wholeOf, hi]

theorem close (item : Json) :
    Ledger (log ++ [.itemDone slot.index item]) opened (closed ++ [(slot, item)]) := by
  have hperm : (slot :: opened ++ closed.map (·.1)).Perm
      (opened ++ (closed ++ [(slot, item)]).map (·.1)) := by
    rw [map_append, ← append_assoc]
    exact (perm_append_singleton slot _).symm
  exact {
    indexes := by simpa [addedIndex] using h.indexes.trans (hperm.map _)
    nodup := by simpa [addedIndex] using h.nodup
    done := by simp [doneItem, h.done]
    texts := fun other hmem => by
      simpa [pieceOf, wholeOf] using h.texts other (hperm.mem_iff.mpr hmem)
    fresh := fun i hi => by
      have hnew : i ∉ added log := by simpa [addedIndex] using hi
      simpa [pieceOf, wholeOf] using h.fresh i hnew }

end

end Ledger

/-! ## The log as a whole -/

/-- The stream begins with its creation, which is not repeated. -/
def BegunOnce (events : List ResponsesEvent) : Prop :=
  ∃ response rest, events = .created response :: rest ∧ ∀ event ∈ rest, event.isCreated = false

theorem completion_of_quiet (h : event.isTerminal = false) : event.completion = none := by
  cases event <;> first | rfl | cases h

/-- Nothing comes after a terminal event. -/
def TerminalLast (events : List ResponsesEvent) : Prop :=
  ∀ before event after, events = before ++ event :: after → event.isTerminal = true → after = []

variable {events : List ResponsesEvent}

theorem terminalLast_append
    (hquiet : ∀ event ∈ events, event.isTerminal = false) (last : ResponsesEvent) :
    TerminalLast (events ++ [last]) := by
  intro before event after heq hterminal
  rcases eq_nil_or_concat after with rfl | ⟨after, last', rfl⟩
  · rfl
  · rw [concat_eq_append, ← cons_append, ← append_assoc] at heq
    have hmem : event ∈ events := by simp [append_inj_left' heq rfl]
    cases (hquiet event hmem).symm.trans hterminal

/-- The events without their numbers. -/
def bare (log : List NumberedEvent) : List ResponsesEvent := log.map (·.event)

@[simp] theorem bare_append (log log' : List NumberedEvent) :
    bare (log ++ log') = bare log ++ bare log' := map_append

@[simp] theorem bare_singleton (sequence : ℕ) (event : ResponsesEvent) :
    bare [⟨sequence, event⟩] = [event] := rfl

/-- The numbers count the events. -/
def Numbered (log : List NumberedEvent) : Prop := log.map (·.sequence) = List.range log.length

theorem Numbered.append {log : List NumberedEvent} (h : Numbered log) (event : ResponsesEvent) :
    Numbered (log ++ [⟨log.length, event⟩]) := by
  unfold Numbered at h ⊢
  rw [map_append, h, length_append, length_singleton, range_succ]
  rfl

/-- A log that has begun and has not ended, with the number of its next event. -/
structure Spoken (log : List NumberedEvent) (next : ℕ) : Prop where
  length_eq : log.length = next
  numbered : Numbered log
  begun : BegunOnce (bare log)
  quiet : ∀ event ∈ bare log, event.isTerminal = false

namespace Spoken

variable {log : List NumberedEvent} {next : ℕ} {event : ResponsesEvent}

theorem numbered_append (h : Spoken log next) (event : ResponsesEvent) :
    Numbered (log ++ [⟨next, event⟩]) := by
  obtain rfl := h.length_eq
  exact h.numbered.append event

theorem begun_append (h : Spoken log next) (hcreated : event.isCreated = false) :
    BegunOnce (bare (log ++ [⟨next, event⟩])) := by
  obtain ⟨response, rest, hlog, hrest⟩ := h.begun
  exact ⟨response, rest ++ [event], by simp [hlog],
    forall_mem_append.mpr ⟨hrest, forall_mem_singleton.mpr hcreated⟩⟩

theorem emit (h : Spoken log next) (hcreated : event.isCreated = false)
    (hterminal : event.isTerminal = false) : Spoken (log ++ [⟨next, event⟩]) (next + 1) where
  length_eq := by simp [h.length_eq]
  numbered := h.numbered_append event
  begun := h.begun_append hcreated
  quiet := by
    rw [bare_append]
    exact forall_mem_append.mpr ⟨h.quiet, forall_mem_singleton.mpr hterminal⟩

theorem first (response : Json) : Spoken [⟨0, .created response⟩] 1 where
  length_eq := rfl
  numbered := rfl
  begun := ⟨response, [], rfl, nofun⟩
  quiet := forall_mem_singleton.mpr rfl

end Spoken

/-! ## Texts -/

/-- The items that have a text. -/
def textTypes : List String := ["message", "reasoning", "function_call", "custom_tool_call"]

/-- A done item ends with the text that was streamed, if it has one. -/
def Settled (slot : Slot) (item : Json) : Prop :=
  ∀ type ∈ textTypes, item.text? "type" = some type →
    itemText item = some slot.streamed ∧ slot.told = [slot.streamed]

end ProviderCore.Protocol
