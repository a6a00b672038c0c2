import Mathlib.Data.List.Range

/-!
# Numbered brackets

A log of blocks that are started, added to and stopped, each under its number.  A reader that goes
through the log remembers how many blocks were stopped and what kind of block is open; `Reads` says
that it gets through.

What a reader gets through is well bracketed, told without the reader: the blocks are numbered in
turn, each is started and stopped once, what is added to a block is added while it is open, and
nothing is open at a finish (`Reads.bracketed`).
-/

namespace Brackets

open List

variable {κ δ : Type}

inductive Token (κ δ : Type)
  | start (index : ℕ) (kind : κ)
  | delta (index : ℕ) (part : δ)
  | stop (index : ℕ)
  | finish

def Token.started : Token κ δ → Option ℕ
  | .start index _ => some index
  | _ => none

def Token.stopped : Token κ δ → Option ℕ
  | .stop index => some index
  | _ => none

def started (log : List (Token κ δ)) : List ℕ := log.filterMap Token.started

def stopped (log : List (Token κ δ)) : List ℕ := log.filterMap Token.stopped

/-! ## The reader -/

section

variable (fits : κ → δ → Prop)

/-- A token takes the reader from a number of stopped blocks and an open one to others. -/
inductive Step : ℕ → Option κ → Token κ δ → ℕ → Option κ → Prop
  | start (n : ℕ) (kind : κ) : Step n none (.start n kind) n (some kind)
  | delta (n : ℕ) {kind : κ} {part : δ} (h : fits kind part) :
      Step n (some kind) (.delta n part) n (some kind)
  | stop (n : ℕ) (kind : κ) : Step n (some kind) (.stop n) (n + 1) none
  | finish (n : ℕ) : Step n none .finish n none

inductive Reads : List (Token κ δ) → ℕ → Option κ → Prop
  | nil : Reads [] 0 none
  | snoc {log : List (Token κ δ)} {n n' : ℕ} {o o' : Option κ} {token : Token κ δ}
      (h : Reads log n o) (step : Step fits n o token n' o') : Reads (log ++ [token]) n' o'

/-- A log whose blocks are in order. -/
structure Bracketed (log : List (Token κ δ)) : Prop where
  inTurn : started log = range (started log).length ∧
    stopped log = range (stopped log).length
  oneOpen : ∀ before, before <+: log →
    (stopped before).length ≤ (started before).length ∧
      (started before).length ≤ (stopped before).length + 1
  within : ∀ before index part after, log = before ++ .delta index part :: after →
    ∃ kind, fits kind part ∧ .start index kind ∈ before ∧ .stop index ∉ before
  allStopped : ∀ before after, log = before ++ .finish :: after → stopped before = started before

end

/-! ## What the reader gets through -/

namespace Reads

variable {fits : κ → δ → Prop} {log : List (Token κ δ)} {n : ℕ} {o : Option κ}

theorem of_snoc {token : Token κ δ} (h : Reads fits (log ++ [token]) n o) :
    ∃ m o', Reads fits log m o' ∧ Step fits m o' token n o := by
  generalize hlog : log ++ [token] = whole at h
  cases h with
  | nil => exact absurd hlog (by simp)
  | snoc h step =>
    obtain ⟨rfl, htoken⟩ := append_inj' hlog rfl
    obtain rfl := singleton_inj.mp htoken
    exact ⟨_, _, h, step⟩

theorem of_append {more : List (Token κ δ)} (h : Reads fits (log ++ more) n o) :
    ∃ m o', Reads fits log m o' := by
  induction more using reverseRecOn generalizing n o with
  | nil => exact ⟨n, o, by simpa using h⟩
  | append_singleton _ _ ih =>
    rw [← append_assoc] at h
    obtain ⟨_, _, h', -⟩ := h.of_snoc
    exact ih h'

theorem numbers (h : Reads fits log n o) :
    started log = range (n + if o.isSome then 1 else 0) ∧ stopped log = range n := by
  induction h with
  | nil => exact ⟨rfl, rfl⟩
  | snoc _ step ih =>
    rw [started, stopped, filterMap_append, filterMap_append, ← started, ← stopped, ih.1, ih.2]
    cases step with
    | start => simp [Token.started, Token.stopped, range_succ]
    | delta => simp [Token.started, Token.stopped]
    | stop => simp [Token.started, Token.stopped, range_succ]
    | finish => simp [Token.started, Token.stopped]

theorem start_mem {kind : κ} (h : Reads fits log n (some kind)) : .start n kind ∈ log := by
  generalize ho : some kind = o at h
  induction h with
  | nil => cases ho
  | snoc _ step ih =>
    cases step with
    | start =>
      cases ho
      exact mem_append_right _ mem_cons_self
    | delta => exact mem_append_left _ (ih ho)
    | stop | finish => cases ho

theorem bracketed (h : Reads fits log n o) : Bracketed fits log where
  inTurn := by
    rw [h.numbers.1, h.numbers.2]
    simp
  oneOpen := by
    rintro _ ⟨_, rfl⟩
    obtain ⟨_, _, h'⟩ := h.of_append
    rw [h'.numbers.1, h'.numbers.2, length_range, length_range]
    split <;> omega
  within := by
    rintro before index part after rfl
    rw [← singleton_append, ← append_assoc] at h
    obtain ⟨m, o', h'⟩ := h.of_append
    obtain ⟨m', o'', hbefore, step⟩ := h'.of_snoc
    cases step with
    | delta hfits =>
      rename_i kind
      refine ⟨kind, hfits, hbefore.start_mem, fun hstop => ?_⟩
      have hmem : index ∈ stopped before := mem_filterMap.mpr ⟨_, hstop, rfl⟩
      rw [hbefore.numbers.2, mem_range] at hmem
      exact lt_irrefl index hmem
  allStopped := by
    rintro _ _ rfl
    rw [← singleton_append, ← append_assoc] at h
    obtain ⟨_, _, h'⟩ := h.of_append
    obtain ⟨_, _, hbefore, step⟩ := h'.of_snoc
    cases step with
    | finish =>
      rw [hbefore.numbers.1, hbefore.numbers.2]
      rfl

end Reads

end Brackets
