import Mathlib.Data.List.Basic

/-!
# Computations that emit

A converter changes its state and emits events as it goes.  `Emit σ ε α` is such a computation: it
cannot look back at what was emitted, so its events are the same whatever came before.

`result`, `state` and `events` are what a computation gives, leaves and emits; their `simp` lemmas
run a computation symbolically.  `Emits` bounds each event by itself.  `Triple` is for properties of
the whole log: what holds of the log and the state before holds, with the events appended, after.
-/

/-- A computation on a state that emits events. -/
def Emit (σ ε α : Type) : Type := σ → α × σ × List ε

namespace Emit

variable {σ ε ε' α β : Type}

def result (f : Emit σ ε α) (s : σ) : α := (f s).1

def state (f : Emit σ ε α) (s : σ) : σ := (f s).2.1

def events (f : Emit σ ε α) (s : σ) : List ε := (f s).2.2

instance : Monad (Emit σ ε) where
  pure a := fun s => (a, s, [])
  bind f g := fun s =>
    ((g (f.result s)).result (f.state s), (g (f.result s)).state (f.state s),
      f.events s ++ (g (f.result s)).events (f.state s))

instance : MonadStateOf σ (Emit σ ε) where
  get := fun s => (s, s, [])
  set s := fun _ => ((), s, [])
  modifyGet f := fun s => ((f s).1, (f s).2, [])

def emit (e : ε) : Emit σ ε Unit := fun s => ((), s, [e])

/-- Under a condition. -/
def when (c : Bool) (f : Emit σ ε Unit) : Emit σ ε Unit := if c then f else pure ()

/-- With a value, if there is one. -/
def withSome (o : Option α) (f : α → Emit σ ε Unit) : Emit σ ε Unit :=
  match o with
  | some a => f a
  | none => pure ()

def each (f : α → Emit σ ε Unit) : List α → Emit σ ε Unit
  | [] => pure ()
  | a :: as => do
      f a
      each f as

/-- The same computation with its events wrapped. -/
def mapEvents (wrap : ε → ε') (f : Emit σ ε α) : Emit σ ε' α := fun s =>
  (f.result s, f.state s, (f.events s).map wrap)

def SameAt (f g : Emit σ ε Unit) (s : σ) : Prop := f.state s = g.state s ∧ f.events s = g.events s

/-! ## Running -/

section

variable (f : Emit σ ε α) (g : α → Emit σ ε β) (s : σ)

@[simp] theorem result_pure (a : α) : (pure a : Emit σ ε α).result s = a := rfl
@[simp] theorem state_pure (a : α) : (pure a : Emit σ ε α).state s = s := rfl
@[simp] theorem events_pure (a : α) : (pure a : Emit σ ε α).events s = [] := rfl

@[simp] theorem result_bind : (f >>= g).result s = (g (f.result s)).result (f.state s) := rfl
@[simp] theorem state_bind : (f >>= g).state s = (g (f.result s)).state (f.state s) := rfl
@[simp] theorem events_bind :
    (f >>= g).events s = f.events s ++ (g (f.result s)).events (f.state s) := rfl

@[simp] theorem result_get : (get : Emit σ ε σ).result s = s := rfl
@[simp] theorem state_get : (get : Emit σ ε σ).state s = s := rfl
@[simp] theorem events_get : (get : Emit σ ε σ).events s = [] := rfl

@[simp] theorem state_set (s' : σ) : (set s' : Emit σ ε PUnit).state s = s' := rfl
@[simp] theorem events_set (s' : σ) : (set s' : Emit σ ε PUnit).events s = [] := rfl

@[simp] theorem state_modify (h : σ → σ) : (modify h : Emit σ ε PUnit).state s = h s := rfl
@[simp] theorem events_modify (h : σ → σ) : (modify h : Emit σ ε PUnit).events s = [] := rfl

@[simp] theorem state_emit (e : ε) : (emit e : Emit σ ε Unit).state s = s := rfl
@[simp] theorem events_emit (e : ε) : (emit e : Emit σ ε Unit).events s = [e] := rfl

@[simp] theorem when_true (f : Emit σ ε Unit) : when true f = f := rfl
@[simp] theorem when_false (f : Emit σ ε Unit) : when false f = pure () := rfl

@[simp] theorem withSome_some (a : α) (f : α → Emit σ ε Unit) : withSome (some a) f = f a := rfl
@[simp] theorem withSome_none (f : α → Emit σ ε Unit) : withSome none f = pure () := rfl

@[simp] theorem state_mapEvents (wrap : ε → ε') : (f.mapEvents wrap).state s = f.state s := rfl
@[simp] theorem events_mapEvents (wrap : ε → ε') :
    (f.mapEvents wrap).events s = (f.events s).map wrap := rfl

end

section

variable (f : α → Emit σ ε Unit) (s : σ)

@[simp] theorem each_nil : each f [] = pure () := rfl

@[simp] theorem state_each_cons (a : α) (as : List α) :
    (each f (a :: as)).state s = (each f as).state ((f a).state s) := rfl

@[simp] theorem events_each_cons (a : α) (as : List α) :
    (each f (a :: as)).events s = (f a).events s ++ (each f as).events ((f a).state s) := rfl

theorem state_each_append (as bs : List α) :
    (each f (as ++ bs)).state s = (each f bs).state ((each f as).state s) := by
  induction as generalizing s with
  | nil => rfl
  | cons _ _ ih => exact ih _

theorem events_each_append (as bs : List α) :
    (each f (as ++ bs)).events s =
      (each f as).events s ++ (each f bs).events ((each f as).state s) := by
  induction as generalizing s with
  | nil => rfl
  | cons _ _ ih => simp [ih]

end

/-! ## Each event by itself -/

/-- Every event of a computation, started anywhere. -/
structure Emits (P : ε → Prop) (f : Emit σ ε α) : Prop where
  events_of : ∀ s, ∀ e ∈ f.events s, P e

variable {o : Option α} {c : Bool} {u : Emit σ ε Unit} {k : α → Emit σ ε Unit}

namespace Emits

variable {P : ε → Prop} {f : Emit σ ε α} {g : α → Emit σ ε β}

theorem of_events_nil (h : ∀ s, f.events s = []) : Emits P f :=
  ⟨fun s e he => by rw [h s] at he; cases he⟩

theorem of_pure (a : α) : Emits P (pure a : Emit σ ε α) := of_events_nil fun _ => rfl

theorem of_get : Emits P (get : Emit σ ε σ) := of_events_nil fun _ => rfl

theorem of_set (s : σ) : Emits P (set s : Emit σ ε PUnit) := of_events_nil fun _ => rfl

theorem of_modify (h : σ → σ) : Emits P (modify h : Emit σ ε PUnit) := of_events_nil fun _ => rfl

theorem of_emit {e : ε} (he : P e) : Emits P (emit e : Emit σ ε Unit) :=
  ⟨fun _ => List.forall_mem_singleton.mpr he⟩

theorem bind (hf : Emits P f) (hg : ∀ a, Emits P (g a)) : Emits P (f >>= g) :=
  ⟨fun s e he => (List.mem_append.mp he).elim (hf.events_of s e) ((hg _).events_of _ e)⟩

theorem ite {c : Prop} [Decidable c] {f' : Emit σ ε α} (hf : Emits P f) (hf' : Emits P f') :
    Emits P (if c then f else f') := by
  split
  · exact hf
  · exact hf'

theorem when (hu : Emits P u) : Emits P (when c u) := ite hu (of_pure ())

theorem withSome (hk : ∀ a, Emits P (k a)) : Emits P (withSome o k) := by
  cases o with
  | none => exact of_pure ()
  | some a => exact hk a

end Emits

/-! ## Parts of the state -/

/-- A part of the state that a computation leaves as it is. -/
structure Keeps {τ : Type} (view : σ → τ) (f : Emit σ ε α) : Prop where
  view_state : ∀ s, view (f.state s) = view s

namespace Keeps

variable {τ : Type} {view : σ → τ} {f : Emit σ ε α} {g : α → Emit σ ε β}

theorem of_pure (a : α) : Keeps view (pure a : Emit σ ε α) := ⟨fun _ => rfl⟩

theorem of_get : Keeps view (get : Emit σ ε σ) := ⟨fun _ => rfl⟩

theorem of_emit (e : ε) : Keeps view (emit e : Emit σ ε Unit) := ⟨fun _ => rfl⟩

theorem of_modify {h : σ → σ} (hh : ∀ s, view (h s) = view s) :
    Keeps view (modify h : Emit σ ε PUnit) := ⟨hh⟩

theorem bind (hf : Keeps view f) (hg : ∀ a, Keeps view (g a)) : Keeps view (f >>= g) :=
  ⟨fun s => ((hg _).view_state _).trans (hf.view_state s)⟩

theorem ite {c : Prop} [Decidable c] {f' : Emit σ ε α} (hf : Keeps view f) (hf' : Keeps view f') :
    Keeps view (if c then f else f') := by
  split
  · exact hf
  · exact hf'

theorem when (hu : Keeps view u) : Keeps view (when c u) := ite hu (of_pure ())

theorem withSome (hk : ∀ a ∈ o, Keeps view (k a)) : Keeps view (withSome o k) := by
  cases o with
  | none => exact of_pure ()
  | some a => exact hk a rfl

theorem each {as : List α} (hk : ∀ a ∈ as, Keeps view (k a)) : Keeps view (each k as) := by
  induction as with
  | nil => exact of_pure ()
  | cons _ _ ih =>
    rw [List.forall_mem_cons] at hk
    exact hk.1.bind fun _ => ih hk.2

end Keeps

/-! ## The whole log -/

/-- From a log and a state with `P` a computation gets to one with `Q`. -/
structure Triple (P : List ε → σ → Prop) (f : Emit σ ε α) (Q : α → List ε → σ → Prop) : Prop where
  run : ∀ log s, P log s → Q (f.result s) (log ++ f.events s) (f.state s)

/-- What holds before a computation holds after it. -/
abbrev Invariant (P : List ε → σ → Prop) (f : Emit σ ε α) : Prop := Triple P f fun _ => P

namespace Triple

variable {P P' : List ε → σ → Prop} {Q R : α → List ε → σ → Prop} {S : β → List ε → σ → Prop}
  {f : Emit σ ε α} {g : α → Emit σ ε β}

theorem of_pure {a : α} (h : ∀ log s, P log s → Q a log s) : Triple P (pure a : Emit σ ε α) Q :=
  ⟨fun log s hp => by simpa using h log s hp⟩

theorem skip {a : α} : Invariant P (pure a : Emit σ ε α) := of_pure fun _ _ hp => hp

theorem of_get : Triple P (get : Emit σ ε σ) fun a log s => P log s ∧ a = s :=
  ⟨fun log s hp => by simpa using hp⟩

theorem of_modify {h : σ → σ} {Q : List ε → σ → Prop} (hh : ∀ log s, P log s → Q log (h s)) :
    Triple P (modify h : Emit σ ε PUnit) fun _ => Q :=
  ⟨fun log s hp => by simpa using hh log s hp⟩

theorem of_emit {e : ε} {Q : List ε → σ → Prop} (h : ∀ log s, P log s → Q (log ++ [e]) s) :
    Triple P (emit e : Emit σ ε Unit) fun _ => Q := ⟨h⟩

theorem bind (hf : Triple P f Q) (hg : ∀ a, Triple (Q a) (g a) S) : Triple P (f >>= g) S :=
  ⟨fun log s hp => by simpa using (hg _).run _ _ (hf.run log s hp)⟩

theorem seq (hf : Invariant P f) (hg : ∀ a, Triple P (g a) S) : Triple P (f >>= g) S :=
  hf.bind hg

theorem after_get {g : σ → Emit σ ε β} (hg : ∀ a, Triple (fun log s => P log s ∧ a = s) (g a) S) :
    Triple P (get >>= g) S := of_get.bind hg

/-- A part of the state is read, whatever it is. -/
theorem reading {g : σ → Emit σ ε β} (hg : ∀ a, Triple P (g a) S) : Triple P (get >>= g) S :=
  ⟨fun log s hp => (hg s).run log s hp⟩

theorem conseq (hf : Triple P f Q) (hpre : ∀ log s, P' log s → P log s)
    (hpost : ∀ a log s, Q a log s → R a log s) : Triple P' f R :=
  ⟨fun log s hp => hpost _ _ _ (hf.run log s (hpre log s hp))⟩

theorem pre (hf : Triple P f Q) (hpre : ∀ log s, P' log s → P log s) : Triple P' f Q :=
  hf.conseq hpre fun _ _ _ hq => hq

theorem left (hf : Triple P f Q) : Triple (fun log s => P log s ∧ P' log s) f Q :=
  hf.pre fun _ _ h => h.1

theorem post (hf : Triple P f Q) (hpost : ∀ a log s, Q a log s → R a log s) : Triple P f R :=
  hf.conseq (fun _ _ hp => hp) hpost

theorem fst (hf : Triple P f fun a log s => Q a log s ∧ R a log s) : Triple P f Q :=
  hf.post fun _ _ _ h => h.1

/-- What is left as it is can be carried along. -/
theorem frame {τ : Type} {view : σ → τ} (hf : Triple P f Q) (hview : Keeps view f) (t : τ) :
    Triple (fun log s => P log s ∧ view s = t) f fun a log s => Q a log s ∧ view s = t :=
  ⟨fun log s hp => ⟨hf.run log s hp.1, (hview.view_state s).trans hp.2⟩⟩

/-- A parameter of an invariant can be a part of the state that is left as it is. -/
theorem of_keeps {τ : Type} {view : σ → τ} {P : τ → List ε → σ → Prop}
    (hf : ∀ t, Invariant (P t) f) (hview : Keeps view f) :
    Invariant (fun log s => P (view s) log s) f :=
  ⟨fun log s hp => by
    have hrun := (hf (view s)).run log s hp
    rwa [← hview.view_state s] at hrun⟩

theorem when {Q : Unit → List ε → σ → Prop} (hu : Triple P u Q)
    (hskip : ∀ log s, P log s → Q () log s) : Triple P (when c u) Q := by
  cases c with
  | false => exact of_pure hskip
  | true => exact hu

theorem whenever (hu : Invariant P u) : Invariant P (Emit.when c u) := hu.when fun _ _ hp => hp

theorem withSome (hk : ∀ a ∈ o, Invariant P (k a)) : Invariant P (withSome o k) := by
  cases o with
  | none => exact skip
  | some a => exact hk a rfl

theorem each (hk : ∀ a, Invariant P (k a)) (as : List α) : Invariant P (each k as) := by
  induction as with
  | nil => exact skip
  | cons a _ ih => exact (hk a).bind fun _ => ih

end Triple

end Emit
