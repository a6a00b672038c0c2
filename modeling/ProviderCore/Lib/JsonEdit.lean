import ProviderCore.Lib.Json

/-!
# Edits of JSON trees

An edit changes a tree in place and says whether it changed anything.  Edits are put together from
edits of parts: of a member, of the items of an array, of a record.

`Leaves name f` says that an edit of a record does not touch one of its members, which is what is
asked of an edit that works elsewhere.
-/

namespace Json

/-- A change in place, and whether it changed anything. -/
abbrev Edit (α : Type) := α → α × Bool

namespace Edit

variable {α : Type}

def skip : Edit α := fun a => (a, false)

/-- An edit that counts as a change whatever it does. -/
def always (f : α → α) : Edit α := fun a => (f a, true)

def andThen (f g : Edit α) : Edit α := fun a => ((g (f a).1).1, (f a).2 || (g (f a).1).2)

def member (name : String) (f : Edit Json) : Edit Members := fun members =>
  match members.get? name with
  | some value => (members.update name fun value => (f value).1, (f value).2)
  | none => (members, false)

def record (f : Edit Members) : Edit Json
  | .obj members => (.obj (f members).1, (f members).2)
  | tree => (tree, false)

def items (f : Edit Json) : Edit Json
  | .arr items => (.arr (items.map fun item => (f item).1), items.any fun item => (f item).2)
  | tree => (tree, false)

/-! ## What an edit leaves alone -/

def Leaves (name : String) (f : Members → Members) : Prop :=
  ∀ members, (f members).get? name = members.get? name

variable {name name' : String} {f g : Edit Members}

theorem leaves_andThen (hf : Leaves name fun members => (f members).1)
    (hg : Leaves name fun members => (g members).1) :
    Leaves name fun members => (f.andThen g members).1 := fun members =>
  (hg (f members).1).trans (hf members)

theorem leaves_member (hne : name ≠ name') (f : Edit Json) :
    Leaves name fun members => (member name' f members).1 := by
  intro members
  dsimp only
  unfold member
  split
  · dsimp only
    exact Members.get?_update_of_ne hne _
  · rfl

end Edit

end Json
