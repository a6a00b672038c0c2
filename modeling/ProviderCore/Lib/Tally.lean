import ProviderCore.Lib.Table
import Mathlib.Tactic.Linarith

/-!
# Counters by key

A tally is a table that counts for each of its keys.  `add` adds to the count of a key, which
starts at zero; it is what a hash map's `entry(..).or_insert(0) += n` and a table's
`ON CONFLICT DO UPDATE SET count = count + n` do.
-/

universe u

/-- Keys with their counts. -/
abbrev Tally (κ : Type u) := Table (Prod.fst : κ × ℕ → κ)

namespace Tally

open Table

variable {κ : Type u} [DecidableEq κ] {t : Tally κ} {k k' : κ} {n : ℕ}

def add (t : Tally κ) (k : κ) (n : ℕ) : Tally κ :=
  (t.insertNew (k, 0)).modify k (fun row => (row.1, row.2 + n)) fun _ => rfl

def count (t : Tally κ) (k : κ) : ℕ := ((t.find? k).map Prod.snd).getD 0

variable {row : κ × ℕ}

/-- A key that is there keeps its place. -/
theorem add_of_mem (h : t.find? k = some row) :
    add t k n = t.modify k (fun row => (row.1, row.2 + n)) fun _ => rfl := by
  obtain rfl : row.1 = k := (find?_eq_some.mp h).2
  rw [add, show t.insertNew (row.1, 0) = t from insertNew_of_find? h]

/-- A key that is not there is counted from zero. -/
theorem find?_insert_zero (h : t.find? k = none) : (t.insertNew (k, 0)).find? k = some (k, 0) := by
  have hself := Table.find?_insertNew_self t (k, 0)
  rwa [show t.find? (Prod.fst (k, 0)) = none from h] at hself

theorem length_add_of_mem (h : t.find? k = some row) : (add t k n).rows.length = t.rows.length := by
  rw [add_of_mem h, Table.modify, List.length_map]

theorem length_add_of_new (h : t.find? k = none) : (add t k n).rows.length = t.rows.length + 1 := by
  rw [add, Table.modify, List.length_map, rows_insertNew h, List.length_append,
    List.length_singleton]

theorem sum_add : (add t k n).sum Prod.snd = t.sum Prod.snd + n := by
  have hmodify : ∀ {t : Tally κ} {count : ℕ}, t.find? k = some (k, count) →
      (t.modify k (fun row => (row.1, row.2 + n)) fun _ => rfl).sum Prod.snd =
        t.sum Prod.snd + n := by
    intro t count hcount
    have hmoved : (t.modify k (fun row => (row.1, row.2 + n)) fun _ => rfl).sum Prod.snd + count =
        t.sum Prod.snd + (count + n) := sum_modify _ Prod.snd hcount
    omega
  rcases hkey : t.find? k with _ | row
  · have hsum : (t.insertNew (k, 0)).sum Prod.snd = t.sum Prod.snd :=
      sum_insertNew Prod.snd hkey
    rw [← hsum]
    exact hmodify (find?_insert_zero hkey)
  · obtain rfl : row.1 = k := (find?_eq_some.mp hkey).2
    rw [add_of_mem hkey]
    exact hmodify hkey

theorem count_add : count (add t k n) k' = count t k' + if k = k' then n else 0 := by
  by_cases hk : k = k'
  · subst hk
    rw [if_pos rfl, count, add, Table.find?_modify_self]
    rcases hkey : t.find? k with _ | row
    · rw [find?_insert_zero hkey, count, hkey]
      rfl
    · obtain rfl : row.1 = k := (find?_eq_some.mp hkey).2
      rw [show t.insertNew (row.1, 0) = t from insertNew_of_find? hkey, hkey, count, hkey]
      rfl
  · rw [if_neg hk, count, add, Table.find?_modify_of_ne _ hk]
    have hne : Prod.fst (k, 0) ≠ k' := hk
    rw [Table.find?_insertNew_of_ne hne]
    rfl

theorem count_foldl_add {α : Type*} (key : α → κ) (amount : α → ℕ) (l : List α) :
    count (l.foldl (fun t a => add t (key a) (amount a)) t) k =
      count t k + (l.map fun a => if key a = k then amount a else 0).sum := by
  induction l generalizing t with
  | nil => rfl
  | cons a l ih =>
    rw [List.foldl_cons, ih, count_add, List.map_cons, List.sum_cons, Nat.add_assoc]

/-- The count of a key is what its rows add up to. -/
theorem count_eq_sum : count t k = (t.rows.map fun row => if row.1 = k then row.2 else 0).sum := by
  rcases hkey : t.find? k with _ | row
  · have hzero : t.sum (fun row => if row.1 = k then row.2 else 0) = 0 :=
      sum_eq_zero fun row hrow => if_neg (Table.find?_eq_none.mp hkey row hrow)
    rw [count, hkey]
    exact hzero.symm
  · rw [count, hkey]
    exact (sum_single Prod.snd hkey).symm

end Tally
