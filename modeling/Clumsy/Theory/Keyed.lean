/-
# Theory.Keyed -- a list whose items have keys

`put` writes an item over the first one with the key, or behind all items if there is none.
It keeps the keys apart (`put_distinct`), and the item it wrote is the one with that key
(`split_put`).
-/
import Mathlib

namespace Clumsy.Theory.Keyed

set_option autoImplicit false

universe u v

variable {α : Type u} {κ : Type v} (key : α → κ)

/-- No two items have one key. -/
def Distinct (xs : List α) : Prop := (xs.map key).Nodup

/-- The first item with the key, and what stands around it. -/
structure Splits (k : κ) (before : List α) (x : α) (after xs : List α) : Prop where
  whole : xs = before ++ x :: after
  here  : key x = k
  first : ∀ y ∈ before, key y ≠ k

variable {key} {k : κ} {a x : α} {xs before after : List α}

/-- Either there is an item with the key or there is none. -/
theorem splits_or (k : κ) (xs : List α) :
    (∃ before x after, Splits key k before x after xs) ∨ ∀ y ∈ xs, key y ≠ k := by
  induction xs with
  | nil => exact .inr (List.forall_mem_nil _)
  | cons y ys ih =>
      by_cases here : key y = k
      · exact .inl ⟨[], y, ys, rfl, here, List.forall_mem_nil _⟩
      · rcases ih with ⟨before, x, after, whole, at_, first⟩ | absent
        · refine .inl ⟨y :: before, x, after, congrArg (y :: ·) whole, at_, ?_⟩
          exact List.forall_mem_cons.2 ⟨here, first⟩
        · exact .inr (List.forall_mem_cons.2 ⟨here, absent⟩)

theorem Splits.eraseIdx (splits : Splits key k before x after xs) :
    xs.eraseIdx before.length = before ++ after := by
  rw [splits.whole, List.eraseIdx_append_of_length_le (Nat.le_refl _), Nat.sub_self]
  rfl

theorem Splits.modify (splits : Splits key k before x after xs) (f : α → α) :
    xs.modify before.length f = before ++ f x :: after := by
  rw [splits.whole, List.modify_eq_take_cons_drop (by simp)]
  simp

theorem eraseIdx_distinct (distinct : Distinct key xs) (i : Nat) :
    Distinct key (xs.eraseIdx i) :=
  distinct.sublist ((List.eraseIdx_sublist xs i).map key)

/-! ## Writing -/

variable [BEq κ]

variable (key) in
def put (k : κ) (a : α) (xs : List α) : List α :=
  match xs.findIdx? fun x => key x == k with
  | some i => xs.set i a
  | none => xs ++ [a]

variable [LawfulBEq κ]

theorem Splits.findIdx? (splits : Splits key k before x after xs) :
    xs.findIdx? (fun y => key y == k) = some before.length := by
  obtain ⟨rfl, here, first⟩ := splits
  rw [List.findIdx?_append, List.findIdx?_eq_none_iff.2 fun y member => beq_false_of_ne
    (first y member), List.findIdx?_cons, beq_iff_eq.2 here]
  simp

theorem Splits.find? (splits : Splits key k before x after xs) :
    xs.find? (fun y => key y == k) = some x := by
  obtain ⟨rfl, here, first⟩ := splits
  have absent : before.find? (fun y => key y == k) = none :=
    List.find?_eq_none.2 fun y member => by simpa using first y member
  rw [List.find?_append, absent, Option.none_or]
  exact List.find?_cons_of_pos (beq_iff_eq.2 here)

theorem put_splits (splits : Splits key k before x after xs) :
    put key k a xs = before ++ a :: after := by
  rw [put, splits.findIdx?, splits.whole]
  simp

theorem put_absent (absent : ∀ y ∈ xs, key y ≠ k) : put key k a xs = xs ++ [a] := by
  rw [put, List.findIdx?_eq_none_iff.2 fun y member => beq_false_of_ne (absent y member)]

/-- What was written is the first item with its key. -/
theorem split_put (own : key a = k) (xs : List α) :
    ∃ before after, Splits key k before a after (put key k a xs) := by
  rcases @splits_or _ _ key k xs with ⟨before, x, after, splits⟩ | absent
  · exact ⟨before, after, put_splits splits, own, splits.first⟩
  · exact ⟨xs, [], put_absent absent, own, absent⟩

theorem put_distinct (own : key a = k) (distinct : Distinct key xs) :
    Distinct key (put key k a xs) := by
  rcases @splits_or _ _ key k xs with ⟨before, x, after, splits⟩ | absent
  · rw [Distinct, put_splits splits]
    rw [Distinct, splits.whole] at distinct
    simpa [own, splits.here] using distinct
  · rw [put_absent absent, Distinct, List.map_append, List.nodup_append]
    refine ⟨distinct, List.nodup_singleton _, ?_⟩
    intro k' member k'' last same
    obtain ⟨y, inside, rfl⟩ := List.mem_map.1 member
    rw [List.map_singleton, List.mem_singleton] at last
    exact absent y inside (same.trans (last.trans own))

/-- Over an item with the key nothing is added. -/
theorem length_put (splits : Splits key k before x after xs) :
    (put key k a xs).length = xs.length := by
  rw [put_splits splits, splits.whole]
  simp

end Clumsy.Theory.Keyed
