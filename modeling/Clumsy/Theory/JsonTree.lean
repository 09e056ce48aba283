/-
# Theory.JsonTree -- a text put together, and the tree it stands for

`Theory.JsonText` says that a text put together from values, members and elements is one; here
the tree is said as well.  White space may stand around the elements of an array, as in a file
with one element to a line.
-/
import Clumsy.Theory.JsonText

namespace Clumsy.Theory.Json

set_option autoImplicit false

variable {v : Tree} {vs : List Tree} {s w : List Char}

theorem White.append {t : List Char} (first : White s) (second : White t) : White (s ++ t) :=
  List.forall_mem_append.2 ⟨first, second⟩

/-- White space behind an item belongs to it. -/
theorem item_white (item : Derives (.item v) s) (white : White w) : Derives (.item v) (s ++ w) := by
  cases item with
  | item before value behind =>
      rw [List.append_assoc]
      exact .item before value (behind.append white)

theorem white_item (white : White w) (item : Derives (.item v) s) : Derives (.item v) (w ++ s) := by
  cases item with
  | item before value behind =>
      rw [← List.append_assoc, ← List.append_assoc]
      exact .item (white.append before) value behind

theorem elements_white (elements : Derives (.elements vs) s) (white : White w) :
    Derives (.elements vs) (s ++ w) := by
  induction vs generalizing s with
  | nil => cases elements
  | cons v vs ih =>
      cases elements with
      | lastElement item => exact .lastElement (item_white item white)
      | element item rest =>
          rw [List.append_assoc, List.cons_append]
          exact .element item (ih rest)

/-- Items with a comma between any two. -/
theorem derives_items {items : List (List Char)}
    (all : List.Forall₂ (fun v s => Derives (.item v) s) vs items) (some : vs ≠ []) :
    Derives (.elements vs) (commas items) := by
  induction all with
  | nil => exact absurd rfl some
  | @cons v s vs items first rest ih =>
      cases rest with
      | nil => exact .lastElement first
      | cons second rest => exact .element first (ih (List.cons_ne_nil _ _))

/-- An array of items, white space in front of the bracket that closes it. -/
theorem derives_array {items : List (List Char)}
    (all : List.Forall₂ (fun v s => Derives (.item v) s) vs items) (white : White w) :
    Derives (.value (.array vs)) ('[' :: (commas items ++ w) ++ [']']) := by
  cases all with
  | nil => exact .emptyArray white
  | cons first rest =>
      exact .array (elements_white (derives_items (.cons first rest) (List.cons_ne_nil _ _)) white)

/-- Members with a comma between any two. -/
theorem derives_fields {ms : List (List Char × Tree)} {fields : List (List Char)}
    (all : List.Forall₂ (fun m f => Derives (.pair m.1 m.2) f) ms fields) (some : ms ≠ []) :
    Derives (.members ms) (commas fields) := by
  induction all with
  | nil => exact absurd rfl some
  | @cons m f ms fields first rest ih =>
      cases rest with
      | nil => exact .lastMember first
      | cons second rest => exact .member first (ih (List.cons_ne_nil _ _))

theorem derives_object {ms : List (List Char × Tree)} {fields : List (List Char)}
    (all : List.Forall₂ (fun m f => Derives (.pair m.1 m.2) f) ms fields) :
    Derives (.value (.object ms)) (braces (commas fields)) := by
  cases all with
  | nil => exact .emptyObject white_empty
  | cons first rest => exact .object (derives_fields (.cons first rest) (List.cons_ne_nil _ _))

end Clumsy.Theory.Json
