/-
# Text.Append -- utils.cpp: appendf in the caller's buffer

`appendf` on the cells of the buffer and the position that callers thread from call to
call.  `vsnprintf` writes what fits and reports what it would have written, so the position
is clamped; `appendf_over` is one call at any position, and on the text written so far it is
`Filter.appendf`.  Any sequence of texts keeps the position inside and leaves the texts one
after the other, cut off once at the end of the buffer (`appendAll_texts`).
-/
import Clumsy.Theory.Memory
import Clumsy.Filter.Format

namespace Clumsy.Text

set_option autoImplicit false

open Clumsy.Theory.Memory

/-- `INT_MAX`. -/
def intMax : Nat := 2147483647

/-- A text whose length `vsnprintf` can report. -/
structure Formatted where
  text  : List Char
  small : text.length ≤ intMax

/-- What a format and its arguments come to: a text, or a failed conversion, which leaves
some characters in the cells it was given and returns a negative number. -/
inductive Outcome
  | printed (formatted : Formatted)
  | failed (left : List Char)

/-- `vsnprintf` into the `size` cells from `pos` on: the cells and the result. -/
def vsnprintf (buf : List Char) (pos size : Nat) : Outcome → Option (List Char × Int)
  | .printed formatted =>
      if size = 0 then some (buf, formatted.text.length)
      else
        (copy buf pos (formatted.text.take (size - 1) ++ ['\x00'])).map fun buf =>
          (buf, formatted.text.length)
  | .failed left => (copy buf pos (left.take size)).map fun buf => (buf, -1)

/-- `appendf`; a missing buffer is `none`.  The outer `none` is a write outside it. -/
def appendf (buf : Option (List Char)) (bufSize pos : Int) (outcome : Outcome) :
    Option (Option (List Char) × Int) :=
  match buf with
  | none => some (none, pos)
  | some buf =>
      if pos < 0 ∨ pos ≥ bufSize - 1 then some (some buf, pos)
      else
        (vsnprintf buf pos.toNat (bufSize - pos).toNat outcome).map fun (buf, n) =>
          if n < 0 then (some buf, pos)
          else
            let n := if n > bufSize - pos - 1 then bufSize - pos - 1 else n
            (some buf, pos + n)

/-- Calls one after the other, each at the position the one before returned. -/
def appendAll (buf : Option (List Char)) (bufSize pos : Int) :
    List Outcome → Option (Option (List Char) × Int)
  | [] => some (buf, pos)
  | outcome :: rest =>
      (appendf buf bufSize pos outcome).bind fun (buf, pos) => appendAll buf bufSize pos rest

/-! ## One call -/

/-- At the last cell, or behind it, nothing is written. -/
theorem appendf_full {bufSize pos : Int} (full : bufSize - 1 ≤ pos) (buf : List Char)
    (outcome : Outcome) : appendf (some buf) bufSize pos outcome = some (some buf, pos) :=
  if_pos (.inr full)

/-- Before the last cell the text goes behind what is there, over the old terminator and as
far as the buffer has room, and is terminated. -/
theorem appendf_over {buf out last : List Char} (short : last.length ≤ 1)
    (inside : out.length + 1 < buf.length) (formatted : Formatted) :
    appendf (some (filled (out ++ last) buf)) buf.length out.length (.printed formatted) =
      some (some (filled (Filter.appendf buf.length out formatted.text ++ ['\x00']) buf),
        ((Filter.appendf buf.length out formatted.text).length : Int)) := by
  have room : ((buf.length : Int) - out.length).toNat = buf.length - out.length := by omega
  have open_ : ¬ ((out.length : Int) < 0 ∨ (out.length : Int) ≥ buf.length - 1) := by omega
  have written : Filter.appendf buf.length out formatted.text =
      out ++ formatted.text.take (buf.length - out.length - 1) := by
    rw [Filter.appendf, if_neg (by omega)]
  have cells : copy (filled (out ++ last) buf) out.length
      (formatted.text.take (buf.length - out.length - 1) ++ ['\x00']) =
      some (filled (out ++ (formatted.text.take (buf.length - out.length - 1) ++ ['\x00']))
        buf) := by
    apply copy_over
    · simp only [List.length_append, List.length_singleton]
      omega
    · simp only [List.length_append, List.length_take, List.length_singleton]
      omega
  simp only [appendf, if_neg open_, vsnprintf, Int.toNat_natCast, room,
    if_neg (show buf.length - out.length ≠ 0 by omega), cells, Option.map_some, written,
    List.append_assoc]
  rw [if_neg (by omega)]
  simp only [List.length_append, List.length_take, Option.some.injEq, Prod.mk.injEq, true_and]
  split <;> omega

/-- A call on a terminated text, full or not. -/
theorem appendf_terminated {buf out : List Char} (inside : out.length + 1 ≤ buf.length)
    (formatted : Formatted) :
    appendf (some (filled (out ++ ['\x00']) buf)) buf.length out.length (.printed formatted) =
      some (some (filled (Filter.appendf buf.length out formatted.text ++ ['\x00']) buf),
        ((Filter.appendf buf.length out formatted.text).length : Int)) := by
  rcases Nat.lt_or_eq_of_le inside with open_ | full
  · exact @appendf_over buf out ['\x00'] (Nat.le_refl 1) open_ formatted
  · have kept : Filter.appendf buf.length out formatted.text = out := by
      rw [Filter.appendf, if_pos (by omega)]
    rw [kept, appendf_full (by omega)]

/-! ## A sequence of calls -/

theorem appendAll_cons {buf after : Option (List Char)} {bufSize pos next : Int}
    {outcome : Outcome} (run : appendf buf bufSize pos outcome = some (after, next))
    (rest : List Outcome) :
    appendAll buf bufSize pos (outcome :: rest) = appendAll after bufSize next rest := by
  rw [appendAll, run]
  rfl

/-- Cutting off once at the end is cutting off at every call. -/
theorem appendf_take (bufSize : Nat) (front text : List Char) :
    Filter.appendf bufSize (front.take (bufSize - 1)) text =
      (front ++ text).take (bufSize - 1) := by
  rw [Filter.appendf, List.take_append]
  by_cases full : bufSize - 1 ≤ front.length
  · rw [if_pos (by rw [List.length_take]; omega), Nat.sub_eq_zero_of_le full, List.take_zero,
      List.append_nil]
  · have whole : front.take (bufSize - 1) = front := List.take_of_length_le (by omega)
    rw [whole, if_neg (by omega), Nat.sub_right_comm]

theorem appendAll_terminated (texts : List Formatted) {buf : List Char} (room : 1 ≤ buf.length)
    (front : List Char) :
    appendAll (some (filled (front.take (buf.length - 1) ++ ['\x00']) buf)) buf.length
        (front.take (buf.length - 1)).length (texts.map .printed) =
      some (some (filled ((front ++ (texts.map (·.text)).flatten).take (buf.length - 1) ++
          ['\x00']) buf),
        (((front ++ (texts.map (·.text)).flatten).take (buf.length - 1)).length : Int)) := by
  induction texts generalizing front with
  | nil => simp [appendAll]
  | cons formatted rest ih =>
      have inside : (front.take (buf.length - 1)).length + 1 ≤ buf.length := by
        rw [List.length_take]
        omega
      have first := appendf_terminated inside formatted
      rw [appendf_take] at first
      rw [List.map_cons, appendAll_cons first, ih (front ++ formatted.text)]
      simp

/-- Texts appended one after the other, from the start of a buffer of any size: the position
stays inside, and the buffer holds as much of all of them together as it has room for,
terminated.  A buffer of one character is left alone. -/
theorem appendAll_texts (buf : List Char) (room : 1 ≤ buf.length) (texts : List Formatted)
    (some_ : texts ≠ []) :
    ∃ (after : List Char) (pos : Nat),
      appendAll (some buf) buf.length 0 (texts.map .printed) = some (some after, (pos : Int)) ∧
      pos ≤ buf.length - 1 ∧
      pos = min (buf.length - 1) (texts.map (·.text)).flatten.length ∧
      (buf.length = 1 → after = buf) ∧
      (1 < buf.length → after = (texts.map (·.text)).flatten.take (buf.length - 1) ++
        '\x00' :: buf.drop (pos + 1)) := by
  rcases Nat.lt_or_eq_of_le room with more | one
  · obtain ⟨formatted, rest, rfl⟩ := List.exists_cons_of_ne_nil some_
    have start : Filter.appendf buf.length [] formatted.text =
        formatted.text.take (buf.length - 1) := by
      simpa using appendf_take buf.length [] formatted.text
    have first : appendf (some buf) buf.length 0 (.printed formatted) =
        some (some (filled (formatted.text.take (buf.length - 1) ++ ['\x00']) buf),
          ((formatted.text.take (buf.length - 1)).length : Int)) := by
      rw [← start]
      exact @appendf_over buf [] [] (Nat.zero_le 1) (by simpa using more) formatted
    have run : appendAll (some buf) buf.length 0 ((formatted :: rest).map .printed) =
        some (some (filled ((((formatted :: rest).map (·.text)).flatten).take (buf.length - 1) ++
          ['\x00']) buf),
        (((((formatted :: rest).map (·.text)).flatten).take (buf.length - 1)).length : Int)) := by
      rw [List.map_cons, appendAll_cons first, appendAll_terminated rest room]
      simp
    refine ⟨_, _, run, ?_, ?_, ?_, ?_⟩
    · rw [List.length_take]
      exact Nat.min_le_left _ _
    · rw [List.length_take]
    · intro one
      omega
    · intro _
      simp [filled]
  · have still (outcomes : List Outcome) :
        appendAll (some buf) buf.length 0 outcomes = some (some buf, 0) := by
      induction outcomes with
      | nil => rfl
      | cons outcome rest ih => rw [appendAll_cons (appendf_full (by omega) buf outcome), ih]
    refine ⟨buf, 0, still _, Nat.zero_le _, by omega, fun _ => rfl, fun more => ?_⟩
    omega

/-- Two texts in a buffer that has no room for all of the second. -/
theorem appendAll_texts_cut : ∃ (after : List Char) (pos : Nat),
    appendAll (some (List.replicate 6 'x')) 6 0
        [.printed ⟨"tcp".toList, by decide⟩, .printed ⟨" or udp".toList, by decide⟩] =
      some (some after, (pos : Int)) ∧
    pos = 5 ∧ after = "tcp o".toList ++ ['\x00'] := by
  obtain ⟨after, pos, run, _, length, _, text⟩ := appendAll_texts (List.replicate 6 'x')
    (by decide) [⟨"tcp".toList, by decide⟩, ⟨" or udp".toList, by decide⟩] (by simp)
  have at_ : pos = 5 := length
  refine ⟨after, pos, run, at_, ?_⟩
  rw [text (by decide), at_]
  rfl

end Clumsy.Text
