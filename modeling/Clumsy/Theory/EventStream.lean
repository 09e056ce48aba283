/-
# Theory.EventStream -- a stream of server-sent events, as a client reads it

A line ends in a CR, an LF or both.  A line is a field, its name before the first colon; a blank
line sends off what the fields before it gathered, if that is any data.  What comes after the
last line end is not looked at.

A stream of frames is read back frame by frame, and a stream that breaks off gives the messages
whose frames came whole (`read_front`).
-/
import Mathlib

namespace Clumsy.Theory.EventStream

set_option autoImplicit false

structure Message where
  type : List Char
  data : List Char
  deriving DecidableEq

/-- The whole lines of a text, the first of them begun. -/
def lines : List Char → List Char → List (List Char)
  | _, [] => []
  | line, '\r' :: '\n' :: s => line :: lines [] s
  | line, c :: s => if c = '\r' ∨ c = '\n' then line :: lines [] s else lines (line ++ [c]) s

attribute [local simp] lines

/-- What the fields have gathered. -/
structure Buffers where
  type : List Char
  data : List Char

def Buffers.empty : Buffers := { type := [], data := [] }

/-- A field, of whose value a first blank is left out. -/
def Buffers.field (line : List Char) (b : Buffers) : Buffers :=
  let name := line.takeWhile (· != ':')
  let behind := line.drop (name.length + 1)
  let value := if behind.head? = some ' ' then behind.tail else behind
  if name = "event".toList then { b with type := value }
  else if name = "data".toList then { b with data := b.data ++ value ++ ['\n'] }
  else b

def dispatch : Buffers → List (List Char) → List Message
  | _, [] => []
  | b, line :: rest =>
      if line = [] then
        if b.data = [] then dispatch .empty rest
        else
          { type := if b.type = [] then "message".toList else b.type
            data := b.data.dropLast } :: dispatch .empty rest
      else dispatch (b.field line) rest

attribute [local simp] dispatch

def read (s : List Char) : List Message := dispatch .empty (lines [] s)

/-! ## Frames -/

def eventLine (m : Message) : List Char := "event: ".toList ++ m.type
def dataLine (m : Message) : List Char := "data: ".toList ++ m.data

def frame (m : Message) : List Char := eventLine m ++ '\n' :: (dataLine m ++ ['\n', '\n'])

def frames (ms : List Message) : List Char := ms.flatMap frame

def OneLine (s : List Char) : Prop := '\r' ∉ s ∧ '\n' ∉ s

theorem OneLine.append {s t : List Char} (first : OneLine s) (second : OneLine t) :
    OneLine (s ++ t) := by
  simp only [OneLine, List.mem_append, not_or]
  exact ⟨⟨first.1, second.1⟩, first.2, second.2⟩

/-- A message that a frame can hold. -/
structure Message.Fits (m : Message) : Prop where
  named : m.type ≠ []
  type  : OneLine m.type
  data  : OneLine m.data

theorem eventLine_oneLine {m : Message} (fits : m.Fits) : OneLine (eventLine m) :=
  .append (by unfold OneLine; decide) fits.type

theorem dataLine_oneLine {m : Message} (fits : m.Fits) : OneLine (dataLine m) :=
  .append (by unfold OneLine; decide) fits.data

/-! ## Lines -/

theorem lines_char {c : Char} (return_ : c ≠ '\r') (feed : c ≠ '\n') (line s : List Char) :
    lines line (c :: s) = lines (line ++ [c]) s := by
  rw [lines.eq_def]
  split
  · rename_i heq
    cases heq
  · rename_i heq
    exact absurd (List.cons.inj heq).1 return_
  · rename_i heq
    obtain ⟨rfl, rfl⟩ := List.cons.inj heq
    rw [if_neg (by simp [return_, feed])]

theorem lines_feed (line s : List Char) : lines line ('\n' :: s) = line :: lines [] s := by
  rw [lines.eq_def]
  simp

theorem lines_oneLine {text : List Char} (clean : OneLine text) (line s : List Char) :
    lines line (text ++ s) = lines (line ++ text) s := by
  induction text generalizing line with
  | nil => simp
  | cons c text ih =>
      obtain ⟨return_, feed⟩ := clean
      rw [List.mem_cons, not_or] at return_ feed
      rw [List.cons_append, lines_char (Ne.symm return_.1) (Ne.symm feed.1),
        ih ⟨return_.2, feed.2⟩, List.append_assoc]
      rfl

/-- Whole lines stay whole. -/
theorem lines_front (line s t : List Char) : lines line s <+: lines line (s ++ t) := by
  induction line, s using lines.induct with
  | case1 line => exact List.nil_prefix
  | case2 line s ih =>
      rw [List.cons_append, List.cons_append, lines, lines]
      exact (List.prefix_cons_inj line).2 ih
  | case3 line c s other ends ih =>
      rw [lines.eq_3 _ _ _ other, if_pos ends, List.cons_append]
      by_cases seam : c = '\r' ∧ ∃ u, s ++ t = '\n' :: u
      · -- the feed that belongs to the return is still to come
        obtain ⟨rfl, u, next⟩ := seam
        cases s with
        | nil =>
            rw [next, lines]
            exact (List.prefix_cons_inj line).2 List.nil_prefix
        | cons d s =>
            obtain ⟨rfl, -⟩ := List.cons.inj next
            exact absurd rfl (other s rfl)
      · have alone : ∀ u, c = '\r' → s ++ t = '\n' :: u → False :=
          fun u return_ next => seam ⟨return_, u, next⟩
        rw [lines.eq_3 _ _ _ alone, if_pos ends]
        exact (List.prefix_cons_inj line).2 ih
  | case4 line c s other inside ih =>
      rw [not_or] at inside
      rw [List.cons_append, lines_char inside.1 inside.2, lines_char inside.1 inside.2]
      exact ih

/-! ## Dispatch -/

/-- Nothing is sent off without a blank line. -/
theorem dispatch_filled (b : Buffers) {ls : List (List Char)} (filled : ∀ line ∈ ls, line ≠ []) :
    dispatch b ls = [] := by
  induction ls generalizing b with
  | nil => rfl
  | cons line ls ih =>
      rw [dispatch, if_neg (filled line List.mem_cons_self)]
      exact ih _ fun l member => filled l (List.mem_cons_of_mem _ member)

theorem field_event (m : Message) (b : Buffers) :
    b.field (eventLine m) = { b with type := m.type } := by
  unfold Buffers.field eventLine
  simp

theorem field_data (m : Message) (b : Buffers) :
    b.field (dataLine m) = { b with data := b.data ++ m.data ++ ['\n'] } := by
  unfold Buffers.field dataLine
  simp

theorem dispatch_line (b : Buffers) {line : List Char} (some : line ≠ [])
    (rest : List (List Char)) : dispatch b (line :: rest) = dispatch (b.field line) rest := by
  rw [dispatch, if_neg some]

theorem dispatch_blank {b : Buffers} (named : b.type ≠ []) (some : b.data ≠ [])
    (rest : List (List Char)) :
    dispatch b ([] :: rest) =
      { type := b.type, data := b.data.dropLast } :: dispatch .empty rest := by
  rw [dispatch, if_pos rfl, if_neg some, if_neg named]

variable {m : Message}

theorem eventLine_some : eventLine m ≠ [] := List.append_ne_nil_of_left_ne_nil (by decide) _

theorem dataLine_some : dataLine m ≠ [] := List.append_ne_nil_of_left_ne_nil (by decide) _

theorem lines_frame (fits : m.Fits) (s : List Char) :
    lines [] (frame m ++ s) = eventLine m :: dataLine m :: [] :: lines [] s := by
  have text : frame m ++ s =
      eventLine m ++ '\n' :: (dataLine m ++ '\n' :: '\n' :: s) := by simp [frame]
  rw [text, lines_oneLine (eventLine_oneLine fits), lines_feed,
    lines_oneLine (dataLine_oneLine fits), lines_feed, lines_feed, List.nil_append, List.nil_append]

/-- **A frame is read back.** -/
theorem read_frame (fits : m.Fits) (s : List Char) : read (frame m ++ s) = m :: read s := by
  have gathered : (Buffers.empty.field (eventLine m)).field (dataLine m) =
      { type := m.type, data := m.data ++ ['\n'] } := by
    rw [field_event, field_data]
    rfl
  unfold read
  rw [lines_frame fits, dispatch_line _ eventLine_some, dispatch_line _ dataLine_some, gathered,
    dispatch_blank fits.named (List.append_ne_nil_of_right_ne_nil _ (List.cons_ne_nil _ _)),
    List.dropLast_concat]

/-- A frame that breaks off is not read. -/
theorem read_broken (fits : m.Fits) {part : List Char} (front : part <+: frame m)
    (short : part ≠ frame m) : read part = [] := by
  have whole : frame m = (eventLine m ++ '\n' :: (dataLine m ++ ['\n'])) ++ ['\n'] := by
    simp [frame]
  have within : part <+: eventLine m ++ '\n' :: (dataLine m ++ ['\n']) := by
    rw [whole] at front short
    rcases List.prefix_concat_iff.1 front with all | inside
    · exact absurd all short
    · exact inside
  have lined : lines [] (eventLine m ++ '\n' :: (dataLine m ++ ['\n'])) =
      [eventLine m, dataLine m] := by
    rw [lines_oneLine (eventLine_oneLine fits), lines_feed, lines_oneLine (dataLine_oneLine fits),
      lines_feed, List.nil_append, List.nil_append, lines]
  obtain ⟨more, rest⟩ := within
  have some_ := lines_front [] part more
  rw [rest, lined] at some_
  refine dispatch_filled _ fun line member => ?_
  have one := some_.subset member
  simp only [List.mem_cons, List.not_mem_nil, or_false] at one
  rcases one with rfl | rfl
  · exact eventLine_some
  · exact dataLine_some

/-- **What is read of a stream that may break off**: the messages whose frames came whole. -/
theorem read_front {ms : List Message} (fit : ∀ m ∈ ms, m.Fits) {part : List Char}
    (front : part <+: frames ms) :
    ∃ k ≤ ms.length, read part = ms.take k ∧ frames (ms.take k) <+: part ∧
      (part = frames ms → k = ms.length) := by
  induction ms generalizing part with
  | nil =>
      obtain rfl := List.prefix_nil.1 front
      exact ⟨0, Nat.le_refl _, rfl, List.nil_prefix, fun _ => rfl⟩
  | cons m ms ih =>
      have fits := fit m List.mem_cons_self
      have later : ∀ m ∈ ms, m.Fits := fun m member => fit m (List.mem_cons_of_mem _ member)
      have text : frames (m :: ms) = frame m ++ frames ms := rfl
      rw [text] at front
      by_cases whole : frame m <+: part
      · obtain ⟨rest, rfl⟩ := whole
        obtain ⟨k, le, readBack, sent, all⟩ := ih later ((List.prefix_append_right_inj _).1 front)
        refine ⟨k + 1, Nat.succ_le_succ le, ?_, ?_, fun same => ?_⟩
        · rw [read_frame fits, readBack]
          rfl
        · exact (List.prefix_append_right_inj _).2 sent
        · rw [List.length_cons, all (List.append_cancel_left same)]
      · have inside : part <+: frame m :=
          (List.prefix_or_prefix_of_prefix front (List.prefix_append _ _)).resolve_right whole
        refine ⟨0, Nat.zero_le _, ?_, List.nil_prefix, fun same => ?_⟩
        · exact read_broken fits inside fun same => whole (same ▸ List.prefix_rfl)
        · exact absurd (same ▸ List.prefix_append _ _) whole

end Clumsy.Theory.EventStream
