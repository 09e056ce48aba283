/-
# Report.Html -- report.cpp: text put into the report page

`htmlEscapeInto` expands a text in place, up to six characters for one, into a buffer of
fixed size.  The margin test before every character leaves room for the longest entity and
for the terminator, so the loop only ever appends whole entities (`htmlEscapeLoop_filled`).
What it leaves is the escaped text of a front of the source, and of all of it when that
fits (`htmlEscapeInto_spec`); a reader who takes the entities back has the front
(`unescape_escaped`).
-/
import Clumsy.Theory.Memory

namespace Clumsy.Report

set_option autoImplicit false

open Clumsy.Theory.Memory

/-! ## What one character becomes -/

/-- The entity of a character that has one, and the character itself elsewhere. -/
def entity (c : Char) : List Char :=
  match c with
  | '<' => "&lt;".toList
  | '>' => "&gt;".toList
  | '&' => "&amp;".toList
  | '"' => "&quot;".toList
  | c   => [c]

/-- The escaped text, with no bound on its length. -/
def escaped (src : List Char) : List Char := src.flatMap entity

/-- The entities the escaper emits. -/
def entities : List (List Char) := ["&lt;", "&gt;", "&amp;", "&quot;"].map String.toList

/-- What a reader of the page makes of the text: each of the four entities back. -/
def unescape : List Char → List Char
  | '&' :: 'l' :: 't' :: ';' :: rest               => '<' :: unescape rest
  | '&' :: 'g' :: 't' :: ';' :: rest               => '>' :: unescape rest
  | '&' :: 'a' :: 'm' :: 'p' :: ';' :: rest        => '&' :: unescape rest
  | '&' :: 'q' :: 'u' :: 'o' :: 't' :: ';' :: rest => '"' :: unescape rest
  | c :: rest                                      => c :: unescape rest
  | []                                             => []

/-! ## The escaper -/

/-- The `switch`: the buffer and `i` after one character. -/
def htmlEscapeChar (c : Char) (dst : List Char) (i : Nat) : Option (List Char × Nat) :=
  match c with
  | '<' => (copy dst i ("&lt;".toList.take 4)).map fun dst => (dst, i + 4)
  | '>' => (copy dst i ("&gt;".toList.take 4)).map fun dst => (dst, i + 4)
  | '&' => (copy dst i ("&amp;".toList.take 5)).map fun dst => (dst, i + 5)
  | '"' => (copy dst i ("&quot;".toList.take 6)).map fun dst => (dst, i + 6)
  | c   => (store dst i c).map fun dst => (dst, i + 1)

/-- The loop of `htmlEscapeInto`; `none` is a write outside the buffer. -/
def htmlEscapeLoop (dstSize : Nat) : List Char → List Char → Nat → Option (List Char × Nat)
  | [], dst, i => some (dst, i)
  | c :: src, dst, i =>
      if (i : Int) < (dstSize : Int) - 7 then
        (htmlEscapeChar c dst i).bind fun (dst, i) => htmlEscapeLoop dstSize src dst i
      else some (dst, i)

/-- `htmlEscapeInto`: the buffer afterwards and what is returned.  A missing source is
`none`; a source text is its characters before the terminator. -/
def htmlEscapeInto (src : Option (List Char)) (dst : List Char) (dstSize : Nat) :
    Option (List Char × Nat) :=
  match src with
  | none =>
      if dstSize > 0 then (store dst 0 '\x00').map fun dst => (dst, 0) else some (dst, 0)
  | some src =>
      (htmlEscapeLoop dstSize src dst 0).bind fun (dst, i) =>
        (store dst i '\x00').map fun dst => (dst, i)

/-! ## The escaped text -/

/-- Neither opens nor closes a tag or a quoted value. -/
def Plain (c : Char) : Prop := c ≠ '<' ∧ c ≠ '>' ∧ c ≠ '"'

instance (c : Char) : Decidable (Plain c) :=
  inferInstanceAs (Decidable (c ≠ '<' ∧ c ≠ '>' ∧ c ≠ '"'))

/-- A character is one of the four, or stands for itself. -/
theorem entity_cases (c : Char) :
    (c = '<' ∧ entity c = "&lt;".toList) ∨ (c = '>' ∧ entity c = "&gt;".toList) ∨
      (c = '&' ∧ entity c = "&amp;".toList) ∨ (c = '"' ∧ entity c = "&quot;".toList) ∨
      ((c ≠ '<' ∧ c ≠ '>' ∧ c ≠ '&' ∧ c ≠ '"') ∧ entity c = [c]) := by
  by_cases lt : c = '<'
  · exact .inl ⟨lt, by rw [lt]; rfl⟩
  by_cases gt : c = '>'
  · exact .inr (.inl ⟨gt, by rw [gt]; rfl⟩)
  by_cases amp : c = '&'
  · exact .inr (.inr (.inl ⟨amp, by rw [amp]; rfl⟩))
  by_cases quot : c = '"'
  · exact .inr (.inr (.inr (.inl ⟨quot, by rw [quot]; rfl⟩)))
  · refine .inr (.inr (.inr (.inr ⟨⟨lt, gt, amp, quot⟩, ?_⟩)))
    unfold entity
    split <;> first | contradiction | rfl

theorem entity_mem_or (c : Char) :
    entity c ∈ entities ∨ ((Plain c ∧ c ≠ '&') ∧ entity c = [c]) := by
  rcases entity_cases c with ⟨_, text⟩ | ⟨_, text⟩ | ⟨_, text⟩ | ⟨_, text⟩ |
      ⟨⟨lt, gt, amp, quot⟩, text⟩
  · exact .inl (by rw [text]; decide)
  · exact .inl (by rw [text]; decide)
  · exact .inl (by rw [text]; decide)
  · exact .inl (by rw [text]; decide)
  · exact .inr ⟨⟨⟨lt, gt, quot⟩, amp⟩, text⟩

theorem plain_of_mem_entities : ∀ e ∈ entities, ∀ c ∈ e, Plain c := by
  simp [entities, Plain]

/-- An entity starts with its only `&`. -/
theorem ampersand_of_mem_entities : ∀ e ∈ entities, '&' ∉ e.tail := by decide

theorem length_entities : ∀ e ∈ entities, e.length ≤ 6 ∧ '\x00' ∉ e := by decide

theorem length_entity_le (c : Char) : (entity c).length ≤ 6 := by
  rcases entity_mem_or c with known | ⟨_, text⟩
  · exact (length_entities _ known).1
  · simp [text]

@[simp] theorem escaped_nil : escaped [] = [] := rfl

@[simp] theorem escaped_cons (c : Char) (src : List Char) :
    escaped (c :: src) = entity c ++ escaped src := List.flatMap_cons

theorem escaped_append (front back : List Char) :
    escaped (front ++ back) = escaped front ++ escaped back := List.flatMap_append

theorem length_escaped_take (src : List Char) (n : Nat) :
    (escaped (src.take n)).length ≤ (escaped src).length := by
  have parts : escaped src = escaped (src.take n) ++ escaped (src.drop n) := by
    rw [← escaped_append, List.take_append_drop]
  rw [parts, List.length_append]
  exact Nat.le_add_right _ _

theorem plain_of_mem_escaped {src : List Char} {c : Char} (member : c ∈ escaped src) :
    Plain c := by
  obtain ⟨x, _, inside⟩ := List.mem_flatMap.1 member
  rcases entity_mem_or x with known | ⟨⟨plain, _⟩, text⟩
  · exact plain_of_mem_entities _ known c inside
  · rw [text] at inside
    rw [List.mem_singleton.1 inside]
    exact plain

theorem zero_notMem_escaped {src : List Char} (free : '\x00' ∉ src) :
    '\x00' ∉ escaped src := by
  intro member
  obtain ⟨x, there, inside⟩ := List.mem_flatMap.1 member
  rcases entity_mem_or x with known | ⟨_, text⟩
  · exact (length_entities _ known).2 inside
  · rw [text] at inside
    exact free (List.mem_singleton.1 inside ▸ there)

/-- An `&` of the escaped text is the start of an entity, and the whole entity is there. -/
theorem ampersand_escaped {src front back : List Char}
    (split : escaped src = front ++ '&' :: back) :
    ∃ e ∈ entities, e <+: '&' :: back := by
  induction src generalizing front with
  | nil => simp at split
  | cons c src ih =>
      rw [escaped_cons] at split
      obtain ⟨within, _, rest⟩ | ⟨within, text, rest⟩ := List.append_eq_append_iff.1 split
      -- The `&` is behind the text of `c`.
      · exact ih rest
      · cases within with
        | nil => exact @ih [] rest.symm
        | cons x within =>
            obtain ⟨rfl, rest⟩ := List.cons.inj rest
            rcases entity_mem_or c with known | ⟨⟨_, amp⟩, alone⟩
            · refine ⟨entity c, known, ?_⟩
              cases front with
              | nil => exact ⟨escaped src, by rw [text, rest]; rfl⟩
              | cons y front =>
                  have second := ampersand_of_mem_entities _ known
                  rw [text] at second
                  simp at second
            · have same : '&' ∈ entity c := by simp [text]
              rw [alone] at same
              exact absurd (List.mem_singleton.1 same).symm amp

theorem unescape_cons {c : Char} (amp : c ≠ '&') (rest : List Char) :
    unescape (c :: rest) = c :: unescape rest := by
  rw [unescape] <;> intros <;> contradiction

theorem unescape_escaped (src : List Char) : unescape (escaped src) = src := by
  induction src with
  | nil => rfl
  | cons c src ih =>
      rw [escaped_cons]
      rcases entity_cases c with ⟨same, text⟩ | ⟨same, text⟩ | ⟨same, text⟩ | ⟨same, text⟩ |
          ⟨⟨_, _, amp, _⟩, text⟩
      · rw [text, same]
        simp [unescape, ih]
      · rw [text, same]
        simp [unescape, ih]
      · rw [text, same]
        simp [unescape, ih]
      · rw [text, same]
        simp [unescape, ih]
      · rw [text, List.singleton_append, unescape_cons amp, ih]

/-! ## The loop -/

/-- With room for the longest entity one character is appended whole. -/
theorem htmlEscapeChar_filled {out dst : List Char} (c : Char) (room : out.length + 6 ≤ dst.length) :
    htmlEscapeChar c (filled out dst) out.length =
      some (filled (out ++ entity c) dst, (out ++ entity c).length) := by
  have append (xs : List Char) (short : xs.length ≤ 6) :
      copy (filled out dst) out.length xs = some (filled (out ++ xs) dst) :=
    copy_filled (by omega)
  rcases entity_cases c with ⟨rfl, text⟩ | ⟨rfl, text⟩ | ⟨rfl, text⟩ | ⟨rfl, text⟩ |
      ⟨⟨lt, gt, amp, quot⟩, text⟩
  · simp [htmlEscapeChar, text, append]
  · simp [htmlEscapeChar, text, append]
  · simp [htmlEscapeChar, text, append]
  · simp [htmlEscapeChar, text, append]
  · simp [htmlEscapeChar, text, store_filled (show out.length < dst.length by omega)]

/-- Where the loop ends: a front of the source was appended, entity by entity, with room
for the terminator, and what is left did not pass the margin test. -/
theorem htmlEscapeLoop_filled {dst : List Char} (src out : List Char)
    (room : out.length < dst.length) :
    ∃ n ≤ src.length,
      htmlEscapeLoop dst.length src (filled out dst) out.length =
        some (filled (out ++ escaped (src.take n)) dst, (out ++ escaped (src.take n)).length) ∧
      (out ++ escaped (src.take n)).length < dst.length ∧
      (n = src.length ∨ dst.length ≤ (out ++ escaped (src.take n)).length + 7) := by
  induction src generalizing out with
  | nil => exact ⟨0, Nat.le_refl _, by simp [htmlEscapeLoop], by simpa using room, .inl rfl⟩
  | cons c src ih =>
      by_cases margin : (out.length : Int) < (dst.length : Int) - 7
      · have short := length_entity_le c
        obtain ⟨n, le, run, inside, stop⟩ := ih (out ++ entity c) (by
          rw [List.length_append]
          omega)
        refine ⟨n + 1, Nat.succ_le_succ le, ?_, ?_, ?_⟩
        · rw [htmlEscapeLoop, if_pos margin, htmlEscapeChar_filled c (by omega)]
          simpa using run
        · simpa using inside
        · simpa using stop
      · refine ⟨0, Nat.zero_le _, ?_, by simpa using room, .inr ?_⟩
        · rw [htmlEscapeLoop, if_neg margin]
          simp
        · simp only [List.take_zero, escaped_nil, List.append_nil]
          omega

/-- `htmlEscapeInto` keeps inside a buffer of at least eight characters and leaves the
escaped text of a front of the source, terminated: nothing in it opens a tag or a value,
each `&` starts a whole entity, and taken back it is that front, which is all of the source
when the escaped text leaves eight characters. -/
theorem htmlEscapeInto_spec (src dst : List Char) (room : 8 ≤ dst.length) :
    ∃ out, htmlEscapeInto (some src) dst dst.length =
        some (filled (out ++ ['\x00']) dst, out.length) ∧
      out.length + 1 ≤ dst.length ∧
      (∀ c ∈ out, c ≠ '<' ∧ c ≠ '>' ∧ c ≠ '"') ∧
      (∀ front back, out = front ++ '&' :: back → ∃ e ∈ entities, e <+: '&' :: back) ∧
      (∃ n ≤ src.length, out = escaped (src.take n)) ∧
      ('\x00' ∉ src → '\x00' ∉ out) ∧
      unescape out <+: src ∧
      ((escaped src).length ≤ dst.length - 8 → unescape out = src) := by
  obtain ⟨n, le, run, inside, stop⟩ := @htmlEscapeLoop_filled dst src [] (by
    rw [List.length_nil]
    omega)
  simp only [filled_nil, List.length_nil, List.nil_append] at run inside stop
  refine ⟨escaped (src.take n), ?_, inside, fun c => plain_of_mem_escaped,
    fun front back => ampersand_escaped, ⟨n, le, rfl⟩, ?_, ?_, ?_⟩
  · simp only [htmlEscapeInto, run, Option.bind_some, store_filled inside, Option.map_some]
  · intro free
    exact zero_notMem_escaped fun member => free (List.mem_of_mem_take member)
  · rw [unescape_escaped]
    exact List.take_prefix n src
  · intro fits
    have shorter := length_escaped_take src n
    have whole : n = src.length := by
      rcases stop with whole | full
      · exact whole
      · omega
    rw [whole, List.take_length, unescape_escaped]

/-- A tag of a source text in a buffer of sixteen characters. -/
theorem htmlEscapeInto_tag : ∃ out,
    htmlEscapeInto (some "<b>&".toList) (List.replicate 16 'x') 16 =
        some (filled (out ++ ['\x00']) (List.replicate 16 'x'), out.length) ∧
      unescape out <+: "<b>&".toList :=
  have ⟨out, run, _, _, _, _, _, front, _⟩ :=
    htmlEscapeInto_spec "<b>&".toList (List.replicate 16 'x') (by decide)
  ⟨out, run, front⟩

end Clumsy.Report
