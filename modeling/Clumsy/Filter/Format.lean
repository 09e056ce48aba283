/-
# Filter.Format -- utils.cpp: text in buffers

`appendf` never writes past its buffer; what does not fit is dropped.  The texts of
this program fit (`appendf_fits`), and a number is read back from the digits that
`%u` prints (`decimal_unsigned`).
-/
import Clumsy.Filter.Lexer

namespace Clumsy.Filter

set_option autoImplicit false

/-- `appendf`; the length of the text is the source's `pos`. -/
def appendf (bufSize : Nat) (buf text : List Char) : List Char :=
  if buf.length ≥ bufSize - 1 then buf else buf ++ text.take (bufSize - buf.length - 1)

/-- `%u`. -/
def unsigned (n : UInt32) : List Char := Nat.toDigits 10 n.toNat

theorem appendf_fits {bufSize : Nat} {buf text : List Char}
    (fits : buf.length + text.length < bufSize) : appendf bufSize buf text = buf ++ text := by
  unfold appendf
  split
  · have none : text = [] := List.eq_nil_of_length_eq_zero (by omega)
    rw [none, List.append_nil]
  · rw [List.take_of_length_le (by omega)]

theorem unsigned_length (n : UInt32) : (unsigned n).length ≤ 10 := by
  have small : n.toNat < 10 ^ 10 := Nat.lt_trans n.toNat_lt (by decide)
  exact (Nat.length_toDigits_le_iff (by decide) (by decide)).2 small

theorem decimal_unsigned (n : UInt32) : decimal (unsigned n) = n.toNat :=
  Nat.ofDigitChars_ten_toDigits

theorem isDigit_of_mem_unsigned {n : UInt32} {c : Char} (member : c ∈ unsigned n) :
    c.isDigit = true := Nat.isDigit_of_mem_toDigits (by decide) (by decide) member

end Clumsy.Filter
