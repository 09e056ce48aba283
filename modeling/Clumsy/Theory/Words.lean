/-
# Theory.Words -- words in memory order

A word of `w` bytes with the low byte first, and a block that is cut into words of given
widths.  Reading undoes writing (`read_write`), and a record of words is read back from
its bytes (`readWords_writeWords`) and written back from its words
(`writeWords_readWords`).
-/
import Mathlib

namespace Clumsy.Theory

set_option autoImplicit false

/-- The `w` bytes of a number, low byte first. -/
def writeWord : Nat → Nat → List UInt8
  | 0, _ => []
  | w + 1, n => UInt8.ofNat n :: writeWord w (n / 256)

def readWord : List UInt8 → Nat
  | [] => 0
  | byte :: bytes => byte.toNat + 256 * readWord bytes

@[simp] theorem writeWord_length (w n : Nat) : (writeWord w n).length = w := by
  induction w generalizing n with
  | zero => rfl
  | succ w ih => rw [writeWord, List.length_cons, ih]

theorem read_write {w n : Nat} (small : n < 256 ^ w) : readWord (writeWord w n) = n := by
  induction w generalizing n with
  | zero =>
      rw [pow_zero, Nat.lt_one_iff] at small
      rw [small]
      rfl
  | succ w ih =>
      have high : n / 256 < 256 ^ w := by
        rw [Nat.div_lt_iff_lt_mul (by decide), ← pow_succ]
        exact small
      rw [writeWord, readWord, ih high, UInt8.toNat_ofNat']
      omega

theorem write_read (bytes : List UInt8) : writeWord bytes.length (readWord bytes) = bytes := by
  induction bytes with
  | nil => rfl
  | cons byte bytes ih =>
      have bound := byte.toNat_lt
      have high : (byte.toNat + 256 * readWord bytes) / 256 = readWord bytes := by omega
      have low : UInt8.ofNat (byte.toNat + 256 * readWord bytes) = byte := by
        rw [← UInt8.toNat_inj, UInt8.toNat_ofNat']
        omega
      rw [List.length_cons, readWord, writeWord, high, low, ih]

theorem readWord_lt (bytes : List UInt8) : readWord bytes < 256 ^ bytes.length := by
  induction bytes with
  | nil => exact Nat.one_pos
  | cons byte bytes ih =>
      have bound := byte.toNat_lt
      rw [readWord, List.length_cons, pow_succ]
      omega

/-- The first `n` bytes and the rest, if there are so many. -/
def readBlock (n : Nat) (bytes : List UInt8) : Option (List UInt8 × List UInt8) :=
  if n ≤ bytes.length then some (bytes.take n, bytes.drop n) else none

theorem readBlock_append {block : List UInt8} {n : Nat} (size : block.length = n)
    (rest : List UInt8) : readBlock n (block ++ rest) = some (block, rest) := by
  subst size
  rw [readBlock, if_pos (by rw [List.length_append]; omega), List.take_left, List.drop_left]

theorem readBlock_eq_some {n : Nat} {bytes block rest : List UInt8} :
    readBlock n bytes = some (block, rest) ↔ block.length = n ∧ bytes = block ++ rest := by
  constructor
  · intro read
    rw [readBlock] at read
    split_ifs at read with enough
    cases read
    exact ⟨List.length_take_of_le enough, (List.take_append_drop n bytes).symm⟩
  · rintro ⟨size, rfl⟩
    exact readBlock_append size rest

/-- Words of the given widths, one behind the other. -/
def writeWords (fields : List (Nat × Nat)) : List UInt8 :=
  fields.flatMap fun field => writeWord field.1 field.2

def readWords : List Nat → List UInt8 → List Nat
  | [], _ => []
  | w :: widths, bytes => readWord (bytes.take w) :: readWords widths (bytes.drop w)

theorem writeWords_length (fields : List (Nat × Nat)) :
    (writeWords fields).length = (fields.map Prod.fst).sum := by
  simp [writeWords, List.length_flatMap]

/-- **A record is read back from its bytes.** -/
theorem readWords_writeWords {fields : List (Nat × Nat)}
    (small : ∀ field ∈ fields, field.2 < 256 ^ field.1) :
    readWords (fields.map Prod.fst) (writeWords fields) = fields.map Prod.snd := by
  induction fields with
  | nil => rfl
  | cons field fields ih =>
      have first : (writeWords (field :: fields)) =
          writeWord field.1 field.2 ++ writeWords fields := rfl
      rw [List.map_cons, List.map_cons, readWords, first,
        List.take_left' (writeWord_length _ _), List.drop_left' (writeWord_length _ _),
        read_write (small field List.mem_cons_self),
        ih fun field later => small field (List.mem_cons_of_mem _ later)]

/-- **A block is written back from its words.** -/
theorem writeWords_readWords {widths : List Nat} {block : List UInt8}
    (size : block.length = widths.sum) :
    writeWords (widths.zip (readWords widths block)) = block := by
  induction widths generalizing block with
  | nil => exact (List.length_eq_zero_iff.1 size).symm
  | cons w widths ih =>
      rw [List.sum_cons] at size
      have first : (block.take w).length = w := List.length_take_of_le (by omega)
      have rest := @ih (block.drop w) (by rw [List.length_drop]; omega)
      have word : writeWord w (readWord (block.take w)) = block.take w := by
        have same := write_read (block.take w)
        rwa [first] at same
      have split : writeWords ((w :: widths).zip (readWords (w :: widths) block)) =
          writeWord w (readWord (block.take w)) ++
            writeWords (widths.zip (readWords widths (block.drop w))) := rfl
      rw [split, word, rest, List.take_append_drop]

/-! ## The other byte order -/

/-- A block with every word turned round. -/
def reverseWords : List Nat → List UInt8 → List UInt8
  | [], bytes => bytes
  | w :: widths, bytes => (bytes.take w).reverse ++ reverseWords widths (bytes.drop w)

/-- The bytes of the words of a block. -/
def cutWords : List Nat → List UInt8 → List (List UInt8)
  | [], _ => []
  | w :: widths, bytes => bytes.take w :: cutWords widths (bytes.drop w)

theorem readWords_eq (widths : List Nat) (bytes : List UInt8) :
    readWords widths bytes = (cutWords widths bytes).map readWord := by
  induction widths generalizing bytes with
  | nil => rfl
  | cons w widths ih => rw [readWords, cutWords, List.map_cons, ih]

@[simp] theorem reverseWords_length (widths : List Nat) (bytes : List UInt8) :
    (reverseWords widths bytes).length = bytes.length := by
  induction widths generalizing bytes with
  | nil => rfl
  | cons w widths ih =>
      rw [reverseWords, List.length_append, List.length_reverse, ih, List.length_take,
        List.length_drop]
      omega

/-- The words of a block that is turned round are its words, each turned round. -/
theorem cutWords_reverseWords {widths : List Nat} {bytes : List UInt8}
    (size : widths.sum ≤ bytes.length) :
    cutWords widths (reverseWords widths bytes) = (cutWords widths bytes).map List.reverse := by
  induction widths generalizing bytes with
  | nil => rfl
  | cons w widths ih =>
      rw [List.sum_cons] at size
      have first : (bytes.take w).reverse.length = w := by
        rw [List.length_reverse, List.length_take_of_le (by omega)]
      rw [reverseWords, cutWords, cutWords, List.map_cons, List.take_left' first,
        List.drop_left' first, ih (by rw [List.length_drop]; omega)]

end Clumsy.Theory
