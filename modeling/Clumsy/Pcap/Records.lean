/-
# Pcap.Records -- what a capture file holds for a replay

A record is complete if its header gives a length from 1 to 65535 and so many bytes follow.
`readRecord` reads exactly the complete records of the file's byte order
(`readRecord_iff`), so a replay reads the longest prefix of them (`records_longest`).

A file in the other byte order has the bytes of every header field turned round
(`swapFields`).  It is opened the same but for the order, and its records are the same
(`records_swapFields`).
-/
import Clumsy.Pcap.Replay

namespace Clumsy.Pcap

open Clumsy.Theory
open Clumsy.Packet

set_option autoImplicit false

/-! ## Turning a word round -/

/-- One byte of a number, in place. -/
theorem and_byte (x k : Nat) : x &&& (255 <<< k) = ((x >>> k) % 256) <<< k := by
  have base : 256 = 2 ^ 8 := rfl
  have mask : 255 = 2 ^ 8 - 1 := rfl
  apply Nat.eq_of_testBit_eq
  intro i
  rw [base, mask]
  simp only [Nat.testBit_and, Nat.testBit_shiftLeft, Nat.testBit_two_pow_sub_one,
    Nat.testBit_mod_two_pow, Nat.testBit_shiftRight]
  by_cases above : i ≥ k
  · simp [above, Bool.and_comm]
  · simp [above]

/-- Bytes that are put side by side do not meet. -/
theorem or_bytes {a b c d : Nat} (smallB : b < 256) (smallC : c < 256) (smallD : d < 256) :
    ((a * 16777216 ||| b * 65536) ||| c * 256) ||| d =
      a * 16777216 + b * 65536 + c * 256 + d := by
  have two : a * 16777216 ||| b * 65536 = a * 16777216 + b * 65536 := by
    have apart := @Nat.two_pow_add_eq_or_of_lt 24 (b * 65536) (by omega) a
    rw [Nat.mul_comm] at apart
    exact apart.symm
  have three : (a * 16777216 + b * 65536) ||| c * 256 = a * 16777216 + b * 65536 + c * 256 := by
    have apart := @Nat.two_pow_add_eq_or_of_lt 16 (c * 256) (by omega) (a * 256 + b)
    have same : 2 ^ 16 * (a * 256 + b) = a * 16777216 + b * 65536 := by omega
    rw [same] at apart
    exact apart.symm
  have four : (a * 16777216 + b * 65536 + c * 256) ||| d =
      a * 16777216 + b * 65536 + c * 256 + d := by
    have apart := @Nat.two_pow_add_eq_or_of_lt 8 d (by omega) (a * 65536 + b * 256 + c)
    have same : 2 ^ 8 * (a * 65536 + b * 256 + c) =
        a * 16777216 + b * 65536 + c * 256 := by omega
    rw [same] at apart
    exact apart.symm
  rw [two, three, four]

theorem masks (x : Nat) :
    x &&& 255 = x % 256 ∧ x &&& 65280 = x / 256 % 256 * 256 ∧
      x &&& 16711680 = x / 65536 % 256 * 65536 ∧
        x &&& 4278190080 = x / 16777216 % 256 * 16777216 := by
  refine ⟨?_, ?_, ?_, ?_⟩
  · simpa [Nat.shiftRight_eq_div_pow, Nat.shiftLeft_eq] using and_byte x 0
  · simpa [Nat.shiftRight_eq_div_pow, Nat.shiftLeft_eq] using and_byte x 8
  · simpa [Nat.shiftRight_eq_div_pow, Nat.shiftLeft_eq] using and_byte x 16
  · simpa [Nat.shiftRight_eq_div_pow, Nat.shiftLeft_eq] using and_byte x 24

/-- The bytes of a word, turned round. -/
theorem toNat_swap32 {v : UInt32} {a b c d : Nat} (smallA : a < 256) (smallB : b < 256)
    (smallC : c < 256) (smallD : d < 256)
    (word : v.toNat = d * 16777216 + c * 65536 + b * 256 + a) :
    (swap32 v).toNat = a * 16777216 + b * 65536 + c * 256 + d := by
  have byte0 : v.toNat % 256 = a := by omega
  have byte1 : v.toNat / 256 % 256 = b := by omega
  have byte2 : v.toNat / 65536 % 256 = c := by omega
  have byte3 : v.toNat / 16777216 % 256 = d := by omega
  obtain ⟨mask0, mask1, mask2, mask3⟩ := masks v.toNat
  rw [byte0] at mask0
  rw [byte1] at mask1
  rw [byte2] at mask2
  rw [byte3] at mask3
  have parts : (swap32 v).toNat =
      ((a * 16777216 ||| b * 65536) ||| c * 256) ||| d := by
    simp only [swap32, UInt32.toNat_or, UInt32.toNat_shiftLeft, UInt32.toNat_shiftRight,
      UInt32.toNat_and, UInt32.toNat_ofNat, Nat.reduceMod, Nat.reducePow, mask0, mask1, mask2,
      mask3, Nat.shiftLeft_eq, Nat.shiftRight_eq_div_pow]
    clear mask0 mask1 mask2 mask3
    congr 1
    · congr 1
      · congr 1 <;> omega
      · omega
    · omega
  rw [parts, or_bytes smallB smallC smallD]

/-- A word is its bytes. -/
theorem exists_bytes (v : UInt32) : ∃ a b c d, a < 256 ∧ b < 256 ∧ c < 256 ∧ d < 256 ∧
    v.toNat = d * 16777216 + c * 65536 + b * 256 + a := by
  have bound := v.toNat_lt
  exact ⟨v.toNat % 256, v.toNat / 256 % 256, v.toNat / 65536 % 256, v.toNat / 16777216,
    by omega, by omega, by omega, by omega, by omega⟩

@[simp] theorem swap32_swap32 (v : UInt32) : swap32 (swap32 v) = v := by
  obtain ⟨a, b, c, d, smallA, smallB, smallC, smallD, word⟩ := exists_bytes v
  rw [← UInt32.toNat_inj, word]
  exact toNat_swap32 smallD smallC smallB smallA (toNat_swap32 smallA smallB smallC smallD word)

/-- **`swap32` turns the bytes of a word round.** -/
theorem ofNat_readWord_reverse {word : Bytes} (size : word.length = 4) :
    UInt32.ofNat (readWord word.reverse) = swap32 (UInt32.ofNat (readWord word)) := by
  match word, size with
  | [a, b, c, d], _ =>
      have boundA := a.toNat_lt
      have boundB := b.toNat_lt
      have boundC := c.toNat_lt
      have boundD := d.toNat_lt
      have there : (UInt32.ofNat (readWord [a, b, c, d])).toNat =
          d.toNat * 16777216 + c.toNat * 65536 + b.toNat * 256 + a.toNat := by
        simp only [readWord, UInt32.toNat_ofNat']
        omega
      rw [← UInt32.toNat_inj, toNat_swap32 boundA boundB boundC boundD there]
      simp only [List.reverse_cons, List.reverse_nil, List.nil_append, List.cons_append,
        readWord, UInt32.toNat_ofNat']
      omega

/-! ## One record -/

namespace RecordHeader

/-- The widths of the fields. -/
def widths : List Nat := [4, 4, 4, 4]

/-- A block of that size is the header it decodes to. -/
theorem encode_decode {block : Bytes} (size : block.length = RecordHeader.size) :
    (decode block).encode = block := by
  have words : ∀ word ∈ readWords widths block, word < 2 ^ 32 := by
    rw [readWords_eq]
    simp only [widths, cutWords, List.map_cons, List.map_nil, List.forall_mem_cons]
    have four : ∀ bytes : Bytes, readWord (bytes.take 4) < 2 ^ 32 := by
      intro bytes
      refine (readWord_lt _).trans_le ?_
      exact Nat.pow_le_pow_right (by decide) (List.length_take_le 4 bytes)
    exact ⟨four _, four _, four _, four _, by simp⟩
  have fields : (decode block).fields = widths.zip (readWords widths block) := by
    simp only [readWords_eq, widths, cutWords, List.map_cons, List.map_nil,
      List.forall_mem_cons] at words
    obtain ⟨w0, w1, w2, w3, -⟩ := words
    simp only [RecordHeader.fields, decode, readWords_eq, widths, cutWords, List.map_cons,
      List.map_nil, List.zip_cons_cons, List.zip_nil_right, List.getD_cons_zero,
      List.getD_cons_succ, UInt32.toNat_ofNat']
    rw [Nat.mod_eq_of_lt w0, Nat.mod_eq_of_lt w1, Nat.mod_eq_of_lt w2, Nat.mod_eq_of_lt w3]
  rw [encode, fields]
  exact writeWords_readWords size

@[simp] theorem native_native (swapped : Bool) (rh : RecordHeader) :
    (rh.native swapped).native swapped = rh := by
  cases swapped with
  | true => simp [native]
  | false => rfl

/-- A block that is turned round is the header with its fields swapped. -/
theorem decode_reverseWords {block : Bytes} (size : block.length = RecordHeader.size) :
    decode (reverseWords widths block) = (decode block).native true := by
  have cut := @cutWords_reverseWords widths block (by rw [size]; decide)
  have four : ∀ bytes : Bytes, 4 ≤ bytes.length → (bytes.take 4).length = 4 := by
    intro bytes enough
    exact List.length_take_of_le enough
  simp only [RecordHeader.size] at size
  simp only [widths, cutWords, List.map_cons, List.map_nil] at cut
  simp only [decode, readWords_eq, widths, cutWords] at cut ⊢
  rw [cut]
  simp only [List.map_cons, List.map_nil, List.getD_cons_zero, List.getD_cons_succ, native,
    if_true]
  rw [ofNat_readWord_reverse (four _ (by omega)), ofNat_readWord_reverse (four _ (by simp; omega)),
    ofNat_readWord_reverse (four _ (by simp; omega)),
    ofNat_readWord_reverse (four _ (by simp; omega))]

end RecordHeader

/-- A record a replay can use. -/
structure Complete (record : RecordHeader × Bytes) : Prop where
  positive : 1 ≤ record.1.inclLen.toNat
  bounded  : record.1.inclLen.toNat ≤ 65535
  whole    : record.2.length = record.1.inclLen.toNat

/-- A record as a file of this byte order holds it. -/
def storedBytes (swapped : Bool) (record : RecordHeader × Bytes) : Bytes :=
  (record.1.native swapped).encode ++ record.2

/-- **What is read are the complete records.** -/
theorem readRecord_iff {swapped : Bool} {bytes rest : Bytes} {record : RecordHeader × Bytes} :
    readRecord swapped bytes = some (record, rest) ↔
      Complete record ∧ bytes = storedBytes swapped record ++ rest := by
  constructor
  · intro read
    rw [readRecord] at read
    split at read
    · cases read
    · rename_i block after header
      obtain ⟨size, rfl⟩ := readBlock_eq_some.1 header
      dsimp only at read
      split_ifs at read with bad
      obtain ⟨⟨buf, last⟩, data, same⟩ := Option.map_eq_some_iff.1 read
      obtain ⟨whole, rfl⟩ := readBlock_eq_some.1 data
      cases same
      rw [not_or, ← UInt32.toNat_inj, gt_iff_lt, UInt32.lt_iff_toNat_lt, REPLAY_MAX_PACKET] at bad
      simp only [UInt32.toNat_ofNat, Nat.reducePow, Nat.reduceMod, not_lt] at bad
      refine ⟨⟨?_, ?_, whole⟩, ?_⟩
      · dsimp only
        omega
      · dsimp only
        omega
      · rw [storedBytes, RecordHeader.native_native, RecordHeader.encode_decode size,
          List.append_assoc]
  · rintro ⟨⟨positive, bounded, whole⟩, rfl⟩
    have fits : ¬(record.1.inclLen = 0 ∨ record.1.inclLen > REPLAY_MAX_PACKET) := by
      rw [← UInt32.toNat_inj, gt_iff_lt, UInt32.lt_iff_toNat_lt, REPLAY_MAX_PACKET]
      simp only [UInt32.toNat_ofNat, Nat.reducePow, Nat.reduceMod]
      omega
    rw [readRecord, storedBytes, List.append_assoc, readBlock_append (RecordHeader.encode_length _)]
    dsimp only
    rw [RecordHeader.decode_encode, RecordHeader.native_native, if_neg fits,
      readBlock_append whole]
    rfl

/-! ## All records -/

/-- The records from here on. -/
def records (swapped : Bool) (bytes : Bytes) : List (RecordHeader × Bytes) :=
  match _read : readRecord swapped bytes with
  | none => []
  | some (record, rest) => record :: records swapped rest
termination_by bytes.length
decreasing_by exact readRecord_shorter _read

theorem records_none {swapped : Bool} {bytes : Bytes} (ends : readRecord swapped bytes = none) :
    records swapped bytes = [] := by
  rw [records]
  split
  · rfl
  · rename_i read
    rw [ends] at read
    cases read

theorem records_some {swapped : Bool} {bytes rest : Bytes} {record : RecordHeader × Bytes}
    (read : readRecord swapped bytes = some (record, rest)) :
    records swapped bytes = record :: records swapped rest := by
  rw [records]
  split
  · rename_i ends
    rw [read] at ends
    cases ends
  · rename_i same
    rw [read] at same
    cases same
    rfl

/-- The records are complete and the front of the bytes, and no complete record follows. -/
structure LongestPrefix (swapped : Bool) (bytes : Bytes) (rs : List (RecordHeader × Bytes))
    (tail : Bytes) : Prop where
  whole    : bytes = rs.flatMap (storedBytes swapped) ++ tail
  complete : ∀ r ∈ rs, Complete r
  longest  : ∀ r rest, Complete r → tail ≠ storedBytes swapped r ++ rest

/-- **The records are the longest prefix of complete ones.** -/
theorem records_longest (swapped : Bool) (bytes : Bytes) :
    ∃ tail, LongestPrefix swapped bytes (records swapped bytes) tail := by
  cases read : readRecord swapped bytes with
  | none =>
      rw [records_none read]
      refine ⟨bytes, rfl, by simp, ?_⟩
      rintro r rest complete rfl
      rw [readRecord_iff.2 ⟨complete, rfl⟩] at read
      cases read
  | some front =>
      obtain ⟨record, rest⟩ := front
      obtain ⟨complete, split⟩ := readRecord_iff.1 read
      have shorter := readRecord_shorter read
      obtain ⟨tail, whole, all, longest⟩ := records_longest swapped rest
      rw [records_some read]
      refine ⟨tail, ?_, ?_, longest⟩
      · rw [List.flatMap_cons, List.append_assoc, ← whole, split]
      · rw [List.forall_mem_cons]
        exact ⟨complete, all⟩
termination_by bytes.length

/-- A file has one such prefix. -/
theorem LongestPrefix.unique {swapped : Bool} {bytes tail : Bytes}
    {rs : List (RecordHeader × Bytes)} (prefix_ : LongestPrefix swapped bytes rs tail) :
    rs = records swapped bytes := by
  obtain ⟨whole, complete, longest⟩ := prefix_
  induction rs generalizing bytes with
  | nil =>
      cases read : readRecord swapped bytes with
      | none => exact (records_none read).symm
      | some front =>
          obtain ⟨first, split⟩ := readRecord_iff.1 (read.trans rfl)
          exact absurd (whole.symm.trans split) (longest front.1 front.2 first)
  | cons r rs ih =>
      rw [List.forall_mem_cons] at complete
      rw [List.flatMap_cons, List.append_assoc] at whole
      rw [records_some (readRecord_iff.2 ⟨complete.1, whole⟩), ← ih rfl complete.2]

/-! ## The IP part of a frame -/

/-- All of it, and of an Ethernet frame what follows the header, if that announces IPv4 or
IPv6 and something follows. -/
def ipPart (linkType : UInt32) (frame : Bytes) : Option Bytes :=
  if linkType = LINKTYPE_ETHERNET then
    if 14 < frame.length ∧
        ((frame.drop 12).take 2 = [0x08, 0x00] ∨ (frame.drop 12).take 2 = [0x86, 0xDD]) then
      some (frame.drop 14)
    else none
  else some frame

/-- What `ipOffsetFor` cuts off leaves the IP part. -/
theorem ipOffsetFor_drop (linkType : UInt32) (buf : Bytes) :
    (ipOffsetFor linkType buf).map buf.drop = ipPart linkType buf := by
  unfold ipOffsetFor ipPart ETHER_HEADER_LEN
  by_cases ethernet : linkType = LINKTYPE_ETHERNET
  · rw [if_pos ethernet, if_pos ethernet]
    by_cases short : buf.length ≤ 14
    · rw [if_pos short, if_neg (by omega)]
      rfl
    · have at12 : buf.getD 12 0 = buf[12] := List.getD_eq_getElem buf 0 (by omega)
      have at13 : buf.getD 13 0 = buf[13] := List.getD_eq_getElem buf 0 (by omega)
      have two : (buf.drop 12).take 2 = [buf[12], buf[13]] := by
        rw [List.drop_eq_getElem_cons (by omega), List.drop_eq_getElem_cons (by omega)]
        rfl
      have low := buf[12].toNat_lt
      have high := buf[13].toNat_lt
      have type_iff : ∀ hi lo : UInt8,
          buf[12].toNat * 256 + buf[13].toNat = hi.toNat * 256 + lo.toNat ↔
            [buf[12], buf[13]] = [hi, lo] := by
        intro hi lo
        have boundHi := hi.toNat_lt
        have boundLo := lo.toNat_lt
        rw [List.cons.injEq, List.cons.injEq, ← UInt8.toNat_inj, ← UInt8.toNat_inj]
        constructor
        · intro same
          exact ⟨by omega, by omega, rfl⟩
        · rintro ⟨first, second, -⟩
          rw [first, second]
      have ipv4 := type_iff 0x08 0x00
      have ipv6 := type_iff 0x86 0xDD
      simp only [UInt8.toNat_ofNat, Nat.reducePow, Nat.reduceMod, Nat.reduceMul,
        Nat.reduceAdd] at ipv4 ipv6
      rw [if_neg short, at12, at13, two]
      by_cases ip : [buf[12], buf[13]] = [0x08, 0x00] ∨ [buf[12], buf[13]] = [0x86, 0xDD]
      · have announced := ip
        rw [← ipv4, ← ipv6] at announced
        dsimp only
        rw [if_neg (by omega), if_pos ⟨by omega, ip⟩]
        rfl
      · have other := ip
        rw [← ipv4, ← ipv6] at other
        dsimp only
        rw [if_pos (by omega), if_neg (fun both => ip both.2)]
        rfl
  · rw [if_neg ethernet, if_neg ethernet]
    rfl

/-- No IP part is empty. -/
theorem ipPart_ne_nil {linkType : UInt32} {frame packet : Bytes} (some : frame ≠ [])
    (part : ipPart linkType frame = .some packet) : packet ≠ [] := by
  unfold ipPart at part
  split_ifs at part with ethernet ip
  · cases part
    intro none
    rw [List.drop_eq_nil_iff] at none
    omega
  · cases part
    exact some

theorem Complete.ne_nil {record : RecordHeader × Bytes} (complete : Complete record) :
    record.2 ≠ [] := by
  intro none
  have positive := complete.positive
  rw [← complete.whole, none] at positive
  exact absurd positive (by decide)

/-! ## A file in the other byte order -/

/-- The widths of the global header's fields. -/
def GlobalHeader.widths : List Nat := [4, 2, 2, 4, 4, 4, 4]

/-- The headers of the records turned round, as far as they can be found; a header that ends
the replay as well. -/
def swapRecords (swapped : Bool) (bytes : Bytes) : Bytes :=
  match readBlock RecordHeader.size bytes with
  | none => bytes
  | some (block, after) =>
      reverseWords RecordHeader.widths block ++
        match _read : readRecord swapped bytes with
        | none => after
        | some ((_, buf), rest) => buf ++ swapRecords swapped rest
termination_by bytes.length
decreasing_by exact readRecord_shorter _read

/-- **All header fields of a file turned round.** -/
def swapFields (file : Bytes) : Bytes :=
  match readBlock GlobalHeader.size file with
  | none => file
  | some (block, rest) =>
      reverseWords GlobalHeader.widths block ++
        match openAndValidate (some file) with
        | .error _ => rest
        | .ok f => swapRecords f.swapped rest

/-- A record header and the one turned round are the same in the two orders. -/
theorem native_reverse {block : Bytes} (size : block.length = RecordHeader.size)
    (swapped : Bool) :
    (RecordHeader.decode (reverseWords RecordHeader.widths block)).native (!swapped) =
      (RecordHeader.decode block).native swapped := by
  rw [RecordHeader.decode_reverseWords size]
  cases swapped with
  | true => rfl
  | false => exact RecordHeader.native_native true _

/-- So is what is read. -/
theorem readRecord_reverse {block : Bytes} (size : block.length = RecordHeader.size)
    (swapped : Bool) (rest : Bytes) :
    readRecord (!swapped) (reverseWords RecordHeader.widths block ++ rest) =
      readRecord swapped (block ++ rest) := by
  have turned : (reverseWords RecordHeader.widths block).length = RecordHeader.size := by
    rw [reverseWords_length, size]
  rw [readRecord, readRecord, readBlock_append turned, readBlock_append size]
  simp only [native_reverse size]

/-- The first bytes of a record that is read are its header. -/
theorem swapRecords_some {swapped : Bool} {bytes rest : Bytes} {record : RecordHeader × Bytes}
    (read : readRecord swapped bytes = some (record, rest)) :
    swapRecords swapped bytes =
      reverseWords RecordHeader.widths (record.1.native swapped).encode ++
        (record.2 ++ swapRecords swapped rest) := by
  have split := (readRecord_iff.1 read).2
  have block : readBlock RecordHeader.size bytes =
      some ((record.1.native swapped).encode, record.2 ++ rest) := by
    rw [split, storedBytes, List.append_assoc]
    exact readBlock_append (RecordHeader.encode_length _) _
  rw [swapRecords, block]
  dsimp only
  split
  · rename_i ends
    rw [read] at ends
    cases ends
  · rename_i same
    rw [read] at same
    cases same
    rfl

/-- **The next record of a file that is turned round.** -/
theorem readRecord_swapRecords (swapped : Bool) (bytes : Bytes) :
    readRecord (!swapped) (swapRecords swapped bytes) =
      (readRecord swapped bytes).map fun front => (front.1, swapRecords swapped front.2) := by
  cases read : readRecord swapped bytes with
  | some front =>
      obtain ⟨record, rest⟩ := front
      have complete := (readRecord_iff.1 read).1
      rw [swapRecords_some read, readRecord_reverse (RecordHeader.encode_length _),
        ← List.append_assoc]
      exact readRecord_iff.2 ⟨complete, rfl⟩
  | none =>
      cases header : readBlock RecordHeader.size bytes with
      | none =>
          have same : swapRecords swapped bytes = bytes := by
            rw [swapRecords, header]
          rw [same, readRecord, header]
          rfl
      | some front =>
          obtain ⟨block, after⟩ := front
          obtain ⟨size, split⟩ := readBlock_eq_some.1 header
          have same : swapRecords swapped bytes =
              reverseWords RecordHeader.widths block ++ after := by
            rw [swapRecords, header]
            dsimp only
            split
            · rfl
            · rename_i found
              rw [read] at found
              cases found
          rw [same, readRecord_reverse size, ← split, read]
          rfl

theorem records_swapRecords (swapped : Bool) (bytes : Bytes) :
    records (!swapped) (swapRecords swapped bytes) = records swapped bytes := by
  have next := readRecord_swapRecords swapped bytes
  cases read : readRecord swapped bytes with
  | none =>
      rw [read] at next
      rw [records_none next, records_none read]
  | some front =>
      obtain ⟨record, rest⟩ := front
      have shorter := readRecord_shorter read
      rw [read] at next
      rw [records_some next, records_some read, records_swapRecords swapped rest]
termination_by bytes.length

/-- The two fields of the global header that matter. -/
theorem decode_reverseGlobal {block : Bytes} (size : block.length = GlobalHeader.size) :
    (GlobalHeader.decode (reverseWords GlobalHeader.widths block)).magic =
        swap32 (GlobalHeader.decode block).magic ∧
      (GlobalHeader.decode (reverseWords GlobalHeader.widths block)).network =
        swap32 (GlobalHeader.decode block).network := by
  have cut := @cutWords_reverseWords GlobalHeader.widths block (by rw [size]; decide)
  have four : ∀ bytes : Bytes, 4 ≤ bytes.length → (bytes.take 4).length = 4 := by
    intro bytes enough
    exact List.length_take_of_le enough
  simp only [GlobalHeader.size] at size
  simp only [GlobalHeader.widths, cutWords, List.map_cons, List.map_nil] at cut
  simp only [GlobalHeader.decode, readWords_eq, GlobalHeader.widths, cutWords] at cut ⊢
  rw [cut]
  simp only [List.map_cons, List.map_nil, List.getD_cons_zero, List.getD_cons_succ]
  exact ⟨ofNat_readWord_reverse (four _ (by omega)),
    ofNat_readWord_reverse (four _ (by simp; omega))⟩

theorem checkLinkType_swap (swapped : Bool) (network : UInt32) {rest : Bytes} (rest' : Bytes)
    {f : Opened} (accepted : checkLinkType swapped network rest = .ok f) :
    checkLinkType (!swapped) (swap32 network) rest' =
        .ok { swapped := !f.swapped, linkType := f.linkType, rest := rest' } ∧
      f.swapped = swapped ∧ f.rest = rest := by
  have same : (if !swapped then swap32 (swap32 network) else swap32 network) =
      if swapped then swap32 network else network := by
    cases swapped with
    | true => rfl
    | false => exact swap32_swap32 network
  unfold checkLinkType at accepted ⊢
  simp only [same] at accepted ⊢
  generalize (if swapped then swap32 network else network) = linkType at accepted ⊢
  split_ifs at accepted ⊢ with refused
  cases accepted
  exact ⟨rfl, rfl, rfl⟩

/-- **A file that is turned round is opened like the file**, in the other order. -/
theorem openAndValidate_swapFields {file : Bytes} {f : Opened}
    (accepted : openAndValidate (some file) = .ok f) :
    openAndValidate (some (swapFields file)) =
      .ok { swapped := !f.swapped, linkType := f.linkType
            rest := swapRecords f.swapped f.rest } := by
  cases header : readBlock GlobalHeader.size file with
  | none =>
      simp only [openAndValidate, header] at accepted
      cases accepted
  | some front =>
      obtain ⟨block, rest⟩ := front
      obtain ⟨size, -⟩ := readBlock_eq_some.1 header
      obtain ⟨magic, network⟩ := decode_reverseGlobal size
      have turned : (reverseWords GlobalHeader.widths block).length = GlobalHeader.size := by
        rw [reverseWords_length, size]
      have fields : swapFields file =
          reverseWords GlobalHeader.widths block ++ swapRecords f.swapped rest := by
        unfold swapFields
        rw [header]
        dsimp only
        rw [accepted]
      rw [fields]
      simp only [openAndValidate, header, readBlock_append turned, magic, network] at accepted ⊢
      split_ifs at accepted with native foreign
      · obtain ⟨same, order, left⟩ := checkLinkType_swap false _ (swapRecords false rest) accepted
        rw [if_neg, if_pos]
        · rw [order] at same
          rw [order, left]
          exact same
        · rcases native with micro | nano
          · rw [micro]
            exact Or.inl rfl
          · rw [nano]
            exact Or.inr rfl
        · rcases native with micro | nano
          · rw [micro]
            decide
          · rw [nano]
            decide
      · obtain ⟨same, order, left⟩ := checkLinkType_swap true _ (swapRecords true rest) accepted
        rw [if_pos]
        · rw [order] at same
          rw [order, left]
          exact same
        · rcases foreign with micro | nano
          · rw [micro]
            exact Or.inl rfl
          · rw [nano]
            exact Or.inr rfl

/-- **Turning all header fields round changes nothing of the records.** -/
theorem records_swapFields {file : Bytes} {f : Opened}
    (accepted : openAndValidate (some file) = .ok f) :
    ∃ f', openAndValidate (some (swapFields file)) = .ok f' ∧ f'.linkType = f.linkType ∧
      records f'.swapped f'.rest = records f.swapped f.rest :=
  ⟨_, openAndValidate_swapFields accepted, rfl, records_swapRecords f.swapped f.rest⟩

end Clumsy.Pcap
