/-
# Packet.Header -- what `parse` finds, and what it looks at

`Describes L p` is everything a valid layout says about its packet; `parse_describes` is
the one place where `parse` is taken apart.  `parse` looks at the first ten bytes and at the
TCP data offset, so whoever writes elsewhere does not move anything (`parse_congr`).

`OnlyAt touched p q` is the frame of a rewrite: the lengths are the same, and so is every
byte that was not to be touched.
-/
import Clumsy.Packet.Util

namespace Clumsy.Packet

set_option autoImplicit false

/-! ## Bytes in place -/

namespace Bytes

/-- Nothing differs but the bytes at certain places. -/
structure OnlyAt (touched : Nat → Prop) (p q : Bytes) : Prop where
  length : q.length = p.length
  same   : ∀ i, ¬touched i → q.byteAt i = p.byteAt i

theorem OnlyAt.refl (touched : Nat → Prop) (p : Bytes) : OnlyAt touched p p :=
  ⟨rfl, fun _ _ => rfl⟩

theorem OnlyAt.trans {touched touched' : Nat → Prop} {p q r : Bytes} (first : OnlyAt touched p q)
    (second : OnlyAt touched' q r) : OnlyAt (fun i => touched i ∨ touched' i) p r := by
  refine ⟨second.length.trans first.length, ?_⟩
  intro i outside
  rw [not_or] at outside
  rw [second.same i outside.2, first.same i outside.1]

theorem OnlyAt.mono {touched touched' : Nat → Prop} {p q : Bytes} (only : OnlyAt touched p q)
    (more : ∀ i, touched i → touched' i) : OnlyAt touched' p q :=
  ⟨only.length, fun i outside => only.same i fun inside => outside (more i inside)⟩

theorem ext_byteAt {p q : Bytes} (length : p.length = q.length)
    (agree : ∀ i, p.byteAt i = q.byteAt i) : p = q := by
  apply List.ext_getElem length
  intro i inside inside'
  have here := agree i
  simp only [byteAt, List.getD_eq_getElem?_getD, List.getElem?_eq_getElem inside,
    List.getElem?_eq_getElem inside', Option.getD_some] at here
  exact here

theorem byteAt_set (p : Bytes) (i j : Nat) (b : UInt8) :
    byteAt (p.set i b) j = if i = j ∧ i < p.length then b else p.byteAt j := by
  simp only [byteAt, List.getD_eq_getElem?_getD, List.getElem?_set]
  by_cases here : i = j
  · subst here
    by_cases inside : i < p.length
    · simp [inside]
    · simp [inside]
  · simp [here]

theorem byteAt_set_self {p : Bytes} {i : Nat} (inside : i < p.length) (b : UInt8) :
    byteAt (p.set i b) i = b := by
  rw [byteAt_set, if_pos ⟨rfl, inside⟩]

theorem byteAt_set_ne (p : Bytes) {i j : Nat} (other : j ≠ i) (b : UInt8) :
    byteAt (p.set i b) j = p.byteAt j := by
  rw [byteAt_set, if_neg fun here => other here.1.symm]

theorem onlyAt_set (p : Bytes) (i : Nat) (b : UInt8) : OnlyAt (· = i) p (p.set i b) :=
  ⟨List.length_set, fun _ other => byteAt_set_ne p other b⟩

theorem onlyAt_write16be (p : Bytes) (i : Nat) (v : UInt32) :
    OnlyAt (fun j => j = i ∨ j = i + 1) p (p.write16be i v) :=
  (onlyAt_set p i _).trans (onlyAt_set _ (i + 1) _)

theorem byteAt_write16be_ne (p : Bytes) (i : Nat) (v : UInt32) {j : Nat} (before : j ≠ i)
    (behind : j ≠ i + 1) : (p.write16be i v).byteAt j = p.byteAt j :=
  (onlyAt_write16be p i v).same j (not_or.2 ⟨before, behind⟩)

theorem read16be_congr {p q : Bytes} {i : Nat} (high : p.byteAt i = q.byteAt i)
    (low : p.byteAt (i + 1) = q.byteAt (i + 1)) : p.read16be i = q.read16be i := by
  rw [read16be, read16be, high, low]

theorem high_byte (v : UInt32) : (v >>> (8 : UInt32)).toUInt8.toNat = v.toNat / 256 % 256 := by
  rw [UInt32.toNat_toUInt8, UInt32.toNat_shiftRight]
  exact congrArg (· % 256) (Nat.shiftRight_eq_div_pow v.toNat 8)

theorem low_byte (v : UInt32) : (v &&& (0xFF : UInt32)).toUInt8.toNat = v.toNat % 256 := by
  rw [UInt32.toNat_toUInt8, UInt32.toNat_and]
  have low : v.toNat &&& (0xFF : UInt32).toNat = v.toNat % 256 :=
    Nat.and_two_pow_sub_one_eq_mod v.toNat 8
  rw [low, Nat.mod_mod]

/-- A written word is read back. -/
theorem read16be_write16be {p : Bytes} {i : Nat} (inside : i + 1 < p.length) (v : UInt32) :
    (p.write16be i v).read16be i = v.toNat % 65536 := by
  have first : (p.write16be i v).byteAt i = (v >>> (8 : UInt32)).toUInt8 := by
    rw [write16be, byteAt_set_ne _ (by omega), byteAt_set_self (by omega)]
  have second : (p.write16be i v).byteAt (i + 1) = (v &&& (0xFF : UInt32)).toUInt8 := by
    rw [write16be, byteAt_set_self (by rw [List.length_set]; exact inside)]
  rw [read16be, first, second, high_byte, low_byte]
  omega

/-- Two bytes are what they are read as. -/
theorem byteAt_of_read16be {p q : Bytes} {i : Nat} (same : p.read16be i = q.read16be i) :
    p.byteAt i = q.byteAt i ∧ p.byteAt (i + 1) = q.byteAt (i + 1) := by
  have high := (p.byteAt i).toNat_lt
  have low := (p.byteAt (i + 1)).toNat_lt
  have high' := (q.byteAt i).toNat_lt
  have low' := (q.byteAt (i + 1)).toNat_lt
  rw [read16be, read16be] at same
  constructor <;> apply UInt8.toNat_inj.1 <;> omega

/-- The last of two words written to one place stays. -/
theorem write16be_write16be (p : Bytes) (i : Nat) (v w : UInt32) :
    (p.write16be i v).write16be i w = p.write16be i w := by
  apply ext_byteAt
  · simp
  · intro j
    simp only [write16be, byteAt_set, List.length_set]
    split_ifs <;> rfl

theorem byteAt_of_le {p : Bytes} {i : Nat} (outside : p.length ≤ i) : p.byteAt i = 0 := by
  rw [byteAt, List.getD_eq_default _ _ outside]

theorem byteAt_append_left {p q : Bytes} {i : Nat} (inside : i < p.length) :
    byteAt (p ++ q) i = p.byteAt i := by
  rw [byteAt, byteAt, List.getD_append _ _ _ _ inside]

/-- Writing the same word to both takes its place out of the difference. -/
theorem OnlyAt.write16be {touched : Nat → Prop} {p q : Bytes} (only : OnlyAt touched p q) (i : Nat)
    (v : UInt32) :
    OnlyAt (fun j => touched j ∧ j ≠ i ∧ j ≠ i + 1) (p.write16be i v) (q.write16be i v) := by
  refine ⟨by simp [only.length], ?_⟩
  intro j outside
  simp only [Bytes.write16be, byteAt_set, List.length_set, only.length]
  by_cases behind : i + 1 = j ∧ i + 1 < p.length
  · rw [if_pos behind, if_pos behind]
  · rw [if_neg behind, if_neg behind]
    by_cases here : i = j ∧ i < p.length
    · rw [if_pos here, if_pos here]
    · rw [if_neg here, if_neg here]
      by_cases inside : j < p.length
      · exact only.same j fun there => outside ⟨there, by omega, by omega⟩
      · rw [byteAt_of_le (by rw [only.length]; omega), byteAt_of_le (by omega)]

/-- Writing what is there changes nothing. -/
theorem write16be_eq_self {p : Bytes} {i : Nat} (inside : i + 1 < p.length) {v : UInt32}
    (small : v.toNat < 65536) (there : p.read16be i = v.toNat) : p.write16be i v = p := by
  apply ext_byteAt
  · simp
  · intro j
    have word : (p.write16be i v).read16be i = p.read16be i := by
      rw [read16be_write16be inside, there, Nat.mod_eq_of_lt small]
    by_cases before : j = i
    · rw [before]
      exact (byteAt_of_read16be word).1
    · by_cases behind : j = i + 1
      · rw [behind]
        exact (byteAt_of_read16be word).2
      · exact byteAt_write16be_ne p i v before behind

end Bytes

/-! ## What `parse` finds -/

namespace Layout

/-- A TCP or UDP header is there. -/
def hasTransport (L : Layout) : Bool :=
  !L.fragment && (decide (L.proto = PROTO_TCP) || decide (L.proto = PROTO_UDP))

theorem hasTransport_iff (L : Layout) :
    L.hasTransport = true ↔
      L.fragment = false ∧ (L.proto = PROTO_TCP ∨ L.proto = PROTO_UDP) := by
  simp [hasTransport]

/-- Where the packet ends by its IP header, or by the buffer if that makes no sense. -/
def ipEnd (L : Layout) (p : Bytes) : Nat :=
  if L.isV4 then
    if p.read16be 2 > p.length ∨ p.read16be 2 < L.ipHdrLen then p.length else p.read16be 2
  else if 40 + p.read16be 4 > p.length then p.length else 40 + p.read16be 4

/-- What a valid layout says about its packet. -/
structure Describes (L : Layout) (p : Bytes) : Prop where
  version      : (p.byteAt 0).toNat / 16 = if L.isV4 then 4 else 6
  ipHdrLen     : L.ipHdrLen = if L.isV4 then (p.byteAt 0).toNat % 16 * 4 else 40
  header       : 20 ≤ L.ipHdrLen ∧ L.ipHdrLen ≤ p.length
  proto        : L.proto = p.byteAt (if L.isV4 then 9 else 6)
  fragment     : L.fragment = (L.isV4 && decide (p.read16be 6 % 0x2000 ≠ 0))
  transport    : L.transportOffset = L.ipHdrLen
  tcp          : L.fragment = false → L.proto = PROTO_TCP →
    L.transportLen = (p.byteAt (L.transportOffset + 12)).toNat / 16 * 4 ∧ 20 ≤ L.transportLen
  udp          : L.fragment = false → L.proto = PROTO_UDP → L.transportLen = 8
  payload      : L.hasTransport = true → L.payloadOffset = L.transportOffset + L.transportLen ∧
    L.payloadOffset ≤ p.length ∧ L.payloadLen = L.ipEnd p - L.payloadOffset
  bare         : L.hasTransport = false → L.payloadLen = 0

end Layout

open Layout

theorem parseTransport_describes {p : Bytes} {L : Layout}
    (version : (p.byteAt 0).toNat / 16 = if L.isV4 then 4 else 6)
    (ipHdrLen : L.ipHdrLen = if L.isV4 then (p.byteAt 0).toNat % 16 * 4 else 40)
    (header : 20 ≤ L.ipHdrLen ∧ L.ipHdrLen ≤ p.length)
    (proto : L.proto = p.byteAt (if L.isV4 then 9 else 6))
    (fragment : L.fragment = (L.isV4 && decide (p.read16be 6 % 0x2000 ≠ 0)))
    (fresh : L.payloadLen = 0) (unknown : L.valid = false)
    (valid : (parseTransport p (L.ipEnd p) L).valid = true) :
    (parseTransport p (L.ipEnd p) L).Describes p := by
  have distinct : PROTO_TCP ≠ PROTO_UDP := by decide
  unfold parseTransport at valid ⊢
  simp only at valid ⊢
  split at valid
  · rename_i whole
    rw [if_pos whole]
    refine ⟨version, ipHdrLen, header, proto, fragment, rfl, ?_, ?_, ?_, fun _ => fresh⟩
    · intro first
      exact absurd (whole.symm.trans first) (by decide)
    · intro first
      exact absurd (whole.symm.trans first) (by decide)
    · intro there
      simp [hasTransport, whole] at there
  · rename_i whole
    rw [if_neg whole]
    split at valid
    · rename_i tcp
      rw [if_pos tcp]
      split at valid
      · simp [unknown] at valid
      · rename_i room
        rw [if_neg room]
        split at valid
        · simp [unknown] at valid
        · rename_i inside
          rw [if_neg inside]
          rw [not_or, Nat.not_lt, Nat.not_lt] at inside
          refine ⟨version, ipHdrLen, header, proto, fragment, rfl, fun _ _ => ⟨rfl, inside.1⟩,
            ?_, fun _ => ⟨rfl, inside.2, rfl⟩, ?_⟩
          · intro _ udp
            exact absurd (tcp.symm.trans udp) distinct
          · intro none
            simp [hasTransport, whole, tcp] at none
    · rename_i tcp
      rw [if_neg tcp]
      split at valid
      · rename_i udp
        rw [if_pos udp]
        split at valid
        · simp [unknown] at valid
        · rename_i room
          rw [if_neg room]
          refine ⟨version, ipHdrLen, header, proto, fragment, rfl, fun _ h => absurd h tcp,
            fun _ _ => rfl, fun _ => ⟨rfl, Nat.le_of_not_lt room, rfl⟩, ?_⟩
          intro none
          simp [hasTransport, whole, udp] at none
      · rename_i udp
        rw [if_neg udp]
        refine ⟨version, ipHdrLen, header, proto, fragment, rfl, fun _ h => absurd h tcp,
          fun _ h => absurd h udp, ?_, fun _ => fresh⟩
        intro there
        rw [hasTransport_iff] at there
        exact absurd there.2 (not_or.2 ⟨tcp, udp⟩)

/-- **What a valid layout says.** -/
theorem parse_describes {p : Bytes} (valid : (parse p).valid = true) : (parse p).Describes p := by
  unfold parse at valid ⊢
  simp only at valid ⊢
  split at valid
  · simp at valid
  · rename_i long
    rw [if_neg long]
    split at valid
    · rename_i v4
      rw [if_pos v4]
      split at valid
      · simp at valid
      · rename_i header
        rw [if_neg header]
        rw [not_or, Nat.not_lt, Nat.not_lt] at header
        exact parseTransport_describes v4 rfl header rfl (by simp) rfl rfl valid
    · rename_i v4
      rw [if_neg v4]
      split at valid
      · rename_i v6
        rw [if_pos v6]
        split at valid
        · simp at valid
        · rename_i header
          rw [if_neg header]
          exact parseTransport_describes v6 rfl ⟨Nat.le_of_ble_eq_true rfl,
            Nat.le_of_not_lt header⟩ rfl rfl rfl rfl valid
      · simp at valid

namespace Layout.Describes

variable {L : Layout} {p : Bytes}

theorem ipEnd_le (_ : L.Describes p) : L.ipEnd p ≤ p.length := by
  unfold ipEnd
  split_ifs <;> omega

/-- Header and payload lie inside the packet. -/
theorem inside (d : L.Describes p) (there : L.hasTransport = true) :
    L.transportOffset + (L.transportLen + L.payloadLen) ≤ p.length := by
  obtain ⟨offset, header, len⟩ := d.payload there
  have end_ := d.ipEnd_le
  omega

theorem transportLen_ge (d : L.Describes p) (there : L.hasTransport = true) :
    8 ≤ L.transportLen ∧ (L.proto = PROTO_TCP → 20 ≤ L.transportLen) := by
  obtain ⟨first, tcp | udp⟩ := L.hasTransport_iff.1 there
  · have long := (d.tcp first tcp).2
    exact ⟨by omega, fun _ => long⟩
  · have size := d.udp first udp
    refine ⟨by omega, ?_⟩
    intro tcp
    rw [tcp] at udp
    exact absurd udp (by decide)

end Layout.Describes

/-! ## What `parse` looks at -/

theorem parseTransport_congr {p q : Bytes} (ipTotal : Nat) (L : Layout)
    (length : p.length = q.length)
    (dataOffset : L.proto = PROTO_TCP →
      p.byteAt (L.ipHdrLen + 12) = q.byteAt (L.ipHdrLen + 12)) :
    parseTransport p ipTotal L = parseTransport q ipTotal L := by
  by_cases tcp : L.proto = PROTO_TCP
  · simp only [parseTransport, length, dataOffset tcp]
  · simp only [parseTransport, length, if_neg tcp]

theorem parseTransport_keeps (p : Bytes) (ipTotal : Nat) (L : Layout) :
    (parseTransport p ipTotal L).ipHdrLen = L.ipHdrLen ∧
      (parseTransport p ipTotal L).proto = L.proto := by
  unfold parseTransport
  simp only
  split_ifs <;> exact ⟨rfl, rfl⟩

/-- **Nothing else decides the layout.** -/
theorem parse_congr {p q : Bytes} (length : p.length = q.length)
    (header : ∀ i < 10, p.byteAt i = q.byteAt i)
    (dataOffset : (parse p).proto = PROTO_TCP →
      p.byteAt ((parse p).ipHdrLen + 12) = q.byteAt ((parse p).ipHdrLen + 12)) :
    parse p = parse q := by
  have word {i : Nat} (early : i < 9) : p.read16be i = q.read16be i :=
    Bytes.read16be_congr (header i (by omega)) (header (i + 1) (by omega))
  unfold parse at dataOffset ⊢
  simp only [← length, ← header 0 (by decide), ← header 6 (by decide), ← header 9 (by decide),
    ← word (i := 2) (by decide), ← word (i := 4) (by decide),
    ← word (i := 6) (by decide)] at dataOffset ⊢
  split_ifs at dataOffset ⊢ with h₁ h₂ h₃ h₄ h₅ h₆
  all_goals first
    | rfl
    | (rw [(parseTransport_keeps _ _ _).1, (parseTransport_keeps _ _ _).2] at dataOffset
       exact parseTransport_congr _ _ length dataOffset)

theorem parseTransport_fragment (p : Bytes) (ipTotal : Nat) (L : Layout) :
    (parseTransport p ipTotal L).fragment = true → (parseTransport p ipTotal L).valid = true := by
  unfold parseTransport
  simp only
  intro fragment
  split_ifs at fragment ⊢ <;> simp_all

/-- A fragment needs no transport header. -/
theorem parse_valid_of_fragment {p : Bytes} (fragment : (parse p).fragment = true) :
    (parse p).valid = true := by
  unfold parse at fragment ⊢
  simp only at fragment ⊢
  split_ifs at fragment ⊢
  all_goals exact parseTransport_fragment _ _ _ fragment

/-! ## The payload -/

/-- Where a payload is found, there is a transport header right before it. -/
theorem packetGetPayload_found {p : Bytes} {data len : Nat}
    (found : packetGetPayload p = some (data, len)) :
    (parse p).valid = true ∧ (parse p).hasTransport = true ∧
      data = (parse p).transportOffset + (parse p).transportLen := by
  simp only [packetGetPayload] at found
  split at found
  · simp at found
  · rename_i usable
    split at found
    · simp at found
    · simp only [Option.some.injEq, Prod.mk.injEq] at found
      simp only [Bool.or_eq_true, not_or, beq_iff_eq, Bool.not_eq_true', Bool.not_eq_false] at usable
      obtain ⟨⟨valid, whole⟩, some_⟩ := usable
      have d := parse_describes valid
      have there : (parse p).hasTransport = true := by
        by_contra none
        exact some_ (d.bare (by simpa using none))
      exact ⟨valid, there, found.1.symm.trans (d.payload there).1⟩

end Clumsy.Packet
