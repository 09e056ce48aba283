/-
# Http.Publish -- httpserver.cpp: a token in a published URL

What a client makes of a URL is a target: it ends before the fragment, and bytes that have no
place in a URL are percent-encoded.  A token that stands in the URL as it is comes back from
`urlDecode` just if it has no `+` and nothing in it reads as an escape
(`urlDecode_sends_iff`).
-/
import Clumsy.Http.Start

namespace Clumsy.Http

open Clumsy.Text
open Clumsy.Scenario (cString cString_of_free)

set_option autoImplicit false

/-! ## Clients -/

/-- What a URL uses for itself. -/
def hasRole (c : Char) : Bool := "#%&+/=?".toList.contains c

/-- The targets that a client may send for the text of a URL behind its authority.  It keeps
what is unreserved or has a role; of the others the space has to be encoded. -/
inductive Sends : List Char → List Char → Prop
  | nil : Sends [] []
  | fragment {s : List Char} : Sends ('#' :: s) []
  | same {c : Char} {s t : List Char} : c ≠ '#' → c ≠ ' ' → Sends s t → Sends (c :: s) (c :: t)
  | escape {c a b : Char} {s t : List Char} : isUnreserved c = false → hasRole c = false →
      isHexDigit a = true → isHexDigit b = true → 16 * hexValue a + hexValue b = c.toNat →
      Sends s t → Sends (c :: s) ('%' :: a :: b :: t)

theorem exists_sends (s : List Char) : ∃ t, Sends s t := by
  induction s with
  | nil => exact ⟨[], .nil⟩
  | cons c s ih =>
      obtain ⟨t, sends⟩ := ih
      by_cases fragment : c = '#'
      · exact ⟨[], fragment ▸ .fragment⟩
      · by_cases space : c = ' '
        · exact ⟨'%' :: '2' :: '0' :: t, space ▸ .escape rfl rfl rfl rfl rfl sends⟩
        · exact ⟨c :: t, .same fragment space sends⟩

/-- What a client keeps. -/
def isKept (c : Char) : Bool := (isUnreserved c || hasRole c) && c != '#'

/-- A front that a client keeps. -/
theorem sends_append {front : List Char} (kept : front.all isKept = true) {s t : List Char}
    (sends : Sends (front ++ s) t) : ∃ t', t = front ++ t' ∧ Sends s t' := by
  induction front generalizing t with
  | nil => exact ⟨t, rfl, sends⟩
  | cons c front ih =>
      rw [List.all_cons, Bool.and_eq_true] at kept
      cases sends with
      | fragment => exact absurd kept.1 (by decide)
      | same _ _ sends =>
          obtain ⟨t', rfl, rest⟩ := ih kept.2 sends
          exact ⟨t', rfl, rest⟩
      | escape reserved noRole _ _ _ _ =>
          have := kept.1
          rw [isKept, reserved, noRole] at this
          cases this

/-- The bytes that are neither a blank nor a control byte. -/
def isGraph (c : Char) : Bool := '!' ≤ c && c ≤ '~'

/-- `isprint`. -/
def isPrint (c : Char) : Bool := c == ' ' || isGraph c

theorem isGraph_iff {c : Char} : isGraph c = true ↔ 33 ≤ c.toNat ∧ c.toNat ≤ 126 := by
  rw [isGraph, Bool.and_eq_true, decide_eq_true_eq, decide_eq_true_eq]
  exact Iff.and UInt32.le_iff_toNat_le UInt32.le_iff_toNat_le

theorem toNat_toLower (c : Char) :
    c.toLower.toNat = if 65 ≤ c.toNat ∧ c.toNat ≤ 90 then c.toNat + 32 else c.toNat := by
  have upper : (c.val ≥ 'A'.val ∧ c.val ≤ 'Z'.val) ↔ 65 ≤ c.toNat ∧ c.toNat ≤ 90 :=
    Iff.and UInt32.le_iff_toNat_le UInt32.le_iff_toNat_le
  rw [Char.toLower]
  split_ifs with here there there
  · show (c.val + 32).toNat = c.toNat + 32
    rw [UInt32.toNat_add, show c.val.toNat = c.toNat from rfl,
      show UInt32.toNat 32 = 32 from rfl]
    exact Nat.mod_eq_of_lt (by omega)
  · exact absurd (upper.1 here) there
  · exact absurd (upper.2 there) here
  · rfl

theorem hex_range {c : Char} (hex : isHexDigit c = true) :
    (48 ≤ c.toNat ∧ c.toNat ≤ 57) ∨ (65 ≤ c.toNat ∧ c.toNat ≤ 70) ∨
      (97 ≤ c.toNat ∧ c.toNat ≤ 102) := by
  rw [isHexDigit, Bool.or_eq_true, Bool.and_eq_true, decide_eq_true_eq, decide_eq_true_eq] at hex
  rcases hex with digit | ⟨low, high⟩
  · exact .inl (digit_range digit)
  · have low : 97 ≤ c.toLower.toNat := low
    have high : c.toLower.toNat ≤ 102 := high
    rw [toNat_toLower] at low high
    split_ifs at low high <;> omega

theorem isGraph_hex {c : Char} (hex : isHexDigit c = true) : isGraph c = true := by
  have range := hex_range hex
  exact isGraph_iff.2 (by omega)

theorem isKept_hex {c : Char} (hex : isHexDigit c = true) : isKept c = true := by
  have range := hex_range hex
  have upper : c.isUpper = true ↔ 65 ≤ c.toNat ∧ c.toNat ≤ 90 := by
    rw [Char.isUpper, decide_eq_true_eq]
    exact Iff.and UInt32.le_iff_toNat_le UInt32.le_iff_toNat_le
  have lower : c.isLower = true ↔ 97 ≤ c.toNat ∧ c.toNat ≤ 122 := by
    rw [Char.isLower, Bool.and_eq_true, decide_eq_true_eq, decide_eq_true_eq]
    exact Iff.and UInt32.le_iff_toNat_le UInt32.le_iff_toNat_le
  have digit : c.isDigit = true ↔ 48 ≤ c.toNat ∧ c.toNat ≤ 57 := by
    rw [Char.isDigit, Bool.and_eq_true, decide_eq_true_eq, decide_eq_true_eq]
    exact Iff.and UInt32.le_iff_toNat_le UInt32.le_iff_toNat_le
  have alphanum : c.isAlphanum = true := by
    rw [Char.isAlphanum, Char.isAlpha, Bool.or_eq_true, Bool.or_eq_true, upper, lower, digit]
    omega
  rw [isKept, isUnreserved, alphanum, Bool.and_eq_true, bne_iff_ne]
  exact ⟨rfl, ne_of_hex hex (by decide)⟩

/-- A target has no blanks. -/
theorem isGraph_sends {s t : List Char} (printable : s.all isPrint = true) (sends : Sends s t) :
    t.all isGraph = true := by
  induction sends with
  | nil => rfl
  | fragment => rfl
  | same _ space _ ih =>
      rw [List.all_cons, Bool.and_eq_true, isPrint, Bool.or_eq_true, beq_iff_eq] at printable
      rw [List.all_cons, printable.1.resolve_left space, ih printable.2]
      rfl
  | escape _ _ first second _ _ ih =>
      rw [List.all_cons, Bool.and_eq_true] at printable
      simp [List.all_cons, isGraph_hex first, isGraph_hex second, ih printable.2]
      decide

theorem ne_of_graph {c d : Char} (graph : isGraph c = true) (other : isGraph d = false) :
    c ≠ d := by
  rintro rfl
  rw [graph] at other
  cases other

theorem not_mem_of_graph {s : List Char} (graph : s.all isGraph = true) {d : Char}
    (other : isGraph d = false) : d ∉ s := fun member =>
  ne_of_graph (List.all_eq_true.1 graph d member) other rfl

/-! ## What reads as an escape -/

/-- `strtol` takes both characters. -/
def isEscape (a b : Char) : Bool := isHexDigit b && (isHexDigit a || a == '-' || a == '+')

theorem strtolHex_escape {a b : Char} (first : isGraph a = true) (second : isGraph b = true) :
    (strtolHex (cString [a, b])).2 = [] ↔ isEscape a b = true := by
  have free : '\x00' ∉ [a, b] := by
    simp [(ne_of_graph first (by decide : isGraph '\x00' = false)).symm,
      (ne_of_graph second (by decide : isGraph '\x00' = false)).symm]
  have space : isSpace a = false := by
    simp only [isSpace, Bool.or_eq_false_iff, beq_eq_false_iff_ne]
    refine ⟨⟨⟨⟨⟨?_, ?_⟩, ?_⟩, ?_⟩, ?_⟩, ?_⟩ <;> exact ne_of_graph first (by decide)
  rw [cString_of_free free, strtolHex, List.dropWhile_cons_of_neg (by simp [space]), isEscape]
  by_cases minus : a = '-'
  · subst minus
    by_cases hex : isHexDigit b = true
    · simp [sign, skipHexMark, hex]
    · simp [sign, skipHexMark, hex]
  · by_cases plus : a = '+'
    · subst plus
      by_cases hex : isHexDigit b = true
      · simp [sign, skipHexMark, hex]
      · simp [sign, skipHexMark, hex]
    · have signless : sign [a, b] = (false, [a, b]) := by
        rw [sign]
        · exact fun s same => minus (List.cons.inj same).1
        · exact fun s same => plus (List.cons.inj same).1
      rw [signless]
      by_cases hex : isHexDigit a = true
      · by_cases hex' : isHexDigit b = true
        · simp [skipHexMark, hex, hex']
        · simp [skipHexMark, hex, hex']
      · simp [skipHexMark, hex, minus, plus]

/-- What reads as an escape is one byte. -/
theorem urlDecode_escape {a b : Char} (first : isGraph a = true) (second : isGraph b = true)
    (escape : isEscape a b = true) (t : List Char) :
    ∃ c, urlDecode ('%' :: a :: b :: t) = c :: urlDecode t := by
  have all := (strtolHex_escape first second).2 escape
  cases read : strtolHex (cString [a, b]) with
  | mk v rest =>
      rw [read] at all
      dsimp only at all
      subst all
      exact ⟨toByte v, by simp only [urlDecode, read]⟩

/-- Any other `%` stands for itself. -/
theorem urlDecode_percent {t : List Char} (graph : t.all isGraph = true)
    (noEscape : ∀ a b, [a, b] <+: t → isEscape a b = false) :
    urlDecode ('%' :: t) = '%' :: urlDecode t := by
  match t with
  | [] => rfl
  | [a] =>
      rw [urlDecode]
      · rfl
      · intro x y u percent same
        cases same
  | a :: b :: t =>
      simp only [List.all_cons, Bool.and_eq_true] at graph
      have literal := noEscape a b ⟨t, rfl⟩
      have part : (strtolHex (cString [a, b])).2 ≠ [] := fun all => by
        rw [(strtolHex_escape graph.1 graph.2.1).1 all] at literal
        cases literal
      cases read : strtolHex (cString [a, b]) with
      | mk v rest =>
          rw [read] at part
          cases rest with
          | nil => exact absurd rfl part
          | cons c rest => simp only [urlDecode, read]

/-- An escape is made of characters that were sent as they are. -/
theorem sends_escape {s t : List Char} {a b : Char} (sends : Sends s (a :: b :: t))
    (escape : isEscape a b = true) : ∃ s', s = a :: b :: s' ∧ Sends s' t := by
  have noPercent : a ≠ '%' ∧ b ≠ '%' := by
    constructor
    · rintro rfl
      rw [isEscape, show (isHexDigit '%' || '%' == '-' || '%' == '+') = false from by decide,
        Bool.and_false] at escape
      cases escape
    · rintro rfl
      rw [isEscape, show isHexDigit '%' = false from by decide, Bool.false_and] at escape
      cases escape
  cases sends with
  | same _ _ sends =>
      cases sends with
      | same _ _ sends => exact ⟨_, rfl, sends⟩
      | escape => exact absurd rfl noPercent.2
  | escape => exact absurd rfl noPercent.1

/-- An escape of the text is an escape of the target. -/
theorem sends_kept {s t : List Char} {a b : Char} (sends : Sends (a :: b :: s) t)
    (escape : isEscape a b = true) : [a, b] <+: t := by
  rw [isEscape, Bool.and_eq_true, Bool.or_eq_true, Bool.or_eq_true, beq_iff_eq, beq_iff_eq]
    at escape
  obtain ⟨t', rfl, -⟩ := @sends_append [a, b] (by
    rw [List.all_cons, List.all_cons, isKept_hex escape.1]
    rcases escape.2 with (hex | rfl) | rfl
    · rw [isKept_hex hex]
      rfl
    · rfl
    · rfl) s t sends
  exact List.prefix_append [a, b] t'

/-! ## What comes back -/

theorem urlDecode_sent {c a b : Char} (first : isHexDigit a = true) (second : isHexDigit b = true)
    (value : 16 * hexValue a + hexValue b = c.toNat) (t : List Char) :
    urlDecode ('%' :: a :: b :: t) = c :: urlDecode t :=
  urlDecode_encodes (.escape first second value .nil) t

/-- Nothing in the text is read as something else. -/
structure UrlPlain (s : List Char) : Prop where
  noPlus   : '+' ∉ s
  noEscape : ∀ a b, ['%', a, b] <:+: s → isEscape a b = false

theorem urlPlain_cons {c : Char} {s : List Char} :
    UrlPlain (c :: s) ↔
      c ≠ '+' ∧ (c = '%' → ∀ a b, [a, b] <+: s → isEscape a b = false) ∧ UrlPlain s := by
  constructor
  · intro plain
    refine ⟨fun plus => plain.noPlus (plus ▸ List.mem_cons_self), ?_, ?_⟩
    · rintro rfl a b ⟨rest, rfl⟩
      exact plain.noEscape a b ⟨[], rest, rfl⟩
    · exact ⟨fun member => plain.noPlus (List.mem_cons_of_mem _ member),
        fun a b inside => plain.noEscape a b (List.infix_cons inside)⟩
  · rintro ⟨other, here, there⟩
    refine ⟨?_, ?_⟩
    · rw [List.mem_cons, not_or]
      exact ⟨other.symm, there.noPlus⟩
    · intro a b inside
      rcases List.infix_cons_iff.1 inside with front | inside
      · obtain ⟨same, front⟩ := List.cons_prefix_cons.1 front
        exact here same.symm a b front
      · exact there.noEscape a b inside

/-- Behind a percent sign that was sent as it is there is no escape, or one of the text. -/
theorem urlDecode_kept {s t : List Char} (printable : s.all isPrint = true)
    (graph : t.all isGraph = true) (sends : Sends s t) :
    ((∀ a b, [a, b] <+: t → isEscape a b = false) ∧
        urlDecode ('%' :: t) = '%' :: urlDecode t) ∨
      ∃ a b u v d, s = a :: b :: u ∧ Sends u v ∧ u.all isPrint = true ∧ isEscape a b = true ∧
        urlDecode ('%' :: t) = d :: urlDecode v := by
  by_cases noEscape : ∀ a b, [a, b] <+: t → isEscape a b = false
  · exact .inl ⟨noEscape, urlDecode_percent graph noEscape⟩
  · push Not at noEscape
    obtain ⟨a, b, ⟨v, rfl⟩, escape⟩ := noEscape
    have escape := Bool.eq_true_of_not_eq_false escape
    obtain ⟨u, rfl, rest⟩ := sends_escape sends escape
    simp only [List.cons_append, List.nil_append, List.all_cons, Bool.and_eq_true] at graph printable
    obtain ⟨d, decoded⟩ := urlDecode_escape graph.1 graph.2.1 escape v
    exact .inr ⟨a, b, u, v, d, rfl, rest, printable.2.2, escape, decoded⟩

/-- Decoding what was sent makes no text longer. -/
theorem length_urlDecode_sends {s t : List Char} (printable : s.all isPrint = true)
    (sends : Sends s t) : (urlDecode t).length ≤ s.length := by
  induction n : s.length using Nat.strong_induction_on generalizing s t with
  | _ n ih =>
      subst n
      cases sends with
      | nil => exact Nat.le_refl _
      | fragment => exact Nat.zero_le _
      | @same c s t fragment space sends =>
          have graph := isGraph_sends printable (.same fragment space sends)
          rw [List.all_cons, Bool.and_eq_true] at graph printable
          by_cases percent : c = '%'
          · subst percent
            rcases urlDecode_kept printable.2 graph.2 sends with
              ⟨-, literal⟩ | ⟨a, b, u, v, d, rfl, rest, printed, -, decoded⟩
            · rw [literal]
              exact Nat.succ_le_succ (ih s.length (Nat.lt_succ_self _) printable.2 sends rfl)
            · have fewer := ih u.length (by simp only [List.length_cons]; omega) printed rest rfl
              rw [decoded]
              simp only [List.length_cons]
              omega
          · rw [urlDecode_other percent]
            exact Nat.succ_le_succ (ih s.length (Nat.lt_succ_self _) printable.2 sends rfl)
      | @escape c a b s t reserved noRole first second value sends =>
          rw [List.all_cons, Bool.and_eq_true] at printable
          rw [urlDecode_sent first second value]
          exact Nat.succ_le_succ (ih s.length (Nat.lt_succ_self _) printable.2 sends rfl)

/-- **A text without a fragment comes back** from whatever a client sends just if nothing in it
is read as something else. -/
theorem urlDecode_sends_iff {s t : List Char} (printable : s.all isPrint = true)
    (noFragment : '#' ∉ s) (sends : Sends s t) : urlDecode t = s ↔ UrlPlain s := by
  induction sends with
  | nil => exact iff_of_true rfl ⟨List.not_mem_nil, fun a b inside => by
      cases List.infix_nil.1 inside⟩
  | fragment => exact absurd List.mem_cons_self noFragment
  | @same c s t fragment space sends ih =>
      have graph := isGraph_sends printable (.same fragment space sends)
      rw [List.all_cons, Bool.and_eq_true] at graph printable
      rw [List.mem_cons, not_or] at noFragment
      have ih := ih printable.2 noFragment.2
      rw [urlPlain_cons]
      by_cases percent : c = '%'
      · subst percent
        rcases urlDecode_kept printable.2 graph.2 sends with
          ⟨noEscape, literal⟩ | ⟨a, b, u, v, d, rfl, rest, printed, escape, decoded⟩
        · rw [literal, List.cons.injEq, ih]
          constructor
          · rintro ⟨-, plain⟩
            refine ⟨by decide, fun _ a b front => ?_, plain⟩
            obtain ⟨s, rfl⟩ := front
            by_contra escape
            have escape := Bool.eq_true_of_not_eq_false escape
            rw [noEscape a b (sends_kept sends escape)] at escape
            cases escape
          · rintro ⟨-, -, plain⟩
            exact ⟨rfl, plain⟩
        · refine iff_of_false ?_ ?_
          · intro same
            have fewer := length_urlDecode_sends printed rest
            have lengths := congrArg List.length same
            rw [decoded] at lengths
            simp only [List.length_cons] at lengths
            omega
          · rintro ⟨-, here, -⟩
            rw [here rfl a b ⟨u, rfl⟩] at escape
            cases escape
      · rw [urlDecode_other percent, List.cons.injEq, ih]
        by_cases plus : c = '+'
        · rw [if_pos plus]
          exact iff_of_false (fun same => space same.1.symm) fun plain => plain.1 plus
        · rw [if_neg plus]
          exact ⟨fun plain => ⟨plus, fun same => absurd same percent, plain.2⟩,
            fun plain => ⟨rfl, plain.2.2⟩⟩
  | @escape c a b s t reserved noRole first second value sends ih =>
      rw [List.all_cons, Bool.and_eq_true] at printable
      rw [List.mem_cons, not_or] at noFragment
      have plus : c ≠ '+' := by
        rintro rfl
        cases noRole
      have percent : c ≠ '%' := by
        rintro rfl
        cases noRole
      rw [urlDecode_sent first second value, urlPlain_cons, List.cons.injEq,
        ih printable.2 noFragment.2]
      exact ⟨fun plain => ⟨plus, fun same => absurd same percent, plain.2⟩,
        fun plain => ⟨rfl, plain.2.2⟩⟩

/-- The value of a parameter ends before the next one. -/
theorem sends_value {s t : List Char} (sends : Sends s t) :
    Sends (s.takeWhile fun c => c != '#' && c != '&') (t.takeWhile (· != '&')) := by
  induction sends with
  | nil => exact .nil
  | fragment => exact .nil
  | @same c s t fragment space _ ih =>
      by_cases next : c = '&'
      · subst next
        exact .nil
      · rw [List.takeWhile_cons_of_pos (by simpa using ⟨fragment, next⟩),
          List.takeWhile_cons_of_pos (by simpa using next)]
        exact .same fragment space ih
  | @escape c a b s t reserved noRole first second value _ ih =>
      have kept : c ≠ '#' ∧ c ≠ '&' := by
        constructor <;> rintro rfl <;> cases noRole
      rw [List.takeWhile_cons_of_pos (by simpa using kept),
        List.takeWhile_cons_of_pos (by decide),
        List.takeWhile_cons_of_pos (by simpa using ne_of_hex first (by decide)),
        List.takeWhile_cons_of_pos (by simpa using ne_of_hex second (by decide))]
      exact .escape reserved noRole first second value ih

end Clumsy.Http
