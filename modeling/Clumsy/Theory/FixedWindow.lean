/-
# Theory.FixedWindow -- what a fixed-window counter lets through any interval

A fixed-window counter starts a window at an arrival that finds the old one run out, lets
`limit` arrivals of each window through and counts from 1 again with the next window.
An interval no longer than a window meets two windows at most, so it sees `2 * limit`
arrivals at most (`Watched.le`).

`Watched` looks at a counter from one interval: whether the current window began before,
in or behind the interval says how much of it may have been used.
-/
import Mathlib

namespace Clumsy.Theory.FixedWindow

set_option autoImplicit false

/-- The most one arrival at `t` adds to the interval from `a` of length `length`. -/
def hit (a length t : Nat) : Nat := if a ≤ t ∧ t ≤ a + length then 1 else 0

theorem hit_le_one (a length t : Nat) : hit a length t ≤ 1 := by
  unfold hit
  split <;> omega

theorem hit_before {a length t : Nat} (before : t < a) : hit a length t = 0 :=
  if_neg (by omega)

theorem hit_behind {a length t : Nat} (behind : a + length < t) : hit a length t = 0 :=
  if_neg (by omega)

/-- A counter whose window began at `start`, was last counted at `last` and stands at
`count`, when `passed` arrivals of the interval went through. -/
structure Watched (a length limit start last count passed : Nat) : Prop where
  order  : start ≤ last
  idle   : last < a → passed = 0
  first  : start ≤ a → passed ≤ min count limit
  second : a < start → start ≤ a + length → passed ≤ limit + min count limit
  beyond : a + length < start → passed ≤ 2 * limit

namespace Watched

variable {a length limit start last count passed more t : Nat}

/-- **No interval sees more than two windows let through.** -/
theorem le (seen : Watched a length limit start last count passed) : passed ≤ 2 * limit := by
  rcases Nat.lt_or_ge a start with inside | before
  · rcases Nat.lt_or_ge (a + length) start with behind | within
    · exact seen.beyond behind
    · have := seen.second inside within
      omega
  · have := seen.first before
    omega

/-- The first window of all. -/
theorem begin (positive : 1 ≤ limit) (small : more ≤ hit a length t) :
    Watched a length limit t t 1 more := by
  have one := hit_le_one a length t
  refine ⟨Nat.le_refl t, ?_, ?_, ?_, ?_⟩
  · intro before
    rw [hit_before before] at small
    omega
  · intro _
    omega
  · intro _ _
    omega
  · intro behind
    rw [hit_behind behind] at small
    omega

/-- **A new window**: if it begins at or before the interval, nothing of the interval was
used, and if it begins in the interval, then by the old window only. -/
theorem restart (seen : Watched a length limit start last count passed) (positive : 1 ≤ limit)
    (later : last < t) (full : start + length ≤ t) (small : more ≤ hit a length t) :
    Watched a length limit t t 1 (passed + more) := by
  have one := hit_le_one a length t
  refine ⟨Nat.le_refl t, ?_, ?_, ?_, ?_⟩
  · intro before
    have none := seen.idle (by omega)
    rw [hit_before before] at small
    omega
  · intro before
    have none := seen.idle (by omega)
    omega
  · intro _ within
    have old := seen.first (by omega)
    omega
  · intro behind
    have all := seen.le
    rw [hit_behind behind] at small
    omega

/-- **An arrival in the current window** goes through only while there is room. -/
theorem stay (seen : Watched a length limit start last count passed) (later : last ≤ t)
    (small : more ≤ hit a length t) (room : more ≠ 0 → count < limit) :
    Watched a length limit start t (count + 1) (passed + more) := by
  have one := hit_le_one a length t
  have order := seen.order
  rcases Nat.eq_zero_or_pos more with none | some
  · subst none
    refine ⟨by omega, ?_, ?_, ?_, seen.beyond⟩
    · intro before
      exact seen.idle (by omega)
    · intro before
      have old := seen.first before
      omega
    · intro inside within
      have old := seen.second inside within
      omega
  · have space := room (by omega)
    refine ⟨by omega, ?_, ?_, ?_, ?_⟩
    · intro before
      rw [hit_before before] at small
      omega
    · intro before
      have old := seen.first before
      omega
    · intro inside within
      have old := seen.second inside within
      omega
    · intro behind
      rw [hit_behind (by omega)] at small
      omega

end Watched

end Clumsy.Theory.FixedWindow
