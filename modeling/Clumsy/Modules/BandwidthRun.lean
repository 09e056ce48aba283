/-
# Modules.BandwidthRun -- the token bucket over whole runs

From `bandwidthStartUp` on, under any writes to its parameters:

* `bandwidthRun_bounds`, with tokens read as exact rationals: the bucket stays between 0 and
  its capacity, and over any stretch of calls no more bytes are released than the bucket held
  before it plus what the limits in force added since;
* `bandwidthRun_discipline`, with tokens as the `double`s they are: what is accepted is
  released in arrival order, a packet is discarded only when 2000 are queued, a call that
  comes later than the packet at the head of the queue needs releases it, and a call leaves
  the queue empty or too few tokens for its head.  A call that comes just in time may find
  the last token rounded away (`bandwidthRun_stays`).

A call is a refill, an enqueue and a release; `Theory.TokenBucket` has the first and the
last, `enqueue_eq` the second.
-/
import Clumsy.Theory.Run
import Clumsy.Theory.Clock
import Clumsy.Theory.TokenBucket
import Clumsy.Modules.Params

namespace Clumsy.Modules

open Clumsy.Theory
open Clumsy.Packet

set_option autoImplicit false

variable {β : Type}

namespace Bandwidth

/-- The queue, oldest first. -/
def queue (bandwidth : Bandwidth β) : List (PacketNode β) := bandwidth.buf.nodes.reverse

/-- The handled packets of the main list, oldest first. -/
def arrivals (main : List (PacketNode β)) (bandwidth : Bandwidth β) : List (PacketNode β) :=
  main.reverse.filter bandwidth.handles

/-- How many packets still fit into the queue. -/
def room (bandwidth : Bandwidth β) : Nat := 2000 - bandwidth.buf.nodes.length

/-- The packets a call queues. -/
def accepted (main : List (PacketNode β)) (bandwidth : Bandwidth β) : List (PacketNode β) :=
  (bandwidth.arrivals main).take bandwidth.room

/-- The packets of the main list that a call leaves there. -/
def passing (main : List (PacketNode β)) (bandwidth : Bandwidth β) : List (PacketNode β) :=
  main.filter fun pac => !bandwidth.handles pac

/-- The packets a call releases, in the order of release: it puts them on the main list, in
front of those it left there. -/
def released (A : Arithmetic 53) (env : ProcEnv) (main : List (PacketNode β))
    (bandwidth : Bandwidth β) : List (PacketNode β) :=
  let out := (bandwidthProcess A env main bandwidth).main
  (out.take (out.length - (bandwidth.passing main).length)).reverse

/-- The packet's price in tokens. -/
def price (pac : PacketNode β) : ℚ := pac.packetLen

/-- The bytes of some packets. -/
def bytes (pacs : List (PacketNode β)) : ℚ := (pacs.map price).sum

/-- The tokens `ms` milliseconds bring at the limit in force. -/
def gain (ms : Nat) (bandwidth : Bandwidth β) : ℚ :=
  1024 * (bandwidth.bandwidthLimit.val : ℚ) * ms / 1000

/-- The results of a refill are finite `double`s, so that rounding to the nearest number is all
that happens to them. -/
structure InRange (now : UInt32) (bandwidth : Bandwidth β) : Prop where
  rate    : binary64.round (bandwidth.bandwidthLimit.val * 1024) =
    .finite (bandwidth.fillRate double)
  cap     : binary64.round (bandwidth.fillRate double * BUCKET_SECS) =
    .finite (double.round (bandwidth.fillRate double * BUCKET_SECS))
  elapsed : binary64.round (((now - bandwidth.lastFillTime).toNat : ℚ) / 1000) =
    .finite (double.round (((now - bandwidth.lastFillTime).toNat : ℚ) / 1000))
  gained  : binary64.round (double.round (((now - bandwidth.lastFillTime).toNat : ℚ) / 1000) *
      bandwidth.fillRate double) = .finite (bandwidth.gained double now)
  filled  : binary64.round (bandwidth.tokenBucket + bandwidth.gained double now) =
    .finite (double.round (bandwidth.tokenBucket + bandwidth.gained double now))

/-! ## One call -/

section Call

variable (A : Arithmetic 53) (bandwidth : Bandwidth β)

/-- The limit is far from the end of the whole numbers. -/
theorem fillRate_eq : bandwidth.fillRate A = 1024 * (bandwidth.bandwidthLimit.val : ℚ) := by
  have lower := bandwidth.bandwidthLimit.lower
  have upper := bandwidth.bandwidthLimit.upper
  have whole := A.whole (bandwidth.bandwidthLimit.val * 1024) (by
    rw [abs_of_nonneg (by omega)]
    omega)
  push_cast at whole
  rw [fillRate, whole, mul_comm]

theorem capacity_eq :
    bandwidth.capacity A = max 65535 (2048 * (bandwidth.bandwidthLimit.val : ℚ)) := by
  have lower := bandwidth.bandwidthLimit.lower
  have upper := bandwidth.bandwidthLimit.upper
  have whole := A.whole (1024 * bandwidth.bandwidthLimit.val * 2) (by
    rw [abs_of_nonneg (by omega)]
    omega)
  push_cast at whole
  unfold capacity BUCKET_SECS
  simp only [fillRate_eq, whole]
  split
  · rw [max_eq_left (by linarith)]
  · rw [max_eq_right (by linarith)]
    ring

theorem capacity_nonneg : 0 ≤ bandwidth.capacity A := by
  rw [capacity_eq]
  exact le_max_of_le_left (by norm_num)

theorem capacity_le : bandwidth.capacity A ≤ 2 ^ 28 := by
  have upper : (bandwidth.bandwidthLimit.val : ℚ) ≤ 99999 := by
    exact_mod_cast bandwidth.bandwidthLimit.upper
  rw [capacity_eq]
  exact max_le (by norm_num) (by linarith)

/-- A rounding does not cross the capacity, which is a whole number. -/
theorem round_le_capacity {tokens : ℚ} (capped : tokens ≤ bandwidth.capacity A) :
    A.round tokens ≤ bandwidth.capacity A := by
  have lower := bandwidth.bandwidthLimit.lower
  have upper := bandwidth.bandwidthLimit.upper
  have whole := A.whole (max 65535 (2048 * bandwidth.bandwidthLimit.val)) (by
    rw [abs_of_nonneg (by omega)]
    omega)
  push_cast at whole
  refine (A.mono capped).trans (le_of_eq ?_)
  rw [capacity_eq, whole]

theorem gain_nonneg (ms : Nat) : 0 ≤ bandwidth.gain ms := by
  have lower : (0 : ℚ) ≤ bandwidth.bandwidthLimit.val := by
    exact_mod_cast bandwidth.bandwidthLimit.lower
  unfold gain
  positivity

theorem gained_nonneg (now : UInt32) : 0 ≤ bandwidth.gained A now := by
  have lower : (0 : ℚ) ≤ bandwidth.bandwidthLimit.val := by
    exact_mod_cast bandwidth.bandwidthLimit.lower
  have elapsed : 0 ≤ A.round (((now - bandwidth.lastFillTime).toNat : ℚ) / 1000) :=
    A.round_nonneg (by positivity)
  unfold gained
  rw [fillRate_eq]
  exact A.round_nonneg (by positivity)

/-- Read exactly, the time brings what the limit says. -/
theorem gained_exact (now : UInt32) :
    bandwidth.gained .exact now = bandwidth.gain (now - bandwidth.lastFillTime).toNat := by
  unfold gained gain
  simp only [fillRate_eq, Arithmetic.exact_round]
  ring

theorem replenish_tokens (now : UInt32) (limited : 0 < bandwidth.bandwidthLimit.val) :
    (bandwidth.replenish A now).tokenBucket =
      TokenBucket.refill A.round (bandwidth.capacity A) (bandwidth.gained A now)
        bandwidth.tokenBucket := by
  simp only [replenish, gt_iff_lt, if_pos limited]
  rfl

theorem enqueue_sweep (as : List (PacketNode β)) (size : Int) (fits : size ≤ 2000) :
    (sweep (counting bandwidth.judge) ((), size) as).held =
        (as.filter bandwidth.handles).take (2000 - size).toNat ∧
      (sweep (counting bandwidth.judge) ((), size) as).gone =
        (as.filter bandwidth.handles).drop (2000 - size).toNat ∧
      (sweep (counting bandwidth.judge) ((), size) as).kept =
        as.filter fun pac => !bandwidth.handles pac := by
  induction as generalizing size with
  | nil => simp [sweep]
  | cons a as ih =>
      cases handled : bandwidth.handles a with
      | false =>
          have here : counting bandwidth.judge ((), size) a = (((), size), .keep) := by
            simp [counting, judge, handled]
          obtain ⟨held, gone, kept⟩ := ih size fits
          simp only [sweep, here, List.filter_cons, handled, Bool.false_eq_true, if_false,
            Bool.not_false, if_true, held, gone, kept, and_self]
      | true =>
          by_cases below : size < KEEP_AT_MOST
          · have here : counting bandwidth.judge ((), size) a = (((), size + 1), .hold a) := by
              simp [counting, judge, handled, below]
            simp only [KEEP_AT_MOST] at below
            obtain ⟨held, gone, kept⟩ := ih (size + 1) (by omega)
            have next : (2000 - size).toNat = (2000 - (size + 1)).toNat + 1 := by omega
            simp only [sweep, here, List.filter_cons, handled, if_true, next, List.take_succ_cons,
              List.drop_succ_cons, Bool.not_true, Bool.false_eq_true, if_false, held, gone, kept,
              and_self]
          · have here : counting bandwidth.judge ((), size) a = (((), size), .discard) := by
              simp [counting, judge, handled, below]
            simp only [KEEP_AT_MOST] at below
            obtain ⟨held, gone, kept⟩ := ih size fits
            have none : (2000 - size).toNat = 0 := by omega
            simp only [none, List.take_zero, List.drop_zero] at held gone
            simp only [sweep, here, List.filter_cons, handled, if_true, none, List.take_zero,
              List.drop_zero, Bool.not_true, Bool.false_eq_true, if_false, held, gone, kept,
              and_self]

/-- **The enqueue**: the first arrivals, as many as fit, join the queue; the others are
freed; what is not handled stays. -/
theorem enqueue_eq (main : List (PacketNode β)) (counted : bandwidth.buf.Counted)
    (capped : bandwidth.buf.nodes.length ≤ 2000) :
    (bandwidth.enqueue main).2.1.buf.nodes.reverse = bandwidth.queue ++ bandwidth.accepted main ∧
      (bandwidth.enqueue main).2.1.freed = (bandwidth.arrivals main).drop bandwidth.room ∧
      (bandwidth.enqueue main).2.1.main = bandwidth.passing main := by
  have size := counted.1
  obtain ⟨held, gone, kept⟩ :=
    bandwidth.enqueue_sweep main.reverse bandwidth.buf.bufSize (by omega)
  have rest : (2000 - bandwidth.buf.bufSize).toNat = bandwidth.room := by
    unfold room
    omega
  rw [rest] at held gone
  refine ⟨?_, gone, ?_⟩
  · show ((sweep (counting bandwidth.judge) ((), bandwidth.buf.bufSize)
      main.reverse).held.reverse ++ bandwidth.buf.nodes).reverse = _
    rw [held, List.reverse_append, List.reverse_reverse]
    rfl
  · show (sweep (counting bandwidth.judge) ((), bandwidth.buf.bufSize)
      main.reverse).kept.reverse = _
    rw [kept, List.filter_reverse, List.reverse_reverse]
    rfl

theorem drain_main (q : Queues β) :
    (bandwidth.drain A q).2.1.main = (bandwidth.drain A q).2.2.reverse ++ q.main := by
  unfold drain
  split <;> rfl

/-- What a call releases is what it drains. -/
theorem released_eq (env : ProcEnv) (main : List (PacketNode β))
    (counted : bandwidth.buf.Counted) (capped : bandwidth.buf.nodes.length ≤ 2000) :
    bandwidth.released A env main =
        ((bandwidth.replenish A (env.ticks 0)).drain A (bandwidth.enqueue main).2.1).2.2 ∧
      (bandwidthProcess A env main bandwidth).main =
        (bandwidth.released A env main).reverse ++ bandwidth.passing main := by
  have out : (bandwidthProcess A env main bandwidth).main = _ :=
    drain_main A (bandwidth.replenish A (env.ticks 0)) (bandwidth.enqueue main).2.1
  rw [(bandwidth.enqueue_eq main counted capped).2.2] at out
  have same : bandwidth.released A env main =
      ((bandwidth.replenish A (env.ticks 0)).drain A (bandwidth.enqueue main).2.1).2.2 := by
    rw [released, out, List.length_append, Nat.add_sub_cancel, List.take_left, List.reverse_reverse]
  exact ⟨same, by rw [same, out]⟩

theorem spend_eq :
    (spend A : ℚ → PacketNode β → Option ℚ) = TokenBucket.spend A.round price := by
  funext tokens pac
  unfold spend TokenBucket.spend price
  split <;> rfl

/-- A call with a positive limit releases what the refilled bucket pays for. -/
theorem process_limited (env : ProcEnv) (main : List (PacketNode β))
    (counted : bandwidth.buf.Counted) (capped : bandwidth.buf.nodes.length ≤ 2000)
    (limited : 0 < bandwidth.bandwidthLimit.val) :
    let out := release (TokenBucket.spend A.round price)
      (bandwidth.replenish A (env.ticks 0)).tokenBucket
      (bandwidth.queue ++ bandwidth.accepted main)
    bandwidth.released A env main = out.2.1 ∧
      (bandwidthProcess A env main bandwidth).state.queue = out.2.2 ∧
        (bandwidthProcess A env main bandwidth).state.tokenBucket = out.1 := by
  intro out
  have limit : (bandwidth.replenish A (env.ticks 0)).bandwidthLimit = bandwidth.bandwidthLimit := by
    unfold replenish
    split <;> rfl
  have drain : (bandwidth.replenish A (env.ticks 0)).drain A (bandwidth.enqueue main).2.1 =
      releaseOldest (spend A) (bandwidth.replenish A (env.ticks 0)).tokenBucket
        (bandwidth.enqueue main).2.1 := by
    unfold Bandwidth.drain
    rw [limit, if_pos limited]
  obtain ⟨tokens, sent, left⟩ := releaseOldest_eq (spend A)
    (bandwidth.replenish A (env.ticks 0)).tokenBucket (bandwidth.enqueue main).2.1
  rw [(bandwidth.enqueue_eq main counted capped).1, spend_eq] at tokens sent left
  refine ⟨?_, ?_, ?_⟩
  · rw [(released_eq A bandwidth env main counted capped).1, drain, spend_eq]
    exact sent
  · show ((bandwidth.replenish A (env.ticks 0)).drain A _).2.1.buf.nodes.reverse = _
    rw [drain, spend_eq]
    exact left
  · show ((bandwidth.replenish A (env.ticks 0)).drain A _).1 = _
    rw [drain, spend_eq]
    exact tokens

/-- A call with a limit of 0 queues and releases nothing. -/
theorem process_blocked (env : ProcEnv) (main : List (PacketNode β))
    (counted : bandwidth.buf.Counted) (capped : bandwidth.buf.nodes.length ≤ 2000)
    (blocked : ¬0 < bandwidth.bandwidthLimit.val) :
    bandwidth.released A env main = [] ∧
      (bandwidthProcess A env main bandwidth).state.queue =
        bandwidth.queue ++ bandwidth.accepted main ∧
      (bandwidthProcess A env main bandwidth).state.tokenBucket = bandwidth.tokenBucket := by
  have refilled : bandwidth.replenish A (env.ticks 0) =
      { bandwidth with lastFillTime := env.ticks 0 } := if_neg blocked
  have drain : (bandwidth.replenish A (env.ticks 0)).drain A (bandwidth.enqueue main).2.1 =
      (bandwidth.tokenBucket, (bandwidth.enqueue main).2.1, []) := by
    unfold Bandwidth.drain
    rw [refilled]
    exact if_neg blocked
  refine ⟨?_, ?_, ?_⟩
  · rw [(released_eq A bandwidth env main counted capped).1, drain]
  · show ((bandwidth.replenish A (env.ticks 0)).drain A _).2.1.buf.nodes.reverse = _
    rw [drain]
    exact (bandwidth.enqueue_eq main counted capped).1
  · show ((bandwidth.replenish A (env.ticks 0)).drain A _).1 = _
    rw [drain]

/-- **First in, first out**: what a call releases and what it leaves queued are the queue
with the accepted packets behind it. -/
theorem process_fifo (env : ProcEnv) (main : List (PacketNode β))
    (counted : bandwidth.buf.Counted) (capped : bandwidth.buf.nodes.length ≤ 2000) :
    bandwidth.released A env main ++ (bandwidthProcess A env main bandwidth).state.queue =
      bandwidth.queue ++ bandwidth.accepted main := by
  by_cases limited : 0 < bandwidth.bandwidthLimit.val
  · obtain ⟨sent, left, -⟩ := process_limited A bandwidth env main counted capped limited
    rw [sent, left]
    exact release_append _ _ _
  · obtain ⟨sent, left, -⟩ := process_blocked A bandwidth env main counted capped limited
    rw [sent, left]
    rfl

theorem process_freed (env : ProcEnv) (main : List (PacketNode β))
    (counted : bandwidth.buf.Counted) (capped : bandwidth.buf.nodes.length ≤ 2000) :
    (bandwidthProcess A env main bandwidth).freed =
      (bandwidth.arrivals main).drop bandwidth.room := by
  rw [← (bandwidth.enqueue_eq main counted capped).2.1]
  show ((bandwidth.replenish A (env.ticks 0)).drain A (bandwidth.enqueue main).2.1).2.1.freed = _
  unfold drain
  split
  · exact releaseOldest_freed _ _ _
  · rfl

theorem replenish_nonneg (now : UInt32) (nonneg : 0 ≤ bandwidth.tokenBucket)
    (limited : 0 < bandwidth.bandwidthLimit.val) :
    0 ≤ (bandwidth.replenish A now).tokenBucket := by
  rw [replenish_tokens _ _ _ limited]
  exact TokenBucket.refill_nonneg (fun _ => A.round_nonneg) (bandwidth.capacity_nonneg A)
    (bandwidth.gained_nonneg A now) nonneg

/-- The bucket is never overdrawn. -/
theorem process_nonneg (env : ProcEnv) (main : List (PacketNode β))
    (counted : bandwidth.buf.Counted) (capped : bandwidth.buf.nodes.length ≤ 2000)
    (nonneg : 0 ≤ bandwidth.tokenBucket) :
    0 ≤ (bandwidthProcess A env main bandwidth).state.tokenBucket := by
  by_cases limited : 0 < bandwidth.bandwidthLimit.val
  · obtain ⟨-, -, tokens⟩ := process_limited A bandwidth env main counted capped limited
    rw [tokens]
    exact TokenBucket.release_nonneg _ _ (fun _ => A.round_nonneg) _
      (replenish_nonneg A bandwidth _ nonneg limited)
  · obtain ⟨-, -, tokens⟩ := process_blocked A bandwidth env main counted capped limited
    rw [tokens]
    exact nonneg

/-- **The bucket after a call**, its tokens read exactly: paid for out of what was there and
what came in. -/
theorem process_pays (env : ProcEnv) (main : List (PacketNode β))
    (counted : bandwidth.buf.Counted) (capped : bandwidth.buf.nodes.length ≤ 2000) :
    (bandwidthProcess .exact env main bandwidth).state.tokenBucket +
        bytes (bandwidth.released .exact env main) ≤
      bandwidth.tokenBucket + bandwidth.gain (env.ticks 0 - bandwidth.lastFillTime).toNat := by
  by_cases limited : 0 < bandwidth.bandwidthLimit.val
  · obtain ⟨sent, -, tokens⟩ := process_limited .exact bandwidth env main counted capped limited
    rw [sent, tokens, ← gained_exact]
    have paid := TokenBucket.release_paid price (bandwidth.queue ++ bandwidth.accepted main)
      (bandwidth.replenish .exact (env.ticks 0)).tokenBucket
    have filled := replenish_tokens .exact bandwidth (env.ticks 0) limited
    rw [filled] at paid ⊢
    exact paid.le.trans TokenBucket.refill_le_sum
  · obtain ⟨sent, -, tokens⟩ := process_blocked .exact bandwidth env main counted capped limited
    rw [sent, tokens]
    have more := bandwidth.gain_nonneg (env.ticks 0 - bandwidth.lastFillTime).toNat
    simpa [bytes] using more

/-- After a call with a positive limit the bucket is within its capacity. -/
theorem process_capped (env : ProcEnv) (main : List (PacketNode β))
    (counted : bandwidth.buf.Counted) (capped : bandwidth.buf.nodes.length ≤ 2000)
    (limited : 0 < bandwidth.bandwidthLimit.val) :
    (bandwidthProcess A env main bandwidth).state.tokenBucket ≤
        (bandwidthProcess A env main bandwidth).state.maxTokens ∧
      (bandwidthProcess A env main bandwidth).state.maxTokens =
        max 65535 (2048 * (bandwidth.bandwidthLimit.val : ℚ)) := by
  have cap : (bandwidthProcess A env main bandwidth).state.maxTokens = bandwidth.capacity A := by
    show (bandwidth.replenish A (env.ticks 0)).maxTokens = _
    simp only [replenish, gt_iff_lt, if_pos limited]
  obtain ⟨-, -, tokens⟩ := process_limited A bandwidth env main counted capped limited
  rw [cap]
  refine ⟨?_, bandwidth.capacity_eq A⟩
  rw [tokens, replenish_tokens _ _ _ limited]
  exact TokenBucket.release_le_cap _ _ (fun _ => bandwidth.round_le_capacity A)
    (fun _ => Nat.cast_nonneg _) _ TokenBucket.refill_le_cap

theorem process_held (env : ProcEnv) (main : List (PacketNode β))
    (counted : bandwidth.buf.Counted) (capped : bandwidth.buf.nodes.length ≤ 2000)
    (held : bandwidth.tokenBucket ≤ 2 ^ 28) :
    (bandwidthProcess A env main bandwidth).state.tokenBucket ≤ 2 ^ 28 := by
  by_cases limited : 0 < bandwidth.bandwidthLimit.val
  · obtain ⟨below, cap⟩ := process_capped A bandwidth env main counted capped limited
    rw [cap, ← bandwidth.capacity_eq A] at below
    exact below.trans (bandwidth.capacity_le A)
  · obtain ⟨-, -, tokens⟩ := process_blocked A bandwidth env main counted capped limited
    rw [tokens]
    exact held

/-- In `double`s the time brings what the limit says, but for a 2^-52nd part. -/
theorem gained_double (now : UInt32) :
    bandwidth.gain (now - bandwidth.lastFillTime).toNat -
        bandwidth.gain (now - bandwidth.lastFillTime).toNat / 2 ^ 52 ≤
      bandwidth.gained double now := by
  unfold gained
  rw [fillRate_eq]
  generalize (now - bandwidth.lastFillTime).toNat = ms
  have lower := bandwidth.bandwidthLimit.lower
  rcases Nat.eq_zero_or_pos ms with still | some
  · simp [gain, still]
  rcases lower.eq_or_lt with blocked | limited
  · simp [gain, ← blocked]
  have ticked : (1 : ℚ) ≤ ms := by exact_mod_cast some
  have limited : (1 : ℚ) ≤ bandwidth.bandwidthLimit.val := by
    exact_mod_cast Int.add_one_le_of_lt limited
  have seconds := @double_loses ((ms : ℚ) / 1000) (by
    refine le_trans ?_ (div_le_div_of_nonneg_right ticked (by norm_num))
    norm_num)
  have product : bandwidth.gain ms * (1 - 1 / 2 ^ 53) ≤
      double.round ((ms : ℚ) / 1000) * (1024 * (bandwidth.bandwidthLimit.val : ℚ)) := by
    have scaled := mul_le_mul_of_nonneg_right seconds
      (show (0 : ℚ) ≤ 1024 * bandwidth.bandwidthLimit.val by positivity)
    refine le_trans (le_of_eq ?_) scaled
    unfold gain
    ring
  have one : 1 ≤ bandwidth.gain ms := by
    have least : (1 : ℚ) * 1 ≤ bandwidth.bandwidthLimit.val * ms :=
      mul_le_mul limited ticked zero_le_one (by positivity)
    unfold gain
    linarith
  have bytes := double_loses (le_trans (by linarith) product)
  calc bandwidth.gain ms - bandwidth.gain ms / 2 ^ 52
      ≤ bandwidth.gain ms * (1 - 1 / 2 ^ 53) * (1 - 1 / 2 ^ 53) := by linarith
    _ ≤ double.round ((ms : ℚ) / 1000) * (1024 * (bandwidth.bandwidthLimit.val : ℚ)) *
          (1 - 1 / 2 ^ 53) := mul_le_mul_of_nonneg_right product (by norm_num)
    _ ≤ _ := by linarith

/-- **No `double` of a refill is out of range.** -/
theorem replenish_inRange (now : UInt32) (nonneg : 0 ≤ bandwidth.tokenBucket)
    (held : bandwidth.tokenBucket ≤ 2 ^ 28) : bandwidth.InRange now := by
  have rate : (0 : ℚ) ≤ bandwidth.bandwidthLimit.val * 1024 ∧
      (bandwidth.bandwidthLimit.val * 1024 : ℚ) ≤ 2 ^ 27 := by
    have lower : (0 : ℚ) ≤ bandwidth.bandwidthLimit.val := by
      exact_mod_cast bandwidth.bandwidthLimit.lower
    have upper : (bandwidth.bandwidthLimit.val : ℚ) ≤ 99999 := by
      exact_mod_cast bandwidth.bandwidthLimit.upper
    constructor <;> linarith
  have elapsed : 0 ≤ ((now - bandwidth.lastFillTime).toNat : ℚ) / 1000 ∧
      ((now - bandwidth.lastFillTime).toNat : ℚ) / 1000 ≤ 2 ^ 23 := by
    have ticks : ((now - bandwidth.lastFillTime).toNat : ℚ) ≤ 2 ^ 32 := by
      exact_mod_cast (now - bandwidth.lastFillTime).toNat_lt.le
    exact ⟨by positivity, by linarith⟩
  obtain ⟨rateFinite, rateSmall⟩ := double_finite rate.1 rate.2 (by decide)
  obtain ⟨timeFinite, timeSmall⟩ := double_finite elapsed.1 elapsed.2 (by decide)
  have rateNonneg := double.round_nonneg rate.1
  have timeNonneg := double.round_nonneg elapsed.1
  have secs : BUCKET_SECS = 2 := rfl
  obtain ⟨capFinite, -⟩ := double_finite (n := 28)
    (q := double.round (bandwidth.bandwidthLimit.val * 1024) * BUCKET_SECS)
    (by rw [secs]; linarith) (by rw [secs]; linarith) (by decide)
  obtain ⟨gainFinite, gainSmall⟩ := double_finite (n := 50) (mul_nonneg timeNonneg rateNonneg)
    ((mul_le_mul timeSmall rateSmall rateNonneg (by positivity)).trans (by norm_num)) (by decide)
  have gainNonneg := double.round_nonneg (mul_nonneg timeNonneg rateNonneg)
  obtain ⟨sumFinite, -⟩ := double_finite (n := 51) (add_nonneg nonneg gainNonneg)
    ((add_le_add held gainSmall).trans (by norm_num)) (by decide)
  exact ⟨rateFinite, capFinite, timeFinite, gainFinite, sumFinite⟩

/-- **Bytes that had the time to come in are there**, in `double`s too: if the time is more
than they need, then by a thousandth of a token, and less than that is lost. -/
theorem le_filled {len : Nat} (fits : len ≤ 65535) {now : UInt32}
    (nonneg : 0 ≤ bandwidth.tokenBucket)
    (late : (len : ℚ) < bandwidth.gain (now - bandwidth.lastFillTime).toNat ∨
      (len : ℚ) ≤ bandwidth.gain (now - bandwidth.lastFillTime).toNat ∧
        1 ≤ bandwidth.tokenBucket) :
    (len : ℚ) ≤ double.round (bandwidth.tokenBucket + bandwidth.gained double now) := by
  have gained := bandwidth.gained_double now
  set exact := bandwidth.gain (now - bandwidth.lastFillTime).toNat with hExact
  have small : (len : ℚ) ≤ 65535 := by exact_mod_cast fits
  refine double.whole_le_round (n := len) (by rw [Nat.abs_cast]; omega) ?_
  push_cast
  rcases late with more | ⟨enough, token⟩
  · -- both sides are whole thousandths
    have apart : (len : ℚ) + 1 / 1000 ≤ exact := by
      have scaled : (1000 * len : ℚ) <
          1024 * bandwidth.bandwidthLimit.val * (now - bandwidth.lastFillTime).toNat := by
        rw [hExact] at more
        unfold gain at more
        linarith
      have whole : (1000 * len : Int) + 1 ≤
          1024 * bandwidth.bandwidthLimit.val * ((now - bandwidth.lastFillTime).toNat : Int) :=
        Int.add_one_le_of_lt (by exact_mod_cast scaled)
      have whole : (1000 * len : ℚ) + 1 ≤
          1024 * bandwidth.bandwidthLimit.val * (now - bandwidth.lastFillTime).toNat := by
        exact_mod_cast whole
      rw [hExact]
      unfold gain
      linarith
    linarith
  · linarith

/-- **No starvation**: a call that comes late enough for the packet at the head of the
queue releases it. -/
theorem process_head (env : ProcEnv) (main : List (PacketNode β))
    (counted : bandwidth.buf.Counted) (capped : bandwidth.buf.nodes.length ≤ 2000)
    (nonneg : 0 ≤ bandwidth.tokenBucket) (limited : 0 < bandwidth.bandwidthLimit.val)
    {oldest : PacketNode β} {younger : List (PacketNode β)}
    (head : bandwidth.queue ++ bandwidth.accepted main = oldest :: younger)
    (small : oldest.packetLen ≤ 65535)
    (late : let needs := 1000 * (oldest.packetLen : ℚ) / (1024 * bandwidth.bandwidthLimit.val)
      needs < (env.ticks 0 - bandwidth.lastFillTime).toNat ∨
        needs ≤ (env.ticks 0 - bandwidth.lastFillTime).toNat ∧ 1 ≤ bandwidth.tokenBucket) :
    ∃ more, bandwidth.released double env main = oldest :: more := by
  obtain ⟨sent, -, -⟩ := process_limited double bandwidth env main counted capped limited
  rw [sent, head]
  apply TokenBucket.release_first
  rw [replenish_tokens _ _ _ limited]
  refine TokenBucket.le_refill ?_ (bandwidth.le_filled small nonneg ?_)
  · rw [capacity_eq]
    refine le_max_of_le_left ?_
    unfold price
    exact_mod_cast small
  · have positive : (0 : ℚ) < 1024 * bandwidth.bandwidthLimit.val := by
      have limited : (0 : ℚ) < bandwidth.bandwidthLimit.val := by exact_mod_cast limited
      linarith
    simp only [div_lt_iff₀ positive, div_le_iff₀ positive] at late
    unfold gain
    refine late.imp (fun more => by linarith) fun just => ⟨by linarith [just.1], just.2⟩

/-- **The drain is maximal**: a call leaves too few tokens for the head of the queue. -/
theorem process_short (env : ProcEnv) (main : List (PacketNode β))
    (counted : bandwidth.buf.Counted) (capped : bandwidth.buf.nodes.length ≤ 2000)
    (limited : 0 < bandwidth.bandwidthLimit.val) {oldest : PacketNode β}
    {younger : List (PacketNode β)}
    (left : (bandwidthProcess A env main bandwidth).state.queue = oldest :: younger) :
    (bandwidthProcess A env main bandwidth).state.tokenBucket < oldest.packetLen := by
  obtain ⟨-, queue, tokens⟩ := process_limited A bandwidth env main counted capped limited
  rw [queue] at left
  rw [tokens]
  exact TokenBucket.release_short _ price _ _ left

end Call

end Bandwidth

/-! ## Runs -/

/-- Bandwidth, with the millisecond and the tick of its last call. -/
structure BandwidthRun (β : Type) where
  bandwidth : Bandwidth β
  now       : Nat
  lastCall  : UInt32

inductive BandwidthEvent (β : Type) where
  | process (time : Nat) (env : ProcEnv) (main : List (PacketNode β))
  | setParam (key value : List Char)

/-- The event brings no packet above 65535 bytes. -/
def BandwidthEvent.Small : BandwidthEvent β → Prop
  | .process _ _ main => ∀ pac ∈ main, pac.packetLen ≤ 65535
  | .setParam _ _ => True

namespace BandwidthRun

open Bandwidth

section

variable (A : Arithmetic 53)

/-- `bandwidthStartUp` at the millisecond `time`, under any parameters. -/
def started (time : Nat) (bandwidth : Bandwidth β) : BandwidthRun β where
  bandwidth := bandwidthStartUp A (Clock.tickAt time) { bandwidth with buf := .unlinked }
  now := time
  lastCall := Clock.tickAt time

def step (s : BandwidthRun β) : BandwidthEvent β → BandwidthRun β
  | .process time env main =>
      { bandwidth := (bandwidthProcess A env main s.bandwidth).state
        now := time
        lastCall := env.ticks 0 }
  | .setParam key value =>
      { s with bandwidth :=
          ((bandwidthChain.read key value).map (bandwidthSetParam s.bandwidth)).getD s.bandwidth }

/-- Time does not go back, and the tick shows it. -/
def machine : Machine (BandwidthRun β) (BandwidthEvent β) where
  step := step A
  admits
    | s, .process time env _ => s.now ≤ time ∧ env.ticks 0 = Clock.tickAt time
    | _, _ => True

instance (s : BandwidthRun β) : ∀ e, Decidable ((machine A).admits s e)
  | .process _ _ _ => inferInstanceAs (Decidable (_ ∧ _))
  | .setParam _ _ => isTrue trivial

/-- The packets an event releases. -/
def sent (s : BandwidthRun β) : BandwidthEvent β → List (PacketNode β)
  | .process _ env main => s.bandwidth.released A env main
  | .setParam _ _ => []

def sentBytes (s : BandwidthRun β) (e : BandwidthEvent β) : ℚ := bytes (s.sent A e)

end

/-- The packets an event queues. -/
def queued (s : BandwidthRun β) : BandwidthEvent β → List (PacketNode β)
  | .process _ _ main => s.bandwidth.accepted main
  | .setParam _ _ => []

/-- The bytes the limit in force allows for the time since the last call. -/
def allowance (s : BandwidthRun β) : BandwidthEvent β → ℚ
  | .process time _ _ => s.bandwidth.gain (time - s.now)
  | .setParam _ _ => 0

/-- What holds between the events of a run, whatever the clock does. -/
structure Inv (s : BandwidthRun β) : Prop where
  linked  : s.bandwidth.buf.linked = true
  counted : s.bandwidth.buf.Counted
  capped  : s.bandwidth.buf.nodes.length ≤ 2000
  nonneg  : 0 ≤ s.bandwidth.tokenBucket
  held    : s.bandwidth.tokenBucket ≤ 2 ^ 28
  filled  : s.bandwidth.lastFillTime = s.lastCall

section

variable (A : Arithmetic 53)

theorem started_inv (time : Nat) (bandwidth : Bandwidth β) : (started A time bandwidth).Inv where
  linked := Buffer.startUp_linked _
  counted := Buffer.startUp_counted Buffer.counted_unlinked
  capped := by
    show (Buffer.unlinked.startUp : Buffer β).nodes.length ≤ 2000
    rw [Buffer.startUp_nodes Buffer.counted_unlinked]
    exact Nat.zero_le 2000
  nonneg := capacity_nonneg A { bandwidth with buf := .unlinked }
  held := capacity_le A { bandwidth with buf := .unlinked }
  filled := rfl

/-- A parameter write touches neither the queue nor the bucket. -/
theorem setParam_kept (s : BandwidthRun β) (key value : List Char) :
    let s' := s.step A (.setParam key value)
    s'.bandwidth.buf = s.bandwidth.buf ∧ s'.bandwidth.tokenBucket = s.bandwidth.tokenBucket ∧
      s'.bandwidth.lastFillTime = s.bandwidth.lastFillTime := by
  simp only [step]
  cases bandwidthChain.read key value with
  | none => exact ⟨rfl, rfl, rfl⟩
  | some p => cases p <;> exact ⟨rfl, rfl, rfl⟩

theorem process_filled (bandwidth : Bandwidth β) (env : ProcEnv) (main : List (PacketNode β)) :
    (bandwidthProcess A env main bandwidth).state.lastFillTime = env.ticks 0 := by
  show (bandwidth.replenish A (env.ticks 0)).lastFillTime = _
  unfold replenish
  split <;> rfl

theorem step_inv {s : BandwidthRun β} (inv : s.Inv) (e : BandwidthEvent β) :
    (s.step A e).Inv := by
  cases e with
  | process time env main =>
      obtain ⟨counted, capped⟩ :=
        bandwidthProcess_sizes A env main inv.linked inv.counted inv.capped
      exact ⟨(bandwidthProcess_linked A env main s.bandwidth).trans inv.linked, counted, capped,
        process_nonneg A s.bandwidth env main inv.counted inv.capped inv.nonneg,
        process_held A s.bandwidth env main inv.counted inv.capped inv.held,
        process_filled A s.bandwidth env main⟩
  | setParam key value =>
      obtain ⟨buffer, tokens, fill⟩ := s.setParam_kept A key value
      obtain ⟨linked, counted, capped, nonneg, held, filled⟩ := inv
      rw [← buffer] at linked counted capped
      rw [← tokens] at nonneg held
      rw [← fill] at filled
      exact ⟨linked, counted, capped, nonneg, held, filled⟩

theorem run_inv (time : Nat) (bandwidth : Bandwidth β) (es : List (BandwidthEvent β)) :
    ((machine A).run (started A time bandwidth) es).Inv := by
  have once : ∀ (s : BandwidthRun β) e, s.Inv → ((machine A).step s e).Inv :=
    fun _ e inv => step_inv A inv e
  exact (machine A).run_invariant' once es _ (started_inv A time bandwidth)

end

/-! ## The cap -/

/-- The tick of the last call is the one of its millisecond. -/
structure Timed (s : BandwidthRun β) : Prop extends Inv s where
  ticked : s.lastCall = Clock.tickAt s.now

theorem step_timed {s : BandwidthRun β} (timed : s.Timed) (e : BandwidthEvent β)
    (admits : (machine .exact).admits s e) : (s.step .exact e).Timed := by
  refine ⟨step_inv .exact timed.toInv e, ?_⟩
  cases e with
  | process time env main => exact admits.2
  | setParam key value => exact timed.ticked

/-- **One event** pays for the bytes it releases. -/
theorem step_pays {s : BandwidthRun β} (timed : s.Timed) (e : BandwidthEvent β)
    (admits : (machine .exact).admits s e) :
    (s.step .exact e).bandwidth.tokenBucket + s.sentBytes .exact e ≤
      s.bandwidth.tokenBucket + s.allowance e := by
  cases e with
  | process time env main =>
      obtain ⟨later, tick⟩ := admits
      have pays := s.bandwidth.process_pays env main timed.counted timed.capped
      have elapsed : (env.ticks 0 - s.bandwidth.lastFillTime).toNat ≤ time - s.now := by
        rw [timed.filled, timed.ticked, tick]
        exact Clock.elapsed_le later
      refine pays.trans ?_
      show _ ≤ s.bandwidth.tokenBucket + s.bandwidth.gain (time - s.now)
      have lower : (0 : ℚ) ≤ s.bandwidth.bandwidthLimit.val := by
        exact_mod_cast s.bandwidth.bandwidthLimit.lower
      unfold gain
      gcongr
  | setParam key value =>
      obtain ⟨-, tokens, -⟩ := s.setParam_kept .exact key value
      show _ + (0 : ℚ) ≤ _ + (0 : ℚ)
      rw [tokens]

/-- **The bandwidth cap**, with tokens read as exact rationals.  Over the calls of `window`,
after any run `before`; what a call releases is what it puts in front of the packets it left
on the main list. -/
theorem bandwidthRun_bounds (time : Nat) (bandwidth : Bandwidth β)
    (before window : List (BandwidthEvent β))
    (admissible : (machine .exact).Admissible (started .exact time bandwidth)
      (before ++ window)) :
    let s := (machine .exact).run (started .exact time bandwidth) before
    ((machine .exact).outputs (sentBytes .exact) s window).sum ≤
        s.bandwidth.tokenBucket + ((machine .exact).outputs allowance s window).sum ∧
      ∀ t env main later, window = .process t env main :: later →
        let out := bandwidthProcess .exact env main s.bandwidth
        out.main = (s.bandwidth.released .exact env main).reverse ++ s.bandwidth.passing main ∧
          (0 < s.bandwidth.bandwidthLimit.val →
            0 ≤ out.state.tokenBucket ∧ out.state.tokenBucket ≤ out.state.maxTokens ∧
              out.state.maxTokens = max 65535 (2048 * (s.bandwidth.bandwidthLimit.val : ℚ))) := by
  intro s
  obtain ⟨first, rest⟩ := ((machine .exact).admissible_append _ before window).1 admissible
  have timed : s.Timed := (machine .exact).run_invariant
    (fun _ e timed admits => step_timed timed e admits)
    before _ ⟨started_inv .exact time bandwidth, rfl⟩ first
  refine ⟨?_, fun t env main later here => ⟨?_, fun limited => ⟨?_, ?_⟩⟩⟩
  · exact (machine .exact).outputs_amortised (fun s => s.bandwidth.tokenBucket) (sentBytes .exact)
      allowance (fun s (timed : s.Timed) => timed.nonneg)
      (fun _ e timed admits => step_timed timed e admits)
      (fun _ e timed admits => step_pays timed e admits) window timed rest
  · exact (released_eq .exact s.bandwidth env main timed.counted timed.capped).2
  · exact process_nonneg .exact s.bandwidth env main timed.counted timed.capped timed.nonneg
  · exact process_capped .exact s.bandwidth env main timed.counted timed.capped limited

/-- Five milliseconds after the start, a packet comes in. -/
def oneCall : List (BandwidthEvent Unit) := [.process 5 (.still 5) [outgoing 0]]

/-- It goes on, for one token. -/
theorem bandwidthRun_bounds_oneCall :
    (machine .exact).Admissible (started .exact 0 .initial) ([] ++ oneCall) ∧
      (bandwidthProcess .exact (.still 5) [outgoing 0]
        (started .exact 0 .initial).bandwidth).main = [outgoing 0] ∧
      ((machine .exact).outputs (sentBytes .exact) (started .exact 0 .initial) oneCall).sum = 1 ∧
      (1 : ℚ) ≤ (started .exact 0 (.initial : Bandwidth Unit)).bandwidth.tokenBucket +
          ((machine .exact).outputs allowance (started .exact 0 .initial) oneCall).sum := by
  have admissible : (machine .exact).Admissible (started .exact 0 .initial) ([] ++ oneCall) := by
    decide
  have bounds := bandwidthRun_bounds 0 .initial [] oneCall admissible
  have one : ((machine .exact).outputs (sentBytes .exact) (started .exact 0 .initial)
      oneCall).sum = 1 := by decide +kernel
  refine ⟨admissible, by decide +kernel, one, ?_⟩
  rw [← one]
  exact bounds.1

/-! ## The queue -/

section

variable (A : Arithmetic 53)

/-- **One event** takes from the front of the queue and adds at its end. -/
theorem step_fifo {s : BandwidthRun β} (inv : s.Inv) (e : BandwidthEvent β) :
    s.sent A e ++ (s.step A e).bandwidth.queue = s.bandwidth.queue ++ s.queued e := by
  cases e with
  | process time env main => exact process_fifo A s.bandwidth env main inv.counted inv.capped
  | setParam key value =>
      obtain ⟨buffer, -, -⟩ := s.setParam_kept A key value
      show [] ++ List.reverse _ = _ ++ []
      rw [buffer, List.append_nil]
      rfl

theorem queued_small {s : BandwidthRun β} {e : BandwidthEvent β} (small : e.Small) :
    ∀ pac ∈ s.queued e, pac.packetLen ≤ 65535 := by
  cases e with
  | process time env main =>
      intro pac member
      have arrived := List.mem_of_mem_take member
      exact small pac (List.mem_reverse.1 (List.mem_filter.1 arrived).1)
  | setParam key value =>
      intro pac member
      exact absurd member List.not_mem_nil

/-- Nothing above 65535 bytes is ever queued. -/
theorem queue_small {s : BandwidthRun β} (inv : s.Inv)
    (held : ∀ pac ∈ s.bandwidth.queue, pac.packetLen ≤ 65535) (es : List (BandwidthEvent β))
    (small : ∀ e ∈ es, e.Small) :
    ∀ pac ∈ ((machine A).run s es).bandwidth.queue, pac.packetLen ≤ 65535 := by
  induction es generalizing s with
  | nil => exact held
  | cons e es ih =>
      refine ih (step_inv A inv e) (fun pac member => ?_) fun e' member =>
        small e' (List.mem_cons_of_mem e member)
      have within : pac ∈ s.bandwidth.queue ++ s.queued e := by
        rw [← step_fifo A inv e]
        exact List.mem_append_right _ member
      rcases List.mem_append.1 within with old | new
      · exact held pac old
      · exact queued_small (small e List.mem_cons_self) pac new

end

/-- **The queue discipline**, in `double`s and with none of them out of range, at any call after
any run of packets of at most 65535 bytes. -/
theorem bandwidthRun_discipline (time : Nat) (bandwidth : Bandwidth β)
    (es : List (BandwidthEvent β)) (t : Nat) (env : ProcEnv) (main : List (PacketNode β))
    (small : ∀ e ∈ es ++ [.process t env main], e.Small) :
    let s := (machine double).run (started double time bandwidth) es
    let out := bandwidthProcess double env main s.bandwidth
    -- what a call releases it puts in front of the packets it left on the main list
    out.main = (s.bandwidth.released double env main).reverse ++ s.bandwidth.passing main ∧
      -- released in arrival order
      ((machine double).outputs (sent double) (started double time bandwidth) es).flatten ++
          s.bandwidth.queue =
        ((machine double).outputs queued (started double time bandwidth) es).flatten ∧
      s.bandwidth.released double env main ++ out.state.queue =
        s.bandwidth.queue ++ s.bandwidth.accepted main ∧
      -- discarded only behind 2000 queued packets
      s.bandwidth.accepted main ++ out.freed = s.bandwidth.arrivals main ∧
      (out.freed ≠ [] → (s.bandwidth.queue ++ s.bandwidth.accepted main).length = 2000) ∧
      -- the head leaves in time
      (∀ oldest younger, 0 < s.bandwidth.bandwidthLimit.val →
        s.bandwidth.queue ++ s.bandwidth.accepted main = oldest :: younger →
          let needs := 1000 * (oldest.packetLen : ℚ) / (1024 * s.bandwidth.bandwidthLimit.val)
          needs < (env.ticks 0 - s.lastCall).toNat ∨
              needs ≤ (env.ticks 0 - s.lastCall).toNat ∧ 1 ≤ s.bandwidth.tokenBucket →
            ∃ more, s.bandwidth.released double env main = oldest :: more) ∧
      -- and only the lack of tokens keeps it
      (∀ oldest younger, 0 < s.bandwidth.bandwidthLimit.val →
        out.state.queue = oldest :: younger → out.state.tokenBucket < oldest.packetLen) ∧
      s.bandwidth.InRange (env.ticks 0) := by
  intro s out
  have inv : s.Inv := run_inv double time bandwidth es
  have empty : (started double time bandwidth).bandwidth.queue = [] := by
    show List.reverse (Buffer.unlinked.startUp : Buffer β).nodes = []
    rw [Buffer.startUp_nodes Buffer.counted_unlinked]
    rfl
  have order := (machine double).free.outputs_fifo (fun s => s.bandwidth.queue) (sent double) queued
    (fun _ e inv _ => step_inv double inv e) (fun _ e inv _ => step_fifo double inv e) es
    (started_inv double time bandwidth) ((machine double).free_admissible _ es)
  rw [empty, List.nil_append, Machine.outputs_free, Machine.outputs_free] at order
  have freed := Bandwidth.process_freed double s.bandwidth env main inv.counted inv.capped
  refine ⟨(released_eq double s.bandwidth env main inv.counted inv.capped).2, order,
    process_fifo double s.bandwidth env main inv.counted inv.capped, ?_, ?_, ?_, ?_,
    s.bandwidth.replenish_inRange _ inv.nonneg inv.held⟩
  · show s.bandwidth.accepted main ++ (bandwidthProcess double env main s.bandwidth).freed = _
    rw [freed]
    exact List.take_append_drop _ _
  · intro some_
    have long : s.bandwidth.room < (s.bandwidth.arrivals main).length := by
      by_contra short
      refine some_ ?_
      show (bandwidthProcess double env main s.bandwidth).freed = []
      rw [freed]
      exact List.drop_eq_nil_of_le (not_lt.1 short)
    have capped := inv.capped
    rw [List.length_append, accepted, List.length_take, queue, List.length_reverse]
    unfold room at long ⊢
    omega
  · intro oldest younger limited head needs late
    have held : ∀ pac ∈ s.bandwidth.queue, pac.packetLen ≤ 65535 := by
      refine queue_small double (started_inv double time bandwidth) (fun pac member => ?_) es
        fun e member => small e (List.mem_append_left _ member)
      rw [empty] at member
      exact absurd member List.not_mem_nil
    have fits : oldest.packetLen ≤ 65535 := by
      have member : oldest ∈ s.bandwidth.queue ++ s.bandwidth.accepted main := by
        rw [head]
        exact List.mem_cons_self
      rcases List.mem_append.1 member with old | new
      · exact held oldest old
      · exact @queued_small β s (.process t env main) (small _ (by simp)) oldest new
    rw [← inv.filled] at late
    exact s.bandwidth.process_head env main inv.counted inv.capped inv.nonneg limited head fits late
  · intro oldest younger limited left
    exact process_short double s.bandwidth env main inv.counted inv.capped limited left

theorem bandwidthRun_discipline_oneCall :
    (BandwidthEvent.process 5 (.still 5) [outgoing 0]).Small ∧
      (bandwidthProcess double (.still 5) [outgoing 0]
        (started double 0 .initial).bandwidth).main = [outgoing 0] ∧
      ∃ more, (started double 0 .initial).bandwidth.released double (.still 5) [outgoing 0] =
        outgoing 0 :: more := by
  have one : (BandwidthEvent.process 5 (.still 5) [outgoing 0]).Small := by
    intro pac member
    rw [List.mem_singleton.1 member]
    decide
  have small : ∀ e ∈ [] ++ [BandwidthEvent.process 5 (.still 5) [outgoing 0]], e.Small := by
    intro e member
    rw [List.mem_singleton.1 member]
    exact one
  obtain ⟨-, -, -, -, -, head, -, -⟩ :=
    bandwidthRun_discipline 0 .initial [] 5 (.still 5) [outgoing 0] small
  exact ⟨one, by decide +kernel, head (outgoing 0) [] (by decide) rfl (.inl (by decide +kernel))⟩

/-! ## Just in time -/

/-- 145 ms at 25 KB/s are 3712 bytes, and in `double`s a little less. -/
theorem rounded_away :
    double.round (0 + double.round (double.round (145 / 1000) * 25600)) < 3712 := by
  decide +kernel

theorem exists_outbound (n : Nat) :
    ∃ pac : PacketNode Unit, pac.packetLen = n ∧ pac.pktMeta.outbound = true :=
  ⟨{ outgoing 0 with packet := List.replicate n 0 }, by simp [PacketNode.packetLen], rfl⟩

/-- Bandwidth with a limit of 25 KB/s. -/
def slow : Bandwidth Unit := { Bandwidth.initial with bandwidthLimit := .literal 25 (.refl true) }

/-- What the first call of `bandwidthRun_stays` leaves. -/
theorem slow_emptied {big head : PacketNode Unit} (bigLen : big.packetLen = 65535)
    (bigOut : big.pktMeta.outbound = true) (headLen : head.packetLen = 3712)
    (headOut : head.pktMeta.outbound = true) :
    let s := (started double 0 slow).step double (.process 0 (.still 0) [head, big])
    s.bandwidth.queue = [head] ∧ s.bandwidth.tokenBucket = 0 ∧
      s.bandwidth.bandwidthLimit = slow.bandwidthLimit := by
  intro s
  have inv : (started double 0 slow).Inv := started_inv double 0 slow
  obtain ⟨-, queue, tokens⟩ := process_limited double (started double 0 slow).bandwidth (.still 0)
    [head, big] inv.counted inv.capped (by decide)
  have filled : ((started double 0 slow).bandwidth.replenish double 0).tokenBucket = 65535 := by
    decide +kernel
  have waiting : (started double 0 slow).bandwidth.queue ++
      (started double 0 slow).bandwidth.accepted [head, big] = [big, head] := by
    have handled : ∀ pac : PacketNode Unit, pac.pktMeta.outbound = true →
        (started double 0 slow).bandwidth.handles pac = true := by
      intro pac out
      rw [handles, out]
      rfl
    show [] ++ (([head, big].reverse).filter _).take 2000 = _
    rw [List.filter_eq_self.2 (by simp [handled, bigOut, headOut])]
    rfl
  have tick : (ProcEnv.still 0).ticks 0 = 0 := rfl
  rw [tick, filled, waiting] at queue tokens
  have out : release (TokenBucket.spend double.round price) 65535 [big, head] =
      (0, [big], [head]) := by
    have dear : ¬(3712 : ℚ) ≤ 0 := by norm_num
    simp [release, TokenBucket.spend, price, bigLen, headLen, dear]
  rw [out] at queue tokens
  exact ⟨queue, tokens, rfl⟩

/-- A packet of 65535 bytes empties the bucket, one of 3712 bytes stays; a call 145 ms later,
when these have come in, does not release it. -/
theorem bandwidthRun_stays :
    ¬∀ (time : Nat) (bandwidth : Bandwidth Unit) (es : List (BandwidthEvent Unit)) (t : Nat)
        (env : ProcEnv) (main : List (PacketNode Unit)) (oldest : PacketNode Unit)
        (younger : List (PacketNode Unit)),
      (∀ e ∈ es ++ [.process t env main], e.Small) →
      let s := (machine double).run (started double time bandwidth) es
      0 < s.bandwidth.bandwidthLimit.val →
      s.bandwidth.queue ++ s.bandwidth.accepted main = oldest :: younger →
      1000 * (oldest.packetLen : ℚ) / (1024 * s.bandwidth.bandwidthLimit.val) ≤
          (env.ticks 0 - s.lastCall).toNat →
        ∃ more, s.bandwidth.released double env main = oldest :: more := by
  intro claim
  obtain ⟨big, bigLen, bigOut⟩ := exists_outbound 65535
  obtain ⟨head, headLen, headOut⟩ := exists_outbound 3712
  obtain ⟨queue, tokens, limit⟩ := slow_emptied bigLen bigOut headLen headOut
  set s := (started double 0 slow).step double (.process 0 (.still 0) [head, big]) with hs
  have inv : s.Inv := step_inv double (started_inv double 0 slow) _
  have speed : s.bandwidth.bandwidthLimit.val = 25 := by
    rw [limit]
    rfl
  have waiting : s.bandwidth.queue ++ s.bandwidth.accepted [] = [head] := by
    simp [queue, accepted, arrivals]
  have last : s.lastCall = 0 := rfl
  have elapsed : ((145 : UInt32) - s.lastCall).toNat = 145 := by rw [last]; rfl
  obtain ⟨more, released⟩ := claim 0 slow [.process 0 (.still 0) [head, big]] 145 (.still 145) []
    head [] (by simp [BandwidthEvent.Small, bigLen, headLen]) (by
      show 0 < s.bandwidth.bandwidthLimit.val
      omega) waiting (by
      show 1000 * (head.packetLen : ℚ) / (1024 * s.bandwidth.bandwidthLimit.val) ≤
        ((145 : UInt32) - s.lastCall).toNat
      rw [speed, headLen, elapsed]
      norm_num)
  have released : s.bandwidth.released double (.still 145) [] = head :: more := released
  obtain ⟨sent, -, -⟩ := process_limited double s.bandwidth (.still 145) [] inv.counted inv.capped
    (by omega)
  have filled : (s.bandwidth.replenish double 145).tokenBucket < head.packetLen := by
    rw [replenish_tokens double s.bandwidth 145 (by omega), tokens, headLen]
    refine lt_of_le_of_lt TokenBucket.refill_le_sum ?_
    unfold gained
    rw [fillRate_eq, speed, inv.filled, last]
    have rate : (1024 * ((25 : Int) : ℚ)) = 25600 := by norm_num
    rw [rate]
    exact rounded_away
  have stays : (release (TokenBucket.spend double.round price)
      (s.bandwidth.replenish double 145).tokenBucket [head]).2.1 = [] := by
    have short : ¬price head ≤ (s.bandwidth.replenish double 145).tokenBucket := not_le.2 filled
    simp [release, TokenBucket.spend, short]
  have nothing : head :: more = [] := by
    rw [← released, sent, waiting]
    exact stays
  cases nothing

end BandwidthRun

end Clumsy.Modules
