/-
The rate limiter shared through Redis: a token bucket in a script, in scaled units, with the time of each caller
as the time of its call. Arithmetic is exact, and the key does not expire.
-/
import Xahc.Data.TokenBucket
import Mathlib.Algebra.Order.Floor.Ring
import Mathlib.Data.List.Induction
import Mathlib.Data.Rat.Floor
import Mathlib.Tactic.Ring

namespace Xahc.Facilitator

open Xahc.Data.TokenBucket

/-! ## The script -/

/-- The tokens are stored in millionths. -/
def RL_SCALE : ℚ := 1000000

/-- The hash at a bucket's key, and its time to live. -/
structure RateKey where
  t : ℚ
  ts : ℚ
  pexpire : ℚ
  deriving DecidableEq, Repr

/-- The limiter on Redis. -/
structure RedisRateLimiter where
  max : ℚ
  windowMs : ℚ

namespace RedisRateLimiter

/-- A bucket expires after two windows. -/
def ttlMs (l : RedisRateLimiter) : ℚ := l.windowMs * 2

/-- `REDIS_TOKEN_BUCKET_LUA`: the hash written, and what is returned, allow and resetMs. -/
def tokenBucketLua (data : Option RateKey) (now max windowMs ttlMs : ℚ) : RateKey × ℚ × ℚ :=
  let maxScaled := max * RL_SCALE
  let tokens := (data.map RateKey.t).getD maxScaled
  let ts := (data.map RateKey.ts).getD now
  -- a backwards clock adds nothing
  let elapsed := if now - ts < 0 then 0 else now - ts
  let refill : ℚ := ⌊elapsed * maxScaled / windowMs⌋
  let tokens := if tokens + refill > maxScaled then maxScaled else tokens + refill
  if tokens ≥ RL_SCALE then (⟨tokens - RL_SCALE, now, ttlMs⟩, 1, 0)
  else
    let deficit := RL_SCALE - tokens
    (⟨tokens, now, ttlMs⟩, 0, ⌈deficit * windowMs / maxScaled⌉)

/-- The script, with the limiter's own arguments. -/
def eval (l : RedisRateLimiter) (data : Option RateKey) (now : ℚ) : RateKey × ℚ × ℚ :=
  tokenBucketLua data now l.max l.windowMs l.ttlMs

/-- What the limiter answers to the reply of the script, none when the script cannot be run. -/
def ok : Option (ℚ × ℚ) → Bool
  | some (allow, _) => allow = 1
  | none => false

/-- The key after calls at `nows`. -/
def after (l : RedisRateLimiter) (data : Option RateKey) (nows : List ℚ) : Option RateKey :=
  nows.foldl (fun data now => some (l.eval data now).1) data

/-- The answers to calls at `nows`. -/
def answers (l : RedisRateLimiter) : Option RateKey → List ℚ → List Bool
  | _, [] => []
  | data, now :: nows => ok (some (l.eval data now).2) :: answers l (some (l.eval data now).1) nows

end RedisRateLimiter

open RedisRateLimiter

/-- At most a full bucket is allowed and what is refilled between the smallest time and the largest. -/
def RateBounded (l : RedisRateLimiter) (nows : List ℚ) : Prop :=
  ∀ lo hi, lo ≤ hi → (∀ now ∈ nows, lo ≤ now ∧ now ≤ hi) →
    ((l.answers none nows).count true : ℚ) ≤ l.max + (hi - lo) * l.max / l.windowMs

/-- A call at a smaller time than an earlier one lets no later call through that is denied without it. -/
def SkewHarmless (l : RedisRateLimiter) (nows : List ℚ) : Prop :=
  ∀ earlier now later, nows = earlier ++ now :: later → (∃ t ∈ earlier, now < t) →
    List.Forall₂ (fun allowed allowed' => allowed = true → allowed' = true)
      (l.answers (l.after none (earlier ++ [now])) later) (l.answers (l.after none earlier) later)

/-! ## One call -/

section
variable {l : RedisRateLimiter} {data : Option RateKey} {k : RateKey} {now : ℚ}

/-- The units a call adds, whole ones only. -/
def RedisRateLimiter.refill (l : RedisRateLimiter) (ts now : ℚ) : ℚ :=
  ⌊forward ts now * (l.max * RL_SCALE) / l.windowMs⌋

/-- A new bucket: full, and touched now. -/
def RedisRateLimiter.newKey (l : RedisRateLimiter) (now : ℚ) : RateKey := ⟨l.max * RL_SCALE, now, l.ttlMs⟩

/-- The script draws a token from the bucket, a new one where there is none, and writes its time as the bucket's. -/
theorem eval_spec (l : RedisRateLimiter) (data : Option RateKey) (now : ℚ) :
    let k := data.getD (l.newKey now)
    let d := draw (l.max * RL_SCALE) RL_SCALE k.t (l.refill k.ts now)
    (l.eval data now).1 = ⟨d.1, now, l.ttlMs⟩ ∧ ok (some (l.eval data now).2) = d.2 := by
  dsimp only
  have hts : (data.map RateKey.ts).getD now = (data.getD (l.newKey now)).ts := by cases data <;> rfl
  have ht : (data.map RateKey.t).getD (l.max * RL_SCALE) = (data.getD (l.newKey now)).t := by cases data <;> rfl
  rw [eval, tokenBucketLua, hts, ht]
  generalize data.getD (l.newKey now) = k
  have helapsed : (if now - k.ts < 0 then 0 else now - k.ts) = forward k.ts now := by
    rw [forward, max_comm, max_def_lt]
  have hcap (tokens : ℚ) : (if tokens > l.max * RL_SCALE then l.max * RL_SCALE else tokens) = min (l.max * RL_SCALE) tokens :=
    (min_def_lt _ _).symm
  dsimp only
  rw [helapsed, ← refill, hcap]
  unfold draw
  dsimp only
  rcases lt_or_ge (min (l.max * RL_SCALE) (k.t + l.refill k.ts now)) RL_SCALE with hlow | henough
  · rw [if_neg (not_le.2 hlow), if_pos hlow]
    exact ⟨rfl, rfl⟩
  · rw [if_pos henough, if_neg (not_lt.2 henough)]
    exact ⟨rfl, rfl⟩

/-- No more than the time moved forward is worth. -/
theorem refill_le (l : RedisRateLimiter) (ts now : ℚ) :
    l.refill ts now ≤ forward ts now * (l.max * RL_SCALE) / l.windowMs :=
  Int.floor_le _

theorem refill_nonneg (hmax : 1 ≤ l.max) (hwindow : 0 < l.windowMs) (ts now : ℚ) : 0 ≤ l.refill ts now := by
  have hscaled : 0 ≤ l.max * RL_SCALE := mul_nonneg (zero_le_one.trans hmax) (by decide)
  exact Int.cast_nonneg (Int.floor_nonneg.2 (div_nonneg (mul_nonneg (le_max_left _ _) hscaled) hwindow.le))

/-- A backwards clock adds nothing at its own call. -/
theorem refill_backwards {ts : ℚ} (h : now ≤ ts) : l.refill ts now = 0 := by
  rw [refill, forward, max_eq_left (sub_nonpos.2 h), zero_mul, zero_div, Int.floor_zero, Int.cast_zero]

/-- A bucket that is not overdrawn stays so. -/
theorem eval_nonneg (hmax : 1 ≤ l.max) (hwindow : 0 < l.windowMs) (hdata : ∀ k ∈ data, 0 ≤ k.t) :
    0 ≤ (l.eval data now).1.t := by
  have hscaled : 0 ≤ l.max * RL_SCALE := mul_nonneg (zero_le_one.trans hmax) (by decide)
  rw [(eval_spec l data now).1]
  refine draw_nonneg hscaled (add_nonneg ?_ (refill_nonneg hmax hwindow _ _))
  cases data with
  | none => exact hscaled
  | some k => exact hdata k rfl

/-! ## A run -/

/-- What the calls take is bounded by what was in the bucket and how far the times move forward, call by call. -/
theorem answers_le (hmax : 1 ≤ l.max) (hwindow : 0 < l.windowMs) : ∀ (nows : List ℚ) {k : RateKey}, 0 ≤ k.t →
    ((l.answers (some k) nows).count true : ℚ) * RL_SCALE ≤ k.t + rise k.ts nows * (l.max * RL_SCALE) / l.windowMs
  | [], k, hk => by simpa [answers, rise] using hk
  | now :: nows, k, hk => by
    have hnonneg : 0 ≤ (l.eval (some k) now).1.t :=
      eval_nonneg hmax hwindow (by rintro k' ⟨⟩; exact hk)
    have ih := answers_le hmax hwindow nows hnonneg
    obtain ⟨hkey, hok⟩ := eval_spec l (some k) now
    have hdraw := draw_le (l.max * RL_SCALE) RL_SCALE k.t (l.refill k.ts now)
    have hrefill := refill_le l k.ts now
    have hspent (allowed : Bool) :
        ((if (allowed == true) = true then 1 else 0 : Nat) : ℚ) * RL_SCALE = spent RL_SCALE allowed := by
      cases allowed <;> simp [spent]
    rw [answers, List.count_cons, hok, Nat.cast_add, add_mul, hspent, rise, add_mul, add_div]
    rw [hkey] at ih ⊢
    dsimp only [Option.getD_some] at *
    linarith

theorem rateBounded_of_sorted (hmax : 1 ≤ l.max) (hwindow : 0 < l.windowMs) {nows : List ℚ}
    (hsorted : nows.Pairwise (· ≤ ·)) : RateBounded l nows := by
  intro lo hi hle hwithin
  have hrate : 0 ≤ l.max / l.windowMs := div_nonneg (zero_le_one.trans hmax) hwindow.le
  cases nows with
  | nil =>
    have : 0 ≤ (hi - lo) * (l.max / l.windowMs) := mul_nonneg (sub_nonneg.2 hle) hrate
    rw [answers, List.count_nil, Nat.cast_zero, mul_div_assoc]
    linarith
  | cons now nows =>
    have hnew : l.answers none (now :: nows) = l.answers (some (l.newKey now)) (now :: nows) := rfl
    have hfull : 0 ≤ (l.newKey now).t := mul_nonneg (zero_le_one.trans hmax) (by decide)
    have hcount := answers_le hmax hwindow (now :: nows) hfull
    have hhi : ∀ t ∈ now :: nows, t ≤ hi := fun t ht => (hwithin t ht).2
    have hrise : rise now (now :: nows) ≤ hi - lo := by
      have := rise_le_of_sorted hsorted (hhi now List.mem_cons_self) fun t ht => hhi t (List.mem_cons_of_mem _ ht)
      have := (hwithin now List.mem_cons_self).1
      rw [rise, forward, sub_self, max_self]
      linarith
    have hspread : rise now (now :: nows) * (l.max / l.windowMs) ≤ (hi - lo) * (l.max / l.windowMs) :=
      mul_le_mul_of_nonneg_right hrise hrate
    refine le_of_mul_le_mul_right ?_ (by decide : 0 < RL_SCALE)
    calc ((l.answers none (now :: nows)).count true : ℚ) * RL_SCALE
      _ ≤ l.max * RL_SCALE + rise now (now :: nows) * (l.max * RL_SCALE) / l.windowMs := by rw [hnew]; exact hcount
      _ = (l.max + rise now (now :: nows) * (l.max / l.windowMs)) * RL_SCALE := by ring
      _ ≤ (l.max + (hi - lo) * (l.max / l.windowMs)) * RL_SCALE :=
        mul_le_mul_of_nonneg_right (by linarith) (by decide)
      _ = (l.max + (hi - lo) * l.max / l.windowMs) * RL_SCALE := by ring

theorem skewHarmless_of_sorted {nows : List ℚ} (hsorted : nows.Pairwise (· ≤ ·)) : SkewHarmless l nows := by
  rintro earlier now later rfl ⟨t, ht, hlt⟩
  have := (List.pairwise_append.1 hsorted).2.2 t ht now List.mem_cons_self
  exact absurd hlt (not_lt.2 this)

/-! ## Where a clock goes back -/

/-- Times that are not in order go back first somewhere. -/
theorem exists_backwards {nows : List ℚ} (h : ¬nows.Pairwise (· ≤ ·)) :
    ∃ earlier a b later, nows = earlier ++ a :: b :: later ∧ b < a ∧ ∀ t ∈ earlier, t ≤ a := by
  induction nows using List.reverseRecOn with
  | nil => exact absurd List.Pairwise.nil h
  | append_singleton nows b ih =>
    by_cases hsorted : nows.Pairwise (· ≤ ·)
    · -- the last time is the first one to go back
      obtain ⟨t, ht, hlt⟩ : ∃ t ∈ nows, b < t := by
        by_contra hnone
        push Not at hnone
        exact h (List.pairwise_append.2 ⟨hsorted, List.pairwise_singleton _ _, fun t ht b' hb' => by
          rw [List.mem_singleton.1 hb']
          exact hnone t ht⟩)
      rcases List.eq_nil_or_concat' nows with rfl | ⟨earlier, a, rfl⟩
      · exact absurd ht List.not_mem_nil
      · have hle : ∀ t ∈ earlier, t ≤ a := fun t ht => (List.pairwise_append.1 hsorted).2.2 t ht a List.mem_cons_self
        refine ⟨earlier, a, b, [], by simp, ?_, hle⟩
        rcases List.mem_append.1 ht with hearlier | hlast
        · exact hlt.trans_le (hle t hearlier)
        · rwa [List.mem_singleton.1 hlast] at hlt
    · obtain ⟨earlier, a, b', later, rfl, hlt, hle⟩ := ih hsorted
      exact ⟨earlier, a, b', later ++ [b], by simp, hlt, hle⟩

theorem after_snoc (l : RedisRateLimiter) (data : Option RateKey) (nows : List ℚ) (now : ℚ) :
    l.after data (nows ++ [now]) = some (l.eval (l.after data nows) now).1 := by
  rw [after, List.foldl_append, List.foldl_cons, List.foldl_nil, ← after]

theorem after_nonneg (hmax : 1 ≤ l.max) (hwindow : 0 < l.windowMs) (nows : List ℚ) :
    ∀ k ∈ l.after none nows, 0 ≤ k.t := by
  induction nows using List.reverseRecOn with
  | nil => exact fun k hk => nomatch hk
  | append_singleton nows now ih =>
    rw [after_snoc]
    rintro k ⟨⟩
    exact eval_nonneg hmax hwindow ih

/-- A bucket of one token holds less than a token after any call. -/
theorem eval_lt_of_one (hmax : l.max = 1) (data : Option RateKey) (now : ℚ) : (l.eval data now).1.t < RL_SCALE := by
  have hscale : (0 : ℚ) < RL_SCALE := by decide
  rw [(eval_spec l data now).1, hmax, one_mul]
  unfold draw
  dsimp only
  split_ifs with hlow
  · exact hlow
  · have := min_le_left RL_SCALE ((data.getD (l.newKey now)).t + l.refill (data.getD (l.newKey now)).ts now)
    dsimp only
    linarith

/-- A call is denied where less than a token is in the bucket and nothing is added. -/
theorem ok_eval_of_low (hk : k.t < RL_SCALE) (hrefill : l.refill k.ts now = 0) :
    ok (some (l.eval (some k) now).2) = false := by
  have hlow : min (l.max * RL_SCALE) (k.t + 0) < RL_SCALE := by
    rw [add_zero]
    exact (min_le_right _ _).trans_lt hk
  rw [(eval_spec l (some k) now).2, Option.getD_some, hrefill, draw, if_pos hlow]

/-- A call is allowed where a token is added that the bucket has room for. -/
theorem ok_eval_of_refill (now : ℚ) (hmax : 1 ≤ l.max) (hk : 0 ≤ k.t) (hrefill : RL_SCALE ≤ l.refill k.ts now) :
    ok (some (l.eval (some k) now).2) = true := by
  have hcap : RL_SCALE ≤ l.max * RL_SCALE := le_mul_of_one_le_left (by decide) hmax
  rw [(eval_spec l (some k) now).2, Option.getD_some, draw,
    if_neg (not_lt.2 (le_min hcap (by linarith)))]

/-- With one token in a window as long as the clock goes back, the next call at the old time is allowed, and is
denied where the call in between is left out. -/
theorem not_skewHarmless {a b : ℚ} (hlt : b < a) (earlier : List ℚ) :
    ¬SkewHarmless ⟨1, a - b⟩ (earlier ++ [a, b] ++ [a]) := by
  intro h
  have hwindow : 0 < a - b := sub_pos.2 hlt
  have himp := h (earlier ++ [a]) b [a] (by simp) ⟨a, by simp, hlt⟩
  have hnonneg := after_nonneg (l := ⟨1, a - b⟩) le_rfl hwindow (earlier ++ [a] ++ [b])
  rw [after_snoc] at himp hnonneg
  have hts : ((RedisRateLimiter.mk 1 (a - b)).eval (after ⟨1, a - b⟩ none (earlier ++ [a])) b).1.ts = b := by
    rw [(eval_spec _ _ _).1]
  have hrefill : (RedisRateLimiter.mk 1 (a - b)).refill b a = RL_SCALE := by
    have hwhole : (RL_SCALE : ℚ) = ((1000000 : ℤ) : ℚ) := by decide
    rw [refill, forward, max_eq_right hwindow.le, one_mul, mul_div_cancel_left₀ _ hwindow.ne', hwhole, Int.floor_intCast]
  have hallowed := ok_eval_of_refill a le_rfl (hnonneg _ rfl) (by rw [hts, hrefill])
  rw [after_snoc] at himp hallowed
  have hdenied : ok (some ((RedisRateLimiter.mk 1 (a - b)).eval
      (some ((RedisRateLimiter.mk 1 (a - b)).eval (after ⟨1, a - b⟩ none earlier) a).1) a).2) = false := by
    refine ok_eval_of_low (eval_lt_of_one rfl _ _) (refill_backwards ?_)
    rw [(eval_spec _ _ _).1]
  simp only [answers] at himp
  rw [List.forall₂_cons, hallowed, hdenied] at himp
  exact Bool.false_ne_true (himp.1 rfl)

/-- The limiter is sound as long as no caller's time goes back: then, and only then, whatever its capacity and
window, it is at every moment of the run for the next call at a time not before the earlier ones. -/
theorem sound_iff_clock_in_order (nows : List ℚ) :
    nows.Pairwise (· ≤ ·) ↔
      ∀ l : RedisRateLimiter, 1 ≤ l.max → 0 < l.windowMs →
        (RateBounded l nows ∧ SkewHarmless l nows) ∧
          ∀ earlier now, earlier <+: nows → (∀ t ∈ earlier, t ≤ now) →
            RateBounded l (earlier ++ [now]) ∧ SkewHarmless l (earlier ++ [now]) := by
  constructor
  · intro hsorted l hmax hwindow
    refine ⟨⟨rateBounded_of_sorted hmax hwindow hsorted, skewHarmless_of_sorted hsorted⟩, ?_⟩
    intro earlier now hprefix hlast
    have hsnoc : (earlier ++ [now]).Pairwise (· ≤ ·) :=
      List.pairwise_append.2 ⟨hsorted.sublist hprefix.sublist, List.pairwise_singleton _ _, fun t ht now' hnow' => by
        rw [List.mem_singleton.1 hnow']
        exact hlast t ht⟩
    exact ⟨rateBounded_of_sorted hmax hwindow hsnoc, skewHarmless_of_sorted hsnoc⟩
  · intro hsound
    by_contra hsorted
    obtain ⟨earlier, a, b, later, rfl, hlt, hle⟩ := exists_backwards hsorted
    obtain ⟨-, hnext⟩ := hsound ⟨1, a - b⟩ le_rfl (sub_pos.2 hlt)
    refine not_skewHarmless hlt earlier (hnext (earlier ++ [a, b]) a ⟨later, by simp⟩ ?_).2
    intro t ht
    rcases List.mem_append.1 ht with hearlier | hlast
    · exact hle t hearlier
    · rcases List.mem_pair.1 hlast with rfl | rfl
      · exact le_rfl
      · exact hlt.le

end

/-- A clock that goes back and forth is paid each time for the same second. -/
theorem skewed_clocks_exceed_rate :
    ¬∀ l : RedisRateLimiter, 1 ≤ l.max → 0 < l.windowMs → ∀ nows, RateBounded l nows ∧ SkewHarmless l nows := by
  intro h
  have hrun : (answers ⟨1, 1000⟩ none [1000, 0, 1000, 0, 1000]).count true = 3 ∧
      ∀ now ∈ [1000, 0, 1000, 0, (1000 : ℚ)], 0 ≤ now ∧ now ≤ 1000 := by decide +kernel
  have hbound := (h ⟨1, 1000⟩ le_rfl (by decide +kernel) [1000, 0, 1000, 0, 1000]).1 0 1000 (by decide +kernel) hrun.2
  rw [hrun.1] at hbound
  norm_num at hbound

end Xahc.Facilitator
