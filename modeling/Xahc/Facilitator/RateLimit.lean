/-
The in-process rate limiter: one token bucket for each address, refilled continuously, and idle buckets
forgotten. Tokens are exact, times never go back.
-/
import Xahc.Data.JsMap
import Xahc.Data.TokenBucket
import Mathlib.Tactic.Ring
import Mathlib.Data.Rat.Cast.Order

namespace Xahc.Facilitator

open Xahc.Data Xahc.Data.TokenBucket

/-! ## The limiter -/

/-- The tokens of a client and when they were counted. -/
structure Bucket where
  tokens : ℚ
  ts : ℚ
  deriving DecidableEq, Repr

/-- The limiter in memory: a bucket for each address. -/
structure InMemoryRateLimiter where
  max : ℚ
  windowMs : ℚ
  /-- ip -> bucket -/
  buckets : JsMap Bucket := ∅
  lastSweep : ℚ := 0

namespace InMemoryRateLimiter

/-- Buckets that are a whole window old are forgotten. -/
def sweep (l : InMemoryRateLimiter) (now : ℚ) : InMemoryRateLimiter :=
  { l with buckets := l.buckets.keep fun b => !decide (now - b.ts ≥ l.windowMs) }

/-- Sweep where the last sweep is a window ago. -/
def sweepIdle (l : InMemoryRateLimiter) (now : ℚ) : InMemoryRateLimiter :=
  if now - l.lastSweep ≥ l.windowMs then { l.sweep now with lastSweep := now } else l

/-- Refill the bucket of `ip`, a full one where it has none, and take a token if there is one. -/
def take (l : InMemoryRateLimiter) (ip : String) (now : ℚ) : InMemoryRateLimiter × Bool :=
  let b := (l.buckets.lookup ip).getD ⟨l.max, now⟩
  let refill := ((now - b.ts) / l.windowMs) * l.max
  let tokens := min l.max (b.tokens + refill)
  if tokens < 1 then ({ l with buckets := l.buckets.insert ip ⟨tokens, now⟩ }, false)
  else ({ l with buckets := l.buckets.insert ip ⟨tokens - 1, now⟩ }, true)

/-- Whether the request is let through, after idle buckets are swept. -/
def ok (l : InMemoryRateLimiter) (ip : String) (now : ℚ) : InMemoryRateLimiter × Bool := (l.sweepIdle now).take ip now

end InMemoryRateLimiter

open InMemoryRateLimiter

/-- A call of the limiter: the address and the time. -/
structure RateCall where
  ip : String
  now : ℚ
  deriving DecidableEq, Repr

/-- The decisions of a limiter, by what it does at a call. -/
def decisions (ok : InMemoryRateLimiter → String → ℚ → InMemoryRateLimiter × Bool) :
    InMemoryRateLimiter → List RateCall → List Bool
  | _, [] => []
  | l, c :: cs => (ok l c.ip c.now).2 :: decisions ok (ok l c.ip c.now).1 cs

/-- How many of the calls of `ip` between `s` and `t` are allowed. -/
def allowedWithin (ip : String) (s t : ℚ) (calls : List RateCall) (allowed : List Bool) : Nat :=
  (calls.zip allowed).countP fun c => c.1.ip = ip ∧ s ≤ c.1.now ∧ c.1.now ≤ t ∧ c.2 = true

/-! ## One call -/

section
variable {l u : InMemoryRateLimiter} {ip : String} {now now' s t : ℚ}

/-- What a bucket is credited until `now`. -/
def InMemoryRateLimiter.credit (l : InMemoryRateLimiter) (b : Bucket) (now : ℚ) : ℚ := ((now - b.ts) / l.windowMs) * l.max

/-- A call draws one token from the bucket of its address, and touches no other. -/
theorem take_spec (l : InMemoryRateLimiter) (ip : String) (now : ℚ) :
    let b := (l.buckets.lookup ip).getD ⟨l.max, now⟩
    let d := draw l.max 1 b.tokens (l.credit b now)
    l.take ip now = ({ l with buckets := l.buckets.insert ip ⟨d.1, now⟩ }, d.2) := by
  dsimp only [take, draw, credit]
  split <;> rfl

theorem lookup_take (l : InMemoryRateLimiter) (ip ip' : String) (now : ℚ) :
    (l.take ip now).1.buckets.lookup ip' = if ip' = ip then
      some ⟨(draw l.max 1 ((l.buckets.lookup ip).getD ⟨l.max, now⟩).tokens
        (l.credit ((l.buckets.lookup ip).getD ⟨l.max, now⟩) now)).1, now⟩
      else l.buckets.lookup ip' := by
  rw [take_spec]
  split_ifs with h
  · rw [h, AList.lookup_insert]
  · rw [AList.lookup_insert_ne h]

/-- Whether the call is allowed. -/
theorem take_allowed (l : InMemoryRateLimiter) (ip : String) (now : ℚ) :
    (l.take ip now).2 = (draw l.max 1 ((l.buckets.lookup ip).getD ⟨l.max, now⟩).tokens
      (l.credit ((l.buckets.lookup ip).getD ⟨l.max, now⟩) now)).2 := by
  rw [take_spec]

theorem take_limits (l : InMemoryRateLimiter) (ip : String) (now : ℚ) :
    (l.take ip now).1.max = l.max ∧ (l.take ip now).1.windowMs = l.windowMs := by
  rw [take_spec]
  exact ⟨rfl, rfl⟩

theorem credit_take (l : InMemoryRateLimiter) (ip : String) (now : ℚ) (b : Bucket) (t : ℚ) :
    (l.take ip now).1.credit b t = l.credit b t := by
  obtain ⟨hmax, hwindow⟩ := take_limits l ip now
  rw [credit, credit, hmax, hwindow]

/-- No time is credited twice: what is credited until `now`, and after it to the bucket touched at `now`. -/
theorem credit_add (l : InMemoryRateLimiter) (b : Bucket) (tokens now t : ℚ) :
    l.credit b now + l.credit ⟨tokens, now⟩ t = l.credit b t := by
  unfold credit
  dsimp only
  ring

/-- A limiter in use until `now`: every bucket has been touched by then and is not overdrawn. -/
structure Sane (l : InMemoryRateLimiter) (now : ℚ) : Prop where
  max : 1 ≤ l.max
  windowMs : 0 < l.windowMs
  buckets : ∀ ip b, l.buckets.lookup ip = some b → 0 ≤ b.tokens ∧ b.ts ≤ now

theorem Sane.credit_nonneg (h : Sane l now) {b : Bucket} (hb : b.ts ≤ t) : 0 ≤ l.credit b t :=
  mul_nonneg (div_nonneg (sub_nonneg.2 hb) h.windowMs.le) (zero_le_one.trans h.max)

theorem Sane.take (h : Sane l now) (ip : String) (hle : now ≤ now') : Sane (l.take ip now').1 now' := by
  obtain ⟨hmax, hwindow⟩ := take_limits l ip now'
  have hsane : Sane l now' := ⟨h.max, h.windowMs, fun ip b hb => ⟨(h.buckets ip b hb).1, (h.buckets ip b hb).2.trans hle⟩⟩
  refine ⟨hmax ▸ h.max, hwindow ▸ h.windowMs, fun ip' b hb => ?_⟩
  rw [lookup_take] at hb
  split_ifs at hb with hip
  · cases hb
    refine ⟨draw_nonneg (zero_le_one.trans h.max) ?_, le_rfl⟩
    cases hlook : l.buckets.lookup ip with
    | none => exact add_nonneg (zero_le_one.trans h.max) (hsane.credit_nonneg le_rfl)
    | some b =>
      obtain ⟨htokens, hts⟩ := hsane.buckets ip b hlook
      exact add_nonneg htokens (hsane.credit_nonneg hts)
  · exact hsane.buckets ip' b hb

/-! ## Forgetting idle buckets -/

/-- `l` is `u` but for buckets it has forgotten, each untouched for a window at least. -/
structure Forgets (l u : InMemoryRateLimiter) (now : ℚ) : Prop where
  max : l.max = u.max
  windowMs : l.windowMs = u.windowMs
  buckets : ∀ ip, l.buckets.lookup ip = u.buckets.lookup ip ∨
    l.buckets.lookup ip = none ∧ ∃ b, u.buckets.lookup ip = some b ∧ u.windowMs ≤ now - b.ts

theorem Forgets.later (h : Forgets l u now) (hle : now ≤ now') : Forgets l u now' := by
  refine ⟨h.max, h.windowMs, fun ip => (h.buckets ip).imp_right ?_⟩
  rintro ⟨hnone, b, hb, hidle⟩
  exact ⟨hnone, b, hb, by linarith⟩

theorem Forgets.sweepIdle (h : Forgets l u now) : Forgets (l.sweepIdle now) u now := by
  unfold InMemoryRateLimiter.sweepIdle
  split_ifs
  · refine ⟨h.max, h.windowMs, fun ip => ?_⟩
    show (l.buckets.keep _).lookup ip = _ ∨ (l.buckets.keep _).lookup ip = none ∧ _
    rw [JsMap.lookup_keep]
    rcases h.buckets ip with heq | ⟨hnone, hidle⟩
    · cases hb : u.buckets.lookup ip with
      | none => exact .inl (by rw [heq, hb, Option.filter_none])
      | some b =>
        rw [heq, hb]
        by_cases hold : now - b.ts ≥ l.windowMs
        · exact .inr ⟨by simp [hold], b, rfl, h.windowMs ▸ hold⟩
        · exact .inl (by simp [hold])
    · exact .inr ⟨by rw [hnone, Option.filter_none], hidle⟩
  · exact h

/-- A bucket that was forgotten had filled up, as the new one in its place. -/
theorem Forgets.take (ip : String) (h : Forgets l u now) (hsane : Sane u now) :
    (l.take ip now).2 = (u.take ip now).2 ∧ Forgets (l.take ip now).1 (u.take ip now).1 now := by
  have hdraw : draw l.max 1 ((l.buckets.lookup ip).getD ⟨l.max, now⟩).tokens
        (l.credit ((l.buckets.lookup ip).getD ⟨l.max, now⟩) now) =
      draw u.max 1 ((u.buckets.lookup ip).getD ⟨u.max, now⟩).tokens
        (u.credit ((u.buckets.lookup ip).getD ⟨u.max, now⟩) now) := by
    unfold credit
    rw [h.max, h.windowMs]
    rcases h.buckets ip with heq | ⟨hnone, b, hb, hidle⟩
    · rw [heq]
    · rw [hnone, hb, Option.getD_none, Option.getD_some]
      have hzero : (now - now) / u.windowMs * u.max = 0 := by rw [sub_self, zero_div, zero_mul]
      have hfull : u.max ≤ (now - b.ts) / u.windowMs * u.max := by
        have hone : 1 ≤ (now - b.ts) / u.windowMs := (one_le_div hsane.windowMs).2 hidle
        exact le_mul_of_one_le_left (zero_le_one.trans hsane.max) hone
      rw [hzero, draw_full (hfull.trans (le_add_of_nonneg_left (hsane.buckets ip b hb).1))]
  obtain ⟨hmax, hwindow⟩ := take_limits l ip now
  obtain ⟨hmax', hwindow'⟩ := take_limits u ip now
  refine ⟨by rw [take_allowed, take_allowed, hdraw], by rw [hmax, hmax', h.max],
    by rw [hwindow, hwindow', h.windowMs], fun ip' => ?_⟩
  rw [lookup_take, lookup_take, hwindow']
  split_ifs
  · exact .inl (by rw [hdraw])
  · exact h.buckets ip'

/-- Along calls in order the limiter decides as the one that never sweeps. -/
theorem decisions_ok : ∀ {calls : List RateCall} {l u : InMemoryRateLimiter} {now : ℚ}, Forgets l u now → Sane u now →
    (calls.map RateCall.now).Pairwise (· ≤ ·) → (∀ c ∈ calls, now ≤ c.now) →
      decisions InMemoryRateLimiter.ok l calls = decisions InMemoryRateLimiter.take u calls
  | [], _, _, _, _, _, _, _ => rfl
  | c :: cs, l, u, now, h, hsane, hsorted, hnow => by
    rw [List.map_cons, List.pairwise_cons] at hsorted
    have hle := hnow c List.mem_cons_self
    have hsane' : Sane u c.now :=
      ⟨hsane.max, hsane.windowMs, fun ip b hb => ⟨(hsane.buckets ip b hb).1, (hsane.buckets ip b hb).2.trans hle⟩⟩
    obtain ⟨hdecision, hforgets⟩ := Forgets.take c.ip (h.later hle).sweepIdle hsane'
    rw [decisions, decisions, InMemoryRateLimiter.ok, hdecision]
    congr 1
    exact decisions_ok hforgets (hsane'.take c.ip le_rfl) hsorted.2 fun c' hc' => hsorted.1 c'.now (List.mem_map_of_mem hc')

/-! ## What one address gets in an interval -/

/-- The calls after the interval do not count. -/
theorem allowedWithin_after {calls : List RateCall} (h : ∀ c ∈ calls, t < c.now) (allowed : List Bool) :
    allowedWithin ip s t calls allowed = 0 := by
  unfold allowedWithin
  rw [List.countP_eq_zero]
  rintro ⟨c, a⟩ hc
  have := h c (List.of_mem_zip hc).1
  simp [this]

theorem allowedWithin_cons_of_not {c : RateCall} (h : ¬(c.ip = ip ∧ s ≤ c.now ∧ c.now ≤ t)) (cs : List RateCall)
    (a : Bool) (as : List Bool) : allowedWithin ip s t (c :: cs) (a :: as) = allowedWithin ip s t cs as := by
  unfold allowedWithin
  rw [List.zip_cons_cons, List.countP_cons_of_neg]
  rw [decide_eq_true_iff]
  exact fun hc => h ⟨hc.1, hc.2.1, hc.2.2.1⟩

/-- A call counts for what it spends at most. -/
theorem allowedWithin_cons_le (c : RateCall) (cs : List RateCall) (a : Bool) (as : List Bool) :
    (allowedWithin ip s t (c :: cs) (a :: as) : ℚ) ≤ allowedWithin ip s t cs as + spent 1 a := by
  unfold allowedWithin
  rw [List.zip_cons_cons, List.countP_cons]
  cases a
  · simp [spent]
  · push_cast
    rw [spent, if_pos rfl]
    gcongr
    split_ifs
    · exact le_rfl
    · exact zero_le_one

/-- From a bucket on, an address gets what is in the bucket and what is credited until the end of the interval. -/
theorem allowedWithin_le_bucket : ∀ {calls : List RateCall} {u : InMemoryRateLimiter} {now : ℚ} {b : Bucket}, Sane u now →
    u.buckets.lookup ip = some b → b.ts ≤ t → (calls.map RateCall.now).Pairwise (· ≤ ·) → (∀ c ∈ calls, now ≤ c.now) →
      (allowedWithin ip s t calls (decisions InMemoryRateLimiter.take u calls) : ℚ) ≤ b.tokens + u.credit b t
  | [], u, now, b, hsane, hb, ht, _, _ => by
    have hcredit : 0 ≤ u.credit b t := hsane.credit_nonneg ht
    simpa [allowedWithin] using add_nonneg (hsane.buckets ip b hb).1 hcredit
  | c :: cs, u, now, b, hsane, hb, ht, hsorted, hnow => by
    have hle := hnow c List.mem_cons_self
    rw [List.map_cons, List.pairwise_cons] at hsorted
    have hrest : ∀ c' ∈ cs, c.now ≤ c'.now := fun c' hc' => hsorted.1 c'.now (List.mem_map_of_mem hc')
    rcases lt_or_ge t c.now with hafter | hwithin
    · rw [allowedWithin_after (List.forall_mem_cons.2 ⟨hafter, fun c' hc' => hafter.trans_le (hrest c' hc')⟩)]
      exact_mod_cast add_nonneg (hsane.buckets ip b hb).1 (hsane.credit_nonneg ht)
    · rw [decisions]
      by_cases hip : c.ip = ip
      · -- the call draws from the bucket; the rest of the calls from what it leaves
        have hlook := lookup_take u ip ip c.now
        rw [if_pos rfl, hb, Option.getD_some] at hlook
        have ih := allowedWithin_le_bucket (hsane.take ip hle) hlook hwithin hsorted.2 hrest
        rw [credit_take] at ih
        have hallowed := take_allowed u ip c.now
        rw [hb, Option.getD_some] at hallowed
        have hdraw := draw_le u.max 1 b.tokens (u.credit b c.now)
        rw [hip]
        calc (allowedWithin ip s t (c :: cs) _ : ℚ)
          _ ≤ allowedWithin ip s t cs (decisions InMemoryRateLimiter.take (u.take ip c.now).1 cs) +
                spent 1 (u.take ip c.now).2 := allowedWithin_cons_le c cs _ _
          _ ≤ b.tokens + (u.credit b c.now + u.credit ⟨_, c.now⟩ t) := by rw [hallowed]; linarith
          _ = b.tokens + u.credit b t := by rw [credit_add]
      · have hlook := lookup_take u c.ip ip c.now
        rw [if_neg (Ne.symm hip)] at hlook
        have ih := allowedWithin_le_bucket (hsane.take c.ip hle) (hlook.trans hb) ht hsorted.2 hrest
        rw [allowedWithin_cons_of_not fun h => hip h.1]
        rwa [credit_take] at ih

/-- In an interval an address gets a full bucket and what is credited in the interval. -/
theorem allowedWithin_le : ∀ {calls : List RateCall} {u : InMemoryRateLimiter} {now : ℚ}, Sane u now → s ≤ t →
    (calls.map RateCall.now).Pairwise (· ≤ ·) → (∀ c ∈ calls, now ≤ c.now) →
      (allowedWithin ip s t calls (decisions InMemoryRateLimiter.take u calls) : ℚ) ≤ u.max + (t - s) / u.windowMs * u.max
  | [], u, now, hsane, hst, _, _ => by
    have hcredit : 0 ≤ (t - s) / u.windowMs * u.max := hsane.credit_nonneg (b := ⟨0, s⟩) hst
    simpa [allowedWithin] using add_nonneg (zero_le_one.trans hsane.max) hcredit
  | c :: cs, u, now, hsane, hst, hsorted, hnow => by
    have hle := hnow c List.mem_cons_self
    rw [List.map_cons, List.pairwise_cons] at hsorted
    have hrest : ∀ c' ∈ cs, c.now ≤ c'.now := fun c' hc' => hsorted.1 c'.now (List.mem_map_of_mem hc')
    rw [decisions]
    by_cases hcounts : c.ip = ip ∧ s ≤ c.now ∧ c.now ≤ t
    · -- the first call that counts leaves a bucket that is not overfull
      obtain ⟨hip, hs, ht⟩ := hcounts
      have hlook := lookup_take u ip ip c.now
      rw [if_pos rfl] at hlook
      have hbucket := allowedWithin_le_bucket (s := s) (hsane.take ip hle) hlook ht hsorted.2 hrest
      rw [credit_take] at hbucket
      have hallowed := take_allowed u ip c.now
      have hdraw := draw_le_cap u.max 1 ((u.buckets.lookup ip).getD ⟨u.max, c.now⟩).tokens
        (u.credit ((u.buckets.lookup ip).getD ⟨u.max, c.now⟩) c.now)
      have hlater : (t - c.now) / u.windowMs * u.max ≤ (t - s) / u.windowMs * u.max := by
        have := zero_le_one.trans hsane.max
        have := hsane.windowMs
        gcongr
      rw [hip]
      calc (allowedWithin ip s t (c :: cs) _ : ℚ)
        _ ≤ allowedWithin ip s t cs (decisions InMemoryRateLimiter.take (u.take ip c.now).1 cs) +
              spent 1 (u.take ip c.now).2 := allowedWithin_cons_le c cs _ _
        _ ≤ u.max + (t - c.now) / u.windowMs * u.max := by
          rw [hallowed]
          unfold credit at hbucket hdraw ⊢
          linarith
        _ ≤ u.max + (t - s) / u.windowMs * u.max := by linarith
    · have ih := allowedWithin_le (hsane.take c.ip hle) hst hsorted.2 hrest
      obtain ⟨hmax, hwindow⟩ := take_limits u c.ip c.now
      rw [hmax, hwindow] at ih
      rwa [allowedWithin_cons_of_not hcounts]

end

/-- A new limiter of `max` tokens in `windowMs`. -/
def InMemoryRateLimiter.new (max windowMs : ℚ) : InMemoryRateLimiter := { max, windowMs }

/-- At times in order, forgetting idle buckets changes no decision, and no address gets more in an interval than
a full bucket and what is refilled in it. -/
theorem rate_limited {max windowMs : ℚ} (hmax : 1 ≤ max) (hwindow : 0 < windowMs) {calls : List RateCall}
    (hsorted : (calls.map RateCall.now).Pairwise (· ≤ ·)) :
    decisions ok (.new max windowMs) calls = decisions InMemoryRateLimiter.take (.new max windowMs) calls ∧
      ∀ (ip : String) (s t : ℚ), s ≤ t →
        (allowedWithin ip s t calls (decisions ok (.new max windowMs) calls) : ℚ) ≤ max + (t - s) * max / windowMs := by
  obtain ⟨now, hnow⟩ : ∃ now, ∀ c ∈ calls, now ≤ c.now := by
    cases calls with
    | nil => exact ⟨0, List.forall_mem_nil _⟩
    | cons c cs =>
      rw [List.map_cons, List.pairwise_cons] at hsorted
      exact ⟨c.now, List.forall_mem_cons.2 ⟨le_rfl, fun c' hc' => hsorted.1 c'.now (List.mem_map_of_mem hc')⟩⟩
  have hsane : Sane (.new max windowMs) now := ⟨hmax, hwindow, fun ip b hb => nomatch hb⟩
  have hsame := decisions_ok ⟨rfl, rfl, fun ip => .inl rfl⟩ hsane hsorted hnow
  refine ⟨hsame, fun ip s t hst => ?_⟩
  rw [hsame, mul_div_right_comm]
  exact allowedWithin_le hsane hst hsorted hnow

theorem rate_limited_burst :
    (1 : ℚ) ≤ 1 ∧ (0 : ℚ) < 1000 ∧
      decisions ok (.new 1 1000) [⟨"a", 5000⟩, ⟨"b", 5500⟩, ⟨"a", 5500⟩, ⟨"a", 6500⟩] = [true, true, false, true] ∧
      (allowedWithin "a" 5000 5500 [⟨"a", 5000⟩, ⟨"b", 5500⟩, ⟨"a", 5500⟩, ⟨"a", 6500⟩]
        (decisions ok (.new 1 1000) [⟨"a", 5000⟩, ⟨"b", 5500⟩, ⟨"a", 5500⟩, ⟨"a", 6500⟩]) : ℚ) ≤
          1 + (5500 - 5000) * 1 / 1000 :=
  ⟨le_rfl, by decide +kernel, by decide +kernel,
    (rate_limited le_rfl (by decide +kernel) (by decide +kernel)).2 "a" 5000 5500 (by decide +kernel)⟩

end Xahc.Facilitator
