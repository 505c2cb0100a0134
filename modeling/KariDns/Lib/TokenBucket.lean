import Mathlib.Tactic.Common
import Mathlib.Tactic.Ring
import Mathlib.Algebra.Order.Ring.Nat

/-! Token buckets.

A bucket gains `rate` tokens in 1000 units of time, up to `cap` of them, and whole tokens only: what
is left over stays due as long as the time of the last refill stands. `level` is what a bucket can
still give out, in thousandths of a token.

A refill that gives out whole tokens forgets the rest. The second part asks which rates bear that:
a full bucket serves all requests that never come faster than the rate if no refill has a rest
(`sustains_exact`) or if they come so rarely that the rest does not matter (`sustains_slow`), and at
every other rate there are such requests that it does not serve (`starved`).
-/

namespace TokenBucket

open List

variable {b : Bucket} {now : Nat}

/-- A bucket: the tokens left, and the time of the last refill. -/
structure Bucket where
  tokens : Nat
  last : Nat

variable {cap rate : Nat}

/-- The bucket after a refill at time `now`. -/
def refill (cap rate now : Nat) (b : Bucket) : Bucket :=
  if (now - b.last) * rate / 1000 > 0 then
    ⟨min (b.tokens + (now - b.last) * rate / 1000) cap, now⟩ else b

/-- Tokens and what is due at time `t`, in thousandths. -/
def credit (rate : Nat) (b : Bucket) (t : Nat) : Nat := 1000 * b.tokens + (t - b.last) * rate

/-- What can be given out from time `t` on, were no more to come. -/
def level (cap rate : Nat) (b : Bucket) (t : Nat) : Nat := min (credit rate b t) (1000 * cap + 999)

lemma level_le (b : Bucket) (t : Nat) : level cap rate b t ≤ 1000 * cap + 999 := Nat.min_le_right ..

/-- A refill gives out nothing that was not due. -/
lemma credit_refill (h : b.tokens ≤ cap) (now : Nat) :
    credit rate (refill cap rate now b) now ≤ level cap rate b now := by
  unfold refill level
  split
  · simp only [credit, Nat.sub_self, Nat.zero_mul, Nat.add_zero]
    omega
  · unfold credit
    omega

/-- A token that is taken counts for 1000. -/
lemma level_take (h : 0 < b.tokens) (t : Nat) :
    level cap rate ⟨b.tokens - 1, b.last⟩ t + 1000 ≤ credit rate b t := by
  unfold level credit
  simp only
  omega

/-- In some time no more becomes due than the rate says. -/
lemma level_later (b : Bucket) {t t' : Nat} (h : t ≤ t') :
    level cap rate b t' ≤ level cap rate b t + (t' - t) * rate := by
  have hdue : (t' - b.last) * rate ≤ (t - b.last) * rate + (t' - t) * rate := by
    rw [← Nat.add_mul]
    exact Nat.mul_le_mul_right rate (by omega)
  unfold level credit
  omega

/-- A bucket that was left alone long enough to fill up is full. -/
lemma level_idle {window t : Nat} (hcap : cap ≤ rate * window) (ht : b.last + 1000 * window < t) :
    1000 * cap ≤ level cap rate b t := by
  have hdue : 1000 * cap ≤ (t - b.last) * rate := calc
    1000 * cap ≤ 1000 * (rate * window) := Nat.mul_le_mul_left 1000 hcap
    _ = 1000 * window * rate := by ring
    _ ≤ (t - b.last) * rate := Nat.mul_le_mul_right rate (by omega)
  unfold level credit
  omega

/-! ### Requests -/

/-- One request: a token is taken if there is one. -/
def serve (cap rate now : Nat) (b : Bucket) : Bool × Bucket :=
  let b := refill cap rate now b
  if b.tokens > 0 then (true, ⟨b.tokens - 1, b.last⟩) else (false, b)

lemma serve_tokens_le (h : b.tokens ≤ cap) : (serve cap rate now b).2.tokens ≤ cap := by
  unfold serve refill
  dsimp only
  split_ifs <;> dsimp only <;> omega

lemma serve_since {start : Nat} (h : start ≤ b.last) (hnow : start ≤ now) :
    start ≤ (serve cap rate now b).2.last := by
  unfold serve refill
  dsimp only
  split_ifs <;> assumption

/-- A request that is served costs what a token counts for. -/
lemma level_serve (h : b.tokens ≤ cap) : level cap rate (serve cap rate now b).2 now +
    (if (serve cap rate now b).1 = true then 1000 else 0) ≤ level cap rate b now := by
  have hcredit := @credit_refill b cap rate h now
  unfold serve
  dsimp only
  split
  · exact (level_take ‹_› now).trans hcredit
  · exact (Nat.min_le_left ..).trans hcredit

/-- Requests one after the other, and which of them are served. -/
def serveAll (cap rate : Nat) : List Nat → Bucket → List Bool × Bucket
  | [], b => ([], b)
  | now :: ts, b =>
    let (ok, b) := serve cap rate now b
    let (oks, b) := serveAll cap rate ts b
    (ok :: oks, b)

/-- No 1000 units of time have more than `rate` requests. -/
def Within (rate : Nat) (ts : List Nat) : Prop :=
  ∀ t, ts.countP (fun u => t ≤ u ∧ u < t + 1000) ≤ rate

/-- In a longer time there are no more requests than the rate allows for each 1000 units of it. -/
lemma Within.countP_le {ts : List Nat} (h : Within rate ts) (s k : Nat) :
    ts.countP (fun u => s ≤ u ∧ u < s + 1000 * k) ≤ rate * k := by
  induction k with
  | zero =>
    refine Nat.le_of_eq (countP_eq_zero.mpr fun u _ => ?_)
    simp only [decide_eq_true_eq]
    omega
  | succ k ih =>
    have hsplit : ts.countP (fun u => s ≤ u ∧ u < s + 1000 * (k + 1)) ≤
      ts.countP (fun u => s ≤ u ∧ u < s + 1000 * k) +
          ts.countP (fun u => s + 1000 * k ≤ u ∧ u < s + 1000 * k + 1000) := by
      clear h ih
      induction ts with
      | nil => simp
      | cons u ts ih =>
        simp only [countP_cons, decide_eq_true_eq]
        split_ifs <;> omega
    have hlast := h (s + 1000 * k)
    have hrate : rate * (k + 1) = rate * k + rate := Nat.mul_succ ..
    omega

/-- A rule that keeps a bucket from being empty when a request comes: `inv` holds of the bucket and
the requests so far, the last one first. -/
structure Sustains (cap rate : Nat) (inv : Bucket → List Nat → Prop) : Prop where
  pos : 0 < cap
  fresh : ∀ {now past}, inv ⟨cap - 1, now⟩ (now :: past)
  step : ∀ {b past now}, inv b past → Within rate (now :: past) → (∀ u ∈ past, u ≤ now) →
    0 < (refill cap rate now b).tokens ∧
      inv ⟨(refill cap rate now b).tokens - 1, (refill cap rate now b).last⟩ (now :: past)

/-! ### Rates without a rest -/

/-- Since time `s`, when the bucket was full, all that came in is in it or was taken. -/
def Accounted (cap rate : Nat) (b : Bucket) (past : List Nat) : Prop :=
  (∃ u ∈ past, b.last ≤ u) ∧
    ∃ s ≤ b.last, 1000 * cap + (b.last - s) * rate ≤ 1000 * b.tokens +
      1000 * past.countP (fun u => s ≤ u)

/-- Enough is accounted for to serve a request more. -/
lemma accounted_serves {tokens s : Nat} {past : List Nat} (hcap : rate ≤ cap) (hs : s ≤ now)
    (hw : Within rate (now :: past)) (hpast : ∀ u ∈ past, u ≤ now)
    (h : 1000 * cap + (now - s) * rate ≤ 1000 * tokens + 1000 * past.countP (fun u => s ≤ u)) :
      0 < tokens := by
  have hcount := hw.countP_le s ((now - s) / 1000 + 1)
  have hall : (now :: past).countP (fun u => s ≤ u ∧ u < s + 1000 * ((now - s) / 1000 + 1)) =
      past.countP (fun u => s ≤ u) + 1 := by
    rw [countP_cons_of_pos (by simp only [decide_eq_true_eq]; omega)]
    congr 1
    refine countP_congr fun u hu => ?_
    have := hpast u hu
    simp only [decide_eq_true_eq]
    omega
  have hdue : 1000 * (rate * ((now - s) / 1000)) ≤ (now - s) * rate := calc
    1000 * (rate * ((now - s) / 1000)) = 1000 * ((now - s) / 1000) * rate := by ring
    _ ≤ (now - s) * rate := Nat.mul_le_mul_right rate (Nat.mul_div_le ..)
  rw [hall, Nat.mul_succ] at hcount
  omega

lemma sustains_exact (hdvd : 1000 ∣ rate) (hpos : 0 < rate) (hcap : rate ≤ cap) :
    Sustains cap rate (Accounted cap rate) where
  pos := by omega
  fresh := by
    intro now past
    refine ⟨⟨now, mem_cons_self, Nat.le_refl _⟩, now, Nat.le_refl _, ?_⟩
    rw [countP_cons_of_pos (by simp)]
    simp only [Nat.sub_self, Nat.zero_mul]
    omega
  step := by
    intro b past now hinv hw hpast
    obtain ⟨⟨u, hu, hlast⟩, s, hs, hacc⟩ := hinv
    have hle : b.last ≤ now := hlast.trans (hpast u hu)
    -- no refill has a rest
    have hwhole : 1000 * ((now - b.last) * rate / 1000) = (now - b.last) * rate :=
      Nat.mul_div_cancel' (hdvd.mul_left _)
    have hnow : (now :: past).countP (fun u => s ≤ u) = past.countP (fun u => s ≤ u) + 1 :=
      countP_cons_of_pos (by simp only [decide_eq_true_eq]; omega)
    have htime : (now - s) * rate = (b.last - s) * rate + (now - b.last) * rate := by
      rw [← Nat.add_mul]
      congr 1
      omega
    unfold refill
    split
    · rename_i hadd
      dsimp only
      rcases Nat.lt_or_ge cap (b.tokens + (now - b.last) * rate / 1000) with hover | hunder
      · -- the bucket is full once more
        rw [Nat.min_eq_right (by omega)]
        refine ⟨by omega, ⟨now, mem_cons_self, Nat.le_refl _⟩, now, Nat.le_refl _, ?_⟩
        rw [countP_cons_of_pos (by simp)]
        simp only [Nat.sub_self, Nat.zero_mul]
        omega
      rw [Nat.min_eq_left hunder]
      have hacc' : 1000 * cap + (now - s) * rate ≤
          1000 * (b.tokens + (now - b.last) * rate / 1000) +
            1000 * past.countP (fun u => s ≤ u) := by
        omega
      have htok := accounted_serves hcap (by omega) hw hpast hacc'
      refine ⟨htok, ⟨now, mem_cons_self, Nat.le_refl _⟩, s, hs.trans hle, ?_⟩
      dsimp only
      rw [hnow]
      omega
    rename_i hnone
    have hsame : (now - b.last) * rate = 0 := by omega
    have hacc' : 1000 * cap + (now - s) * rate ≤ 1000 * b.tokens +
        1000 * past.countP (fun u => s ≤ u) := by omega
    have htok := accounted_serves hcap (by omega) hw hpast hacc'
    refine ⟨htok, ⟨now, mem_cons_self, hle⟩, s, hs, ?_⟩
    dsimp only
    rw [hnow]
    omega

/-! ### One or two requests -/

/-- The last request brought a refill and left a token less than the rate, or it is the second since
the refill. -/
def Rare (rate : Nat) (b : Bucket) (past : List Nat) : Prop :=
  (past.head? = some b.last ∧ rate ≤ b.tokens + 1) ∨
    (rate = 2 ∧ ∃ c past', past = c :: b.last :: past' ∧ b.last ≤ c)

/-- With a token less than the rate and 1000 units of time, or a second request half of that later,
there is enough for the next one. -/
lemma refill_slow {need : Nat} (hcap : need ≤ cap)
    (hneed : need ≤ b.tokens + (now - b.last) * rate / 1000)
    (hadd : (now - b.last) * rate / 1000 > 0) :
    need ≤ (refill cap rate now b).tokens ∧ (refill cap rate now b).last = now := by
  unfold refill
  rw [if_pos hadd]
  exact ⟨le_min hneed hcap, rfl⟩

lemma sustains_slow (hpos : 0 < rate) (hslow : rate ≤ 2) (hcap : rate ≤ cap) :
    Sustains cap rate (Rare rate) where
  pos := by omega
  fresh := .inl ⟨rfl, by dsimp only; omega⟩
  step := by
    intro b past now hinv hw hpast
    -- a refill that leaves `rate` tokens is followed by one request
    have hfull : rate ≤ (refill cap rate now b).tokens ∧ (refill cap rate now b).last = now →
        0 < (refill cap rate now b).tokens ∧
          Rare rate ⟨(refill cap rate now b).tokens - 1, (refill cap rate now b).last⟩
            (now :: past) := by
      rintro ⟨htok, hlast⟩
      exact ⟨by omega, .inl ⟨by simp [hlast], by dsimp only; omega⟩⟩
    rcases hinv with ⟨hhead, htok⟩ | ⟨rfl, c, past', rfl, hc⟩
    · obtain ⟨past', rfl⟩ : ∃ past', past = b.last :: past' := by
        cases past with
        | nil => cases hhead
        | cons u past' => exact ⟨past', by rw [Option.some.inj hhead]⟩
      have hle := hpast b.last mem_cons_self
      by_cases hadd : (now - b.last) * rate / 1000 > 0
      · exact hfull (refill_slow hcap (by omega) hadd)
      have hrefill : refill cap rate now b = b := if_neg hadd
      -- two requests so close are too many for a rate of 1
      have htwo : rate = 2 := by
        by_contra hne
        obtain rfl : rate = 1 := by omega
        have hcount := hw b.last
        rw [countP_cons_of_pos (by simp only [decide_eq_true_eq]; omega),
          countP_cons_of_pos (by simp)] at hcount
        omega
      subst htwo
      rw [hrefill]
      exact ⟨by omega, .inr ⟨rfl, now, past', rfl, hle⟩⟩
    have hle := hpast c mem_cons_self
    -- three requests are not so close
    have hfar : b.last + 1000 ≤ now := by
      by_contra hnear
      have hcount := hw b.last
      rw [countP_cons_of_pos (by simp only [decide_eq_true_eq]; omega),
        countP_cons_of_pos (by simp only [decide_eq_true_eq]; omega),
        countP_cons_of_pos (by simp)] at hcount
      omega
    exact hfull (refill_slow hcap (by omega) (by omega))

/-! ### Every other rate -/

lemma serveAll_append (ts ts' : List Nat) (b : Bucket) : serveAll cap rate (ts ++ ts') b =
      ((serveAll cap rate ts b).1 ++ (serveAll cap rate ts' (serveAll cap rate ts b).2).1,
        (serveAll cap rate ts' (serveAll cap rate ts b).2).2) := by
  induction ts generalizing b with
  | nil => rfl
  | cons now ts ih => simp [serveAll, ih]

/-- Requests at one time take what a refill at that time leaves. -/
lemma serveAll_burst {tokens : Nat} (hb : refill cap rate now b = ⟨tokens, now⟩) (k : Nat) :
    serveAll cap rate (List.replicate (k + 1) now) b =
      (List.replicate (min (k + 1) tokens) true ++ List.replicate (k + 1 - tokens) false,
        ⟨tokens - (k + 1), now⟩) := by
  induction k generalizing b tokens with
  | zero =>
    cases tokens with
    | zero => simp [serveAll, serve, hb]
    | succ n => simp [serveAll, serve, hb]
  | succ k ih =>
    have hidle : ∀ n, refill cap rate now ⟨n, now⟩ = ⟨n, now⟩ := fun n => if_neg (by simp)
    rw [replicate_succ, serveAll]
    cases tokens with
    | zero =>
      have hserve : serve cap rate now b = (false, ⟨0, now⟩) := by simp [serve, hb]
      rw [hserve]
      dsimp only
      rw [ih (hidle 0)]
      simp [replicate_succ]
    | succ n =>
      have hserve : serve cap rate now b = (true, ⟨n, now⟩) := by simp [serve, hb]
      rw [hserve]
      dsimp only
      rw [ih (hidle n)]
      simp [replicate_succ, Nat.succ_min_succ]

/-- A request at the start of every 1000 units and the others together, `a` units later. -/
def uneven (rate a : Nat) : List Nat :=
  [0] ++ List.replicate (rate - 1) a ++ ([1000] ++ List.replicate (rate - 1) (1000 + a)) ++
    ([2000] ++ List.replicate (rate - 1) (2000 + a))

lemma uneven_within {a : Nat} (hrate : 0 < rate) : Within rate (uneven rate a) := by
  intro t
  simp only [uneven, countP_append, countP_cons, countP_nil, countP_replicate, decide_eq_true_eq]
  split_ifs <;> omega

lemma uneven_sorted {a : Nat} (ha : a < 1000) : (uneven rate a).Pairwise (· ≤ ·) := by
  have hrep : ∀ (k u : Nat), (List.replicate k u).Pairwise (· ≤ ·) := fun k u =>
    pairwise_replicate.mpr (.inr (Nat.le_refl u))
  simp only [uneven, pairwise_append, hrep, pairwise_singleton, mem_append, mem_singleton,
    mem_replicate, true_and]
  refine ⟨⟨?_, ?_, ?_⟩, ?_, ?_⟩ <;> intros <;> omega

/-- At a rate of three or more, of which 1000 is no divisor, each 1000 units of such requests cost a
token, and the bucket runs out. -/
lemma starved {a : Nat} (ha : a < 1000) (hrest : ¬ 1000 ∣ a * rate) (hfirst : 1000 ≤ a * rate)
    (hsecond : 1000 ≤ (1000 - a) * rate) :
      false ∈ (serveAll rate rate (uneven rate a) ⟨rate, 0⟩).1 := by
  -- what comes in before and after the second group
  obtain ⟨g₁, hg₁⟩ : ∃ g, a * rate / 1000 = g := ⟨_, rfl⟩
  obtain ⟨g₂, hg₂⟩ : ∃ g, (1000 - a) * rate / 1000 = g := ⟨_, rfl⟩
  have htotal : a * rate + (1000 - a) * rate = 1000 * rate := by
    rw [← Nat.add_mul]
    congr 1
    omega
  have hlost : g₁ + g₂ + 1 = rate := by
    have := Nat.div_add_mod (a * rate) 1000
    have hmod : a * rate % 1000 ≠ 0 := fun h => hrest (Nat.dvd_of_mod_eq_zero h)
    omega
  have hpos : 0 < g₁ ∧ 0 < g₂ := by omega
  have hgain₁ : ∀ n s, refill rate rate (s + a) ⟨n, s⟩ = ⟨min (n + g₁) rate, s + a⟩ := by
    intro n s
    unfold refill
    dsimp only
    rw [Nat.add_sub_cancel_left, hg₁, if_pos hpos.1]
  have hgain₂ : ∀ n s, refill rate rate (s + 1000) ⟨n, s + a⟩ = ⟨min (n + g₂) rate, s + 1000⟩ := by
    intro n s
    unfold refill
    dsimp only
    rw [show s + 1000 - (s + a) = 1000 - a by omega, hg₂, if_pos hpos.2]
  obtain ⟨k, hk⟩ : ∃ k, rate - 1 = k + 1 := ⟨rate - 2, by omega⟩
  -- one request and then the others together
  have hround : ∀ n s b, refill rate rate s b = ⟨n + 1, s⟩ →
      serveAll rate rate ([s] ++ List.replicate (rate - 1) (s + a)) b =
        (true :: (List.replicate (min (rate - 1) (min (n + g₁) rate)) true ++
          List.replicate (rate - 1 - min (n + g₁) rate) false),
            ⟨min (n + g₁) rate - (rate - 1), s + a⟩) := by
    intro n s b hb
    have hserve : serve rate rate s b = (true, ⟨n, s⟩) := by simp [serve, hb]
    rw [singleton_append, serveAll, hserve, hk]
    dsimp only
    rw [serveAll_burst (hgain₁ n s) k]
  have h₁ :=
    hround (rate - 1) 0 ⟨rate, 0⟩
      (by rw [show rate - 1 + 1 = rate by omega]; exact if_neg (by simp))
  rw [Nat.zero_add] at h₁
  have h₂ := hround g₂ 1000 ⟨1, a⟩ (by
    have := hgain₂ 1 0
    rw [Nat.zero_add, Nat.zero_add] at this
    rw [this, Nat.min_eq_left (by omega), Nat.add_comm])
  have h₃ := hround (g₂ - 1) 2000 ⟨0, 1000 + a⟩ (by
    rw [hgain₂ 0 1000, Nat.min_eq_left (by omega)]
    congr 1
    omega)
  rw [show min (rate - 1 + g₁) rate - (rate - 1) = 1 by omega] at h₁
  rw [show min (g₂ + g₁) rate - (rate - 1) = 0 by omega] at h₂
  rw [uneven, serveAll_append, serveAll_append, h₁, h₂, h₃]
  simp only [mem_append, mem_cons, mem_replicate]
  right
  right
  right
  exact ⟨by omega, trivial⟩

end TokenBucket
