import KariDns.Server.RateLimit

/-! Clients that stay within their rate.

`rrl_debit` is meant to let pass whoever never asks for more than the rate in any second. A refill
gives out whole tokens and takes the current time for that of the last refill, so the rest of a
token that was due is lost with it. Which rates bear that is a matter of token buckets; here the
buckets are those of the table, with the debits of other keys in between.
-/

namespace KariDns

open Octets DomainName List

/-! ### A debit of the key -/

section Debit

variable {h : UInt64} {rate window start slip now : Nat} {t : RrlTable}

/-- A debit of another key leaves the bucket of the key as it is, or takes its place. -/
lemma rrlDebit_apart {h' : UInt64} {rate' : Nat} {v : RrlVerdict} {t' : RrlTable} (hne : h' ≠ h)
    (hd : rrlDebit h' rate' window slip now t = (v, t')) {i : Nat} (hi : (t' i).keyHash = h) :
      t' i = t i := by
  rcases rrlDebit_cases hd with rfl | ⟨j, b, -, rfl, hkey⟩
  · rfl
  by_cases hij : i = j
  · subst hij
    rw [Function.update_self, hkey] at hi
    exact absurd hi hne
  · rw [Function.update_of_ne hij]

end Debit

/-! ### Runs -/

section Runs

variable {hash : List UInt8 → UInt64} {cfg : RateLimitConfig} {h : UInt64} {rate start : Nat}

/-- The times at which the key is asked for. -/
def keyTimes (hash : List UInt8 → UInt64) (h : UInt64) (ds : List RrlDebit) : List Nat :=
  (ds.filter fun d => rrlKeyHash hash d.key = h).map (·.now)

/-- The bucket of the key obeys the rule, given the requests so far. -/
def RrlRule (h : UInt64) (inv : TokenBucket.Bucket → List Nat → Prop) (t : RrlTable)
    (past : List Nat) : Prop :=
  ∀ i, (t i).keyHash = h → inv (t i).bucket past

/-- A debit of the key under the rule. -/
lemma rrlDebit_sustained {inv : TokenBucket.Bucket → List Nat → Prop} {window slip now : Nat}
    {past : List Nat} {t t' : RrlTable} {v : RrlVerdict}
    (hs : TokenBucket.Sustains (rrlCap rate window) rate inv) (hk : RrlKeeps h rate window start t)
    (hrule : RrlRule h inv t past) (hstart : start ≤ now) (hfit : (now - start) * rate < 2 ^ 64)
    (hw : TokenBucket.Within rate (now :: past)) (hpast : ∀ u ∈ past, u ≤ now)
    (hd : rrlDebit h rate window slip now t = (v, t')) :
      v.isLimit = false ∧ RrlRule h inv t' (now :: past) := by
  rcases rrlDebit_serves hk hstart hfit
    hd with ⟨-, rfl, rfl, hno⟩ | ⟨i, b, -, rfl, -, hothers, hbucket, -, hv⟩
  · exact ⟨rfl, fun i hi => absurd hi (hno i)⟩
  obtain ⟨hpos, hinv⟩ :
    0 < (TokenBucket.refill (rrlCap rate window) rate now (rrlHeld h rate window t now)).tokens ∧
      inv
      ⟨(TokenBucket.refill (rrlCap rate window) rate now (rrlHeld h rate window t now)).tokens - 1,
        (TokenBucket.refill (rrlCap rate window) rate now (rrlHeld h rate window t now)).last⟩
      (now :: past) := by
    by_cases hi : ∃ i, (t i).keyHash = h
    · obtain ⟨i, hi⟩ := hi
      rw [hk.held_eq hi]
      exact hs.step (hrule i hi) hw hpast
    · rw [rrlHeld_absent (not_exists.mp hi), TokenBucket.refill, if_neg (by simp)]
      exact ⟨hs.pos, hs.fresh⟩
  unfold TokenBucket.serve at hbucket hv
  simp only [if_pos hpos] at hbucket hv
  refine ⟨hv, fun j hj => ?_⟩
  obtain rfl : j = i := by
    by_contra hne
    rw [Function.update_of_ne hne] at hj
    exact hothers j hne hj
  rw [Function.update_self, hbucket]
  exact hinv

/-- A run in which the requests of the key stay within the rate. -/
lemma rrlRunDebits_sustained {inv : TokenBucket.Bucket → List Nat → Prop}
    (hs : TokenBucket.Sustains (rrlCap rate (rrlWindow cfg)) rate inv) (h0 : h ≠ 0)
    (ds : List RrlDebit) (ok : DebitsOk hash h rate start ds) (t : RrlTable) (past : List Nat)
    (hk : RrlKeeps h rate (rrlWindow cfg) start t) (hrule : RrlRule h inv t past)
    (hpast : ∀ u ∈ past, ∀ d ∈ ds, u ≤ d.now)
    (hw : TokenBucket.Within rate (past.reverse ++ keyTimes hash h ds)) :
    ∀ v ∈ (rrlRunDebits hash cfg ds t).1, rrlKeyHash hash v.1.key = h → v.2.isLimit = false := by
  induction ds generalizing t past with
  | nil => simp [rrlRunDebits]
  | cons d ds ih =>
    cases hd : rrlDebit (rrlKeyHash hash d.key) d.rate (rrlWindow cfg) cfg.slip d.now t with
    | mk v t' =>
      have hk' := (rrlDebit_step ok h0 hk hd).1
      have hrest : ∀ u ∈ past, ∀ d' ∈ ds, u ≤ d'.now := fun u hu d' hd' =>
        hpast u hu d' (mem_cons_of_mem _ hd')
      rw [rrlRunDebits, hd]
      dsimp only
      by_cases hh : rrlKeyHash hash d.key = h
      · have htimes : keyTimes hash h (d :: ds) = d.now :: keyTimes hash h ds := by
          simp [keyTimes, hh]
        have hall : past.reverse ++ keyTimes hash h (d :: ds) = (d.now :: past).reverse ++
            keyTimes hash h ds := by
          rw [htimes]
          simp
        rw [hall] at hw
        have hnow : TokenBucket.Within rate (d.now :: past) := by
          intro u
          rw [← countP_reverse]
          exact (sublist_append_left ..).countP_le.trans (hw u)
        rw [hh, ok.rate d mem_cons_self hh] at hd
        obtain ⟨hv, hrule'⟩ := rrlDebit_sustained hs hk hrule (ok.since d mem_cons_self)
          (ok.fits d mem_cons_self) hnow (fun u hu => hpast u hu d mem_cons_self) hd
        have hpast' : ∀ u ∈ d.now :: past, ∀ d' ∈ ds, u ≤ d'.now := by
          rintro u (_ | ⟨_, hu⟩) d' hd'
          · exact ok.head_le d' (mem_cons_of_mem _ hd')
          · exact hrest u hu d' hd'
        rintro w (_ | ⟨_, hw'⟩) hkey
        · exact hv
        · exact ih ok.tail t' (d.now :: past) hk' hrule' hpast' hw w hw' hkey
      have htimes : keyTimes hash h (d :: ds) = keyTimes hash h ds := by simp [keyTimes, hh]
      rw [htimes] at hw
      have hrule' : RrlRule h inv t' past := by
        intro i hi
        have hsame := rrlDebit_apart hh hd hi
        rw [hsame] at hi ⊢
        exact hrule i hi
      rintro w (_ | ⟨_, hw'⟩) hkey
      · exact absurd hkey hh
      · exact ih ok.tail t' past hk' hrule' hrest hw w hw' hkey

/-- The key alone in a table that has a slot for it. -/
lemma rrlRunDebits_alone (key : List UInt8) (ts : List Nat)
    (hfits : ∀ now ∈ ts, now * rate < 2 ^ 64) (t : RrlTable)
    (hk : RrlKeeps (rrlKeyHash hash key) rate (rrlWindow cfg) 0 t)
    (hslot : ∀ now, ts.head? = some now →
      rrlSelect (rrlKeyHash hash key) (rrlWindow cfg) now t ≠ none) :
    (rrlRunDebits hash cfg (ts.map fun now => ⟨key, rate, now⟩) t).1.map (fun v => !v.2.isLimit) =
      (TokenBucket.serveAll (rrlCap rate (rrlWindow cfg)) rate ts
        (rrlHeld (rrlKeyHash hash key) rate (rrlWindow cfg) t (ts.headD 0))).1 := by
  induction ts generalizing t with
  | nil => rfl
  | cons now ts ih =>
    have hnow := hfits now mem_cons_self
    cases hd : rrlDebit (rrlKeyHash hash key) rate (rrlWindow cfg) cfg.slip now t with
    | mk v t' =>
      have hk' := (rrlDebit_own hk (Nat.zero_le now) (by simpa using hnow) hd).1
      rcases rrlDebit_serves hk (Nat.zero_le now) (by simpa using hnow) hd with
        ⟨hnone, -⟩ | ⟨i, b, -, rfl, hb, -, hbucket, -, hv⟩
      · exact absurd hnone (hslot now rfl)
      have hat : (Function.update t i b i).keyHash = rrlKeyHash hash key := by
        rwa [Function.update_self]
      have hrest := ih (fun u hu => hfits u (mem_cons_of_mem _ hu)) _ hk' fun u _ => by
        unfold rrlSelect
        rw [hk'.find_eq hat]
        nofun
      rw [hk'.held_eq hat, Function.update_self, hbucket] at hrest
      rw [map_cons, rrlRunDebits, hd, TokenBucket.serveAll, headD_cons]
      dsimp only
      rw [map_cons, hrest, hv, Bool.not_not]

end Runs

/-! ### Which rates a steady client can rely on -/

/-- Debits in the order of time; those of one key have its rate, and in no 1000 milliseconds there
are more of them than the rate says. No time is so late that its product with the rate needs more
than 64 bits. -/
structure Steady (hash : List UInt8 → UInt64) (h : UInt64) (rate : Nat)
    (ds : List RrlDebit) : Prop where
  sorted : ds.Pairwise fun d d' => d.now ≤ d'.now
  fits : ∀ d ∈ ds, d.now * rate < 2 ^ 64
  own : ∀ d ∈ ds, rrlKeyHash hash d.key = h → d.rate = rate
  within : TokenBucket.Within rate (keyTimes hash h ds)

/-- No debit of the key, made from an empty table on, limits it. -/
def NeverLimited (hash : List UInt8 → UInt64) (cfg : RateLimitConfig) (h : UInt64)
    (ds : List RrlDebit) : Prop :=
  ∀ v ∈ (rrlRunDebits hash cfg ds fun _ => {}).1, rrlKeyHash hash v.1.key = h → v.2.isLimit = false

/-- The requests of one key that is alone in the table. -/
lemma steady_alone {rate : Nat} (key : List UInt8) {ts : List Nat} (hsorted : ts.Pairwise (· ≤ ·))
    (hfits : ∀ now ∈ ts, now * rate < 2 ^ 64) (hw : TokenBucket.Within rate ts)
    (hash : List UInt8 → UInt64) :
    Steady hash (rrlKeyHash hash key) rate (ts.map fun now => ⟨key, rate, now⟩) where
  sorted := pairwise_map.mpr hsorted
  fits := by
    intro d hd
    obtain ⟨now, hnow, rfl⟩ := mem_map.mp hd
    exact hfits now hnow
  own := by
    intro d hd _
    obtain ⟨now, -, rfl⟩ := mem_map.mp hd
    rfl
  within := by
    have htimes : keyTimes hash (rrlKeyHash hash key)
        (ts.map fun now => ⟨key, rate, now⟩) = ts := by
      unfold keyTimes
      rw [filter_eq_self.mpr, map_map]
      · exact map_id ts
      intro d hd
      obtain ⟨now, -, rfl⟩ := mem_map.mp hd
      simp
    rw [htimes]
    exact hw

/-- A window of one second. -/
def oneSecond : RateLimitConfig := { windowSeconds := 1 }

/-- Requests from time 0 on that a full bucket does not serve are limited. -/
lemma limited_of_starved {rate : Nat} {ts : List Nat} (hfits : ∀ now ∈ 0 :: ts, now * rate < 2 ^ 64)
    (h : false ∈ (TokenBucket.serveAll (rrlCap rate 1) rate (0 :: ts) ⟨rrlCap rate 1, 0⟩).1)
    (key : List UInt8) (hash : List UInt8 → UInt64) :
    ¬ NeverLimited hash oneSecond (rrlKeyHash hash key)
      ((0 :: ts).map fun now => ⟨key, rate, now⟩) := by
  intro hnever
  have hempty : ∀ i, ((fun _ => {} : RrlTable) i).keyHash ≠ rrlKeyHash hash key := fun _ =>
    (rrlKeyHash_ne_zero hash key).symm
  -- the first debit takes an empty slot
  have hslot : rrlSelect (rrlKeyHash hash key) 1 0 (fun _ => {}) ≠ none := by
    intro hnone
    unfold rrlSelect at hnone
    simp only [Option.orElse_eq_orElse, Option.orElse_eq_or, Option.or_eq_none_iff,
      find?_eq_none] at hnone
    have hmem : (rrlKeyHash hash key).toNat % rrlTableSize % rrlTableSize ∈
        rrlSlots (rrlKeyHash hash key) :=
      mem_map.mpr ⟨0, by simp, rfl⟩
    exact hnone.2 _ hmem (by simp)
  have hrun := @rrlRunDebits_alone hash oneSecond rate key (0 :: ts) hfits (fun _ => {})
    (rrlKeeps_empty hempty)
    fun now hnow => Option.some.inj hnow ▸ hslot
  rw [rrlHeld_absent hempty, headD_cons] at hrun
  rw [← show rrlWindow oneSecond = 1 from rfl, ← hrun] at h
  obtain ⟨v, hv, hlim⟩ := mem_map.mp h
  have hmem : v.1 ∈ (0 :: ts).map fun now => (⟨key, rate, now⟩ : RrlDebit) := by
    rw [← @rrlRunDebits_fst hash oneSecond ((0 :: ts).map _) fun _ => {}]
    exact mem_map_of_mem hv
  obtain ⟨_, -, hkey⟩ := mem_map.mp hmem
  rw [hnever v hv (by rw [← hkey])] at hlim
  cases hlim

/-- A client that stays within its rate is never limited, whatever the window is and whatever other
keys do, just when no rest of a token is ever lost or its loss does not matter, and a bucket holds
as many tokens as the rate. -/
theorem steady_never_limited_iff (rate : Nat) :
    (∀ (hash : List UInt8 → UInt64) (cfg : RateLimitConfig) (h : UInt64) (ds : List RrlDebit),
        Steady hash h rate ds → NeverLimited hash cfg h ds) ↔
      rate ≤ 0x7FFFFFFF ∧ (rate ≤ 2 ∨ 1000 ∣ rate) := by
  constructor
  · intro hall
    have hcounter : ∀ ts : List Nat, (0 :: ts).Pairwise (· ≤ ·) →
      (∀ now ∈ 0 :: ts, now * rate < 2 ^ 64) →
        TokenBucket.Within rate (0 :: ts) →
        false ∉ (TokenBucket.serveAll (rrlCap rate 1) rate (0 :: ts) ⟨rrlCap rate 1, 0⟩).1 := by
      intro ts hsorted hfits hw hstarved
      exact limited_of_starved hfits hstarved [] (fun _ => 1)
        (hall _ _ _ _ (steady_alone [] hsorted hfits hw fun _ => 1))
    have hsmall : rate ≤ 0x7FFFFFFF := by
      by_contra hbig
      have hcap : rrlCap rate 1 = 0x7FFFFFFF := by
        unfold rrlCap
        omega
      -- all at once, one more than a bucket holds
      refine hcounter (List.replicate 0x7FFFFFFF 0) ?_ ?_ ?_ ?_
      all_goals rw [← replicate_succ]
      · exact pairwise_replicate.mpr (.inr (Nat.le_refl 0))
      · intro now hnow
        rw [eq_of_mem_replicate hnow]
        simp
      · intro t
        rw [countP_replicate]
        split <;> omega
      rw [hcap, TokenBucket.serveAll_burst (if_neg (by simp)) 0x7FFFFFFF]
      simp only [mem_append, mem_replicate]
      exact .inr ⟨by omega, trivial⟩
    refine ⟨hsmall, ?_⟩
    by_contra hbad
    obtain ⟨hthree, hdvd⟩ := not_or.mp hbad
    have hcap : rrlCap rate 1 = rate := by
      unfold rrlCap
      omega
    -- one of two neighbours leaves a rest
    obtain ⟨a, ha, hrest⟩ : ∃ a, (a = 500 ∨ a = 501) ∧ ¬ 1000 ∣ a * rate := by
      by_contra hno
      have h500 : 1000 ∣ 500 * rate := by
        by_contra hn
        exact hno ⟨500, .inl rfl, hn⟩
      have h501 : 1000 ∣ 501 * rate := by
        by_contra hn
        exact hno ⟨501, .inr rfl, hn⟩
      omega
    have hfits : ∀ now ∈ TokenBucket.uneven rate a, now * rate < 2 ^ 64 := by
      intro now hnow
      simp only [TokenBucket.uneven, mem_append, mem_singleton, mem_replicate] at hnow
      have hle : now ≤ 3000 := by omega
      calc now * rate ≤ 3000 * 0x7FFFFFFF := Nat.mul_le_mul hle hsmall
        _ < 2 ^ 64 := by decide
    have hstarved := @TokenBucket.starved rate a (by omega) hrest
      (by rcases ha with rfl | rfl <;> omega) (by rcases ha with rfl | rfl <;> omega)
    refine hcounter _ (@TokenBucket.uneven_sorted rate a (by omega)) hfits
      (TokenBucket.uneven_within (by omega)) ?_
    rw [hcap]
    exact hstarved
  · rintro ⟨hsmall, hgood⟩ hash cfg h ds hsteady
    have hwindow : 1 ≤ rrlWindow cfg := by
      unfold rrlWindow
      split <;> omega
    have hcap : rate ≤ rrlCap rate (rrlWindow cfg) := by
      unfold rrlCap
      exact le_min (Nat.le_mul_of_pos_right rate hwindow) hsmall
    by_cases hocc : ∃ d ∈ ds, rrlKeyHash hash d.key = h
    · obtain ⟨d₀, hd₀, rfl⟩ := hocc
      have hrate : 0 < rate := by
        have hmem : d₀.now ∈ keyTimes hash (rrlKeyHash hash d₀.key) ds :=
          mem_map_of_mem (mem_filter.mpr ⟨hd₀, by simp⟩)
        have hcount := hsteady.within d₀.now
        have hone : 0 < (keyTimes hash (rrlKeyHash hash d₀.key) ds).countP
            (fun u => d₀.now ≤ u ∧ u < d₀.now + 1000) := countP_pos_iff.mpr ⟨d₀.now, hmem, by simp⟩
        exact Nat.lt_of_lt_of_le hone hcount
      have h0 := rrlKeyHash_ne_zero hash d₀.key
      have ok : DebitsOk hash (rrlKeyHash hash d₀.key) rate 0 ds :=
        ⟨hsteady.sorted, fun d _ => Nat.zero_le _,
          fun d hd => by simpa using hsteady.fits d hd, hsteady.own⟩
      have hempty : ∀ i, ((fun _ => {} : RrlTable) i).keyHash ≠ rrlKeyHash hash d₀.key :=
        fun _ => h0.symm
      have hrun : ∀ inv, TokenBucket.Sustains (rrlCap rate (rrlWindow cfg)) rate inv →
          NeverLimited hash cfg (rrlKeyHash hash d₀.key) ds := fun inv hs =>
        rrlRunDebits_sustained hs h0 ds ok _ [] (rrlKeeps_empty hempty)
          (fun i hi => absurd hi (hempty i)) (by simp) hsteady.within
      rcases hgood with hslow | hdvd
      · exact hrun _ (TokenBucket.sustains_slow hrate hslow hcap)
      · exact hrun _ (TokenBucket.sustains_exact hdvd hrate hcap)
    · intro v hv hkey
      have hmem : v.1 ∈ ds := by
        rw [← @rrlRunDebits_fst hash cfg ds fun _ => {}]
        exact mem_map_of_mem hv
      exact absurd ⟨v.1, hmem, hkey⟩ hocc

/-- A client within three responses per second: never more than three in a second, and its eighth
request is limited. -/
theorem three_per_second_limited :
    (∀ t, [0, 0, 500, 1001, 1001, 1501, 2002, 2002].countP (fun u => t ≤ u ∧ u ≤ t + 1000) ≤ 3) ∧
      (rrlRunDebits (fun _ => 1) oneSecond
        ([0, 0, 500, 1001, 1001, 1501, 2002, 2002].map fun now => ⟨[], 3, now⟩)
        fun _ => {}).1.map (·.2) =
        [.allow, .allow, .allow, .allow, .allow, .allow, .allow, .limit false] := by
  refine ⟨?_, by decide +kernel⟩
  intro t
  simp only [countP_cons, countP_nil, decide_eq_true_eq]
  split_ifs <;> omega

end KariDns
