import KariDns.Lib.TokenBucket
import KariDns.Net.Cidr

/-! Response rate limiting (`dns_rrl.c`).

A response is counted in the bucket of its key: the prefix of the client's address together with
the class of the response and, depending on the class, the name and type it is about. The table has
a fixed size; a key may take any of four slots, the slot of a key that was silent for a whole window
included.

Times are those of a monotonic clock, in milliseconds. SipHash is a parameter.
-/

namespace KariDns

open Octets DomainName List

variable {ds : List RrlDebit} {i : Nat} {d : RrlDebit}

/-! ### Keys -/

/-- `rrl_response_class_t`. -/
inductive RrlClass
  | noerror | nodata | nxdomain | error | referral | all
  deriving DecidableEq, Repr

def RrlClass.code : RrlClass → UInt8
  | .noerror => 0
  | .nodata => 1
  | .nxdomain => 2
  | .error => 3
  | .referral => 4
  | .all => 5

/-- `rate_limit_config_t`; the prefix lengths are `none` where they are not set. -/
structure RateLimitConfig where
  configured : Bool := true
  logOnly : Bool := false
  responsesPerSecond : Nat := 0
  nodataPerSecond : Nat := 0
  nxdomainsPerSecond : Nat := 0
  errorsPerSecond : Nat := 0
  referralsPerSecond : Nat := 0
  allPerSecond : Nat := 0
  ipv4PrefixLength : Option Nat := none
  ipv6PrefixLength : Option Nat := none
  windowSeconds : Nat := 0
  slip : Nat := 0
  exemptClients : List Cidr := []

/-- `rrl_key_t`. -/
structure RrlKey where
  cls : RrlClass
  name : Option Text := none
  wildcard : Bool := false
  qtype : Nat := 0
  qclass : Nat := 0

/-- `rrl_rate`. -/
def rrlRate (cfg : RateLimitConfig) : RrlClass → Nat
  | .noerror => cfg.responsesPerSecond
  | .nodata => cfg.nodataPerSecond
  | .nxdomain => cfg.nxdomainsPerSecond
  | .referral => cfg.referralsPerSecond
  | .all => cfg.allPerSecond
  | .error => cfg.errorsPerSecond

/-- `rrl_window`. -/
def rrlWindow (cfg : RateLimitConfig) : Nat :=
  min (if cfg.windowSeconds > 0 then cfg.windowSeconds else 15) 3600

/-- `sizeof(buf)` in `rrl_key_hash`. -/
def rrlKeyMax : Nat := 2 + 16 + 4 + 2 + 1025

/-- The octets `rrl_key_hash` digests. -/
def rrlKeyOctets (cfg : RateLimitConfig) (family : Nat) (addr : List UInt8)
    (key : RrlKey) : List UInt8 :=
  let plen := if family = afInet6 then cfg.ipv6PrefixLength.getD 56
    else cfg.ipv4PrefixLength.getD 24
  let client := (List.range (afWidth family)).map fun i =>
    addr.getD i 0 &&& BitPrefix.mask (min 8 (plen - 8 * i))
  let qtype := if key.cls = .noerror then be16 key.qtype else []
  let qclass := if key.cls = .noerror ∨ key.cls = .nodata ∨ key.cls = .referral then
    be16 key.qclass else []
  let name :=
    match key.name with
    | none => []
    | some name =>
      if key.cls = .error ∨ key.cls = .all then []
      else
        let len := if name.length > 1 then dnsNameLenNoRoot name else name.length
        (if key.wildcard then [42, 46] else []) ++ (name.take len).map lower
  ([key.cls.code, UInt8.ofNat family] ++ client ++ qtype ++ qclass ++ name).take rrlKeyMax

/-- `rrl_key_hash`; 0 marks an empty bucket. -/
def rrlKeyHash (hash : List UInt8 → UInt64) (key : List UInt8) : UInt64 :=
  if hash key ≠ 0 then hash key else 1

/-! ### Buckets -/

/-- `RRL_TABLE_SIZE`. -/
def rrlTableSize : Nat := 131072

/-- `rrl_bucket_t`. -/
structure RrlBucket where
  keyHash : UInt64 := 0
  lastRefill : Nat := 0
  tokens : Nat := 0
  slipCounter : Nat := 0

/-- `g_rrl_table`. -/
abbrev RrlTable := Nat → RrlBucket

/-- The slots a key may take (`RRL_PROBE_WAYS`). -/
def rrlSlots (hash : UInt64) : List Nat :=
  (List.range 4).map fun probe => (hash.toNat % rrlTableSize + probe) % rrlTableSize

/-- The two passes of `rrl_debit` over the slots: that of the key, else one that is empty or was
silent for the whole window. -/
def rrlSelect (hash : UInt64) (window now : Nat) (t : RrlTable) : Option Nat :=
  (rrlSlots hash).find? (fun i => (t i).keyHash = hash) <|>
    (rrlSlots hash).find? fun i => (t i).keyHash = 0 ∨ now > (t i).lastRefill + window * 1000

/-- What `rrl_debit` returns: 1, 0 with `*out_slip`, or -1. -/
inductive RrlVerdict
  | allow
  | limit (slip : Bool)
  | busy
  deriving DecidableEq, Repr

/-- `max_cap`. -/
def rrlCap (rate window : Nat) : Nat := min (rate * window) 0x7FFFFFFF

/-- The bucket of a key when its token is about to be taken; the product is one of 64 bits. -/
def rrlRefill (hash : UInt64) (rate window now : Nat) (b : RrlBucket) : RrlBucket :=
  if b.keyHash ≠ hash then ⟨hash, now, rrlCap rate window, 0⟩
  else
    let elapsed := now - b.lastRefill
    if elapsed > 0 then
      let add := elapsed * rate % 2 ^ 64 / 1000
      if add > 0 then
        { b with
          tokens := min (b.tokens + min add (rrlCap rate window)) (rrlCap rate window)
          lastRefill := now }
      else b
    else b

/-- `rrl_debit`. -/
def rrlDebit (hash : UInt64) (rate window slip now : Nat) (t : RrlTable) : RrlVerdict × RrlTable :=
  match rrlSelect hash window now t with
  | none => (.busy, t)
  | some i =>
    let b := rrlRefill hash rate window now (t i)
    if b.tokens > 0 then (.allow, Function.update t i { b with tokens := b.tokens - 1 })
    else
      let c := (b.slipCounter + 1) % 2 ^ 32
      (.limit (slip > 0 ∧ c % slip = 0), Function.update t i { b with slipCounter := c })

/-! ### Checks -/

/-- One call of `rrl_check_key`. -/
structure RrlCheck where
  family : Nat
  addr : List UInt8
  key : RrlKey
  now : Nat

/-- One call of `rrl_debit`, with the octets of its key. -/
structure RrlDebit where
  key : List UInt8
  rate : Nat
  now : Nat

/-- The debits `rrl_check_key` makes: in the bucket of the key, and in that of all responses to the
client. -/
def rrlDebits (cfg : RateLimitConfig) (c : RrlCheck) : List RrlDebit :=
  if !cfg.configured then []
  else if c.family ≠ afInet ∧ c.family ≠ afInet6 then []
  else if rrlRate cfg c.key.cls = 0 ∧ cfg.allPerSecond = 0 then []
  else if cfg.exemptClients.any fun net => cidrEntryMatch net c.family c.addr then []
  else
    (if rrlRate cfg c.key.cls > 0 then
      [⟨rrlKeyOctets cfg c.family c.addr c.key, rrlRate cfg c.key.cls, c.now⟩] else []) ++
      if cfg.allPerSecond > 0 then
        [⟨rrlKeyOctets cfg c.family c.addr { cls := .all }, cfg.allPerSecond, c.now⟩] else []

section Checks

variable (hash : List UInt8 → UInt64) (cfg : RateLimitConfig)

/-- The debits of some keys, one after the other, with what each of them returns. -/
def rrlRunDebits : List RrlDebit → RrlTable → List (RrlDebit × RrlVerdict) × RrlTable
  | [], t => ([], t)
  | d :: ds, t =>
    let (v, t) := rrlDebit (rrlKeyHash hash d.key) d.rate (rrlWindow cfg) cfg.slip d.now t
    let (vs, t) := rrlRunDebits ds t
    ((d, v) :: vs, t)

/-- What a check comes to: what its debits return, whether the response is sent, and whether it
is sent truncated. -/
structure RrlOutcome where
  now : Nat
  verdicts : List (RrlDebit × RrlVerdict)
  allowed : Bool
  slip : Bool

/-- A debit that limits the response. -/
def RrlVerdict.isLimit : RrlVerdict → Bool
  | .limit _ => true
  | _ => false

/-- `rrl_check_key`. -/
def rrlCheckKey (c : RrlCheck) (t : RrlTable) : RrlOutcome × RrlTable :=
  let (vs, t) := rrlRunDebits hash cfg (rrlDebits cfg c) t
  let slip :=
    match vs.reverse.find? fun v => v.2.isLimit with
    | some (_, .limit slip) => slip && !cfg.logOnly
    | _ => false
  (⟨c.now, vs, !vs.any (fun v => v.2.isLimit) || cfg.logOnly, slip⟩, t)

/-- A sequence of checks. -/
def rrlRun : List RrlCheck → RrlTable → List RrlOutcome
  | [], _ => []
  | c :: cs, t =>
    let (o, t) := rrlCheckKey hash cfg c t
    o :: rrlRun cs t

end Checks

/-- How many responses are allowed for a key from `t₀` to `t₀ + T`, by checks that found a bucket
for it. -/
def allowedFor (key : List UInt8) (t₀ T : Nat) (os : List RrlOutcome) : Nat :=
  os.countP fun o => t₀ ≤ o.now && o.now ≤ t₀ + T && o.allowed &&
    o.verdicts.any fun v => v.1.key == key && v.2 != .busy

/-! ### What the table can still give to a key -/

lemma rrlKeyHash_ne_zero (hash : List UInt8 → UInt64) (key : List UInt8) :
    rrlKeyHash hash key ≠ 0 := by
  unfold rrlKeyHash
  split
  · assumption
  · decide

section Level

variable {h : UInt64} {rate window start : Nat} {t : RrlTable}

/-- The tokens of a bucket and the time of its last refill. -/
def RrlBucket.bucket (b : RrlBucket) : TokenBucket.Bucket := ⟨b.tokens, b.lastRefill⟩

/-- What the key can still get at time `now`: what its bucket has, or a full one. -/
def rrlLevel (h : UInt64) (rate window : Nat) (t : RrlTable) (now : Nat) : Nat :=
  match (rrlSlots h).find? fun i => (t i).keyHash = h with
  | some i => TokenBucket.level (rrlCap rate window) rate (t i).bucket now
  | none => 1000 * rrlCap rate window

/-- The bucket a request of the key is served from: its own, or a full one. -/
def rrlHeld (h : UInt64) (rate window : Nat) (t : RrlTable) (now : Nat) : TokenBucket.Bucket :=
  match (rrlSlots h).find? fun i => (t i).keyHash = h with
  | some i => (t i).bucket
  | none => ⟨rrlCap rate window, now⟩

lemma rrlLevel_eq (h : UInt64) (rate window : Nat) (t : RrlTable) (now : Nat) :
    rrlLevel h rate window t now =
      TokenBucket.level (rrlCap rate window) rate (rrlHeld h rate window t now) now := by
  unfold rrlLevel rrlHeld
  split
  · rfl
  · simp [TokenBucket.level, TokenBucket.credit]

/-- The key has one bucket at most, in a slot of its own, with no more tokens than it may have, and
not refilled before `start`. -/
structure RrlKeeps (h : UInt64) (rate window start : Nat) (t : RrlTable) : Prop where
  unique : ∀ i j, (t i).keyHash = h → (t j).keyHash = h → i = j
  home : ∀ i, (t i).keyHash = h → i ∈ rrlSlots h
  tokens : ∀ i, (t i).keyHash = h → (t i).tokens ≤ rrlCap rate window
  since : ∀ i, (t i).keyHash = h → start ≤ (t i).lastRefill

lemma rrlKeeps_empty (hno : ∀ i, (t i).keyHash ≠ h) : RrlKeeps h rate window start t :=
  ⟨fun i _ hi => absurd hi (hno i), fun i hi => absurd hi (hno i), fun i hi => absurd hi (hno i),
    fun i hi => absurd hi (hno i)⟩

lemma RrlKeeps.find_eq (hk : RrlKeeps h rate window start t) (hi : (t i).keyHash = h) :
    (rrlSlots h).find? (fun i => (t i).keyHash = h) = some i := by
  cases hf : (rrlSlots h).find? fun i => (t i).keyHash = h with
  | none => exact absurd (by simpa using hi) (find?_eq_none.mp hf i (hk.home i hi))
  | some j =>
    have hj : (t j).keyHash = h := by simpa using find?_some hf
    rw [hk.unique j i hj hi]

lemma RrlKeeps.find_none (hk : RrlKeeps h rate window start t)
    (hf : (rrlSlots h).find? (fun i => (t i).keyHash = h) = none) (i : Nat) : (t i).keyHash ≠ h :=
  fun hi => absurd ((hk.find_eq hi).symm.trans hf) (by simp)

lemma RrlKeeps.held_eq (hk : RrlKeeps h rate window start t) (hi : (t i).keyHash = h) (now : Nat) :
    rrlHeld h rate window t now = (t i).bucket := by
  unfold rrlHeld
  rw [hk.find_eq hi]

lemma rrlHeld_absent (hno : ∀ i, (t i).keyHash ≠ h) (now : Nat) :
    rrlHeld h rate window t now = ⟨rrlCap rate window, now⟩ := by
  have hf : (rrlSlots h).find? (fun i => (t i).keyHash = h) = none :=
    find?_eq_none.mpr fun i _ => by simpa using hno i
  unfold rrlHeld
  rw [hf]

lemma RrlKeeps.level_eq (hk : RrlKeeps h rate window start t) (hi : (t i).keyHash = h) (now : Nat) :
    rrlLevel h rate window t now =
      TokenBucket.level (rrlCap rate window) rate (t i).bucket now := by
  rw [rrlLevel_eq, hk.held_eq hi]

lemma rrlLevel_absent (hno : ∀ i, (t i).keyHash ≠ h) (now : Nat) :
    rrlLevel h rate window t now = 1000 * rrlCap rate window := by
  rw [rrlLevel_eq, rrlHeld_absent hno]
  simp [TokenBucket.level, TokenBucket.credit]

lemma rrlLevel_le (h : UInt64) (rate window : Nat) (t : RrlTable) (now : Nat) :
    rrlLevel h rate window t now ≤ 1000 * rrlCap rate window + 999 := by
  unfold rrlLevel
  split
  · exact TokenBucket.level_le _ _
  · omega

lemma rrlLevel_later (t : RrlTable) {now now' : Nat} (hle : now ≤ now') :
    rrlLevel h rate window t now' ≤ rrlLevel h rate window t now + (now' - now) * rate := by
  unfold rrlLevel
  split
  · exact TokenBucket.level_later _ hle
  · exact Nat.le_add_right ..

/-- The slot of the key is written. -/
lemma RrlKeeps.put_own (hi : i ∈ rrlSlots h) (hno : ∀ j, j ≠ i → (t j).keyHash ≠ h) {b : RrlBucket}
    (htok : b.tokens ≤ rrlCap rate window) (hs : start ≤ b.lastRefill) :
    RrlKeeps h rate window start (Function.update t i b) := by
  have hat : ∀ j, (Function.update t i b j).keyHash = h → j = i := by
    intro j hj
    by_contra hne
    rw [Function.update_of_ne hne] at hj
    exact hno j hne hj
  refine ⟨fun j k hj hk => (hat j hj).trans (hat k hk).symm, fun j hj => hat j hj ▸ hi,
    fun j hj => ?_, fun j hj => ?_⟩
  · rw [hat j hj, Function.update_self]
    exact htok
  · rw [hat j hj, Function.update_self]
    exact hs

/-- A slot is written with another key. -/
lemma RrlKeeps.put_other (hk : RrlKeeps h rate window start t) (i : Nat) {b : RrlBucket}
    (hb : b.keyHash ≠ h) :
    RrlKeeps h rate window start (Function.update t i b) := by
  have hat : ∀ j, (Function.update t i b j).keyHash = h → j ≠ i ∧ (t j).keyHash = h := by
    intro j hj
    by_cases hji : j = i
    · rw [hji, Function.update_self] at hj
      exact absurd hj hb
    · rw [Function.update_of_ne hji] at hj
      exact ⟨hji, hj⟩
  refine ⟨fun j k hj hk' => hk.unique j k (hat j hj).2 (hat k hk').2,
    fun j hj => hk.home j (hat j hj).2,
    fun j hj => ?_, fun j hj => ?_⟩
  · rw [Function.update_of_ne (hat j hj).1]
    exact hk.tokens j (hat j hj).2
  · rw [Function.update_of_ne (hat j hj).1]
    exact hk.since j (hat j hj).2

/-- As long as the product fits in 64 bits, a bucket of the key is refilled as token buckets are. -/
lemma rrlRefill_own {b : RrlBucket} {now : Nat} (hb : b.keyHash = h)
    (hfit : (now - b.lastRefill) * rate < 2 ^ 64) :
    (rrlRefill h rate window now b).bucket =
      TokenBucket.refill (rrlCap rate window) rate now b.bucket := by
  have hbucket : b.bucket.last = b.lastRefill ∧ b.bucket.tokens = b.tokens := ⟨rfl, rfl⟩
  unfold rrlRefill TokenBucket.refill
  rw [if_neg (not_not.mpr hb), hbucket.1, hbucket.2]
  simp only [Nat.mod_eq_of_lt hfit]
  by_cases hadd : (now - b.lastRefill) * rate / 1000 > 0
  · have hpos : now - b.lastRefill > 0 := by
      by_contra h0
      rw [show now - b.lastRefill = 0 by omega] at hadd
      simp at hadd
    rw [if_pos hpos, if_pos hadd, if_pos hadd]
    unfold RrlBucket.bucket
    simp only [TokenBucket.Bucket.mk.injEq, and_true]
    omega
  · rw [if_neg hadd, if_neg hadd, ite_self]

end Level

/-! ### One debit -/

section Debit

variable {h : UInt64} {rate window start slip now : Nat} {t t' : RrlTable} {v : RrlVerdict}

lemma rrlRefill_keyHash (h : UInt64) (rate window now : Nat) (b : RrlBucket) :
    (rrlRefill h rate window now b).keyHash = h := by
  unfold rrlRefill
  split
  · rfl
  rename_i hb
  have hb := not_not.mp hb
  simp only
  split
  · split <;> exact hb
  · exact hb

/-- A debit finds no slot, or writes one that carries the key. -/
lemma rrlDebit_cases (hd : rrlDebit h rate window slip now t = (v, t')) :
    t' = t ∨ ∃ i b, rrlSelect h window now t = some i ∧ t' = Function.update t i b ∧
      b.keyHash = h := by
  unfold rrlDebit at hd
  cases hsel : rrlSelect h window now t with
  | none =>
    rw [hsel] at hd
    exact .inl (Prod.mk.inj hd).2.symm
  | some i =>
    rw [hsel] at hd
    dsimp only at hd
    have hkey := rrlRefill_keyHash h rate window now (t i)
    split at hd
    all_goals exact .inr ⟨i, _, rfl, (Prod.mk.inj hd).2.symm, hkey⟩

/-- The slot that is selected carries the key, or the key is nowhere and the slot is empty or was
silent for a whole window. -/
lemma rrlSelect_cases (hsel : rrlSelect h window now t = some i) :
    i ∈ rrlSlots h ∧ ((t i).keyHash = h ∨
      (rrlSlots h).find? (fun i => (t i).keyHash = h) = none ∧
        ((t i).keyHash = 0 ∨ now > (t i).lastRefill + window * 1000)) := by
  unfold rrlSelect at hsel
  cases hf : (rrlSlots h).find? fun i => (t i).keyHash = h with
  | some j =>
    rw [hf] at hsel
    cases hsel
    exact ⟨mem_of_find?_eq_some hf, .inl (by simpa using find?_some hf)⟩
  | none =>
    rw [hf] at hsel
    change List.find? _ _ = some i at hsel
    exact ⟨mem_of_find?_eq_some hsel, .inr ⟨rfl, by simpa using find?_some hsel⟩⟩

/-- A debit of another key leaves the key what it had; a bucket that is taken over was full. -/
lemma rrlDebit_other (hk : RrlKeeps h rate window start t) (h0 : h ≠ 0) {h' : UInt64} {rate' : Nat}
    (hne : h' ≠ h) (hd : rrlDebit h' rate' window slip now t = (v, t')) :
    RrlKeeps h rate window start t' ∧
      rrlLevel h rate window t' now ≤ rrlLevel h rate window t now := by
  rcases rrlDebit_cases hd with rfl | ⟨i, b, hsel, rfl, hkey⟩
  · exact ⟨hk, Nat.le_refl _⟩
  have hbne : b.keyHash ≠ h := hkey ▸ hne
  have hk' := hk.put_other i hbne
  refine ⟨hk', ?_⟩
  by_cases hi : (t i).keyHash = h
  · -- the bucket of the key goes to another one, so it was silent for the window
    obtain ⟨-, hwas | ⟨-, hzero | hold⟩⟩ := rrlSelect_cases hsel
    · exact absurd (hwas.symm.trans hi) hne
    · exact absurd (hi.symm.trans hzero) h0
    have hgone : ∀ j, (Function.update t i b j).keyHash ≠ h := by
      intro j hj
      by_cases hji : j = i
      · rw [hji, Function.update_self] at hj
        exact hbne hj
      · rw [Function.update_of_ne hji] at hj
        exact hji (hk.unique j i hj hi)
    rw [rrlLevel_absent hgone, hk.level_eq hi]
    exact TokenBucket.level_idle (Nat.min_le_left ..) (by rw [Nat.mul_comm]; exact hold)
  by_cases hj : ∃ j, (t j).keyHash = h
  · obtain ⟨j, hj⟩ := hj
    have hji : j ≠ i := fun he => hi (he ▸ hj)
    have hj' : (Function.update t i b j).keyHash = h := by rwa [Function.update_of_ne hji]
    rw [hk'.level_eq hj', hk.level_eq hj, Function.update_of_ne hji]
  have hno : ∀ j, (t j).keyHash ≠ h := fun j hj' => hj ⟨j, hj'⟩
  have hno' : ∀ j, (Function.update t i b j).keyHash ≠ h := by
    intro j
    by_cases hji : j = i
    · rwa [hji, Function.update_self]
    · rw [Function.update_of_ne hji]
      exact hno j
  rw [rrlLevel_absent hno, rrlLevel_absent hno']

/-- A debit of the key finds no slot, or one where the bucket is served. -/
lemma rrlDebit_serves (hk : RrlKeeps h rate window start t) (hstart : start ≤ now)
    (hfit : (now - start) * rate < 2 ^ 64) (hd : rrlDebit h rate window slip now t = (v, t')) :
    (rrlSelect h window now t = none ∧ v = .busy ∧ t' = t ∧ ∀ i, (t i).keyHash ≠ h) ∨
      ∃ i b, i ∈ rrlSlots h ∧ t' = Function.update t i b ∧ b.keyHash = h ∧
        (∀ j, j ≠ i → (t j).keyHash ≠ h) ∧
        b.bucket =
          (TokenBucket.serve (rrlCap rate window) rate now (rrlHeld h rate window t now)).2 ∧
            v ≠ .busy ∧
        v.isLimit =
          !(TokenBucket.serve (rrlCap rate window) rate now (rrlHeld h rate window t now)).1 := by
  unfold rrlDebit at hd
  cases hsel : rrlSelect h window now t with
  | none =>
    rw [hsel] at hd
    obtain ⟨rfl, rfl⟩ := Prod.mk.inj hd
    refine .inl ⟨rfl, rfl, rfl, fun i hi => ?_⟩
    unfold rrlSelect at hsel
    rw [hk.find_eq hi] at hsel
    cases hsel
  | some i =>
    rw [hsel] at hd
    dsimp only at hd
    obtain ⟨hslot, hfound⟩ := rrlSelect_cases hsel
    obtain ⟨hothers, hheld⟩ : (∀ j, j ≠ i → (t j).keyHash ≠ h) ∧
      (rrlRefill h rate window now (t i)).bucket =
        TokenBucket.refill (rrlCap rate window) rate now (rrlHeld h rate window t now) := by
      rcases hfound with hi | ⟨hnone, -⟩
      · have hsince := hk.since i hi
        rw [hk.held_eq hi]
        exact ⟨fun j hj hj' => hj (hk.unique j i hj' hi),
          rrlRefill_own hi (Nat.lt_of_le_of_lt (Nat.mul_le_mul_right rate (by omega)) hfit)⟩
      · have hno := hk.find_none hnone
        rw [rrlHeld_absent hno, rrlRefill, if_pos (hno i)]
        exact ⟨fun j _ => hno j, by simp [TokenBucket.refill, RrlBucket.bucket]⟩
    have hkey := rrlRefill_keyHash h rate window now (t i)
    unfold TokenBucket.serve
    rw [← hheld]
    generalize rrlRefill h rate window now (t i) = b at hd hkey
    have htok : b.bucket.tokens = b.tokens := rfl
    dsimp only
    rw [htok]
    split at hd
    all_goals
      rename_i hpos
      obtain ⟨rfl, rfl⟩ := Prod.mk.inj hd
      refine .inr ⟨i, _, hslot, rfl, hkey, hothers, ?_⟩
      simp [hpos, RrlBucket.bucket, RrlVerdict.isLimit]

/-- A debit of the key: a token that is given out is missing afterwards. -/
lemma rrlDebit_own (hk : RrlKeeps h rate window start t) (hstart : start ≤ now)
    (hfit : (now - start) * rate < 2 ^ 64) (hd : rrlDebit h rate window slip now t = (v, t')) :
    RrlKeeps h rate window start t' ∧
      rrlLevel h rate window t' now + (if v = .allow then 1000 else 0) ≤
        rrlLevel h rate window t now := by
  rcases rrlDebit_serves hk hstart hfit hd with ⟨-, rfl, rfl, -⟩ | ⟨i, b, hslot, rfl, hkey, hothers,
    hbucket, hbusy, hv⟩
  · exact ⟨hk, Nat.le_refl _⟩
  obtain ⟨htok, hsince⟩ : (rrlHeld h rate window t now).tokens ≤ rrlCap rate window ∧
      start ≤ (rrlHeld h rate window t now).last := by
    by_cases hi : ∃ i, (t i).keyHash = h
    · obtain ⟨i, hi⟩ := hi
      rw [hk.held_eq hi]
      exact ⟨hk.tokens i hi, hk.since i hi⟩
    · rw [rrlHeld_absent (not_exists.mp hi)]
      exact ⟨Nat.le_refl _, hstart⟩
  have hk' : RrlKeeps h rate window start (Function.update t i b) := by
    refine RrlKeeps.put_own hslot hothers ?_ ?_
    · exact (congrArg TokenBucket.Bucket.tokens hbucket).trans_le (TokenBucket.serve_tokens_le htok)
    · exact (TokenBucket.serve_since hsince hstart).trans_eq
        (congrArg TokenBucket.Bucket.last hbucket).symm
  have hat : (Function.update t i b i).keyHash = h := by rwa [Function.update_self]
  have hallow : v = .allow ↔
      (TokenBucket.serve (rrlCap rate window) rate now (rrlHeld h rate window t now)).1 = true := by
    cases v with
    | busy => exact absurd rfl hbusy
    | allow => simpa [RrlVerdict.isLimit] using hv
    | limit slip => simpa [RrlVerdict.isLimit] using hv
  refine ⟨hk', ?_⟩
  rw [hk'.level_eq hat, Function.update_self, hbucket, rrlLevel_eq]
  simp only [hallow]
  exact TokenBucket.level_serve htok

end Debit

/-! ### Runs -/

/-- How many of some debits give the key a token between `t₀` and `u`. -/
def tokensGiven (hash : List UInt8 → UInt64) (h : UInt64) (t₀ u : Nat)
    (vs : List (RrlDebit × RrlVerdict)) : Nat :=
  vs.countP fun v => t₀ ≤ v.1.now ∧ v.1.now ≤ u ∧ rrlKeyHash hash v.1.key = h ∧ v.2 = .allow

section Runs

variable {hash : List UInt8 → UInt64} {cfg : RateLimitConfig} {h : UInt64} {rate start : Nat}

/-- The debits are in the order of time and not before `start`, those of the key have its rate, and
no time between them is so long that the product wraps around. -/
structure DebitsOk (hash : List UInt8 → UInt64) (h : UInt64) (rate start : Nat)
    (ds : List RrlDebit) : Prop where
  sorted : ds.Pairwise fun d d' => d.now ≤ d'.now
  since : ∀ d ∈ ds, start ≤ d.now
  fits : ∀ d ∈ ds, (d.now - start) * rate < 2 ^ 64
  rate : ∀ d ∈ ds, rrlKeyHash hash d.key = h → d.rate = rate

lemma DebitsOk.tail (ok : DebitsOk hash h rate start (d :: ds)) :
    DebitsOk hash h rate start ds where
  sorted := (pairwise_cons.mp ok.sorted).2
  since := fun d hd => ok.since d (mem_cons_of_mem _ hd)
  fits := fun d hd => ok.fits d (mem_cons_of_mem _ hd)
  rate := fun d hd => ok.rate d (mem_cons_of_mem _ hd)

lemma DebitsOk.head_le (ok : DebitsOk hash h rate start (d :: ds)) :
    ∀ d' ∈ d :: ds, d.now ≤ d'.now := by
  rintro d' (_ | ⟨_, hin⟩)
  · exact Nat.le_refl _
  · exact (pairwise_cons.mp ok.sorted).1 d' hin

/-- One debit of a run, of the key or of another. -/
lemma rrlDebit_step (ok : DebitsOk hash h rate start (d :: ds)) (h0 : h ≠ 0) {t t' : RrlTable}
    {v : RrlVerdict} (hk : RrlKeeps h rate (rrlWindow cfg) start t)
    (hd : rrlDebit (rrlKeyHash hash d.key) d.rate (rrlWindow cfg) cfg.slip d.now t = (v, t')) :
    RrlKeeps h rate (rrlWindow cfg) start t' ∧
      rrlLevel h rate (rrlWindow cfg) t' d.now +
        (if rrlKeyHash hash d.key = h ∧ v = .allow then 1000 else 0) ≤
        rrlLevel h rate (rrlWindow cfg) t d.now := by
  by_cases hh : rrlKeyHash hash d.key = h
  · rw [hh, ok.rate d mem_cons_self hh] at hd
    have := rrlDebit_own hk (ok.since d mem_cons_self) (ok.fits d mem_cons_self) hd
    simpa [hh] using this
  · have := rrlDebit_other hk h0 hh hd
    simpa [hh] using this

lemma rrlRunDebits_fst (ds : List RrlDebit) (t : RrlTable) :
    (rrlRunDebits hash cfg ds t).1.map Prod.fst = ds := by
  induction ds generalizing t with
  | nil => rfl
  | cons d ds ih => simp [rrlRunDebits, ih]

/-- Nothing behind the end of the interval counts. -/
lemma tokensGiven_late {t₀ u : Nat} (hlate : ∀ d ∈ ds, u < d.now) (t : RrlTable) :
    tokensGiven hash h t₀ u (rrlRunDebits hash cfg ds t).1 = 0 := by
  refine countP_eq_zero.mpr fun p hp => ?_
  have hmem : p.1 ∈ ds := by
    rw [← @rrlRunDebits_fst hash cfg ds t]
    exact mem_map_of_mem hp
  have := hlate _ hmem
  simp only [decide_eq_true_eq]
  omega

/-- From a moment inside the interval on, a key gets no more than it has and what comes in. -/
lemma tokensGiven_inside (h0 : h ≠ 0) (t₀ u : Nat) (ds : List RrlDebit)
    (ok : DebitsOk hash h rate start ds) (t : RrlTable)
    (hk : RrlKeeps h rate (rrlWindow cfg) start t) (now : Nat) (hnow : ∀ d ∈ ds, now ≤ d.now)
    (hu : now ≤ u) :
    1000 * tokensGiven hash h t₀ u (rrlRunDebits hash cfg ds t).1 ≤
      rrlLevel h rate (rrlWindow cfg) t now + (u - now) * rate := by
  induction ds generalizing t now with
  | nil => simp [rrlRunDebits, tokensGiven]
  | cons d ds ih =>
    have hall := ok.head_le
    cases hd : rrlDebit (rrlKeyHash hash d.key) d.rate (rrlWindow cfg) cfg.slip d.now t with
    | mk v t' =>
      obtain ⟨hk', hlevel⟩ := rrlDebit_step ok h0 hk hd
      have hle := hnow d mem_cons_self
      by_cases hdu : d.now ≤ u
      · have hrest := ih ok.tail t' hk' d.now (fun d' hd' => hall d' (mem_cons_of_mem _ hd')) hdu
        have hlater := @rrlLevel_later h rate (rrlWindow cfg) t _ _ hle
        have htime : (u - now) * rate = (u - d.now) * rate + (d.now - now) * rate := by
          rw [← Nat.add_mul]
          congr 1
          omega
        have hcount : tokensGiven hash h t₀ u (rrlRunDebits hash cfg (d :: ds) t).1 ≤
            tokensGiven hash h t₀ u (rrlRunDebits hash cfg ds t').1 +
              if rrlKeyHash hash d.key = h ∧ v = .allow then 1 else 0 := by
          simp only [rrlRunDebits, hd, tokensGiven, countP_cons, decide_eq_true_eq]
          split <;> split <;> simp_all
        split at hcount <;> split at hlevel <;> simp_all <;> omega
      · rw [tokensGiven_late fun d' hd' => Nat.lt_of_lt_of_le (Nat.not_le.mp hdu) (hall d' hd')]
        omega

/-- In any interval a key gets no more than a full bucket and what comes in. -/
lemma tokensGiven_le (h0 : h ≠ 0) (t₀ T : Nat) (ds : List RrlDebit)
    (ok : DebitsOk hash h rate start ds) (t : RrlTable)
    (hk : RrlKeeps h rate (rrlWindow cfg) start t) :
    1000 * tokensGiven hash h t₀ (t₀ + T) (rrlRunDebits hash cfg ds t).1 ≤
      1000 * rrlCap rate (rrlWindow cfg) + 999 + T * rate := by
  induction ds generalizing t with
  | nil => simp [rrlRunDebits, tokensGiven]
  | cons d ds ih =>
    have hall := ok.head_le
    by_cases hbefore : d.now < t₀
    · cases hd : rrlDebit (rrlKeyHash hash d.key) d.rate (rrlWindow cfg) cfg.slip d.now t with
      | mk v t' =>
        have hrest := ih ok.tail t' (rrlDebit_step ok h0 hk hd).1
        have hcount : tokensGiven hash h t₀ (t₀ + T) (rrlRunDebits hash cfg (d :: ds) t).1 =
            tokensGiven hash h t₀ (t₀ + T) (rrlRunDebits hash cfg ds t').1 := by
          simp only [rrlRunDebits, hd, tokensGiven]
          exact countP_cons_of_neg (by simp only [decide_eq_true_eq]; omega)
        rw [hcount]
        exact hrest
    by_cases hu : d.now ≤ t₀ + T
    · have hinside := tokensGiven_inside h0 t₀ (t₀ + T) (d :: ds) ok t hk d.now hall hu
      have hfull := rrlLevel_le h rate (rrlWindow cfg) t d.now
      have htime : (t₀ + T - d.now) * rate ≤ T * rate := Nat.mul_le_mul_right rate (by omega)
      omega
    · rw [tokensGiven_late fun d' hd' => Nat.lt_of_lt_of_le (Nat.not_le.mp hu) (hall d' hd')]
      omega

/-- The debits of a sequence of checks are made one after the other. -/
lemma rrlRun_verdicts (cs : List RrlCheck) (t : RrlTable) :
    (rrlRun hash cfg cs t).flatMap RrlOutcome.verdicts =
      (rrlRunDebits hash cfg (cs.flatMap (rrlDebits cfg)) t).1 := by
  have happend : ∀ (ds ds' : List RrlDebit) (t : RrlTable), rrlRunDebits hash cfg (ds ++ ds') t =
      ((rrlRunDebits hash cfg ds t).1 ++
        (rrlRunDebits hash cfg ds' (rrlRunDebits hash cfg ds t).2).1,
        (rrlRunDebits hash cfg ds' (rrlRunDebits hash cfg ds t).2).2) := by
    intro ds
    induction ds with
    | nil => intro ds' t; rfl
    | cons d ds ih => intro ds' t; simp [rrlRunDebits, ih]
  induction cs generalizing t with
  | nil => rfl
  | cons c cs ih =>
    rw [rrlRun, flatMap_cons, flatMap_cons, ih, happend]
    rfl

end Runs

/-! ### Checks -/

/-- The class a key's octets begin with. -/
def rrlKeyClass (key : List UInt8) : Option RrlClass :=
  [RrlClass.noerror, .nodata, .nxdomain, .error, .referral, .all].find? fun c =>
    key.head? = some c.code

/-- The rate a key is limited to. -/
def rrlKeyRate (cfg : RateLimitConfig) (key : List UInt8) : Nat :=
  ((rrlKeyClass key).map (rrlRate cfg)).getD 0

lemma rrlKeyRate_octets (cfg : RateLimitConfig) (family : Nat) (addr : List UInt8) (key : RrlKey) :
    rrlKeyRate cfg (rrlKeyOctets cfg family addr key) = rrlRate cfg key.cls := by
  have hhead : (rrlKeyOctets cfg family addr key).head? = some key.cls.code := by
    simp [rrlKeyOctets, rrlKeyMax]
  have hclass : rrlKeyClass (rrlKeyOctets cfg family addr key) = some key.cls := by
    unfold rrlKeyClass
    rw [hhead]
    cases key.cls <;> decide
  rw [rrlKeyRate, hclass]
  rfl

/-- The debits of a check are made at its time, each with the rate of its key. -/
lemma mem_rrlDebits {cfg : RateLimitConfig} {c : RrlCheck} (hd : d ∈ rrlDebits cfg c) :
    d.now = c.now ∧ d.rate = rrlKeyRate cfg d.key := by
  unfold rrlDebits at hd
  split at hd
  · cases hd
  split at hd
  · cases hd
  split at hd
  · cases hd
  split at hd
  · cases hd
  rcases mem_append.mp hd with hd | hd
  · split at hd
    · rw [mem_singleton.mp hd]
      exact ⟨rfl, (rrlKeyRate_octets ..).symm⟩
    · cases hd
  split at hd
  · rw [mem_singleton.mp hd]
    exact ⟨rfl, (rrlKeyRate_octets cfg c.family c.addr { cls := .all }).symm⟩
  · cases hd

lemma countP_le_countP_flatMap {α β : Type*} {p : α → Bool} {q : β → Bool} {f : α → List β}
    (l : List α) (h : ∀ a ∈ l, p a = true → ∃ b ∈ f a, q b = true) :
      l.countP p ≤ (l.flatMap f).countP q := by
  induction l with
  | nil => simp
  | cons a l ih =>
    have hrest := ih fun b hb => h b (mem_cons_of_mem _ hb)
    rw [flatMap_cons, countP_append, countP_cons]
    split
    · obtain ⟨b, hb, hq⟩ := h a mem_cons_self ‹_›
      have hpos : 0 < (f a).countP q := countP_pos_iff.mpr ⟨b, hb, hq⟩
      omega
    · omega

/-- The verdicts of a response are on debits made at its time; none of them limits a response that
is sent, unless limits are only logged. -/
lemma rrlRun_outcome {hash : List UInt8 → UInt64} {cfg : RateLimitConfig} (cs : List RrlCheck)
    (t : RrlTable) :
    ∀ o ∈ rrlRun hash cfg cs t,
      (o.allowed = true → cfg.logOnly = false → ∀ v ∈ o.verdicts, v.2.isLimit = false) ∧
      ∀ v ∈ o.verdicts, v.1.now = o.now := by
  induction cs generalizing t with
  | nil => simp [rrlRun]
  | cons c cs ih =>
    intro o ho
    rw [rrlRun] at ho
    rcases mem_cons.mp ho with rfl | hin
    · refine ⟨fun hallow hlog v hv => ?_, fun v hv => ?_⟩
      · simp only [hlog, Bool.or_false, Bool.not_eq_true', any_eq_false] at hallow
        simpa using hallow v hv
      have hmem : v.1 ∈ rrlDebits cfg c := by
        rw [← @rrlRunDebits_fst hash cfg (rrlDebits cfg c) t]
        exact mem_map_of_mem hv
      exact (mem_rrlDebits hmem).1
    · exact ih _ o hin

/-- Every sequence of checks in the order of time, with different hashes for different keys, allows
a key no more responses in an interval of `T` milliseconds than its window holds and its rate brings
in, whatever other keys take the slots: as long as a response that is limited is not sent, and no
time between two checks is so long that its product with the rate wraps around. -/
theorem rrlRun_allowed_le (hash : List UInt8 → UInt64) (cfg : RateLimitConfig) (cs : List RrlCheck)
    (hlog : cfg.logOnly = false) (hsorted : cs.Pairwise fun c c' => c.now ≤ c'.now)
    (hdistinct : ∀ d ∈ cs.flatMap (rrlDebits cfg), ∀ d' ∈ cs.flatMap (rrlDebits cfg),
      rrlKeyHash hash d.key = rrlKeyHash hash d'.key → d.key = d'.key)
    (key : List UInt8)
    (hfits : ∀ c ∈ cs, ∀ c' ∈ cs, (c'.now - c.now) * rrlKeyRate cfg key < 2 ^ 64) (t₀ T : Nat) :
    allowedFor key t₀ T (rrlRun hash cfg cs fun _ => {}) ≤
      rrlKeyRate cfg key * rrlWindow cfg + rrlKeyRate cfg key * T / 1000 + 1 := by
  have hmem : ∀ o ∈ rrlRun hash cfg cs fun _ =>
      {}, ∀ v ∈ o.verdicts, v.1 ∈ cs.flatMap (rrlDebits cfg) := by
    intro o ho v hv
    rw [← @rrlRunDebits_fst hash cfg (cs.flatMap (rrlDebits cfg)) fun _ => {}, ← rrlRun_verdicts]
    exact mem_map_of_mem (mem_flatMap.mpr ⟨o, ho, hv⟩)
  by_cases hocc : ∃ d ∈ cs.flatMap (rrlDebits cfg), d.key = key
  · obtain ⟨d₀, hd₀, hkey⟩ := hocc
    have h0 := rrlKeyHash_ne_zero hash key
    have hcount : allowedFor key t₀ T (rrlRun hash cfg cs fun _ => {}) ≤
      tokensGiven hash (rrlKeyHash hash key) t₀
        (t₀ + T) (rrlRunDebits hash cfg (cs.flatMap (rrlDebits cfg)) fun _ => {}).1 := by
      rw [← rrlRun_verdicts]
      refine countP_le_countP_flatMap _ fun o ho hcounted => ?_
      simp only [Bool.and_eq_true, decide_eq_true_eq, any_eq_true, beq_iff_eq,
        bne_iff_ne] at hcounted
      obtain ⟨⟨⟨hlo, hhi⟩, hallow⟩, v, hv, hvkey, hbusy⟩ := hcounted
      obtain ⟨hnolimit, hnow⟩ := rrlRun_outcome cs _ o ho
      have hverdict : v.2 = .allow := by
        have := hnolimit hallow hlog v hv
        cases hv2 : v.2 with
        | allow => rfl
        | limit slip =>
          rw [hv2] at this
          cases this
        | busy => exact absurd hv2 hbusy
      refine ⟨v, hv, ?_⟩
      simp only [decide_eq_true_eq]
      exact ⟨hnow v hv ▸ hlo, hnow v hv ▸ hhi, by rw [hvkey], hverdict⟩
    cases cs with
    | nil => exact absurd hd₀ (by simp)
    | cons c₀ cs =>
      have hfirst : ∀ c ∈ c₀ :: cs, c₀.now ≤ c.now := by
        rintro c (_ | ⟨_, hin⟩)
        · exact Nat.le_refl _
        · exact (pairwise_cons.mp hsorted).1 c hin
      have ok : DebitsOk hash (rrlKeyHash hash key) (rrlKeyRate cfg key) c₀.now
          ((c₀ :: cs).flatMap (rrlDebits cfg)) := by
        refine ⟨?_, fun d hd => ?_, fun d hd => ?_, fun d hd hh => ?_⟩
        · refine pairwise_flatMap.mpr ⟨fun c _ => pairwise_of_forall_mem_list fun d hd d' hd' => ?_,
            hsorted.imp fun hle d hd d' hd' => ?_⟩
          · rw [(mem_rrlDebits hd).1, (mem_rrlDebits hd').1]
          · rw [(mem_rrlDebits hd).1, (mem_rrlDebits hd').1]
            exact hle
        · obtain ⟨c, hc, hdc⟩ := mem_flatMap.mp hd
          rw [(mem_rrlDebits hdc).1]
          exact hfirst c hc
        · obtain ⟨c, hc, hdc⟩ := mem_flatMap.mp hd
          rw [(mem_rrlDebits hdc).1]
          exact hfits c₀ mem_cons_self c hc
        · obtain ⟨c, hc, hdc⟩ := mem_flatMap.mp hd
          rw [(mem_rrlDebits hdc).2, hdistinct d hd d₀ hd₀ (by rw [hh, hkey]), hkey]
      have hbound :=
        @tokensGiven_le hash cfg _ _ _ h0 t₀ T _ ok (fun _ => {}) (rrlKeeps_empty fun _ => h0.symm)
      have hcap : rrlCap (rrlKeyRate cfg key) (rrlWindow cfg) ≤
          rrlKeyRate cfg key * rrlWindow cfg := Nat.min_le_left ..
      rw [Nat.mul_comm T] at hbound
      omega
  · have hzero : allowedFor key t₀ T (rrlRun hash cfg cs fun _ => {}) = 0 := by
      refine countP_eq_zero.mpr fun o ho hcounted => hocc ?_
      simp only [Bool.and_eq_true, any_eq_true, beq_iff_eq] at hcounted
      obtain ⟨-, v, hv, hvkey, -⟩ := hcounted
      exact ⟨v.1, hmem o ho v hv, hvkey⟩
    omega

/-- A hash under which the clients of different networks meet in one slot. -/
def slotHash (key : List UInt8) : UInt64 := UInt64.ofNat (131072 * (key.getD 4 0).toNat + 5)

/-- A check of an error response to a client of network 10.0.`net`.0. -/
def errorCheck (net : UInt8) (now : Nat) : RrlCheck :=
  ⟨afInet, [10, 0, net, 1], { cls := .error }, now⟩

/-- Clients of five networks, for which there are four slots; after two seconds their buckets may be
taken over. -/
def crowdedChecks : List RrlCheck :=
  [errorCheck 7 0, errorCheck 7 0, errorCheck 8 0, errorCheck 9 0, errorCheck 10 0, errorCheck 11 0,
    errorCheck 11 2500, errorCheck 7 2500, errorCheck 7 2600]

/-- One error a second. The fifth network finds no slot at first and then takes that of the first,
which starts again in another one. -/
theorem rrlRun_one_per_second :
    (rrlRun slotHash { errorsPerSecond := 1, windowSeconds := 1 } crowdedChecks fun _ => {}).flatMap
        (fun o => o.verdicts.map (·.2)) =
      [.allow, .limit false, .allow, .allow, .allow, .busy, .allow, .allow, .limit false] ∧
    allowedFor [3, 2, 10, 0, 7, 0] 0 2600
      (rrlRun slotHash { errorsPerSecond := 1, windowSeconds := 1 } crowdedChecks fun _ => {}) ≤
        1 * 1 + 1 * 2600 / 1000 + 1 :=
  ⟨by decide +kernel,
    rrlRun_allowed_le slotHash { errorsPerSecond := 1, windowSeconds := 1 } crowdedChecks rfl
    (by decide) (by decide +kernel) [3, 2, 10, 0, 7, 0] (by decide +kernel) 0 2600⟩

/-- Three responses are sent at a rate of one if limits are only logged. -/
theorem rrlRun_logged : allowedFor [3, 2, 10, 0, 7, 0] 0 0
        (rrlRun slotHash { errorsPerSecond := 1, windowSeconds := 1, logOnly := true }
          [errorCheck 7 0, errorCheck 7 0, errorCheck 7 0] fun _ => {}) = 3 ∧
      3 > 1 * 1 + 1 * 0 / 1000 + 1 := by
  decide +kernel

end KariDns
