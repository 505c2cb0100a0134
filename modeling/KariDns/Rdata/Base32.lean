import KariDns.Wire.Parse
import KariDns.Zone.Arena
import Mathlib.Tactic.IntervalCases

/-! Hashes in base32hex (`dns_base32hex_encode`, `base32hex_decode`).

Both directions shift bits through a word of 32 bits that is never cleared; only its lowest `bits`
bits still count.
-/

namespace KariDns

open Octets DomainName List

/-- `dns_base32hex_encode` into a buffer of `cap` characters, the final NUL among them. -/
def dnsBase32hexEncode (cap : Nat) (data : List UInt8) : Text :=
  (base32hexEncode 0 0 data).take (cap - 1)

/-! ### Reading back -/

lemma base32Digit_val : ∀ d < 32, base32Digit d ≠ 61 ∧ base32Val (base32Digit d) = some d := by
  decide

lemma base32Loop_digit (buffer bits x : Nat) (t : Text) :
    base32Loop buffer bits (base32Digit (x % 32) :: t) =
    if bits + 5 ≥ 8 then
      UInt8.ofNat ((buffer * 32 + x % 32) % 2 ^ 32 / 2 ^ (bits + 5 - 8)) ::
        base32Loop ((buffer * 32 + x % 32) % 2 ^ 32) (bits + 5 - 8) t
    else base32Loop ((buffer * 32 + x % 32) % 2 ^ 32) (bits + 5) t := by
  obtain ⟨hne, hval⟩ := base32Digit_val (x % 32) (Nat.mod_lt _ (by decide))
  rw [base32Loop, if_neg hne, hval]

/-- The octet `p` is on its way: the writer still has its lowest `bits` bits, the reader has the
others. -/
lemma base32Loop_encode : ∀ (bs : List UInt8) {bits w r : Nat} {p : UInt8}, bits < 5 →
    w % 2 ^ bits = p.toNat % 2 ^ bits →
    (bits ≠ 0 → r % 2 ^ (8 - bits) = p.toNat / 2 ^ bits) →
    base32Loop r ((8 - bits) % 8) (base32hexEncode w bits bs) = (if bits = 0 then [] else [p]) ++ bs
  | [], bits, w, r, p, h, hw, hr => by
    have hp := p.toNat_lt
    interval_cases bits
      <;> simp [base32hexEncode, base32Loop_digit, base32Loop, ← UInt8.toNat_inj] at hw hr ⊢
      <;> omega
  | b :: bs, bits, w, r, p, h, hw, hr => by
    have hp := p.toNat_lt
    have hb := b.toNat_lt
    rw [base32hexEncode]
    interval_cases bits <;> simp [base32Digits, base32Loop_digit, ← UInt8.toNat_inj] at hw hr ⊢
    · exact @base32Loop_encode bs 3 _ _ b (by omega) (by omega) (by omega)
    · exact ⟨by omega, @base32Loop_encode bs 4 _ _ b (by omega) (by omega) (by omega)⟩
    · exact ⟨by omega, by omega, @base32Loop_encode bs 0 _ _ b (by omega) (by omega) nofun⟩
    · exact ⟨by omega, @base32Loop_encode bs 1 _ _ b (by omega) (by omega) (by omega)⟩
    · exact ⟨by omega, @base32Loop_encode bs 2 _ _ b (by omega) (by omega) (by omega)⟩

/-! ### Order -/

/-- Numbers compare by their leading parts, then by what follows. -/
lemma compare_split (c v w : Nat) :
    compare v w = (compare (v / c) (w / c)).then (compare (v % c) (w % c)) := by
  have hv := Nat.div_add_mod v c
  have hw := Nat.div_add_mod w c
  rcases Nat.lt_trichotomy (v / c) (w / c) with h | h | h
  · rw [compare_lt_iff_lt.mpr h, compare_lt_iff_lt.mpr (Nat.lt_of_div_lt_div h)]
    rfl
  · rw [compare_eq_iff_eq.mpr h, ← hv, ← hw, h]
    simp [Nat.compare_eq_ite_lt]
  · rw [compare_gt_iff_gt.mpr h, compare_gt_iff_gt.mpr (Nat.lt_of_div_lt_div h)]
    rfl

lemma compare_digits {a b a' b' : Nat} (c : Nat) (h : b < c) (h' : b' < c) (o : Ordering) :
    (compare a a').then ((compare b b').then o) = (compare (c * a + b) (c * a' + b')).then o := by
  have hc : 0 < c := by omega
  rw [compare_split c (c * a + b), Nat.mul_add_div hc, Nat.mul_add_div hc, Nat.mul_add_mod,
    Nat.mul_add_mod, Nat.div_eq_of_lt h, Nat.div_eq_of_lt h', Nat.mod_eq_of_lt h,
    Nat.mod_eq_of_lt h', Ordering.then_assoc]
  rfl

lemma compare_base32Digit : ∀ d < 32, ∀ e < 32,
    compare (lower (base32Digit d)).toNat (lower (base32Digit e)).toNat = compare d e := by
      decide +kernel

lemma strcasecmp_digit (d e : Nat) (s t : Text) :
    strcasecmp (base32Digit (d % 32) :: s) (base32Digit (e % 32) :: t) =
      (compare (d % 32) (e % 32)).then (strcasecmp s t) := by
  rw [strcasecmp, map_cons, map_cons, strcmp,
    compare_base32Digit _ (Nat.mod_lt _ (by decide)) _ (Nat.mod_lt _ (by decide)), strcasecmp]

/-- The bits that count decide, then the octets that follow. -/
lemma strcasecmp_encode : ∀ {xs ys : List UInt8} {bits v w : Nat}, bits < 5 →
    xs.length = ys.length →
    strcasecmp (base32hexEncode v bits xs) (base32hexEncode w bits ys) =
      (compare (v % 2 ^ bits) (w % 2 ^ bits)).then (strcmp xs ys)
  | [], [], bits, v, w, h, _ => by
    have hdigit (u : Nat) : u * 2 ^ (5 - bits) % 32 = 2 ^ (5 - bits) * (u % 2 ^ bits) + 0 := by
      interval_cases bits <;> omega
    rw [base32hexEncode, base32hexEncode]
    split
    · rw [strcasecmp_digit, hdigit, hdigit]
      exact (compare_digits _ (Nat.two_pow_pos _) (Nat.two_pow_pos _) .eq).symm
    · obtain rfl : bits = 0 := by omega
      rw [Nat.pow_zero, Nat.mod_one, Nat.mod_one]
      rfl
  | x :: xs, y :: ys, bits, v, w, h, hlen => by
    have hx := x.toNat_lt
    have hy := y.toNat_lt
    rw [base32hexEncode, base32hexEncode, strcmp, compare_digits 256 hx hy]
    have ih {r : Nat} (hr : r < 5) :=
      fun v w => @strcasecmp_encode xs ys r v w hr (Nat.succ.inj hlen)
    interval_cases bits <;> simp [base32Digits, strcasecmp_digit, ih]
    · rw [compare_digits 8 (by omega) (by omega)]
      congr 2 <;> omega
    · rw [compare_digits 16 (by omega) (by omega)]
      congr 2 <;> omega
    · rw [compare_digits 32 (by omega) (by omega), compare_digits 1 (by omega) (by omega)]
      congr 2 <;> omega
    · rw [compare_digits 32 (by omega) (by omega), compare_digits 2 (by omega) (by omega)]
      congr 2 <;> omega
    · rw [compare_digits 32 (by omega) (by omega), compare_digits 4 (by omega) (by omega)]
      congr 2 <;> omega

lemma base32hexEncode_length : ∀ (bs : List UInt8) {bits : Nat} (v : Nat), bits < 5 →
    (base32hexEncode v bits bs).length = (8 * bs.length + bits + 4) / 5
  | [], bits, v, h => by
    rw [base32hexEncode]
    split <;> simp <;> omega
  | b :: bs, bits, v, h => by
    rw [base32hexEncode, length_append, length_cons]
    interval_cases bits <;> simp [base32Digits, base32hexEncode_length bs] <;> omega

lemma dnsBase32hexEncode_fits {data : List UInt8} {cap : Nat}
    (h : (8 * data.length + 4) / 5 < cap) :
    dnsBase32hexEncode cap data = base32hexEncode 0 0 data := by
  refine take_of_length_le ?_
  rw [base32hexEncode_length data 0 (by omega)]
  omega

/-- Base32hex is read back as it was written, and hashes of one length keep their order. -/
theorem base32hex_faithful :
    (∀ (data : List UInt8) (textCap cap : Nat), (8 * data.length + 4) / 5 < textCap →
      data.length ≤ cap →
      base32hexDecode cap (dnsBase32hexEncode textCap data) = some data) ∧
    ∀ (xs ys : List UInt8) (textCap : Nat), xs.length = ys.length →
      (8 * xs.length + 4) / 5 < textCap →
      strcasecmp (dnsBase32hexEncode textCap xs) (dnsBase32hexEncode textCap ys) =
        strcmp xs ys := by
  refine ⟨fun data textCap cap htext hcap => ?_, fun xs ys textCap hlen htext => ?_⟩
  · have hread := @base32Loop_encode data 0 0 0 0 (by decide) rfl nofun
    rw [base32hexDecode, dnsBase32hexEncode_fits htext, hread]
    exact if_neg (Nat.not_lt.mpr hcap)
  · rw [dnsBase32hexEncode_fits htext, dnsBase32hexEncode_fits (hlen ▸ htext),
      strcasecmp_encode (by decide) hlen]
    rfl

theorem base32hex_faithful_octets :
    base32hexDecode 2 (dnsBase32hexEncode 5 [7, 255]) = some [7, 255] ∧
      strcasecmp (dnsBase32hexEncode 5 [7, 255]) (dnsBase32hexEncode 5 [8, 0]) = .lt :=
  ⟨base32hex_faithful.1 [7, 255] 5 2 (by decide) (by decide),
    base32hex_faithful.2 [7, 255] [8, 0] 5 (by decide) (by decide)⟩

end KariDns
