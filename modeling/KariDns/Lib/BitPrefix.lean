import Mathlib.Data.Set.BooleanAlgebra
import Mathlib.Order.CompletePartialOrder
import Mathlib.Data.UInt
import Mathlib.Tactic.Common

/-! Strings of octets read as strings of bits, most significant bit first.

`Agree n` says that two strings have the same first `n` bits. A function on strings that names,
with its value, a number of bits that decide both is constant on disjoint blocks.
-/

namespace BitPrefix

variable {a b : List UInt8} {m n : Nat}

/-- Bit `i` of a string of octets; behind its end all bits are 0. -/
def bit (a : List UInt8) (i : Nat) : Bool := (a.getD (i / 8) 0).toNat.testBit (7 - i % 8)

/-- The first `n` bits are the same. -/
def Agree (n : Nat) (a b : List UInt8) : Prop := ∀ i < n, bit a i = bit b i

lemma Agree.symm (h : Agree n a b) : Agree n b a := fun i hi => (h i hi).symm

lemma Agree.trans {c : List UInt8} (h : Agree n a b) (h' : Agree n b c) : Agree n a c :=
  fun i hi => (h i hi).trans (h' i hi)

lemma Agree.mono (h : Agree n a b) (hm : m ≤ n) : Agree m a b :=
  fun i hi => h i (Nat.lt_of_lt_of_le hi hm)

/-! ### Octets -/

lemma octet_ext {x y : UInt8}
    (h : ∀ j < 8, x.toNat.testBit (7 - j) = y.toNat.testBit (7 - j)) : x = y := by
  refine UInt8.toNat_inj.mp (Nat.eq_of_testBit_eq fun j => ?_)
  rcases Nat.lt_or_ge j 8 with hj | hj
  · have := h (7 - j) (by omega)
    rwa [show 7 - (7 - j) = j by omega] at this
  have hpow : 2 ^ 8 ≤ 2 ^ j := Nat.pow_le_pow_right (by decide) hj
  have hx := x.toNat_lt
  have hy := y.toNat_lt
  rw [Nat.testBit_lt_two_pow (by omega), Nat.testBit_lt_two_pow (by omega)]

/-- Eight bits are an octet. -/
lemma getD_eq_of_bits {a b : List UInt8} {k : Nat}
    (h : ∀ j < 8, bit a (8 * k + j) = bit b (8 * k + j)) :
    a.getD k 0 = b.getD k 0 := by
  refine octet_ext fun j hj => ?_
  have := h j hj
  unfold bit at this
  rwa [show (8 * k + j) / 8 = k by omega, show (8 * k + j) % 8 = j by omega] at this

lemma bit_eq_of_getD {i : Nat} (h : a.getD (i / 8) 0 = b.getD (i / 8) 0) : bit a i = bit b i := by
  unfold bit
  rw [h]

/-- Strings of the same length that agree in all their bits are equal. -/
lemma Agree.eq (h : Agree (8 * a.length) a b) (hlen : a.length = b.length) : a = b := by
  refine List.ext_getElem hlen fun k ha hb => ?_
  have := @getD_eq_of_bits a b k fun j hj => h _ (by omega)
  simpa [List.getD_eq_getElem?_getD, ha, hb] using this

/-! ### Masks -/

/-- The octet whose first `k` bits are set. -/
def mask (k : Nat) : UInt8 := UInt8.ofNat (0xFF <<< (8 - k))

lemma testBit_mask : ∀ k < 9, ∀ j < 8, (mask k).toNat.testBit (7 - j) = decide (j < k) := by decide

/-- Under a mask two octets are the same if their first bits are. -/
lemma and_mask_eq_iff {x y : UInt8} {k : Nat} (hk : k ≤ 8) :
    x &&& mask k = y &&& mask k ↔ ∀ j < k, x.toNat.testBit (7 - j) = y.toNat.testBit (7 - j) := by
  have hbit : ∀ (z : UInt8), ∀ j < 8, (z &&& mask k).toNat.testBit
      (7 - j) = (z.toNat.testBit (7 - j) && decide (j < k)) := by
    intro z j hj
    rw [UInt8.toNat_and, Nat.testBit_and, testBit_mask k (by omega) j hj]
  constructor
  · intro h j hj
    have hx := hbit x j (by omega)
    have hy := hbit y j (by omega)
    rw [h, hy] at hx
    simpa [hj] using hx.symm
  intro h
  refine octet_ext fun j hj => ?_
  rw [hbit x j hj, hbit y j hj]
  by_cases hjk : j < k
  · rw [h j hjk]
  · simp [hjk]

/-- The first bits are compared octet by octet. -/
lemma agree_iff_masked {width : Nat} (hn : n ≤ 8 * width) : Agree n a b ↔
    ∀ i < width, a.getD i 0 &&& mask (min 8 (n - 8 * i)) = b.getD i 0 &&&
      mask (min 8 (n - 8 * i)) := by
  simp only [and_mask_eq_iff (Nat.min_le_left 8 _)]
  constructor
  · intro h i _ j hj
    have := h (8 * i + j) (by omega)
    unfold bit at this
    rwa [show (8 * i + j) / 8 = i by omega, show (8 * i + j) % 8 = j by omega] at this
  · intro h i hi
    exact h (i / 8) (by omega) (i % 8) (by omega)

/-! ### Where two strings part -/

/-- The strings agree in `n` bits, and in no more of the first `m`. -/
structure Parts (m n : Nat) (a b : List UInt8) : Prop where
  le : n ≤ m
  agree : Agree n a b
  differ : n < m → bit a n ≠ bit b n

lemma Parts.agree_iff (h : Parts m n a b) : Agree m a b ↔ n = m := by
  constructor
  · intro hm
    rcases Nat.lt_or_ge n m with hlt | hge
    · exact absurd (hm n hlt) (h.differ hlt)
    · exact Nat.le_antisymm h.le hge
  · rintro rfl
    exact h.agree

/-- Two strings part in one bit only. -/
lemma Parts.unique {n' : Nat} (h : Parts m n a b) (h' : Parts m n' a b) : n = n' := by
  have hle := h.le
  have hle' := h'.le
  rcases Nat.lt_trichotomy n n' with hlt | heq | hgt
  · exact absurd (h'.agree n hlt) (h.differ (by omega))
  · exact heq
  · exact absurd (h.agree n' hgt) (h'.differ (by omega))

/-! ### Blocks -/

/-- The strings of `width` octets that have the first `n` bits of `a`. -/
def block (width n : Nat) (a : List UInt8) : Set (List UInt8) :=
  {b | b.length = width ∧ Agree n a b}

section Deciding

variable {τ : Type*} {width : Nat} {value : List UInt8 → τ} {scope : List UInt8 → Nat}

/-- The first `scope a` bits of a string decide both its value and its scope. -/
def Deciding (width : Nat) (value : List UInt8 → τ) (scope : List UInt8 → Nat) : Prop :=
  ∀ a b, a.length = width → b.length = width → Agree (scope a) a b → value b = value a ∧
    scope b = scope a

lemma Deciding.value_eq (h : Deciding width value scope) {c : List UInt8} (ha : a.length = width)
    (hb : b ∈ block width (scope a) a) (hc : c ∈ block width (scope a) a) : value b = value c :=
  (h a b ha hb.1 hb.2).1.trans (h a c ha hc.1 hc.2).1.symm

/-- The blocks the scopes name are equal or disjoint. -/
lemma Deciding.laminar (h : Deciding width value scope) (ha : a.length = width)
    (hb : b.length = width) :
    block width (scope a) a = block width (scope b) b ∨
      Disjoint (block width (scope a) a) (block width (scope b) b) := by
  by_cases hmeet : ∃ c, c ∈ block width (scope a) a ∧ c ∈ block width (scope b) b
  · obtain ⟨c, ⟨hc, hac⟩, -, hbc⟩ := hmeet
    have hscope : scope a = scope b := (h a c ha hc hac).2.symm.trans (h b c hb hc hbc).2
    rw [← hscope] at hbc
    have hab := hac.trans hbc.symm
    left
    rw [← hscope]
    ext d
    exact ⟨fun hd => ⟨hd.1, hab.symm.trans hd.2⟩, fun hd => ⟨hd.1, hab.trans hd.2⟩⟩
  right
  rw [Set.disjoint_left]
  exact fun c hca hcb => hmeet ⟨c, hca, hcb⟩

end Deciding

end BitPrefix
