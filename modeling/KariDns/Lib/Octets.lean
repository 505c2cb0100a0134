import Mathlib.Data.List.Basic
import Mathlib.Data.UInt
import Mathlib.Tactic.Common

/-! Octet memory.

A buffer is a total function from indices to octets, so a write past the current end
and the bytes left behind by an abandoned write are ordinary values of the model. `blit`
is `memcpy` into a buffer, `slice` reads a run of octets back, and `Holds` says that a
given run stands at a given place.
-/

namespace Octets

open List

variable {m : Buf} {as bs : List UInt8} {i n off : Nat}

/-- Memory: one octet at every index. -/
abbrev Buf := Nat → UInt8

/-- `memcpy (m + off, bs)`. -/
def blit (m : Buf) (off : Nat) (bs : List UInt8) : Buf :=
  fun i => if off ≤ i then (bs[i - off]?).getD (m i) else m i

/-- The `n` octets of `m` from `off` on. -/
def slice (m : Buf) (off n : Nat) : List UInt8 := (List.range' off n).map m

/-- The run `bs` stands in `m` at `off`. -/
def Holds (m : Buf) (off : Nat) (bs : List UInt8) : Prop := slice m off bs.length = bs

/-- Two buffers agree on every index of `[lo, hi)`. -/
def AgreeOn (lo hi : Nat) (m m' : Buf) : Prop := ∀ i, lo ≤ i → i < hi → m i = m' i

/-- A natural number as two octets, most significant first. -/
def be16 (n : Nat) : List UInt8 := [UInt8.ofNat (n / 256), UInt8.ofNat n]

/-- A natural number as four octets, most significant first. -/
def be32 (n : Nat) : List UInt8 :=
  [UInt8.ofNat (n / 16777216), UInt8.ofNat (n / 65536), UInt8.ofNat (n / 256), UInt8.ofNat n]

/-- A natural number as six octets, most significant first. -/
def be48 (n : Nat) : List UInt8 := be16 (n / 4294967296) ++ be32 n

/-- The number two octets stand for. -/
def getU16 (m : Buf) (off : Nat) : Nat := (m off).toNat * 256 + (m (off + 1)).toNat

/-- The number four octets stand for. -/
def getU32 (m : Buf) (off : Nat) : Nat := getU16 m off * 65536 + getU16 m (off + 2)

/-- The number six octets stand for. -/
def getU48 (m : Buf) (off : Nat) : Nat := getU16 m off * 4294967296 + getU32 m (off + 2)

/-! ### `blit` -/

lemma blit_lt (h : i < off) : blit m off bs i = m i := by
  simp [blit, Nat.not_le.mpr h]

lemma blit_ge (h : off + bs.length ≤ i) : blit m off bs i = m i := by
  unfold blit
  split
  · rw [getElem?_eq_none (by omega)]
    rfl
  · rfl

lemma blit_add (h : i < bs.length) : blit m off bs (off + i) = bs[i] := by
  simp [blit, h]

@[simp] lemma blit_nil (m : Buf) (off : Nat) : blit m off [] = m := by
  funext i
  simp [blit]

/-- Two writes, one behind the other, are one write of the joined run. -/
lemma blit_blit (m : Buf) (off : Nat) (as bs : List UInt8) :
    blit (blit m off as) (off + as.length) bs = blit m off (as ++ bs) := by
  funext i
  rcases Nat.lt_or_ge i off with hlt | hge
  · rw [blit_lt (by omega), blit_lt hlt, blit_lt hlt]
  obtain ⟨j, rfl⟩ := Nat.exists_eq_add_of_le hge
  rcases Nat.lt_or_ge j as.length with hj | hj
  · rw [blit_lt (by omega), blit_add hj, blit_add (by simp; omega)]
    rw [getElem_append_left hj]
  simp only [blit, show off + as.length ≤ off + j by omega, show off ≤ off + j by omega, if_true,
    Nat.add_sub_cancel_left, getElem?_append_right hj, getElem?_eq_none hj, Option.getD_none]
  congr 2
  omega

lemma blit_at {m' : Buf} (bs : List UInt8) (h : m i = m' i) :
    blit m off bs i = blit m' off bs i := by
  simp [blit, h]

/-- Writes to places apart from each other may change order. -/
lemma blit_comm (m : Buf) {p q : Nat} (h : p + as.length ≤ q) :
    blit (blit m q bs) p as = blit (blit m p as) q bs := by
  funext i
  rcases Nat.lt_or_ge i q with hlt | hge
  · rw [blit_at as (blit_lt hlt), blit_lt hlt]
  · rw [blit_at bs (blit_ge (by omega)), blit_ge (by omega)]

/-- A run written over another of the same length. -/
lemma blit_over (m : Buf) (p : Nat) (h : as.length = bs.length) :
    blit (blit m p as) p bs = blit m p bs := by
  funext i
  rcases Nat.lt_or_ge i p with hlt | hge
  · rw [blit_lt hlt, blit_lt hlt, blit_lt hlt]
  obtain ⟨j, rfl⟩ := Nat.exists_eq_add_of_le hge
  rcases Nat.lt_or_ge j bs.length with hj | hj
  · rw [blit_add hj, blit_add hj]
  · rw [blit_ge (by omega), blit_ge (by omega), blit_ge (by omega)]

/-- A gap left between two runs and filled in later. -/
lemma blit_gap (m : Buf) (p : Nat) (as gap cs : List UInt8) :
    blit (blit (blit m p as) (p + as.length + gap.length) cs) (p + as.length) gap =
      blit m p (as ++ gap ++ cs) := by
  rw [blit_comm _ (Nat.le_refl _), blit_blit, blit_blit, append_assoc]

/-! ### `slice` and `Holds` -/

@[simp] lemma slice_length (m : Buf) (off n : Nat) : (slice m off n).length = n := by
  simp [slice]

@[simp] lemma slice_zero (m : Buf) (off : Nat) : slice m off 0 = [] := rfl

lemma slice_succ (m : Buf) (off n : Nat) : slice m off (n + 1) = m off :: slice m (off + 1) n := by
  simp [slice, range'_succ]

lemma slice_add (m : Buf) (off a b : Nat) : slice m off (a + b) = slice m off a ++ slice m
    (off + a) b := by
  simp only [slice, ← map_append, range'_append_1]

lemma slice_congr {m' : Buf} (h : AgreeOn off (off + n) m m') : slice m off n = slice m' off n := by
  refine map_congr_left fun i hi => ?_
  obtain ⟨h1, h2⟩ := mem_range'_1.mp hi
  exact h i h1 h2

lemma slice_getElem? {m : Buf} {off n i : Nat} (h : i < n) :
    (slice m off n)[i]? = some (m (off + i)) := by
  simp [slice, h]

lemma Holds.get (h : Holds m off bs) (hi : i < bs.length) : m (off + i) = bs[i] := by
  have hs := @slice_getElem? m off _ _ hi
  rw [h, getElem?_eq_getElem hi] at hs
  exact (Option.some.inj hs).symm

@[simp] lemma holds_nil (m : Buf) (off : Nat) : Holds m off [] := rfl

lemma holds_cons {b : UInt8} : Holds m off (b :: bs) ↔ m off = b ∧ Holds m (off + 1) bs := by
  simp [Holds, slice_succ]

lemma holds_append : Holds m off (as ++ bs) ↔ Holds m off as ∧ Holds m (off + as.length) bs := by
  simp only [Holds, length_append, slice_add]
  constructor
  · intro h
    exact append_inj h (by simp)
  · rintro ⟨h1, h2⟩
    rw [h1, h2]

lemma Holds.congr {m m' : Buf} {off : Nat} {bs : List UInt8} (h : Holds m off bs)
    (hag : AgreeOn off (off + bs.length) m m') : Holds m' off bs := by
  unfold Holds
  rw [← slice_congr hag]
  exact h

lemma holds_blit (m : Buf) (off : Nat) (bs : List UInt8) : Holds (blit m off bs) off bs := by
  refine ext_getElem? fun i => ?_
  rcases Nat.lt_or_ge i bs.length with hi | hi
  · rw [slice_getElem? hi, blit_add hi, getElem?_eq_getElem hi]
  · rw [getElem?_eq_none hi, getElem?_eq_none (by simpa using hi)]

lemma holds_slice (m : Buf) (off n : Nat) : Holds m off (slice m off n) := by
  simp [Holds]

/-- Writing back what already stands there changes nothing. -/
lemma Holds.blit_eq (h : Holds m off bs) : blit m off bs = m := by
  funext i
  rcases Nat.lt_or_ge i off with hlt | hge
  · exact blit_lt hlt
  obtain ⟨j, rfl⟩ := Nat.exists_eq_add_of_le hge
  rcases Nat.lt_or_ge j bs.length with hj | hj
  · rw [blit_add hj, h.get hj]
  · exact blit_ge (by omega)

/-! ### Numbers in network order -/

@[simp] lemma be16_length (n : Nat) : (be16 n).length = 2 := rfl

@[simp] lemma be32_length (n : Nat) : (be32 n).length = 4 := rfl

lemma getU16_lt (m : Buf) (off : Nat) : getU16 m off < 65536 := by
  have h1 := (m off).toNat_lt
  have h2 := (m (off + 1)).toNat_lt
  unfold getU16
  omega

lemma getU32_lt (m : Buf) (off : Nat) : getU32 m off < 4294967296 := by
  have h1 := getU16_lt m off
  have h2 := getU16_lt m (off + 2)
  unfold getU32
  omega

lemma getU16_of_holds (h : Holds m off (be16 n)) (hn : n < 65536) : getU16 m off = n := by
  simp only [be16, holds_cons, holds_nil, and_true] at h
  unfold getU16
  rw [h.1, h.2]
  simp only [UInt8.toNat_ofNat']
  omega

/-- Octets above the two that are written are lost. -/
lemma be16_mod (n : Nat) : be16 (n % 65536) = be16 n := by
  have h1 : UInt8.ofNat (n % 65536 / 256) = UInt8.ofNat (n / 256) := by
    apply UInt8.toNat_inj.mp
    simp only [UInt8.toNat_ofNat']
    omega
  have h2 : UInt8.ofNat (n % 65536) = UInt8.ofNat n := by
    apply UInt8.toNat_inj.mp
    simp only [UInt8.toNat_ofNat']
    omega
  rw [be16, h1, h2, be16]

lemma be32_eq (n : Nat) : be32 n = be16 (n / 65536) ++ be16 (n % 65536) := by
  rw [be16_mod]
  simp only [be32, be16, cons_append, nil_append, Nat.div_div_eq_div_mul]

lemma getU32_of_holds (h : Holds m off (be32 n)) (hn : n < 4294967296) : getU32 m off = n := by
  rw [be32_eq, holds_append] at h
  unfold getU32
  have hlo : getU16 m (off + 2) = n % 65536 := getU16_of_holds h.2 (by omega)
  rw [getU16_of_holds h.1 (by omega), hlo]
  omega

@[simp] lemma be48_length (n : Nat) : (be48 n).length = 6 := rfl

lemma be32_mod (n : Nat) : be32 (n % 4294967296) = be32 n := by
  have h1 : n % 4294967296 / 65536 = n / 65536 % 65536 := by omega
  have h2 : n % 4294967296 % 65536 = n % 65536 := by omega
  rw [be32_eq, h1, h2, be16_mod, ← be32_eq]

lemma getU48_of_holds (h : Holds m off (be48 n)) : getU48 m off = n % 281474976710656 := by
  rw [be48, holds_append, ← be16_mod, ← be32_mod] at h
  have hhi := getU16_of_holds h.1 (Nat.mod_lt _ (by decide))
  have hlo : getU32 m (off + 2) = n % 4294967296 := getU32_of_holds h.2 (Nat.mod_lt _ (by decide))
  unfold getU48
  rw [hhi, hlo]
  omega

lemma be16_getU16 (m : Buf) (off : Nat) : be16 (getU16 m off) = slice m off 2 := by
  have h1 := (m off).toNat_lt
  have h2 := (m (off + 1)).toNat_lt
  simp only [slice_succ, slice_zero, be16, getU16]
  congr 1
  · apply UInt8.toNat_inj.mp
    simp only [UInt8.toNat_ofNat']
    omega
  congr 1
  apply UInt8.toNat_inj.mp
  simp only [UInt8.toNat_ofNat']
  omega

lemma be32_getU32 (m : Buf) (off : Nat) : be32 (getU32 m off) = slice m off 4 := by
  have h2 := getU16_lt m (off + 2)
  have hdiv : getU32 m off / 65536 = getU16 m off := by unfold getU32; omega
  have hmod : getU32 m off % 65536 = getU16 m (off + 2) := by unfold getU32; omega
  rw [be32_eq, hdiv, hmod, be16_getU16, be16_getU16, ← slice_add]

/-! ### Character-strings -/

/-- Character-strings (RFC 1035 3.3), one behind the other. -/
def stringsWire (parts : List (List UInt8)) : List UInt8 :=
  parts.flatMap fun p => UInt8.ofNat p.length :: p

lemma stringsWire_inj (hn : n < 256) : ∀ {ps qs : List (List UInt8)}, (∀ p ∈ ps, p.length ≤ n) →
    (∀ q ∈ qs, q.length ≤ n) → stringsWire ps = stringsWire qs → ps = qs
  | [], [], _, _, _ => rfl
  | [], q :: qs, _, _, h => by cases h
  | p :: ps, [], _, _, h => by cases h
  | p :: ps, q :: qs, hps, hqs, h => by
    obtain ⟨hp, hps⟩ := forall_mem_cons.mp hps
    obtain ⟨hq, hqs⟩ := forall_mem_cons.mp hqs
    simp only [stringsWire, flatMap_cons, cons_append, cons.injEq] at h
    have hlen : p.length = q.length := by
      have := congrArg UInt8.toNat h.1
      simp only [UInt8.toNat_ofNat'] at this
      omega
    obtain ⟨hpq, hrest⟩ := append_inj h.2 hlen
    rw [hpq, stringsWire_inj hn hps hqs hrest]

end Octets
