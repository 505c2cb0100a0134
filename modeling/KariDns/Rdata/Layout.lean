import KariDns.Lib.DomainName

/-! Where the names stand in RDATA (`dns_rdata_name_layout`).

For the types of RFC 1035 and some later ones RDATA is a fixed part, one or two names and a
rest. The zone image and the canonical form of RDATA work on octets with this table.
-/

namespace KariDns

open Octets DomainName List

/-- `dns_rdata_name_layout_t`: octets before the names, number of names, and whether the names
may be compressed. -/
structure NameLayout where
  skip : Nat
  names : Nat
  compress : Bool
  deriving DecidableEq

/-- `g_rdata_name_layout`, by type. -/
def rdataNameLayouts : List (Nat × NameLayout) :=
  [(2, ⟨0, 1, true⟩), (3, ⟨0, 1, true⟩), (4, ⟨0, 1, true⟩), (5, ⟨0, 1, true⟩),
    (7, ⟨0, 1, true⟩), (8, ⟨0, 1, true⟩), (9, ⟨0, 1, true⟩), (12, ⟨0, 1, true⟩),
    (6, ⟨0, 2, true⟩), (14, ⟨0, 2, true⟩), (15, ⟨2, 1, true⟩), (17, ⟨0, 2, false⟩),
    (18, ⟨2, 1, false⟩), (21, ⟨2, 1, false⟩), (36, ⟨2, 1, false⟩), (107, ⟨2, 1, false⟩),
    (23, ⟨0, 1, false⟩), (39, ⟨0, 1, false⟩), (24, ⟨18, 1, false⟩), (46, ⟨18, 1, false⟩),
    (26, ⟨2, 2, false⟩), (30, ⟨0, 1, false⟩), (47, ⟨0, 1, false⟩), (33, ⟨6, 1, false⟩)]

/-- `dns_rdata_name_layout`. -/
def dnsRdataNameLayout (type : Nat) : Option NameLayout := rdataNameLayouts.lookup type

/-- A name in full at the front of some octets and what stands behind it: `wire_name_len` and the
labels it passes. `none` for octets that end early and for a pointer or a reserved label type. -/
def readWireName : Nat → List UInt8 → Option (Name × List UInt8)
  | 0, _ => none
  | _ + 1, [] => none
  | fuel + 1, c :: rest =>
    if c = 0 then some ([], rest)
    else if c > 63 ∨ rest.length < c.toNat then none
    else (readWireName fuel (rest.drop c.toNat)).map fun (n, tail) => (rest.take c.toNat :: n, tail)

/-- The name at the front of some octets. -/
def wireNameAt (bs : List UInt8) : Option (Name × List UInt8) := readWireName (bs.length + 1) bs

lemma readWireName_wire : ∀ {n : Name} {fuel : Nat} (rest : List UInt8),
    (∀ l ∈ n, LabelOk l) → n.length < fuel → readWireName fuel (wire n ++ rest) = some (n, rest)
  | [], fuel + 1, rest, _, _ => by simp [readWireName]
  | l :: n, fuel + 1, rest, hok, hfuel => by
    obtain ⟨hnil, hle⟩ := hok l mem_cons_self
    have hpos := length_pos_iff.mpr hnil
    have hlen : (UInt8.ofNat l.length).toNat = l.length := by
      rw [UInt8.toNat_ofNat']
      exact Nat.mod_eq_of_lt (by omega)
    have hne : UInt8.ofNat l.length ≠ 0 := by
      intro h
      rw [h] at hlen
      simp at hlen
      omega
    have hsmall : ¬ UInt8.ofNat l.length > 63 := by
      rw [gt_iff_lt, UInt8.lt_iff_toNat_lt, hlen]
      simpa using hle
    rw [wire_cons, labelWire, append_assoc, cons_append, readWireName, if_neg hne, hlen,
      if_neg (by simp [hsmall]), drop_left, take_left,
      readWireName_wire rest (fun m hm => hok m (mem_cons_of_mem _ hm)) (by simpa using hfuel)]
    rfl

/-- A name written in full reads back, whatever stands behind it. -/
lemma wireNameAt_wire {n : Name} (h : Valid n) (rest : List UInt8) :
    wireNameAt (wire n ++ rest) = some (n, rest) := by
  refine readWireName_wire rest h.1 ?_
  have := length_lt_wire n
  rw [length_append]
  omega

end KariDns
