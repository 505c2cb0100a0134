import KariDns.Lib.BitPrefix
import KariDns.Image.Tables

/-! Address prefixes (`dns_cidr.c`).

An entry is kept with its mask; `cidr_entry_parse` leaves the octets of the whole record, which
`Cidr.ofOctets` reads. An address matches an entry of its family exactly if it has the first bits
of the entry's address.
-/

namespace KariDns

open Octets DomainName BitPrefix List Option

variable {net : Cidr} {width : Nat}

/-- `AF_INET`. -/
abbrev afInet : Nat := 2

/-- `AF_INET6`. -/
abbrev afInet6 : Nat := 10

/-- `cidr_entry_t`. -/
structure Cidr where
  valid : Bool
  isAny : Bool
  family : Nat
  plen : Nat
  addr : List UInt8
  mask : List UInt8
  deriving DecidableEq, Repr

/-- The fields of a `cidr_entry_t` in its octets. -/
def Cidr.ofOctets (bs : List UInt8) : Cidr where
  valid := bs.getD 0 0 ≠ 0
  isAny := bs.getD 1 0 ≠ 0
  family := (bs.getD 4 0).toNat + 256 * (bs.getD 5 0).toNat + 65536 * (bs.getD 6 0).toNat +
    16777216 * (bs.getD 7 0).toNat
  plen := (bs.getD 8 0).toNat
  addr := (bs.drop 9).take 16
  mask := (bs.drop 25).take 16

/-- Octet `i` of two addresses under the mask of an entry. -/
def Cidr.sameOctet (net : Cidr) (addr : List UInt8) (i : Nat) : Bool :=
  addr.getD i 0 &&& net.mask.getD i 0 == net.addr.getD i 0 &&& net.mask.getD i 0

/-- The loop of `cidr_entry_match` over an IPv6 address, from octet `i` on. -/
def Cidr.sameOctets6 (net : Cidr) (addr : List UInt8) : Nat → Nat → Bool
  | 0, _ => true
  | n + 1, i =>
    if net.mask.getD i 0 = 0 then true
    else if net.sameOctet addr i then net.sameOctets6 addr n (i + 1)
    else false

/-- `cidr_entry_match`; the four octets of an IPv4 address are compared as one word. -/
def cidrEntryMatch (net : Cidr) (family : Nat) (addr : List UInt8) : Bool :=
  if !net.valid then false
  else if net.isAny then true
  else if net.family ≠ family then false
  else if family = afInet then (List.range 4).all (net.sameOctet addr)
  else if family = afInet6 then net.sameOctets6 addr 16 0
  else false

/-- The word `s_addr` of an IPv4 address, its first octet the lowest. -/
def sAddr (a : List UInt8) : BitVec 32 :=
  (a.getD 3 0).toBitVec ++ (a.getD 2 0).toBitVec ++ (a.getD 1 0).toBitVec ++ (a.getD 0 0).toBitVec

/-- `htonl`. -/
def htonl (w : BitVec 32) : BitVec 32 :=
  w.extractLsb' 0 8 ++ w.extractLsb' 8 8 ++ w.extractLsb' 16 8 ++ w.extractLsb' 24 8

/-- `mask` in `match_cidr`. -/
def inetMask (plen : Nat) : BitVec 32 :=
  htonl (if plen = 0 then 0 else 0xFFFFFFFF#32 <<< (32 - plen))

/-- The first `n` bits of two addresses of `width` octets are compared under a mask. -/
def maskedEq (width n : Nat) (a b : List UInt8) : Bool :=
  (List.range width).all fun i =>
    a.getD i 0 &&& BitPrefix.mask (min 8 (n - 8 * i)) == b.getD i 0 &&& BitPrefix.mask
      (min 8 (n - 8 * i))

/-- `match_cidr`: an address in its text form against the text of an entry. -/
def matchCidr (client cidr : Text) : Bool :=
  if cidr = ascii "any" ∨ cidr = ascii "any;" then true
  else
    let (addr, tail) := splitAt 47 (cidr.take 255)
    let plen : Option (Option Nat) :=
      match tail with
      | none => some none
      | some t =>
        match scanNumber t, strtol t with
        | some _, (v, []) => if v < 0 ∨ v > 128 then none else some (some v.toNat)
        | _, _ => none
    match plen with
    | none => false
    | some p =>
      match inetPton4 client, inetPton4 addr, inetPton6 client, inetPton6 addr with
      | some a, some b, _, _ =>
        if p.getD 32 > 32 then false
        else sAddr a &&& inetMask (p.getD 32) == sAddr b &&& inetMask (p.getD 32)
      | _, _, some a, some b => maskedEq 16 (p.getD 128) a b
      | _, _, _, _ => false

/-! ### The IPv4 mask -/

/-- Octet `i` of a mask of `n` bits. -/
def maskOctets (n : Nat) : List UInt8 :=
  (List.range 4).map fun i => BitPrefix.mask (min 8 (n - 8 * i))

/-- The octets of the shifted word. -/
lemma inetMask_octets : ∀ n ≤ 32, inetMask n = sAddr (maskOctets n) := by decide

lemma append_eq_iff {v w : Nat} {a b : BitVec v} {c d : BitVec w} :
    a ++ c = b ++ d ↔ a = b ∧ c = d := by
  constructor
  · intro h
    have hleft := congrArg (BitVec.extractLsb' w v) h
    have hright := congrArg (BitVec.extractLsb' 0 w) h
    rw [BitVec.extractLsb'_append_eq_left, BitVec.extractLsb'_append_eq_left] at hleft
    rw [BitVec.extractLsb'_append_eq_right, BitVec.extractLsb'_append_eq_right] at hright
    exact ⟨hleft, hright⟩
  · rintro ⟨rfl, rfl⟩
    rfl

lemma sAddr_and (a m : List UInt8) :
    sAddr a &&& sAddr m = sAddr ((List.range 4).map fun i => a.getD i 0 &&& m.getD i 0) := by
  unfold sAddr
  rw [BitVec.and_append, BitVec.and_append, BitVec.and_append]
  rfl

lemma sAddr_eq_iff {a b : List UInt8} : sAddr a = sAddr b ↔ ∀ i < 4, a.getD i 0 = b.getD i 0 := by
  unfold sAddr
  rw [append_eq_iff, append_eq_iff, append_eq_iff]
  simp only [UInt8.toBitVec_inj]
  constructor
  · rintro ⟨⟨⟨h3, h2⟩, h1⟩, h0⟩ i hi
    match i, hi with
    | 0, _ => exact h0
    | 1, _ => exact h1
    | 2, _ => exact h2
    | 3, _ => exact h3
  · intro h
    exact ⟨⟨⟨h 3 (by decide), h 2 (by decide)⟩, h 1 (by decide)⟩, h 0 (by decide)⟩

/-- Words under a mask are compared octet by octet. -/
lemma inetMask_eq {n : Nat} (h : n ≤ 32) (a b : List UInt8) :
    (sAddr a &&& inetMask n == sAddr b &&& inetMask n) = maskedEq 4 n a b := by
  rw [inetMask_octets n h, Bool.eq_iff_iff, beq_iff_eq, sAddr_and, sAddr_and, sAddr_eq_iff]
  simp only [maskedEq, maskOctets, List.all_eq_true, mem_range, beq_iff_eq]
  refine forall_congr' fun i => imp_congr_right fun hi => ?_
  simp [hi]

/-! ### What an entry matches -/

/-- The mask of an entry covers the first `plen` bits of `width` octets. -/
structure Cidr.Masked (net : Cidr) (width : Nat) : Prop where
  le : net.plen ≤ 8 * width
  mask : ∀ i < width, net.mask.getD i 0 = BitPrefix.mask (min 8 (net.plen - 8 * i))

lemma Cidr.Masked.agree_iff (h : net.Masked width) (addr : List UInt8) :
    Agree net.plen addr net.addr ↔ ∀ i < width, net.sameOctet addr i = true := by
  rw [agree_iff_masked h.le]
  refine forall_congr' fun i => forall_congr' fun hi => ?_
  rw [Cidr.sameOctet, beq_iff_eq, h.mask i hi]

lemma Cidr.Masked.sameOctets6_iff (h : net.Masked width) (addr : List UInt8) (n i : Nat)
    (hn : i + n = width) :
    net.sameOctets6 addr n i = true ↔ ∀ k < width, i ≤ k → net.sameOctet addr k = true := by
  induction n generalizing i with
  | zero =>
    refine ⟨fun _ k hk hik => ?_, fun _ => rfl⟩
    omega
  | succ n ih =>
    have hmask := h.mask i (by omega)
    rw [Cidr.sameOctets6]
    by_cases hzero : net.mask.getD i 0 = 0
    · rw [if_pos hzero]
      -- the loop ends at the first octet of the mask that is 0: no bit is left to compare
      refine ⟨fun _ k hk hik => ?_, fun _ => rfl⟩
      have hnone : ∀ j < 9, BitPrefix.mask j = 0 → j = 0 := by decide
      have hbits := hnone _ (by omega) (hmask.symm.trans hzero)
      rw [Cidr.sameOctet, h.mask k hk, show min 8 (net.plen - 8 * k) = 0 by omega]
      simp [BitPrefix.mask]
    rw [if_neg hzero]
    cases hsame : net.sameOctet addr i with
    | false =>
      refine ⟨fun hfalse => (by cases hfalse), fun hall => ?_⟩
      have := hall i (by omega) (Nat.le_refl i)
      rw [hsame] at this
      cases this
    | true =>
      rw [if_pos rfl, ih (i + 1) (by omega)]
      refine ⟨fun hall k hk hik => ?_, fun hall k hk hik => hall k hk (by omega)⟩
      rcases Nat.eq_or_lt_of_le hik with rfl | hlt
      · exact hsame
      · exact hall k hk hlt

/-- How many octets an address of a family has. -/
def afWidth (family : Nat) : Nat := if family = afInet then 4 else 16

/-- An entry as `cidr_entry_parse` leaves it: not valid, or for every address, or with the mask of
its prefix. -/
def Cidr.WellFormed (net : Cidr) : Prop :=
  net.valid → net.isAny ∨ (net.family = afInet ∨ net.family = afInet6) ∧
    net.Masked (afWidth net.family)

/-- An entry of a family matches the addresses that have its first bits. -/
lemma cidrEntryMatch_iff (h : net.WellFormed) (hv : net.valid = true) (hany : net.isAny = false)
    (addr : List UInt8) :
    cidrEntryMatch net net.family addr = true ↔ Agree net.plen addr net.addr := by
  obtain ⟨hfam, hmask⟩ : (net.family = afInet ∨ net.family = afInet6) ∧
      net.Masked (afWidth net.family) := by
    rcases h hv with h1 | h1
    · rw [hany] at h1
      cases h1
    · exact h1
  unfold cidrEntryMatch
  rw [hmask.agree_iff]
  rcases hfam with hf | hf
  · simp [hv, hany, hf, afWidth]
  have := hmask.sameOctets6_iff addr 16 0 (by simp [hf, afWidth])
  simp [hv, hany, hf, afWidth] at this ⊢
  exact this

/-! ### Parsed entries -/

lemma computeMask_getD {plen total i : Nat} (hi : i < total) :
    (computeMask plen total).getD i 0 = BitPrefix.mask (min 8 (plen - 8 * i)) := by
  unfold computeMask
  rw [getD_eq_getElem?_getD, getElem?_map, getElem?_range hi]
  simp only [map_some, getD_some]
  split
  · rw [show min 8 (plen - 8 * i) = 8 by omega]
    rfl
  split
  · rw [show min 8 (plen - 8 * i) = plen - i * 8 by omega]
    rfl
  · rw [show min 8 (plen - 8 * i) = 0 by omega]
    rfl

lemma padded_getD {a : List UInt8} {i : Nat} (hi : i < 16) :
    ((a ++ List.replicate 16 0).take 16).getD i 0 = a.getD i 0 := by
  rw [getD_eq_getElem?_getD, getElem?_take_of_lt hi, getD_eq_getElem?_getD]
  rcases Nat.lt_or_ge i a.length with hlt | hge
  · rw [getElem?_append_left hlt]
  · rw [getElem?_append_right hge, getElem?_eq_none hge, getElem?_replicate]
    split <;> rfl

/-- The octets of an entry hold its fields. -/
lemma Cidr.ofOctets_cidrOctets {valid any : Bool} {family plen : Nat} {addr mask : List UInt8}
    (hf : family < 256) (hp : plen < 256) :
      Cidr.ofOctets (cidrOctets valid any family plen addr mask) =
      ⟨valid, any, family, plen, (addr ++ List.replicate 16 0).take 16,
        (mask ++ List.replicate 16 0).take 16⟩ := by
  have hlen : ∀ a : List UInt8, ((a ++ List.replicate 16 0).take 16).length = 16 := fun a => by simp
  have ha := hlen addr
  have hm := hlen mask
  unfold cidrOctets Cidr.ofOctets le32
  generalize (addr ++ List.replicate 16 0).take 16 = A at ha ⊢
  generalize (mask ++ List.replicate 16 0).take 16 = M at hm ⊢
  have hA : (A ++ (M ++ [0, 0, 0])).take 16 = A := by
    rw [take_append_of_le_length (by omega), ← ha, take_length]
  have hM : ((A ++ (M ++ [0, 0, 0])).drop 16).take 16 = M := by
    rw [← ha, drop_left, ha, take_append_of_le_length (by omega), ← hm, take_length]
  simp only [append_assoc, cons_append, nil_append, getD_cons_zero, getD_cons_succ, drop_succ_cons,
    drop_zero, Cidr.mk.injEq]
  refine ⟨?_, ?_, ?_, ?_, hA, hM⟩
  · simp
  · simp
  · simp only [UInt8.toNat_ofNat']
    omega
  · simp only [UInt8.toNat_ofNat']
    omega

/-- The addresses of a family that share their first `plen` bits. -/
structure AddrPrefix where
  family : Nat
  octets : List UInt8
  plen : Nat

/-- The length behind the slash of an entry, all bits without one. -/
def entryPlen (bits : Nat) : Option Text → Option Nat
  | none => some bits
  | some t =>
    match scanNumber t, strtol t with
    | some _, (v, []) => if 0 ≤ v ∧ v ≤ bits then some v.toNat else none
    | _, _ => none

/-- The prefix that a text stands for, none for a text that is no prefix. -/
def entryPrefix (s : Text) : Option AddrPrefix :=
  let (addr, tail) := splitAt 47 (s.take 255)
  match inetPton4 addr, inetPton6 addr with
  | some a, _ => (entryPlen 32 tail).map (⟨afInet, a, ·⟩)
  | none, some a => (entryPlen 128 tail).map (⟨afInet6, a, ·⟩)
  | none, none => none

lemma entryPlen_le {bits n : Nat} {tail : Option Text}
    (h : entryPlen bits tail = some n) : n ≤ bits := by
  unfold entryPlen at h
  split at h
  · exact (some.inj h).ge
  split at h
  · split at h
    · rw [← some.inj h]
      omega
    · cases h
  · cases h

/-- The prefix lies within its addresses. -/
lemma entryPrefix_ok {s : Text} {p : AddrPrefix} (h : entryPrefix s = some p) :
    (p.family = afInet ∨ p.family = afInet6) ∧ p.plen ≤ 8 * afWidth p.family := by
  unfold entryPrefix at h
  dsimp only at h
  split at h
  · obtain ⟨n, hn, rfl⟩ := map_eq_some_iff.mp h
    exact ⟨.inl rfl, entryPlen_le hn⟩
  · obtain ⟨n, hn, rfl⟩ := map_eq_some_iff.mp h
    exact ⟨.inr rfl, entryPlen_le hn⟩
  · cases h

/-- What `cidr_entry_parse` makes of a prefix. -/
lemma cidrEntryParse_eq {s : Text} (hany : ¬ (s = ascii "any" ∨ s = ascii "any;")) :
    cidrEntryParse s =
    match entryPrefix s with
    | none => cidrOctets false false 0 0 [] []
    | some p =>
      cidrOctets true false p.family p.plen p.octets (computeMask p.plen (afWidth p.family)) := by
  by_cases hs : s = []
  · subst hs
    rfl
  simp only [cidrEntryParse, hs, hany, if_false, entryPrefix]
  generalize splitAt 47 (s.take 255) = st
  obtain ⟨addr, _ | t⟩ := st
  · dsimp only [entryPlen]
    cases inetPton4 addr <;> cases inetPton6 addr <;> rfl
  -- a number up to 128 is taken before the family is known
  dsimp only [entryPlen]
  rcases scanNumber t with _ | number
  · cases inetPton4 addr <;> cases inetPton6 addr <;> rfl
  rcases strtol t with ⟨v, _ | ⟨c, rest⟩⟩
  · dsimp only
    rcases inetPton4 addr with _ | a4 <;> rcases inetPton6 addr with _ | a6
      <;> dsimp only <;> split_ifs <;>
      simp <;> grind [afWidth]
  · cases inetPton4 addr <;> cases inetPton6 addr <;> rfl

/-- What `cidr_entry_parse` leaves is well formed. -/
lemma cidrEntryParse_wellFormed (s : Text) : (Cidr.ofOctets (cidrEntryParse s)).WellFormed := by
  by_cases hany : s = ascii "any" ∨ s = ascii "any;"
  · rcases hany with rfl | rfl <;> exact fun _ => .inl (by decide +kernel)
  rw [cidrEntryParse_eq hany]
  cases hp : entryPrefix s with
  | none =>
    rw [Cidr.ofOctets_cidrOctets (by decide) (by decide)]
    exact fun h => nomatch h
  | some p =>
    obtain ⟨hfam, hle⟩ := entryPrefix_ok hp
    have hwidth : afWidth p.family ≤ 16 := by rcases hfam with h | h <;> rw [h] <;> decide
    have hfam' : p.family < 256 := by rcases hfam with h | h <;> rw [h] <;> decide
    dsimp only
    rw [Cidr.ofOctets_cidrOctets hfam' (by omega)]
    refine fun _ => .inr ⟨hfam, hle, fun i hi => ?_⟩
    have hi : i < afWidth p.family := hi
    rw [padded_getD (by omega), computeMask_getD hi]

end KariDns
