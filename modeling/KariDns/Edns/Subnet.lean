import KariDns.Net.Cidr
import Mathlib.Data.Nat.Bitwise

/-! Which tag a client subnet gets, and for which prefix the answer holds (`dns_edns_ecs.c`).

`resolve_ecs_subnet_tag` goes through the definitions in their order. Each one it looks at makes
the scope long enough that all addresses of the prefix reported fare alike at it, so the prefixes
reported cut the address space into pieces (RFC 7871 7.2.1).
-/

namespace KariDns

open Octets DomainName BitPrefix

/-! ### Common bits -/

/-- The first loop of `ecs_common_prefix_bits`: whole octets. -/
def commonOctets (a b : List UInt8) (maxBits : Nat) : Nat → Nat → Nat
  | 0, n => n
  | fuel + 1, n =>
    if n + 8 ≤ maxBits ∧ a.getD (n / 8) 0 = b.getD (n / 8) 0 then
      commonOctets a b maxBits fuel (n + 8) else n

/-- The second loop: the leading bits of `diff` that are 0. -/
def sameBits (diff : UInt8) : Nat → Nat → Nat
  | 0, same => same
  | fuel + 1, same =>
    if diff &&& (0x80 >>> UInt8.ofNat same) = 0 then sameBits diff fuel (same + 1) else same

/-- `ecs_common_prefix_bits`. -/
def ecsCommonPrefixBits (a b : List UInt8) (maxBits : Nat) : Nat :=
  let n := commonOctets a b maxBits 32 0
  if n < maxBits then
    let same := sameBits (a.getD (n / 8) 0 ^^^ b.getD (n / 8) 0) 8 0
    min ((n + same) % 256) maxBits
  else n

/-! ### The definitions -/

/-- `ecs_cidr_step`: whether the definition matches, and the scope behind it. -/
def ecsCidrStep (af : Nat) (addr : List UInt8) (familyBits : Nat) (c : CidrEntry)
    (scope : Nat) : Bool × Nat :=
  let parsed := Cidr.ofOctets c.parsed
  if parsed.valid then
    if cidrEntryMatch parsed af addr then
      (true, if !parsed.isAny ∧ parsed.plen > scope then parsed.plen else scope)
    else if parsed.family = af then
      let cp := (ecsCommonPrefixBits addr parsed.addr parsed.plen + 1) % 256
      (false, if cp > scope then cp else scope)
    else (false, scope)
  else
    match c.cidr with
    | some text =>
      (matchCidr (if af = afInet then inetNtop4 addr else inetNtop6 addr) text, familyBits)
    | none => (false, scope)

/-- The loop over the prefixes of one definition. -/
def ecsCidrLoop (af : Nat) (addr : List UInt8) (familyBits : Nat) :
    List CidrEntry → Nat → Bool × Nat
  | [], scope => (false, scope)
  | c :: cs, scope =>
    match ecsCidrStep af addr familyBits c scope with
    | (true, scope) => (true, scope)
    | (false, scope) => ecsCidrLoop af addr familyBits cs scope

/-- The loop over the definitions, until one with a tag matches. -/
def ecsTagLoop (af : Nat) (addr : List UInt8) (familyBits : Nat) :
    List TagDef → Nat → Option Text × Nat
  | [], scope => (none, scope)
  | d :: ds, scope =>
    match ecsCidrLoop af addr familyBits d.cidrs scope with
    | (true, scope) => if d.tag.isSome then (d.tag, scope)
      else ecsTagLoop af addr familyBits ds scope
    | (false, scope) => ecsTagLoop af addr familyBits ds scope

/-- Where the definitions come from: the zone's data, else its settings, else those of the
server. -/
def ecsDefinitions (zone : List TagDef) (zcfg cfg : Option (List TagDef)) : List TagDef :=
  if zone ≠ [] then zone else (zcfg <|> cfg).getD []

/-- `resolve_ecs_subnet_tag` for the definitions in force: the tag and `*out_scope_prefix`. `family`
is that of the ECS option. -/
def resolveEcsTag (defs : List TagDef) (addr : Option (List UInt8)) (family : Nat) :
    Option Text × Nat :=
  match defs, addr with
  | [], _ => (none, 0)
  | _, none => (none, 0)
  | defs, some addr =>
    if family = 1 ∨ family = 2 then
      let af := if family = 1 then afInet else afInet6
      let familyBits := if family = 1 then 32 else 128
      let (found, scope) := ecsTagLoop af addr familyBits defs 0
      (found, min scope familyBits)
    else (none, 0)

/-- `resolve_ecs_subnet_tag`. -/
def resolveEcsSubnetTag (zone : List TagDef) (zcfg cfg : Option (List TagDef))
    (addr : Option (List UInt8)) (family : Nat) : Option Text × Nat :=
  resolveEcsTag (ecsDefinitions zone zcfg cfg) addr family

/-! ### Where two addresses part -/

lemma commonOctets_spec (a b : List UInt8) {maxBits : Nat} (fuel n : Nat)
    (hfuel : maxBits < n + 8 * (fuel + 1)) (hmod : n % 8 = 0) (hle : n ≤ maxBits)
    (hag : Agree n a b) :
    let k := commonOctets a b maxBits fuel n
    k % 8 = 0 ∧ k ≤ maxBits ∧ Agree k a b ∧
      (k + 8 ≤ maxBits → a.getD (k / 8) 0 ≠ b.getD (k / 8) 0) := by
  induction fuel generalizing n with
  | zero =>
    refine ⟨hmod, hle, hag, fun h => ?_⟩
    simp only [commonOctets] at h
    omega
  | succ fuel ih =>
    simp only [commonOctets]
    by_cases hc : n + 8 ≤ maxBits ∧ a.getD (n / 8) 0 = b.getD (n / 8) 0
    · rw [if_pos hc]
      refine ih (n + 8) (by omega) (by omega) hc.1 fun i hi => ?_
      rcases Nat.lt_or_ge i n with hlt | hge
      · exact hag i hlt
      refine bit_eq_of_getD ?_
      rw [show i / 8 = n / 8 by omega]
      exact hc.2
    · rw [if_neg hc]
      exact ⟨hmod, hle, hag, fun h heq => hc ⟨h, heq⟩⟩

lemma and_bit_eq_zero (x : UInt8) {k : Nat} (hk : k < 8) :
    x &&& (0x80 >>> UInt8.ofNat k) = 0 ↔ x.toNat.testBit (7 - k) = false := by
  have hpow : ∀ k < 8, ((0x80 : UInt8) >>> UInt8.ofNat k).toNat = 2 ^ (7 - k) := by decide
  rw [← UInt8.toNat_inj, UInt8.toNat_and, hpow k hk, Nat.and_two_pow]
  cases x.toNat.testBit (7 - k) <;> simp

lemma sameBits_spec (x y : UInt8) (fuel n : Nat) (hfuel : n + fuel = 8)
    (hsame : ∀ j < n, x.toNat.testBit (7 - j) = y.toNat.testBit (7 - j)) :
    let k := sameBits (x ^^^ y) fuel n
    k ≤ 8 ∧ (∀ j < k, x.toNat.testBit (7 - j) = y.toNat.testBit (7 - j)) ∧
      (k < 8 → x.toNat.testBit (7 - k) ≠ y.toNat.testBit (7 - k)) := by
  induction fuel generalizing n with
  | zero =>
    exact ⟨by simp only [sameBits]; omega, hsame,
      fun h => absurd h (by simp only [sameBits]; omega)⟩
  | succ fuel ih =>
    have hbit : (x ^^^ y) &&& (0x80 >>> UInt8.ofNat n) = 0 ↔
        x.toNat.testBit (7 - n) = y.toNat.testBit (7 - n) := by
      rw [and_bit_eq_zero _ (by omega), UInt8.toNat_xor, Nat.testBit_xor]
      cases x.toNat.testBit (7 - n) <;> cases y.toNat.testBit (7 - n) <;> decide
    simp only [sameBits]
    by_cases hc : (x ^^^ y) &&& (0x80 >>> UInt8.ofNat n) = 0
    · rw [if_pos hc]
      refine ih (n + 1) (by omega) fun j hj => ?_
      rcases Nat.lt_succ_iff_lt_or_eq.mp hj with hlt | rfl
      · exact hsame j hlt
      · exact hbit.mp hc
    · rw [if_neg hc]
      exact ⟨by omega, hsame, fun _ => mt hbit.mpr hc⟩

/-- `ecs_common_prefix_bits` finds the bit in which two addresses part. -/
lemma ecsCommonPrefixBits_parts (a b : List UInt8) {maxBits : Nat} (hmax : maxBits ≤ 128) :
    Parts maxBits (ecsCommonPrefixBits a b maxBits) a b := by
  obtain ⟨hmod, hle, hag, hdiff⟩ :=
    commonOctets_spec a b 32 0 (by omega) rfl (Nat.zero_le maxBits) (fun _ h => by omega)
  unfold ecsCommonPrefixBits
  simp only
  generalize commonOctets a b maxBits 32 0 = n at hmod hle hag hdiff ⊢
  by_cases hlt : n < maxBits
  · rw [if_pos hlt]
    obtain ⟨hs8, hsame, hpart⟩ :=
      sameBits_spec (a.getD (n / 8) 0) (b.getD (n / 8) 0) 8 0 rfl (fun _ h => by omega)
    generalize sameBits (a.getD (n / 8) 0 ^^^ b.getD (n / 8) 0) 8 0 = same at hs8 hsame hpart ⊢
    have hbits : ∀ j < 8, ∀ c : List UInt8, bit c
        (n + j) = (c.getD (n / 8) 0).toNat.testBit (7 - j) := by
      intro j hj c
      unfold bit
      rw [show (n + j) / 8 = n / 8 by omega, show (n + j) % 8 = j by omega]
    have hagree : Agree (n + same) a b := by
      intro i hi
      rcases Nat.lt_or_ge i n with hin | hin
      · exact hag i hin
      obtain ⟨j, rfl⟩ := Nat.exists_eq_add_of_le hin
      rw [hbits j (by omega), hbits j (by omega)]
      exact hsame j (by omega)
    rw [Nat.mod_eq_of_lt (by omega)]
    refine ⟨Nat.min_le_right .., hagree.mono (Nat.min_le_left ..), fun hmin => ?_⟩
    rw [Nat.min_eq_left (by omega)] at hmin ⊢
    have hsame8 : same < 8 := by
      -- a whole octet in common would have been taken by the first loop
      by_contra hge
      have heq : a.getD (n / 8) 0 = b.getD (n / 8) 0 := octet_ext fun j hj => hsame j (by omega)
      exact hdiff (by omega) heq
    rw [hbits same hsame8, hbits same hsame8]
    exact hpart hsame8
  · rw [if_neg hlt]
    exact ⟨hle, hag, fun h => absurd h hlt⟩

/-! ### One definition -/

/-- The parsed form is that of the text, all zero for a null pointer. -/
def CidrEntry.Parsed (c : CidrEntry) : Prop :=
  c.parsed = (c.cidr.map cidrEntryParse).getD (List.replicate cidrEntrySize 0)

lemma CidrEntry.Parsed.wellFormed {c : CidrEntry} (h : c.Parsed) :
    (Cidr.ofOctets c.parsed).WellFormed := by
  rw [h]
  cases c.cidr with
  | none => exact fun hv => absurd hv (by decide)
  | some s => exact cidrEntryParse_wellFormed s

section Step

variable {af : Nat} (haf : af = afInet ∨ af = afInet6) {c : CidrEntry} (hc : c.Parsed)

/-- What a definition does with an address: it is for any address, it holds the first bits of the
address, it parts from the address in some bit, or it does not concern the family; a definition that
could not be parsed takes all bits. -/
inductive StepCase (af : Nat) (c : CidrEntry) (a : List UInt8) : Prop
  | any (step : ∀ b s, ecsCidrStep af b (8 * afWidth af) c s = (true, s))
  | inside (n : Nat) (e : List UInt8) (le : n ≤ 8 * afWidth af) (agree : Agree n a e)
      (step : ∀ b s, Agree n b e → ecsCidrStep af b (8 * afWidth af) c s = (true, max s n))
  | outside (m n : Nat) (e : List UInt8) (le : m ≤ 8 * afWidth af) (lt : n < m)
    (parts : Parts m n a e)
      (step : ∀ b s, Parts m n b e → ecsCidrStep af b (8 * afWidth af) c s = (false, max s (n + 1)))
  | foreign (step : ∀ b s, ecsCidrStep af b (8 * afWidth af) c s = (false, s))
  | unparsed (step : ∀ s, (ecsCidrStep af a (8 * afWidth af) c s).2 = 8 * afWidth af)

include haf hc

lemma stepCase (a : List UInt8) : StepCase af c a := by
  have hwf := hc.wellFormed
  generalize hp : Cidr.ofOctets c.parsed = net at hwf
  cases hv : net.valid with
  | false =>
    cases ht : c.cidr with
    | none => exact .foreign fun b s => by simp [ecsCidrStep, hp, hv, ht]
    | some text => exact .unparsed fun s => by simp [ecsCidrStep, hp, hv, ht]
  | true =>
    cases hany : net.isAny with
    | true =>
      refine .any fun b s => ?_
      have hmatch : cidrEntryMatch net af b = true := by simp [cidrEntryMatch, hv, hany]
      simp [ecsCidrStep, hp, hv, hmatch, hany]
    | false =>
      by_cases hfam : net.family = af
      · obtain ⟨-, hmask⟩ : (net.family = afInet ∨ net.family = afInet6) ∧
            net.Masked (afWidth net.family) :=
          (hwf hv).resolve_left (by simp [hany])
        rw [hfam] at hmask
        have h128 : net.plen ≤ 128 := by
          have := hmask.le
          rcases haf with rfl | rfl <;> simp [afWidth] at this <;> omega
        have hiff : ∀ b, cidrEntryMatch net af b = true ↔ Agree net.plen b net.addr :=
          fun b => hfam ▸ cidrEntryMatch_iff hwf hv hany b
        have hparts := ecsCommonPrefixBits_parts a net.addr h128
        by_cases hag : Agree net.plen a net.addr
        · refine .inside net.plen net.addr hmask.le hag fun b s hb => ?_
          have hmatch := (hiff b).mpr hb
          simp only [ecsCidrStep, hp, hv, hmatch, hany, if_true]
          congr 1
          simp only [Bool.not_false, true_and]
          split <;> omega
        have hlt : ecsCommonPrefixBits a net.addr net.plen < net.plen :=
          Nat.lt_of_le_of_ne hparts.le (mt hparts.agree_iff.mpr hag)
        refine .outside net.plen _ net.addr hmask.le hlt hparts fun b s hb => ?_
        have hmatch : cidrEntryMatch net af b = false :=
          Bool.eq_false_iff.mpr fun hm => Nat.ne_of_lt hlt (hb.agree_iff.mp ((hiff b).mp hm))
        have hcommon : ecsCommonPrefixBits b net.addr net.plen =
            ecsCommonPrefixBits a net.addr net.plen :=
          (ecsCommonPrefixBits_parts b net.addr h128).unique hb
        simp only [ecsCidrStep, hp, hv, hmatch, hfam, if_true, hcommon, Bool.false_eq_true,
          if_false]
        rw [Nat.mod_eq_of_lt (by omega)]
        congr 1
        split <;> omega
      · refine .foreign fun b s => ?_
        have hmatch : cidrEntryMatch net af b = false := by simp [cidrEntryMatch, hv, hany, hfam]
        simp [ecsCidrStep, hp, hv, hmatch, hfam]

/-- A definition makes the scope no shorter, and no longer than an address. -/
lemma ecsCidrStep_bounds (a : List UInt8) {s : Nat} (hs : s ≤ 8 * afWidth af) :
    s ≤ (ecsCidrStep af a (8 * afWidth af) c s).2 ∧
      (ecsCidrStep af a (8 * afWidth af) c s).2 ≤ 8 * afWidth af := by
  cases stepCase haf hc a with
  | any step => simp [step, hs]
  | inside n e le agree step =>
    rw [step a s agree]
    exact ⟨Nat.le_max_left .., Nat.max_le.mpr ⟨hs, le⟩⟩
  | outside m n e le lt parts step =>
    rw [step a s parts]
    exact ⟨Nat.le_max_left .., Nat.max_le.mpr ⟨hs, by omega⟩⟩
  | foreign step => simp [step, hs]
  | unparsed step => simp [step, hs]

/-- Addresses that agree in the scope fare alike at a definition. -/
lemma ecsCidrStep_agree {a b : List UInt8} (ha : a.length = afWidth af) (hb : b.length = afWidth af)
    {s l : Nat} (hl : (ecsCidrStep af a (8 * afWidth af) c s).2 ≤ l) (hab : Agree l a b) :
    ecsCidrStep af b (8 * afWidth af) c s = ecsCidrStep af a (8 * afWidth af) c s := by
  cases stepCase haf hc a with
  | any step => rw [step, step]
  | inside n e le agree step =>
    rw [step a s agree] at hl ⊢
    exact step b s ((hab.mono (le_of_max_le_right hl)).symm.trans agree)
  | outside m n e le lt parts step =>
    rw [step a s parts] at hl ⊢
    have hn : n + 1 ≤ l := le_of_max_le_right hl
    refine step b s ⟨parts.le, (hab.mono (by omega)).symm.trans parts.agree, fun _ => ?_⟩
    rw [← hab n (by omega)]
    exact parts.differ lt
  | foreign step => rw [step, step]
  | unparsed step =>
    rw [step, ← ha] at hl
    rw [(hab.mono hl).eq (ha.trans hb.symm)]

end Step

/-! ### All definitions -/

section Loops

variable {af : Nat} (haf : af = afInet ∨ af = afInet6)
include haf

lemma ecsCidrLoop_bounds (a : List UInt8) (cs : List CidrEntry) (hcs : ∀ c ∈ cs, c.Parsed) {s : Nat}
    (hs : s ≤ 8 * afWidth af) :
    s ≤ (ecsCidrLoop af a (8 * afWidth af) cs s).2 ∧
      (ecsCidrLoop af a (8 * afWidth af) cs s).2 ≤ 8 * afWidth af := by
  induction cs generalizing s with
  | nil => exact ⟨Nat.le_refl s, hs⟩
  | cons c cs ih =>
    have hstep := ecsCidrStep_bounds haf (hcs c List.mem_cons_self) a hs
    rw [ecsCidrLoop]
    generalize ecsCidrStep af a (8 * afWidth af) c s = r at hstep ⊢
    obtain ⟨found, s'⟩ := r
    cases found with
    | true => exact hstep
    | false =>
      have hrest := ih (fun c hc => hcs c (List.mem_cons_of_mem _ hc)) hstep.2
      exact ⟨hstep.1.trans hrest.1, hrest.2⟩

lemma ecsTagLoop_bounds (a : List UInt8) (ds : List TagDef)
    (hds : ∀ d ∈ ds, ∀ c ∈ d.cidrs, c.Parsed) {s : Nat} (hs : s ≤ 8 * afWidth af) :
    s ≤ (ecsTagLoop af a (8 * afWidth af) ds s).2 ∧
      (ecsTagLoop af a (8 * afWidth af) ds s).2 ≤ 8 * afWidth af := by
  induction ds generalizing s with
  | nil => exact ⟨Nat.le_refl s, hs⟩
  | cons d ds ih =>
    have hstep := ecsCidrLoop_bounds haf a d.cidrs (hds d List.mem_cons_self) hs
    rw [ecsTagLoop]
    generalize ecsCidrLoop af a (8 * afWidth af) d.cidrs s = r at hstep ⊢
    obtain ⟨found, s'⟩ := r
    have hrest := ih (fun d hd => hds d (List.mem_cons_of_mem _ hd)) hstep.2
    cases found with
    | true =>
      simp only
      split
      · exact hstep
      · exact ⟨hstep.1.trans hrest.1, hrest.2⟩
    | false => exact ⟨hstep.1.trans hrest.1, hrest.2⟩

variable {a b : List UInt8} (ha : a.length = afWidth af) (hb : b.length = afWidth af)
include ha hb

lemma ecsCidrLoop_agree (cs : List CidrEntry) (hcs : ∀ c ∈ cs, c.Parsed) {s l : Nat}
    (hs : s ≤ 8 * afWidth af) (hl : (ecsCidrLoop af a (8 * afWidth af) cs s).2 ≤ l)
    (hab : Agree l a b) :
    ecsCidrLoop af b (8 * afWidth af) cs s = ecsCidrLoop af a (8 * afWidth af) cs s := by
  induction cs generalizing s with
  | nil => rfl
  | cons c cs ih =>
    have hc := hcs c List.mem_cons_self
    have hrestp : ∀ c ∈ cs, c.Parsed := fun c hc => hcs c (List.mem_cons_of_mem _ hc)
    have hbound := (ecsCidrStep_bounds haf hc a hs).2
    rw [ecsCidrLoop] at hl ⊢
    rw [ecsCidrLoop.eq_def _ a]
    -- the scope behind this definition is no longer than the one behind them all
    have hstep : (ecsCidrStep af a (8 * afWidth af) c s).2 ≤ l := by
      generalize ecsCidrStep af a (8 * afWidth af) c s = r at hl hbound
      obtain ⟨found, s'⟩ := r
      cases found with
      | true => exact hl
      | false => exact (ecsCidrLoop_bounds haf a cs hrestp hbound).1.trans hl
    simp only
    rw [ecsCidrStep_agree haf hc ha hb hstep hab]
    generalize ecsCidrStep af a (8 * afWidth af) c s = r at hl hbound
    obtain ⟨found, s'⟩ := r
    cases found with
    | true => rfl
    | false => exact ih hrestp hbound hl

lemma ecsTagLoop_agree (ds : List TagDef) (hds : ∀ d ∈ ds, ∀ c ∈ d.cidrs, c.Parsed) {s l : Nat}
    (hs : s ≤ 8 * afWidth af) (hl : (ecsTagLoop af a (8 * afWidth af) ds s).2 ≤ l)
    (hab : Agree l a b) :
    ecsTagLoop af b (8 * afWidth af) ds s = ecsTagLoop af a (8 * afWidth af) ds s := by
  induction ds generalizing s with
  | nil => rfl
  | cons d ds ih =>
    have hd := hds d List.mem_cons_self
    have hrestp : ∀ d ∈ ds, ∀ c ∈ d.cidrs, c.Parsed := fun d hd => hds d (List.mem_cons_of_mem _ hd)
    have hbound := (ecsCidrLoop_bounds haf a d.cidrs hd hs).2
    rw [ecsTagLoop] at hl ⊢
    rw [ecsTagLoop.eq_def _ a]
    have hstep : (ecsCidrLoop af a (8 * afWidth af) d.cidrs s).2 ≤ l := by
      generalize ecsCidrLoop af a (8 * afWidth af) d.cidrs s = r at hl hbound
      obtain ⟨found, s'⟩ := r
      have hrest := (ecsTagLoop_bounds haf a ds hrestp hbound).1
      cases found with
      | true =>
        simp only at hl
        split at hl
        · exact hl
        · exact hrest.trans hl
      | false => exact hrest.trans hl
    simp only
    rw [ecsCidrLoop_agree haf ha hb d.cidrs hd hs hstep hab]
    generalize ecsCidrLoop af a (8 * afWidth af) d.cidrs s = r at hl hbound
    obtain ⟨found, s'⟩ := r
    cases found with
    | true =>
      simp only at hl ⊢
      by_cases htag : d.tag.isSome
      · rw [if_pos htag, if_pos htag]
      rw [if_neg htag] at hl ⊢
      rw [if_neg htag]
      exact ih hrestp hbound hl
    | false => exact ih hrestp hbound hl

end Loops

/-- How many octets an address of an ECS family has. -/
def ecsWidth (family : Nat) : Nat := if family = 1 then 4 else 16

/-- The bits of the scope decide the tag and the scope. -/
lemma resolveEcsTag_deciding {defs : List TagDef} (hdefs : ∀ d ∈ defs, ∀ c ∈ d.cidrs, c.Parsed)
    (family : Nat) :
    Deciding (ecsWidth family) (fun a => (resolveEcsTag defs (some a) family).1)
      (fun a => (resolveEcsTag defs (some a) family).2) := by
  intro a b ha hb hab
  have hsame : resolveEcsTag defs (some b) family = resolveEcsTag defs (some a) family := by
    cases defs with
    | nil => rfl
    | cons d ds =>
      by_cases hfam : family = 1 ∨ family = 2
      · -- the address family, its width and its number of bits
        obtain ⟨af, haf, hwidth, heq⟩ : ∃ af, (af = afInet ∨ af = afInet6) ∧
          ecsWidth family = afWidth af ∧
            ∀ x, resolveEcsTag (d :: ds) (some x) family =
              ((ecsTagLoop af x (8 * afWidth af) (d :: ds) 0).1,
                min (ecsTagLoop af x (8 * afWidth af) (d :: ds) 0).2 (8 * afWidth af)) := by
          rcases hfam with rfl | rfl
          · exact ⟨afInet, .inl rfl, rfl, fun x => rfl⟩
          · exact ⟨afInet6, .inr rfl, rfl, fun x => rfl⟩
        rw [hwidth] at ha hb
        have hbound := (ecsTagLoop_bounds haf a (d :: ds) hdefs (Nat.zero_le _)).2
        simp only [heq a, Nat.min_eq_left hbound] at hab
        rw [heq a, heq b,
          ecsTagLoop_agree haf ha hb (d :: ds) hdefs (Nat.zero_le _) (Nat.le_refl _) hab]
      · simp only [resolveEcsTag, if_neg hfam]
  simp only [hsame, and_self]

/-- Whatever the definitions are, the prefixes reported for two addresses of a family are equal or
disjoint, and all addresses of a reported prefix get the same tag. -/
theorem resolveEcsSubnetTag_partition {zone : List TagDef} {zcfg cfg : Option (List TagDef)}
    (hdefs : ∀ d ∈ ecsDefinitions zone zcfg cfg, ∀ c ∈ d.cidrs, c.Parsed) (family : Nat)
    {a b : List UInt8} (ha : a.length = ecsWidth family) (hb : b.length = ecsWidth family) :
    let reported x :=
      block (ecsWidth family) (resolveEcsSubnetTag zone zcfg cfg (some x) family).2 x
    (reported a = reported b ∨ Disjoint (reported a) (reported b)) ∧
      ∀ c ∈ reported a, ∀ d ∈ reported a, (resolveEcsSubnetTag zone zcfg cfg (some c) family).1 =
        (resolveEcsSubnetTag zone zcfg cfg (some d) family).1 := by
  have hdec := resolveEcsTag_deciding hdefs family
  exact ⟨hdec.laminar ha hb, fun c hc d hd => hdec.value_eq ha hc hd⟩

/-- A network and, with another tag, a network around it. -/
def nestedDefs : List TagDef :=
  [⟨some (ascii "lab"),
    [⟨some (ascii "192.0.2.0/24"), cidrEntryParse (ascii "192.0.2.0/24"), by decide +kernel⟩]⟩,
    ⟨some (ascii "site"),
      [⟨some (ascii "192.0.0.0/16"), cidrEntryParse (ascii "192.0.0.0/16"), by decide +kernel⟩]⟩]

/-- An address beside the inner network is answered for a prefix as long as that of the inner
one. -/
theorem resolveEcsSubnetTag_nested :
    resolveEcsSubnetTag nestedDefs none none (some [192, 0, 2, 9]) 1 = (some (ascii "lab"), 24) ∧
      resolveEcsSubnetTag nestedDefs none none (some [192, 0, 3, 9]) 1 = (some (ascii "site"), 24) ∧
      (block 4 (resolveEcsSubnetTag nestedDefs none none (some [192, 0, 2, 9]) 1).2 [192, 0, 2, 9] =
          block 4 (resolveEcsSubnetTag nestedDefs none none (some [192, 0, 3, 9]) 1).2
            [192, 0, 3, 9] ∨
        Disjoint (block 4
          (resolveEcsSubnetTag nestedDefs none none (some [192, 0, 2, 9]) 1).2 [192, 0, 2, 9])
          (block 4 (resolveEcsSubnetTag nestedDefs none none (some [192, 0, 3, 9]) 1).2
            [192, 0, 3, 9])) := by
  have hdefs : ∀ d ∈ ecsDefinitions nestedDefs none none, ∀ c ∈ d.cidrs, c.Parsed := by
    simp [ecsDefinitions, nestedDefs, CidrEntry.Parsed]
  exact ⟨by decide +kernel, by decide +kernel, (resolveEcsSubnetTag_partition hdefs 1 rfl rfl).1⟩

end KariDns
