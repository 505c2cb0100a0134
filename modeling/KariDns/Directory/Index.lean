import KariDns.Lib.TombTable
import KariDns.Name.Tree

/-! The zone directory of a view (`zdir_t`): the index of its zones by name.

The key of a zone is its name without the root dot, in lower case. Elements are told apart by
where they are in memory; at most one of each key is in the index.
-/

namespace KariDns

open Octets DomainName TombTable List Option

/-! ### Keys -/

/-- The loop of `zone_key_len`, as the text that is left. -/
def zoneKeyFrom : Nat → Text → Text
  | 0, t => t
  | fuel + 1, t => if dnsNameLenNoRoot t = t.length then t
    else zoneKeyFrom fuel (t.take (dnsNameLenNoRoot t))

/-- A name without its final dots. -/
def zoneKey (name : Text) : Text := zoneKeyFrom name.length name

/-- `zone_key_len`. -/
def zoneKeyLen (name : Text) : Nat := (zoneKey name).length

/-- `calc_fnv1a_strn`. -/
def calcFnv1aStrn (t : Text) (len : Nat) : UInt32 := fnv1aText (t.take len)

/-- `zdir_elem_t`: where it is, and the name of the zone. -/
structure ZdirElem where
  address : Nat
  name : Text
  deriving DecidableEq

/-- `zdir_name_hash` of the name. -/
def ZdirElem.hash (e : ZdirElem) : UInt32 := calcFnv1aStrn e.name (zoneKeyLen e.name)

/-- The length of the key, as it is kept in an octet. -/
def ZdirElem.klen (e : ZdirElem) : Nat := zoneKeyLen e.name % 256

/-- The key of a zone. -/
def ZdirElem.key (e : ZdirElem) : Text := (zoneKey e.name).map lower

/-! ### The table -/

/-- `zdir_tab_t`. -/
structure ZdirTab where
  cap : Nat
  slot : Nat → Cell ZdirElem

/-- `zdir_t`: the table once there is one, the cells that are not free and the elements. -/
structure Zdir where
  tab : Option ZdirTab
  used : Nat
  live : Nat

/-- `zdir_new`. -/
def Zdir.new : Zdir := ⟨none, 0, 0⟩

/-- An element with this key. -/
def ZdirElem.named (s : ZdirElem) (hash : UInt32) (key : Text) (klen : Nat) : Bool :=
  s.hash = hash ∧ s.klen = klen ∧ strncaseeq s.name key klen

/-- A walk over the table from a hash on. -/
def ZdirTab.walk (t : ZdirTab) (hash : UInt32) (p : ZdirElem → Bool) : Option (Found ZdirElem) :=
  search t.cap t.slot hash.toNat p t.cap 0 none

/-- `zdir_tab_find`; the outer `none` is a walk that does not end. -/
def zdirTabFind (t : ZdirTab) (hash : UInt32) (key : Text) (klen : Nat) :
    Option (Option ZdirElem) :=
  (t.walk hash fun s => s.named hash key klen).map fun
    | .hit _ s => some s
    | .miss _ _ => none

/-- `ZDIR_MIN_CAP`. -/
def zdirMinCap : Nat := 64

/-- The capacity of a new table. -/
def zdirCap (live : Nat) : Nat := nextCap (live * 2) zdirMinCap
where
  /-- Doubled until it is enough. -/
  nextCap (need : Nat) (cap : Nat) : Nat := go need need cap
  go (need : Nat) : Nat → Nat → Nat
    | 0, cap => cap
    | fuel + 1, cap => if cap < need then go need fuel (cap * 2) else cap

/-- The elements in a new table. -/
def zdirRebuild (d : Zdir) (extra : Nat) : Option Zdir :=
  let cap := zdirCap (d.live + extra)
  let elems := (d.tab.map fun t => values t.cap t.slot).getD []
  (refill cap (fun e => e.hash.toNat) empty elems).map fun slot =>
    { d with tab := some ⟨cap, slot⟩, used := elems.length }

/-- `zdir_reserve`; `memory` tells whether a new table can be had. -/
def zdirReserve (memory : Bool) (d : Zdir) (extra : Nat) : Option (Bool × Zdir) :=
  if d.tab.any fun t => (d.used + extra) * 2 ≤ t.cap then some (true, d)
  else if memory then (zdirRebuild d extra).map fun d => (true, d)
  else some (false, d)

/-- `zdir_insert`: the element that is replaced. -/
def zdirInsert (d : Zdir) (e : ZdirElem) : Option (Option ZdirElem × Zdir) := do
  let t ← d.tab
  match ← t.walk e.hash fun s => s = e || s.named e.hash e.name e.klen with
  | .hit i s =>
    if s = e then return (none, d)
    else return (some s, { d with tab := some { t with slot := put t.slot i (.full e) } })
  | .miss free tomb =>
    return (none,
      { tab := some { t with slot := put t.slot (tomb.getD free) (.full e) }
        used := if tomb.isSome then d.used else d.used + 1
        live := d.live + 1 })

/-- `zdir_remove`: whether the element was there. -/
def zdirRemove (d : Zdir) (e : ZdirElem) : Option (Bool × Zdir) :=
  match d.tab with
  | none => some (false, d)
  | some t =>
    (t.walk e.hash (· = e)).map fun
      | .hit i _ =>
        (true, { d with tab := some { t with slot := put t.slot i .tomb }, live := d.live - 1 })
      | .miss _ _ => (false, d)

/-- `zdir_lookup`. -/
def zdirLookup (d : Zdir) (name : Text) : Option (Option ZdirElem) :=
  match d.tab with
  | none => some none
  | some t => zdirTabFind t (calcFnv1aStrn name (zoneKeyLen name)) name (zoneKeyLen name)

/-! ### Names and keys -/

lemma zoneKeyFrom_begins : ∀ (fuel : Nat) (t : Text), zoneKeyFrom fuel t <+: t
  | 0, t => prefix_rfl
  | fuel + 1, t => by
    unfold zoneKeyFrom
    split
    · exact prefix_rfl
    · exact (zoneKeyFrom_begins fuel _).trans ( take_prefix _ t)

lemma zoneKey_eq_take (name : Text) : zoneKey name = name.take (zoneKeyLen name) :=
  prefix_iff_eq_take.mp (zoneKeyFrom_begins _ name)

lemma zoneKeyLen_le (name : Text) : zoneKeyLen name ≤ name.length :=
  (zoneKeyFrom_begins _ name).length_le

/-- The hash of a key in lower case. -/
def keyHash (q : Text) : Nat := (fnv1aText q).toNat

lemma ZdirElem.hash_key (e : ZdirElem) : e.hash.toNat = keyHash e.key := by
  rw [ZdirElem.hash, calcFnv1aStrn, ← zoneKey_eq_take, keyHash, ZdirElem.key, fnv1aText_lower]

/-- For names of up to 255 characters the octet holds the length, and elements are found by key. -/
lemma ZdirElem.named_iff {s : ZdirElem} (hs : s.name.length ≤ 255) {key : Text} {klen : Nat}
    (hk : klen ≤ key.length) :
    s.named (calcFnv1aStrn key klen) key klen = true ↔ s.key = (key.take klen).map lower := by
  have hlen : s.klen = zoneKeyLen s.name :=
    Nat.mod_eq_of_lt (by have := zoneKeyLen_le s.name; omega)
  have hlens : zoneKeyLen s.name = s.key.length := by rw [ZdirElem.key, length_map]; rfl
  simp only [ZdirElem.named, decide_eq_true_eq, hlen, strncaseeq, beq_iff_eq]
  constructor
  · rintro ⟨-, rfl, hname⟩
    rw [ZdirElem.key, zoneKey_eq_take, hname]
  intro hkey
  have hkl : zoneKeyLen s.name = klen := by
    rw [hlens, hkey, length_map, length_take]
    omega
  refine ⟨?_, hkl, ?_⟩
  · rw [ZdirElem.hash, calcFnv1aStrn, calcFnv1aStrn, ← zoneKey_eq_take,
      ← fnv1aText_lower (zoneKey s.name), ← fnv1aText_lower (key.take klen)]
    exact congrArg fnv1aText hkey
  · rw [← hkl, ← zoneKey_eq_take, hkl]
    exact hkey

/-! ### The directory as a map -/

/-- A directory that stands for the map `M` from keys to elements: the counters are right, and with
`credit` more elements at least half of the cells are free. -/
structure Zdir.Indexes (d : Zdir) (credit : Nat) (M : Text → Option ZdirElem) : Prop where
  none : d.tab = none → d.live = 0 ∧ credit = 0 ∧ M = fun _ => Option.none
  some : ∀ t, d.tab = Option.some t →
    Keyed t.cap keyHash ZdirElem.key t.slot ∧ Represents t.cap ZdirElem.key t.slot M ∧
      TombTable.used t.cap t.slot = d.used ∧ TombTable.live t.cap t.slot = d.live ∧
        (d.used + credit) * 2 ≤ t.cap ∧ 0 < t.cap
  names : ∀ q e, M q = Option.some e → e.name.length ≤ 255

lemma zdirCap_ge (live : Nat) : live * 2 ≤ zdirCap live ∧ 0 < zdirCap live := by
  -- a capacity that is positive at least grows by one with each doubling
  have hgo : ∀ need fuel cap, 0 < cap → need ≤ cap + fuel →
      need ≤ zdirCap.go need fuel cap ∧ 0 < zdirCap.go need fuel cap := by
    intro need fuel
    induction fuel with
    | zero => exact fun cap hpos hle => ⟨hle, hpos⟩
    | succ fuel ih =>
      intro cap hpos hle
      unfold zdirCap.go
      split
      · exact ih (cap * 2) (by omega) (by omega)
      · exact ⟨by omega, hpos⟩
  exact hgo (live * 2) (live * 2) zdirMinCap (by decide) (by omega)

lemma Zdir.indexes_new : Zdir.new.Indexes 0 fun _ => Option.none :=
  ⟨fun _ => ⟨rfl, rfl, rfl⟩, fun _ h => (by cases h), fun _ _ h => by cases h⟩

section Steps

variable {d : Zdir} {credit : Nat} {M : Text → Option ZdirElem}

/-- Every walk over a table of a directory ends. -/
lemma Zdir.Indexes.walk (h : d.Indexes credit M) {t : ZdirTab} (ht : d.tab = Option.some t)
    (hash : UInt32) (p : ZdirElem → Bool) :
      ∃ r, t.walk hash p = Option.some r ∧ Ends t.cap t.slot hash.toNat p r := by
  obtain ⟨-, -, hused, -, hroom, hpos⟩ := h.some t ht
  exact search_spec (by omega) hash.toNat p

lemma zdirReserve_spec (h : d.Indexes credit M) (memory : Bool) (extra : Nat) :
    ∃ ok d', zdirReserve memory d extra = some (ok, d') ∧
      d'.Indexes (if ok then extra else credit) M := by
  unfold zdirReserve
  split
  · rename_i henough
    obtain ⟨t, ht, hcap⟩ : ∃ t, d.tab = some t ∧ (d.used + extra) * 2 ≤ t.cap := by
      cases ht : d.tab with
      | none => simp [ht] at henough
      | some t => exact ⟨t, rfl, by simpa [ht] using henough⟩
    refine ⟨true, d, rfl, fun hnone => (by rw [ht] at hnone; cases hnone),
      fun t' ht' => ?_, h.names⟩
    obtain rfl := some.inj (ht.symm.trans ht')
    obtain ⟨hk, hrep, hused, hlive, -, hpos⟩ := h.some t ht
    exact ⟨hk, hrep, hused, hlive, hcap, hpos⟩
  split
  · obtain ⟨hcap, hpos⟩ := zdirCap_ge (d.live + extra)
    -- what the new table holds: nothing, or the elements of the old one
    have hmoved : ∃ slot, refill (zdirCap (d.live + extra)) (fun e => e.hash.toNat) empty
          ((d.tab.map fun t => values t.cap t.slot).getD []) = some slot ∧
        Keyed (zdirCap (d.live + extra)) keyHash ZdirElem.key slot ∧
        Represents (zdirCap (d.live + extra)) ZdirElem.key slot M ∧
        TombTable.used (zdirCap (d.live + extra)) slot =
          ((d.tab.map fun t => values t.cap t.slot).getD []).length ∧
        TombTable.live (zdirCap (d.live + extra)) slot = d.live ∧
        ((d.tab.map fun t => values t.cap t.slot).getD []).length = d.live := by
      have hhash : (fun e : ZdirElem => e.hash.toNat) = fun e => keyHash e.key :=
        funext ZdirElem.hash_key
      cases ht : d.tab with
      | none =>
        obtain ⟨hlive, -, rfl⟩ := h.none ht
        refine ⟨empty, rfl, keyed_empty _ _ _, represents_empty _ _, used_empty _, ?_, hlive.symm⟩
        simp [TombTable.live, empty, Cell.isFull, hlive]
      | some t =>
        obtain ⟨hk, hrep, -, hlive, -, -⟩ := h.some t ht
        obtain ⟨slot, hrefill, hk', hrep', hused', hlive'⟩ := rebuild_spec hk hrep
          (show TombTable.live t.cap t.slot ≤ zdirCap (d.live + extra) by omega)
        rw [hhash]
        exact ⟨slot, hrefill, hk', hrep', hused'.trans (values_length t.cap t.slot).symm,
          hlive'.trans hlive,
          (values_length t.cap t.slot).trans hlive⟩
    obtain ⟨slot, hrefill, hk, hrep, hused, hlive, hlen⟩ := hmoved
    refine ⟨true, _, by simp only [zdirRebuild, hrefill, map_some]; rfl, ?_⟩
    refine ⟨fun hnone => (by cases hnone), fun t ht => ?_, h.names⟩
    obtain rfl := some.inj ht
    exact ⟨hk, hrep, hused, hlive, by dsimp only; rw [hlen]; simpa using hcap, hpos⟩
  · exact ⟨false, d, rfl, by simpa using h⟩

lemma zdirInsert_spec (h : d.Indexes (credit + 1) M) {e : ZdirElem} (hname : e.name.length ≤ 255) :
    ∃ d', zdirInsert d e = some (if M e.key = some e then none else M e.key, d') ∧
      d'.Indexes credit (Function.update M e.key (some e)) := by
  have hnames : ∀ q s, Function.update M e.key (some e) q = some s → s.name.length ≤ 255 := by
    intro q s hs
    rw [Function.update_apply] at hs
    split at hs
    · obtain rfl := some.inj hs
      exact hname
    · exact h.names q s hs
  cases ht : d.tab with
  | none => exact absurd (h.none ht).2.1 (by omega)
  | some t =>
    obtain ⟨hk, hrep, hused, hlive, hroom, hpos⟩ := h.some t ht
    obtain ⟨r, hwalk, hends⟩ := h.walk ht e.hash fun s => s = e || s.named e.hash e.name e.klen
    have hsame : ∀ s, s.name.length ≤ 255 →
        ((s = e || s.named e.hash e.name e.klen) = true ↔ s.key = e.key) := by
      intro s hs
      have hklen : e.klen = zoneKeyLen e.name :=
        Nat.mod_eq_of_lt (by have := zoneKeyLen_le e.name; omega)
      have hnamed := ZdirElem.named_iff hs (zoneKeyLen_le e.name)
      rw [← zoneKey_eq_take] at hnamed
      rw [Bool.or_eq_true, decide_eq_true_eq, hklen,
        show e.hash = calcFnv1aStrn e.name (zoneKeyLen e.name) from rfl, hnamed]
      exact ⟨fun hor => hor.elim (fun heq => by rw [heq]) id, .inr⟩
    rw [ZdirElem.hash_key] at hends
    have hM := hends.get hk hrep hpos fun s hs => hsame s (h.names _ s hs)
    cases r with
    | hit i s =>
      obtain ⟨hi, hcell, hp⟩ := hends.found hpos
      have hkey : s.key = e.key := ((hrep _ s).mp hM).1
      rw [Found.value] at hM
      by_cases hse : s = e
      · subst hse
        refine ⟨d, by simp [zdirInsert, ht, hwalk, hM], ?_⟩
        rw [Function.update_eq_self_iff.mpr hM.symm]
        exact ⟨fun hnone => (by rw [ht] at hnone; cases hnone), fun t' ht' => by
          obtain rfl := some.inj (ht.symm.trans ht')
          exact ⟨hk, hrep, hused, hlive, by omega, hpos⟩, h.names⟩
      obtain ⟨hk', hrep'⟩ := hk.replace hrep hi hcell hkey
      refine ⟨_, by simp only [zdirInsert, ht, hwalk, hM, bind_eq_bind, bind_some, if_neg hse,
        some.injEq, pure]; rfl, ?_⟩
      refine ⟨fun hnone => (by cases hnone), fun t' ht' => ?_, hnames⟩
      obtain rfl := some.inj ht'
      have hu := used_put t.slot (.full e) hi
      have hl := live_put t.slot (.full e) hi
      rw [hcell] at hu hl
      simp only [Cell.taken, Cell.isFull] at hu hl
      exact ⟨hk', hrep', by dsimp only; omega, by dsimp only; omega, by dsimp only; omega, hpos⟩
    | miss free tomb =>
      rw [Found.value] at hM
      obtain ⟨k, hkn, htarget, hempty, hbefore, htaken⟩ := hends.target (by omega)
      obtain ⟨hk', hrep'⟩ := hk.insert hrep hkn hempty hbefore hM
      rw [← htarget] at hk' hrep' hempty htaken
      have hlt : tomb.getD free < t.cap := by
        rw [htarget]
        exact Nat.mod_lt _ hpos
      refine ⟨_, by simp only [zdirInsert, ht, hwalk, hM, bind_eq_bind, bind_some, pure,
        reduceCtorEq, if_false]; rfl, ?_⟩
      refine ⟨fun hnone => (by cases hnone), fun t' ht' => ?_, hnames⟩
      obtain rfl := some.inj ht'
      have hu := used_put t.slot (.full e) hlt
      have hl := live_put t.slot (.full e) hlt
      have hnotFull : (t.slot (tomb.getD free)).isFull = false := by
        cases hc : t.slot (tomb.getD free) with
        | full v => exact absurd hc (hempty v)
        | _ => rfl
      rw [htaken] at hu
      rw [hnotFull] at hl
      refine ⟨hk', hrep', ?_, ?_, ?_, hpos⟩
      · dsimp only
        cases tomb <;> simp [Cell.taken] at hu ⊢ <;> omega
      · dsimp only
        simp [Cell.isFull] at hl
        omega
      · dsimp only
        cases tomb <;> simp <;> omega

lemma zdirRemove_spec (h : d.Indexes credit M) (e : ZdirElem) :
    ∃ d', zdirRemove d e = some (decide (M e.key = some e), d') ∧
      d'.Indexes credit (if M e.key = some e then Function.update M e.key none else M) := by
  unfold zdirRemove
  cases ht : d.tab with
  | none =>
    obtain ⟨-, -, rfl⟩ := h.none ht
    exact ⟨d, by simp, by simpa using h⟩
  | some t =>
    obtain ⟨hk, hrep, hused, hlive, hroom, hpos⟩ := h.some t ht
    obtain ⟨r, hwalk, hends⟩ := h.walk ht e.hash (· = e)
    rw [ZdirElem.hash_key] at hends
    dsimp only
    rw [hwalk]
    cases r with
    | hit i s =>
      obtain ⟨hi, hcell, hp⟩ := hends.found hpos
      obtain rfl : s = e := by simpa using hp
      have hM : M s.key = some s := hrep.get hi hcell
      obtain ⟨hk', hrep'⟩ := hk.remove hrep hi hcell
      refine ⟨{ d with
        tab := some { t with slot := put t.slot i .tomb }
        live := d.live - 1 }, by simp [hM], ?_⟩
      rw [if_pos hM]
      refine ⟨fun hnone => (by cases hnone), fun t' ht' => ?_, fun q u hu => ?_⟩
      · obtain rfl := some.inj ht'
        have hu := used_put t.slot .tomb hi
        have hl := live_put t.slot .tomb hi
        rw [hcell] at hu hl
        simp only [Cell.taken, Cell.isFull, Bool.toNat_true, Bool.toNat_false] at hu hl
        exact ⟨hk', hrep', by dsimp only; omega, by dsimp only; omega, hroom, hpos⟩
      rw [Function.update_apply] at hu
      split at hu
      · cases hu
      · exact h.names q u hu
    | miss free tomb =>
      have hM : M e.key ≠ some e := by
        intro hs
        obtain ⟨-, i, hi, hcell⟩ := (hrep _ e).mp hs
        have hno := hends.passed hk i hi e hcell rfl
        simp at hno
      exact ⟨d, by simp [hM], by rw [if_neg hM]; exact h⟩

/-- A search gives what the map has at the key. -/
lemma zdirTabFind_spec (h : d.Indexes credit M) {t : ZdirTab} (ht : d.tab = some t) {key : Text}
    {klen : Nat} (hlen : klen ≤ key.length) :
    zdirTabFind t (calcFnv1aStrn key klen) key klen = some (M ((key.take klen).map lower)) := by
  obtain ⟨hk, hrep, -, -, -, hpos⟩ := h.some t ht
  obtain ⟨r, hwalk, hends⟩ := h.walk ht (calcFnv1aStrn key klen) fun s =>
    s.named (calcFnv1aStrn key klen) key klen
  have hhash : (calcFnv1aStrn key klen).toNat = keyHash ((key.take klen).map lower) := by
    rw [calcFnv1aStrn, keyHash, fnv1aText_lower]
  rw [hhash] at hends
  rw [zdirTabFind, hwalk,
    hends.get hk hrep hpos fun s hs => ZdirElem.named_iff (h.names _ s hs) hlen]
  cases r <;> rfl

lemma zdirLookup_spec (h : d.Indexes credit M) (name : Text) :
    zdirLookup d name = some (M ((zoneKey name).map lower)) := by
  unfold zdirLookup
  cases ht : d.tab with
  | none =>
    obtain ⟨-, -, rfl⟩ := h.none ht
    rfl
  | some t =>
    have hfind := zdirTabFind_spec h ht (zoneKeyLen_le name)
    rwa [← zoneKey_eq_take] at hfind

end Steps

end KariDns
