import KariDns.Directory.Index
import KariDns.Name.Normalize

/-! The zones a view configures, and their index (`zone_cfg_index_t`).

A zone is known by its name here. Each `zone` block is put into one of two indexes, the one of the
zones the view holds itself or the one of the zones it shares with another view (`in-view`), and a
name that either of them has is refused.
-/

namespace KariDns

open Octets DomainName TombTable List Option

/-! ### The index -/

/-- `zone_cfg_index_t`; without slots the capacity is 0. -/
structure ZoneCfgIndex where
  cap : Nat := 0
  slot : Nat → Cell Text := empty
  count : Nat := 0

/-- `zone_cfg_index_find`; the outer `none` is a walk that does not end. -/
def zoneCfgIndexFind (ix : ZoneCfgIndex) (domain : Text) : Option (Option Text) :=
  (search ix.cap ix.slot (dnsNameHashCi domain).toNat
    (domainNamesMatchCi · domain) ix.cap 0 none).map fun
    | .hit _ z => some z
    | .miss _ _ => none

/-- Slots for one more zone: at most half of them are taken then. -/
def zoneCfgIndexGrow (ix : ZoneCfgIndex) : Option ZoneCfgIndex :=
  if ix.cap = 0 ∨ ix.cap < (ix.count + 1) * 2 then
    let cap := if ix.cap = 0 then 16 else ix.cap * 2
    (refill cap (fun z => (dnsNameHashCi z).toNat) empty (values ix.cap ix.slot)).map fun slot =>
      { ix with cap, slot }
  else some ix

/-- The zone of this name, if there are slots to look in. -/
def zoneCfgIndexDup (ix : ZoneCfgIndex) (domain : Text) : Option (Option Text) :=
  if ix.cap = 0 then some none else zoneCfgIndexFind ix domain

/-- `zone_cfg_index_insert`: whether the zone is new, and the index. -/
def zoneCfgIndexInsert (ix : ZoneCfgIndex) (z : Text) : Option (Bool × ZoneCfgIndex) := do
  let found ← zoneCfgIndexDup ix z
  if found.isSome then return (false, ix)
  let ix ← zoneCfgIndexGrow ix
  let slot ← place ix.cap (dnsNameHashCi z).toNat ix.slot z
  return (true, { ix with slot, count := ix.count + 1 })

/-! ### The zones of a view -/

/-- A name without the final dot is absolute too; the empty one is the root. -/
def absoluteName (norm : Text) : Text :=
  if norm = [] ∨ dnsNameLenNoRoot norm = norm.length then norm ++ [46] else norm

/-- The name a `zone` block gives, as the configuration keeps it: no longer than 255 octets. -/
def zoneBlockName (domain : Text) : Option Text :=
  ((dnsNameNormalize (dnsNameTextSize - 1) domain).map absoluteName).filter (·.length ≤ 255)

/-- The part of `view_config_t` that names zones. -/
structure ViewZones where
  zones : List Text := []
  zoneIndex : ZoneCfgIndex := {}
  inViewZones : List Text := []
  inViewIndex : ZoneCfgIndex := {}

/-- By the index if there is one, else along the list. -/
def findByName (names : List Text) (ix : ZoneCfgIndex) (domain : Text) : Option (Option Text) :=
  if ix.cap = 0 then some (names.find? fun z => domainNamesMatchCi z domain)
  else zoneCfgIndexFind ix domain

/-- `view_find_zone_config`. -/
def viewFindZoneConfig (v : ViewZones) (domain : Text) : Option (Option Text) :=
  findByName v.zones v.zoneIndex domain

/-- `view_find_in_view`, over the index. -/
def viewFindInViewZone (v : ViewZones) (domain : Text) : Option (Option Text) :=
  findByName v.inViewZones v.inViewIndex domain

/-- `view_has_zone`. -/
def viewHasZone (v : ViewZones) (name : Text) : Bool :=
  (viewFindZoneConfig v name).any Option.isSome || (viewFindInViewZone v name).any Option.isSome

/-- A view for `find_zone_config_in_view`. A shared zone has its `target` in the configuration, or
else it is a zone of the owner's database or catalogs. -/
structure ViewEntry where
  name : Text
  zones : ViewZones
  target : Text → Bool

/-- The views of `server_config_t`, or its zones if there are none. -/
structure ServerViews where
  views : List ViewEntry := []
  zones : List Text := []

/-- What a view says of a name: nothing if it has no such zone. -/
def ViewEntry.find (w : ViewEntry) (domain : Text) : Option Bool :=
  if (viewFindZoneConfig w.zones domain).any Option.isSome then some true
  else (viewFindInViewZone w.zones domain).join.map w.target

/-- `find_zone_config_in_view` does not return NULL. -/
def findZoneConfigInView (cfg : ServerViews) (viewName domain : Text) : Bool :=
  if cfg.views.isEmpty then cfg.zones.any fun z => domainNamesMatchCi z domain
  else if viewName = [] then (cfg.views.findSome? (·.find domain)).getD false
  else ((cfg.views.find? fun w => strcaseeq w.name viewName).bind (·.find domain)).getD false

/-- Every zone of the view. -/
def ViewZones.names (v : ViewZones) : List Text := v.zones ++ v.inViewZones

/-- A `zone` block: its name, and whether it is an `in-view` one. -/
structure ZoneBlock where
  domain : Text
  isStub : Bool := false

/-- A zone of the same name in the other list. -/
def ViewZones.inOther (v : ViewZones) (isStub : Bool) (z : Text) : Option (Option Text) :=
  if isStub then viewFindZoneConfig v z else viewFindInViewZone v z

/-- What `parse_config` does with a `zone` block of a view; `none` rejects the configuration. -/
def ViewZones.addZone (v : ViewZones) (b : ZoneBlock) : Option ViewZones := do
  let z ← zoneBlockName b.domain
  let other ← v.inOther b.isStub z
  if other.isSome then none
  else if b.isStub then
    let (new, ix) ← zoneCfgIndexInsert v.inViewIndex z
    if new then some { v with inViewZones := v.inViewZones ++ [z], inViewIndex := ix } else none
  else
    let (new, ix) ← zoneCfgIndexInsert v.zoneIndex z
    if new then some { v with zones := v.zones ++ [z], zoneIndex := ix } else none

/-- The zones of a view, from its `zone` blocks. -/
def ViewZones.read (blocks : List ZoneBlock) : Option ViewZones :=
  blocks.foldlM ViewZones.addZone {}

/-! ### What an index finds -/

/-- An index that holds exactly the zones of the list, one of each name. -/
structure ZoneCfgIndex.Holds (ix : ZoneCfgIndex) (zones : List Text) : Prop where
  keyed : Keyed ix.cap keyHash nameKey ix.slot
  mem : ∀ z, z ∈ zones ↔ ∃ s < ix.cap, ix.slot s = .full z
  used : used ix.cap ix.slot = ix.count
  live : live ix.cap ix.slot = ix.count
  half : ix.count * 2 ≤ ix.cap

lemma keyHash_nameKey (z : Text) : keyHash (nameKey z) = (dnsNameHashCi z).toNat := by
  rw [keyHash, hashCi_eq]

namespace ZoneCfgIndex

variable {ix : ZoneCfgIndex} {zones : List Text}

lemma holds_nil : ({} : ZoneCfgIndex).Holds [] :=
  ⟨keyed_empty _ _ _, by simp, used_empty _, by simp [TombTable.live], Nat.le_refl 0⟩

/-- At most one zone of each name is there. -/
lemma Holds.unique (h : ix.Holds zones) {z z' : Text} (hz : z ∈ zones) (hz' : z' ∈ zones)
    (hkey : nameKey z = nameKey z') : z = z' := by
  obtain ⟨s, hs, hcell⟩ := (h.mem z).mp hz
  obtain ⟨s', hs', hcell'⟩ := (h.mem z').mp hz'
  obtain rfl := h.keyed.inj s hs s' hs' z z' hcell hcell' hkey
  rw [hcell] at hcell'
  exact Cell.full.inj hcell'

/-- The map an index stands for. -/
lemma Holds.represents (h : ix.Holds zones) :
    ∃ M : Text → Option Text, Represents ix.cap nameKey ix.slot M ∧ ∀ q, M q = none ↔
      ∀ z ∈ zones, nameKey z ≠ q := by
  refine ⟨fun q => zones.find? fun z => decide (nameKey z = q), fun q z => ?_, fun q => by simp⟩
  rw [← h.mem]
  constructor
  · intro hfind
    exact ⟨by simpa using find?_some hfind, mem_of_find?_eq_some hfind⟩
  rintro ⟨hkey, hz⟩
  cases hfind : zones.find? fun z => decide (nameKey z = q) with
  | none =>
    have := find?_eq_none.mp hfind z hz
    simp [hkey] at this
  | some y =>
    have hy : nameKey y = q := by simpa using find?_some hfind
    exact hfind.trans
      (congrArg some (h.unique (mem_of_find?_eq_some hfind) hz (hy.trans hkey.symm)))

lemma Holds.find (h : ix.Holds zones) (hcap : ix.cap ≠ 0) (domain : Text) :
    ∃ r, zoneCfgIndexFind ix domain = some r ∧
      (r.isSome ↔ ∃ z ∈ zones, domainNamesMatchCi z domain = true) := by
  have hhalf := h.half
  have hused := h.used
  obtain ⟨r, hr, hends⟩ := search_spec (show TombTable.used ix.cap ix.slot < ix.cap by omega)
    (dnsNameHashCi domain).toNat (domainNamesMatchCi · domain)
  obtain ⟨M, hrep, hM⟩ := h.represents
  rw [← keyHash_nameKey] at hends
  refine ⟨M (nameKey domain), ?_, ?_⟩
  · rw [hends.get h.keyed hrep (by omega) fun _ _ => matchCi_iff, zoneCfgIndexFind, hr]
    cases r <;> rfl
  · rw [isSome_iff_ne_none, Ne, hM]
    simp [matchCi_iff]

lemma Holds.grow (h : ix.Holds zones) :
    ∃ ix', zoneCfgIndexGrow ix = some ix' ∧ ix'.Holds zones ∧ (ix'.count + 1) * 2 ≤ ix'.cap := by
  unfold zoneCfgIndexGrow
  split
  · rename_i hfull
    obtain ⟨M, hrep, -⟩ := h.represents
    have hhalf := h.half
    have hlive := h.live
    have hcap : (ix.count + 1) * 2 ≤ if ix.cap = 0 then 16 else ix.cap * 2 := by
      split <;> omega
    obtain ⟨t, hrefill, hkeyed, hrep', hused', hlive'⟩ := rebuild_spec h.keyed hrep
      (show TombTable.live ix.cap ix.slot ≤ if ix.cap = 0 then 16 else ix.cap * 2 by omega)
    simp only [keyHash_nameKey] at hrefill
    refine ⟨_, by simp only [hrefill, map_some]; rfl,
      ⟨hkeyed, fun z => ?_, by simpa [h.live] using hused',
      by simpa [h.live] using hlive', ?_⟩, hcap⟩
    · rw [h.mem]
      have hold := hrep (nameKey z) z
      have hnew := hrep' (nameKey z) z
      simp only [true_and] at hold hnew
      exact hold.symm.trans hnew
    · dsimp only
      omega
  · rename_i hroom
    exact ⟨ix, rfl, h, by omega⟩

/-- A zone is put in unless one of its name is there. -/
lemma Holds.insert (h : ix.Holds zones) (z : Text) :
    ∃ new ix', zoneCfgIndexInsert ix z = some (new, ix') ∧
      (new = true ↔ ∀ y ∈ zones, domainNamesMatchCi y z = false) ∧
        (new = true → ix'.Holds (zones ++ [z]) ∧ ix'.cap ≠ 0) := by
  have hfound : ∃ r, zoneCfgIndexDup ix z = some r ∧
      (r.isSome ↔ ∃ y ∈ zones, domainNamesMatchCi y z = true) := by
    unfold zoneCfgIndexDup
    split
    · rename_i hcap
      refine ⟨none, rfl, iff_of_false (by simp) ?_⟩
      rintro ⟨y, hy, -⟩
      obtain ⟨s, hs, -⟩ := (h.mem y).mp hy
      omega
    · rename_i hcap
      exact h.find hcap z
  obtain ⟨r, hr, hsome⟩ := hfound
  by_cases hdup : r.isSome = true
  · refine ⟨false, ix, by simp [zoneCfgIndexInsert, hr, hdup], iff_of_false (by simp) ?_, by simp⟩
    intro hall
    obtain ⟨y, hy, hmatch⟩ := hsome.mp hdup
    rw [hall y hy] at hmatch
    cases hmatch
  have hnone : ∀ y ∈ zones, domainNamesMatchCi y z = false := by
    intro y hy
    by_contra hne
    exact hdup (hsome.mpr ⟨y, hy, by simpa using hne⟩)
  obtain ⟨ix', hgrow, hholds, hroom⟩ := h.grow
  have hused := hholds.used
  have hlive := hholds.live
  obtain ⟨M, hrep, hM⟩ := hholds.represents
  have hnew : M (nameKey z) = none := by
    refine (hM _).mpr fun y hy hkey => ?_
    have hfalse := hnone y hy
    rw [matchCi_iff.mpr hkey] at hfalse
    cases hfalse
  obtain ⟨t, hplace, hkeyed', hrep', hused', hlive'⟩ := place_spec hholds.keyed hrep (by omega) hnew
  rw [keyHash_nameKey] at hplace
  refine ⟨true,
    _, by simp only [zoneCfgIndexInsert, hr, bind_eq_bind, bind_some, hdup, hgrow, hplace]; rfl,
    iff_of_true rfl hnone, fun _ => ⟨?_, by dsimp only; omega⟩⟩
  refine ⟨hkeyed', fun y => ?_, by dsimp only; omega, by dsimp only; omega, by dsimp only; omega⟩
  have hput := hrep' (nameKey y) y
  have hold := hrep (nameKey y) y
  simp only [true_and] at hput hold
  rw [← hput, mem_append, mem_singleton, hholds.mem, ← hold, update_some_iff hnew]
  simp

end ZoneCfgIndex

/-! ### The zones of a view -/

/-- What `parse_config` leaves: both indexes are right, no two zones have one name, and every name
is absolute. -/
structure ViewZones.Sound (v : ViewZones) : Prop where
  zones : v.zoneIndex.Holds v.zones
  inView : v.inViewIndex.Holds v.inViewZones
  distinct : v.names.Pairwise fun z z' => nameKey z ≠ nameKey z'
  nonempty : ∀ z ∈ v.names, z ≠ []

lemma findByName_spec {names : List Text} {ix : ZoneCfgIndex} (h : ix.Holds names) (domain : Text) :
    ∃ r, findByName names ix domain = some r ∧
      (r.isSome ↔ ∃ z ∈ names, domainNamesMatchCi z domain = true) := by
  unfold findByName
  split
  · exact ⟨_, rfl, by simp⟩
  · rename_i hcap
    exact h.find hcap domain

lemma ViewZones.Sound.hasZone {v : ViewZones} (h : v.Sound) (name : Text) :
    viewHasZone v name = true ↔ ∃ z ∈ v.names, domainNamesMatchCi z name = true := by
  obtain ⟨r, hr, hsome⟩ := findByName_spec h.zones name
  obtain ⟨r', hr', hsome'⟩ := findByName_spec h.inView name
  rw [viewHasZone, viewFindZoneConfig, viewFindInViewZone, hr, hr', Bool.or_eq_true, any_some,
    any_some, hsome, hsome', ViewZones.names]
  simp only [mem_append, or_and_right, exists_or]

lemma absoluteName_ne (norm : Text) : absoluteName norm ≠ [] := by
  unfold absoluteName
  split
  · simp
  · rename_i hnorm
    exact fun heq => hnorm (.inl heq)

lemma zoneBlockName_ne {domain z : Text} (h : zoneBlockName domain = some z) : z ≠ [] := by
  obtain ⟨hname, -⟩ := filter_eq_some_iff.mp h
  obtain ⟨norm, -, rfl⟩ := map_eq_some_iff.mp hname
  exact absoluteName_ne norm

lemma pairwise_append_singleton {l l' : List Text} {z : Text}
    (h : (l ++ l').Pairwise fun y y' => nameKey y ≠ nameKey y')
    (hz : ∀ y ∈ l ++ l', domainNamesMatchCi y z = false) :
    ((l ++ l') ++ [z]).Pairwise fun y y' => nameKey y ≠ nameKey y' := by
  refine pairwise_append.mpr ⟨h, pairwise_singleton _ _, fun y hy x hx hkey => ?_⟩
  obtain rfl := mem_singleton.mp hx
  have hfalse := hz y hy
  rw [matchCi_iff.mpr hkey] at hfalse
  cases hfalse

/-- One more zone of another name, in one of the two lists. -/
lemma ViewZones.Sound.add {v v' : ViewZones} {z : Text} (h : v.Sound) (hz : z ≠ [])
    (hfree : ∀ y ∈ v.names, domainNamesMatchCi y z = false) (hperm : v'.names.Perm (v.names ++ [z]))
    (hzones : v'.zoneIndex.Holds v'.zones) (hinView : v'.inViewIndex.Holds v'.inViewZones) :
      v'.Sound := by
  refine ⟨hzones, hinView, ?_, fun y hy => ?_⟩
  · exact (hperm.pairwise_iff (fun hne heq => hne heq.symm)).mpr
      (pairwise_append_singleton h.distinct hfree)
  rcases mem_append.mp (hperm.mem_iff.mp hy) with hy | hy
  · exact h.nonempty y hy
  · rwa [mem_singleton.mp hy]

lemma ViewZones.Sound.addZone {v v' : ViewZones} {b : ZoneBlock} (h : v.Sound)
    (hadd : v.addZone b = some v') :
    v'.Sound := by
  simp only [ViewZones.addZone, bind_eq_bind, bind_eq_some_iff] at hadd
  obtain ⟨z, hname, other, hother, hadd⟩ := hadd
  have hz := zoneBlockName_ne hname
  split at hadd
  · cases hadd
  rename_i hfree
  split at hadd
  · rename_i hstub
    obtain ⟨r, hr, hsome⟩ := findByName_spec h.zones z
    rw [ViewZones.inOther, if_pos hstub, viewFindZoneConfig, hr] at hother
    obtain rfl := some.inj hother
    obtain ⟨new, ix, hins, hnew, hholds⟩ := h.inView.insert z
    rw [hins, bind_some] at hadd
    obtain ⟨hn, heq⟩ := ite_none_right_eq_some.mp hadd
    obtain rfl := some.inj heq
    refine h.add hz (fun y hy => ?_) (by simp [ViewZones.names]) h.zones (hholds hn).1
    rcases mem_append.mp hy with hy | hy
    · by_contra hne
      exact hfree (hsome.mpr ⟨y, hy, by simpa using hne⟩)
    · exact hnew.mp hn y hy
  rename_i hstub
  obtain ⟨r, hr, hsome⟩ := findByName_spec h.inView z
  rw [ViewZones.inOther, if_neg hstub, viewFindInViewZone, hr] at hother
  obtain rfl := some.inj hother
  obtain ⟨new, ix, hins, hnew, hholds⟩ := h.zones.insert z
  rw [hins, bind_some] at hadd
  obtain ⟨hn, heq⟩ := ite_none_right_eq_some.mp hadd
  obtain rfl := some.inj heq
  -- the new zone stands before the shared ones
  have hperm : (v.zones ++ [z] ++ v.inViewZones).Perm (v.zones ++ v.inViewZones ++ [z]) := by
    rw [append_assoc, append_assoc]
    exact List.Perm.append_left _ perm_append_comm
  refine h.add hz (fun y hy => ?_) hperm (hholds hn).1 h.inView
  rcases mem_append.mp hy with hy | hy
  · exact hnew.mp hn y hy
  · by_contra hne
    exact hfree (hsome.mpr ⟨y, hy, by simpa using hne⟩)

/-- The zones of a view that the configuration gives. -/
lemma ViewZones.read_sound {blocks : List ZoneBlock} {v : ViewZones}
    (h : ViewZones.read blocks = some v) :
    v.Sound := by
  have hrun : ∀ (bs : List ZoneBlock) {w : ViewZones}, w.Sound →
    ∀ {w'}, bs.foldlM ViewZones.addZone w = some w' →
      w'.Sound := by
    intro bs
    induction bs with
    | nil =>
      intro w hw w' hrun
      obtain rfl := some.inj hrun
      exact hw
    | cons b bs ih =>
      intro w hw w' hrun
      rw [foldlM_cons, bind_eq_bind] at hrun
      obtain ⟨u, hu, hrun⟩ := bind_eq_some_iff.mp hrun
      exact ih (hw.addZone hu) hrun
  exact hrun blocks
    ⟨ZoneCfgIndex.holds_nil, ZoneCfgIndex.holds_nil, .nil, by simp [ViewZones.names]⟩ h

/-- Whatever `zone` blocks a view is given: no two zones that it holds or shares have one name, and
`view_has_zone` knows the names of these zones, case aside, and no others. -/
theorem viewHasZone_read {blocks : List ZoneBlock} {v : ViewZones}
    (h : ViewZones.read blocks = some v) :
    v.names.Pairwise (fun z z' => domainNamesMatchCi z z' = false) ∧
      ∀ name, viewHasZone v name = true ↔ ∃ z ∈ v.names, domainNamesMatchCi z name = true := by
  have hv := ViewZones.read_sound h
  refine ⟨hv.distinct.imp fun hne => ?_, hv.hasZone⟩
  by_contra hmatch
  exact hne (matchCi_iff.mp (by simpa using hmatch))

theorem viewHasZone_read_stub :
    ∃ v, ViewZones.read [⟨ascii "a.", false⟩, ⟨ascii "b", true⟩] = some v ∧
    viewHasZone v (ascii "B.") = true := by
  obtain ⟨v, hv, hb⟩ :=
    (Option.any_eq_true _ _).mp (show (ViewZones.read [⟨ascii "a.", false⟩, ⟨ascii "b", true⟩]).any
    (fun v => decide (ascii "b." ∈ v.names)) = true by decide +kernel)
  exact ⟨v, hv, ((viewHasZone_read hv).2 _).mpr ⟨_, of_decide_eq_true hb, by decide +kernel⟩⟩

end KariDns
