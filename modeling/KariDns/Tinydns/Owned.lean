import KariDns.Directory.Suffix
import KariDns.Server.ZoneIndex
import Mathlib.Data.Finset.Max

/-! Which zone a record of a tinydns data file belongs to (`tinydns_owned`).

Every zone reads the whole file and keeps what is its own: the records at or below its name for
which the view has no zone that encloses them more closely. The zones of the view are a list of
names (`all_zone_names`), or an index that is asked about the owner and every name above it
(`zone_exists`). Both give the record to its home, the enclosing zone all the other ones enclose.
-/

namespace KariDns

open Octets DomainName List

/-- What `tinydns_owned` reads of `parse_context_t`. -/
structure TinyContext where
  defaultOrigin : Text
  zoneExists : Option (Text → Bool) := none
  allZoneNames : List Text := []

/-- `is_record_owned_by_zone`. -/
def isRecordOwnedByZone (recordName targetZone : Text) (allZones : List Text) : Bool :=
  if targetZone = [] then true
  else if ¬ domainNameIsAtOrBelow recordName targetZone then false
  else
    let longestLen := allZones.foldl
      (fun longest z =>
        if domainNameIsAtOrBelow recordName z ∧ dnsNameLenNoRoot z > longest then
          dnsNameLenNoRoot z else longest) 0
    longestLen ≤ dnsNameLenNoRoot targetZone

/-- The walk from the record upwards, as long as the names are longer than the zone's: no zone is
met. -/
def climb (zoneExists : Text → Bool) (tlen : Nat) : List Text → Bool
  | [] => true
  | p :: up =>
    if dnsNameLenNoRoot p ≤ tlen then true else if zoneExists p then false
    else climb zoneExists tlen up

/-- `tinydns_owned`: whether the record is the zone's, and whether it is counted as outside of every
zone of the view. -/
def tinydnsOwned (ctx : TinyContext) (recordName : Text) (countOrphan : Bool) : Bool × Bool :=
  let byList :=
    if isRecordOwnedByZone recordName ctx.defaultOrigin ctx.allZoneNames then (true, false)
    else (false, countOrphan && !ctx.allZoneNames.isEmpty && ctx.allZoneNames.all fun z =>
      !domainNameIsAtOrBelow recordName z)
  match ctx.zoneExists with
  | none => byList
  | some zoneExists =>
    if ctx.defaultOrigin = [] then byList
    else if domainNameIsAtOrBelow recordName ctx.defaultOrigin then
      (climb zoneExists (dnsNameLenNoRoot ctx.defaultOrigin) (recordName :: ancestors recordName),
        false)
    else
      (false, countOrphan && (recordName :: ancestors recordName).all (fun p => !zoneExists p) &&
        !zoneExists [46])

/-! ### The walk upwards -/

lemma NoDot.lower {t : Text} (h : NoDot t) : NoDot (t.map lower) := by
  intro a b hab
  obtain ⟨a', r, rfl, rfl, hr⟩ := map_eq_append_iff.mp hab
  obtain ⟨c, b', rfl, hc, -⟩ := map_eq_cons_iff.mp hr
  rw [escaped_lower]
  exact h a' b' (by rw [(lower_dot c).mp hc])

/-- The key of a name and of the name above it. -/
lemma nameKey_afterDot {t r : Text} (h : afterDot t = some r) (hr : r ≠ []) :
    ∃ p, NoDot p ∧ dnsCharIsEscaped p = false ∧ nameKey t = p ++ 46 :: nameKey r := by
  obtain ⟨p, rfl, hp, hno⟩ := afterDot_some h
  have hlen : dnsNameLenNoRoot (p ++ 46 :: r) = p.length + 1 + dnsNameLenNoRoot r := by
    have hlast : (p ++ 46 :: r).getLast? = r.getLast? := by
      rw [getLast?_append_of_ne_nil _ (by simp), getLast?_cons_of_ne_nil hr]
    have hesc : dnsCharIsEscaped (p ++ 46 :: r).dropLast = dnsCharIsEscaped r.dropLast := by
      rw [dropLast_append_of_ne_nil (by simp), dropLast_cons_of_ne_nil hr, escaped_behind_dot]
    have hpos : 0 < r.length := length_pos_of_ne_nil hr
    unfold dnsNameLenNoRoot
    rw [hlast, hesc, length_append, length_cons]
    split <;> omega
  refine ⟨p.map lower, hno.lower, (escaped_lower p).trans hp, ?_⟩
  rw [nameKey, hlen, show p ++ 46 :: r = (p ++ [46]) ++ r by simp, take_append, map_append,
    take_of_length_le (by simp)]
  simp [nameKey, show lower 46 = 46 by decide]

/-- The key of a name with one label, or of the root. -/
lemma nameKey_noDot {t : Text} (h : afterDot t = none ∨ afterDot t = some []) :
    NoDot (nameKey t) := by
  rcases h with h | h
  · exact ((afterDot_none h).take _).lower
  obtain ⟨p, rfl, hp, hno⟩ := afterDot_some h
  have hlen : dnsNameLenNoRoot (p ++ [46]) = p.length := by simp [dnsNameLenNoRoot, hp]
  rw [nameKey, hlen, take_left]
  exact hno.lower

lemma afterDot_length {t r : Text} (h : afterDot t = some r) : r.length < t.length := by
  obtain ⟨p, rfl, -⟩ := afterDot_some h
  simp
  omega

/-- The names the walk meets are those above the name, but for the root. -/
lemma cutSuffix_iff_walk {s : Text} (hs : s ≠ []) : ∀ (fuel : Nat) (t : Text), t.length ≤ fuel →
    (CutSuffix (nameKey t) s ↔ ∃ q ∈ t :: ancestorsFrom fuel t, nameKey q = s)
  | 0, t, hlen => by
    obtain rfl := length_eq_zero_iff.mp (Nat.le_zero.mp hlen)
    have hno : NoDot (nameKey []) := nameKey_noDot (.inl rfl)
    constructor
    · exact fun h => ⟨[], mem_cons_self, (hno.cutSuffix h hs).symm⟩
    rintro ⟨q, hq, rfl⟩
    obtain rfl := mem_singleton.mp hq
    exact .inl rfl
  | fuel + 1, t, hlen => by
    have hself : CutSuffix (nameKey t) (nameKey t) := .inr ⟨[], rfl, .inl rfl⟩
    -- a name with nothing above it
    have htop : (afterDot t = none ∨ afterDot t = some []) →
        (CutSuffix (nameKey t) s ↔ ∃ q ∈ [t], nameKey q = s) := by
      intro h
      constructor
      · exact fun hcut => ⟨t, mem_cons_self, ((nameKey_noDot h).cutSuffix hcut hs).symm⟩
      rintro ⟨q, hq, rfl⟩
      obtain rfl := mem_singleton.mp hq
      exact hself
    unfold ancestorsFrom
    split
    · rename_i h
      exact htop (.inl h)
    · rename_i h
      exact htop (.inr h)
    rename_i parent hr h
    obtain ⟨p, hno, hp, hkey⟩ := nameKey_afterDot h hr
    have hshort := afterDot_length h
    rw [hkey, cutSuffix_label hno hp hs, cutSuffix_iff_walk hs fuel parent (by omega)]
    rw [eq_comm, ← hkey]
    simp only [mem_cons, exists_eq_or_imp]

lemma ancestorsFrom_shorter : ∀ (fuel : Nat) (t : Text), ∀ q ∈ ancestorsFrom fuel t,
    dnsNameLenNoRoot q < dnsNameLenNoRoot t
  | 0, _, _, h => by cases h
  | fuel + 1, t, q, h => by
    unfold ancestorsFrom at h
    split at h
    · cases h
    · cases h
    rename_i parent hr heq
    obtain ⟨p, -, -, hkey⟩ := nameKey_afterDot heq hr
    have hlen := congrArg List.length hkey
    simp only [nameKey_length, length_append, length_cons] at hlen
    rcases mem_cons.mp h with rfl | h
    · omega
    · have := ancestorsFrom_shorter fuel parent q h
      omega

/-- The walk goes to shorter and shorter names. -/
lemma ancestorsFrom_falling : ∀ (fuel : Nat) (t : Text),
    (t :: ancestorsFrom fuel t).Pairwise fun q q' => dnsNameLenNoRoot q' < dnsNameLenNoRoot q
  | 0, _ => pairwise_singleton _ _
  | fuel + 1, t => by
    refine pairwise_cons.mpr ⟨ancestorsFrom_shorter (fuel + 1) t, ?_⟩
    unfold ancestorsFrom
    split
    · exact .nil
    · exact .nil
    · exact ancestorsFrom_falling fuel _

lemma climb_iff {zoneExists : Text → Bool} {tlen : Nat} : ∀ {l : List Text},
    l.Pairwise (fun q q' => dnsNameLenNoRoot q' < dnsNameLenNoRoot q) →
    (climb zoneExists tlen l = true ↔ ∀ p ∈ l, tlen < dnsNameLenNoRoot p → zoneExists p = false)
  | [], _ => by simp [climb]
  | p :: up, h => by
    obtain ⟨hshort, hup⟩ := pairwise_cons.mp h
    rw [climb]
    split
    · rename_i hle
      refine iff_of_true rfl fun q hq hlt => ?_
      rcases mem_cons.mp hq with rfl | hq
      · omega
      · have := hshort q hq
        omega
    rename_i hgt
    by_cases hp : zoneExists p = true
    · rw [if_pos hp]
      refine iff_of_false (by simp) fun hall => ?_
      rw [hall p mem_cons_self (by omega)] at hp
      cases hp
    rw [if_neg hp, climb_iff hup, forall_mem_cons]
    simp only [Bool.not_eq_true] at hp
    exact ⟨fun h => ⟨fun _ => hp, h⟩, fun h => h.2⟩

/-! ### The home of a name -/

/-- The zone of a list that holds a name: it encloses the name, and every other zone that does so
encloses it. -/
structure Home (zones : List Text) (owner z : Text) : Prop where
  mem : z ∈ zones
  encloses : domainNameIsAtOrBelow owner z = true
  closest : ∀ y ∈ zones, domainNameIsAtOrBelow owner y = true → domainNameIsAtOrBelow z y = true

instance (zones : List Text) (owner z : Text) : Decidable (Home zones owner z) :=
  decidable_of_iff (z ∈ zones ∧ domainNameIsAtOrBelow owner z = true ∧
      ∀ y ∈ zones, domainNameIsAtOrBelow owner y = true → domainNameIsAtOrBelow z y = true)
    ⟨fun ⟨h, h', h''⟩ => ⟨h, h', h''⟩, fun ⟨h, h', h''⟩ => ⟨h, h', h''⟩⟩

section Homes

variable {zones : List Text} {owner z : Text}

/-- Closer is longer. -/
lemma home_iff_longest (hz : z ∈ zones) (henc : domainNameIsAtOrBelow owner z = true) :
    Home zones owner z ↔
      ∀ y ∈ zones, domainNameIsAtOrBelow owner y = true →
        dnsNameLenNoRoot y ≤ dnsNameLenNoRoot z := by
  constructor
  · intro h y hy hyenc
    have := cutSuffix_length ((atOrBelow_iff_cut z y).mp (h.closest y hy hyenc))
    rwa [nameKey_length, nameKey_length] at this
  intro h
  refine ⟨hz, henc, fun y hy hyenc => (atOrBelow_iff_cut z y).mpr ?_⟩
  refine ((atOrBelow_iff_cut owner z).mp henc).nested ((atOrBelow_iff_cut owner y).mp hyenc) ?_
  rw [nameKey_length, nameKey_length]
  exact h y hy hyenc

lemma Home.unique (hdistinct : zones.Pairwise fun y y' => nameKey y ≠ nameKey y') {z' : Text}
    (h : Home zones owner z) (h' : Home zones owner z') : z = z' := by
  have hcut := (atOrBelow_iff_cut z' z).mp (h'.closest z h.mem h.encloses)
  have hcut' := (atOrBelow_iff_cut z z').mp (h.closest z' h'.mem h'.encloses)
  have hkey : nameKey z = nameKey z' := hcut.eq_of_length (cutSuffix_length hcut')
  have hnodup : (zones.map nameKey).Nodup := pairwise_map.mpr hdistinct
  exact inj_on_of_nodup_map hnodup h.mem h'.mem hkey

lemma exists_home (hz : z ∈ zones) (henc : domainNameIsAtOrBelow owner z = true) :
    ∃ y, Home zones owner y := by
  obtain ⟨y, hy, hmax⟩ :=
    Finset.exists_max_image (zones.toFinset.filter fun y => domainNameIsAtOrBelow owner y = true)
    dnsNameLenNoRoot ⟨z, by simp [hz, henc]⟩
  simp only [Finset.mem_filter, mem_toFinset] at hy hmax
  exact ⟨y, (home_iff_longest hy.1 hy.2).mpr fun x hx hxenc => hmax x ⟨hx, hxenc⟩⟩

lemma longestLen_le (owner : Text) (n : Nat) : ∀ (zones : List Text) (longest : Nat), zones.foldl
    (fun longest z =>
      if domainNameIsAtOrBelow owner z ∧ dnsNameLenNoRoot z > longest then dnsNameLenNoRoot z
      else longest) longest ≤ n ↔
    longest ≤ n ∧ ∀ y ∈ zones, domainNameIsAtOrBelow owner y = true → dnsNameLenNoRoot y ≤ n
  | [], longest => by simp
  | y :: zones, longest => by
    rw [foldl_cons, longestLen_le owner n zones, forall_mem_cons]
    by_cases henc : domainNameIsAtOrBelow owner y = true
    · by_cases hgt : dnsNameLenNoRoot y > longest
      · rw [if_pos ⟨henc, hgt⟩]
        constructor
        · exact fun h => ⟨by omega, fun _ => h.1, h.2⟩
        · exact fun h => ⟨h.2.1 henc, h.2.2⟩
      rw [if_neg fun h => hgt h.2]
      constructor
      · exact fun h => ⟨h.1, fun _ => by omega, h.2⟩
      · exact fun h => ⟨h.1, h.2.2⟩
    · rw [if_neg fun h => henc h.1]
      exact ⟨fun h => ⟨h.1, fun h' => absurd h' henc, h.2⟩, fun h => ⟨h.1, h.2.2⟩⟩

/-- The list of zones tells the home. -/
lemma isRecordOwnedByZone_iff (hne : z ≠ []) (hz : z ∈ zones) :
    isRecordOwnedByZone owner z zones = true ↔ Home zones owner z := by
  unfold isRecordOwnedByZone
  rw [if_neg hne]
  split
  · rename_i henc
    exact iff_of_false (by simp) fun h => henc h.encloses
  rename_i henc
  have henc' : domainNameIsAtOrBelow owner z = true := by simpa using henc
  rw [home_iff_longest hz henc', decide_eq_true_eq, longestLen_le]
  exact and_iff_right (Nat.zero_le _)

variable {zoneExists : Text → Bool}

variable (hidx : ∀ p, zoneExists p = true ↔ ∃ y ∈ zones, domainNamesMatchCi y p = true)

include hidx

/-- A zone that encloses the name is met on the walk. -/
lemma encloses_iff_walk (n : Nat) :
    (∀ p ∈ owner :: ancestors owner, n < dnsNameLenNoRoot p → zoneExists p = false) ↔
      ∀ y ∈ zones, domainNameIsAtOrBelow owner y = true → dnsNameLenNoRoot y ≤ n := by
  have hwalk : ∀ {s : Text}, s ≠ [] →
      (CutSuffix (nameKey owner) s ↔ ∃ q ∈ owner :: ancestors owner, nameKey q = s) :=
    fun hs => cutSuffix_iff_walk hs owner.length owner (Nat.le_refl _)
  constructor
  · intro h y hy henc
    by_contra hlt
    have hne : nameKey y ≠ [] := by
      rw [← length_pos_iff_ne_nil, nameKey_length]
      omega
    obtain ⟨q, hq, hkey⟩ := (hwalk hne).mp ((atOrBelow_iff_cut owner y).mp henc)
    have hlen : dnsNameLenNoRoot q = dnsNameLenNoRoot y := by
      rw [← nameKey_length, hkey, nameKey_length]
    have hfalse := h q hq (by omega)
    rw [(hidx q).mpr ⟨y, hy, matchCi_iff.mpr hkey.symm⟩] at hfalse
    cases hfalse
  intro h p hp hlt
  by_contra hne
  obtain ⟨y, hy, hmatch⟩ := (hidx p).mp (by simpa using hne)
  have hkey := matchCi_iff.mp hmatch
  have hlen : dnsNameLenNoRoot y = dnsNameLenNoRoot p := by
    rw [← nameKey_length, hkey, nameKey_length]
  have hne : nameKey p ≠ [] := by
    rw [← length_pos_iff_ne_nil, nameKey_length]
    omega
  have hcut := (hwalk hne).mpr ⟨p, hp, rfl⟩
  have := h y hy ((atOrBelow_iff_cut owner y).mpr (hkey ▸ hcut))
  omega

/-- The index of zones tells the home. -/
lemma climb_iff_home (hz : z ∈ zones) (henc : domainNameIsAtOrBelow owner z = true) :
    climb zoneExists (dnsNameLenNoRoot z) (owner :: ancestors owner) = true ↔
      Home zones owner z := by
  have hfalling : (owner :: ancestors owner).Pairwise fun q q' =>
      dnsNameLenNoRoot q' < dnsNameLenNoRoot q :=
    ancestorsFrom_falling owner.length owner
  rw [climb_iff hfalling, encloses_iff_walk hidx, home_iff_longest hz henc]

/-- No zone is met on the walk, nor the root, if none encloses the name. -/
lemma orphan_iff :
    (((owner :: ancestors owner).all fun p => !zoneExists p) && !zoneExists [46]) = true ↔
      ∀ y ∈ zones, domainNameIsAtOrBelow owner y = false := by
  have hroot : zoneExists [46] = true ↔ ∃ y ∈ zones, nameKey y = [] := by
    rw [hidx]
    simp only [matchCi_iff]
    rfl
  rw [Bool.and_eq_true, all_eq_true, Bool.not_eq_true']
  constructor
  · rintro ⟨hall, hnone⟩ y hy
    by_contra henc
    by_cases hkey : nameKey y = []
    · rw [hroot.mpr ⟨y, hy, hkey⟩] at hnone
      cases hnone
    have hle := (encloses_iff_walk hidx 0).mp (fun p hp _ => by simpa using hall p hp) y hy
      (by simpa using henc)
    rw [← nameKey_length] at hle
    exact hkey (length_eq_zero_iff.mp (Nat.le_zero.mp hle))
  intro hall
  have henc : ∀ y ∈ zones, nameKey y ≠ [] := by
    intro y hy hkey
    have := hall y hy
    rw [(atOrBelow_iff_cut owner y).mpr (.inl hkey)] at this
    cases this
  refine ⟨fun p hp => ?_, ?_⟩
  · by_contra hne
    obtain ⟨y, hy, hmatch⟩ := (hidx p).mp (by simpa using hne)
    have hkey := matchCi_iff.mp hmatch
    have hcut :=
      (cutSuffix_iff_walk (henc y hy) owner.length owner (Nat.le_refl _)).mpr ⟨p, hp, hkey.symm⟩
    have := hall y hy
    rw [(atOrBelow_iff_cut owner y).mpr hcut] at this
    cases this
  by_contra hne
  obtain ⟨y, hy, hkey⟩ := hroot.mp (by simpa using hne)
  exact henc y hy hkey

end Homes

/-! ### The two ways to decide -/

/-- The context of a run for a zone, with the names of all zones. -/
def bySiblings (siblings : List Text) (z : Text) : TinyContext :=
  { defaultOrigin := z, allZoneNames := siblings }

/-- The context of a run for a zone, with the index of the view. -/
def byIndex (v : ViewZones) (z : Text) : TinyContext :=
  { defaultOrigin := z, zoneExists := some (viewHasZone v) }

lemma home_congr {zones zones' : List Text} (h : ∀ z, z ∈ zones ↔ z ∈ zones') {owner z : Text} :
    Home zones owner z ↔ Home zones' owner z :=
  ⟨fun hh => ⟨(h z).mp hh.mem, hh.encloses, fun y hy => hh.closest y ((h y).mpr hy)⟩,
    fun hh => ⟨(h z).mpr hh.mem, hh.encloses, fun y hy => hh.closest y ((h y).mp hy)⟩⟩

lemma tinydnsOwned_bySiblings {v : ViewZones} (hv : v.Sound) {siblings : List Text}
    (h : ∀ z, z ∈ siblings ↔ z ∈ v.names) {z : Text} (hz : z ∈ v.names) (owner : Text)
    (counted : Bool) :
    tinydnsOwned (bySiblings siblings z) owner counted =
      if Home v.names owner z then (true, false)
      else (false, counted && decide (∀ y ∈ v.names, domainNameIsAtOrBelow owner y = false)) := by
  have hiff : isRecordOwnedByZone owner z siblings = true ↔ Home v.names owner z :=
    (isRecordOwnedByZone_iff (hv.nonempty z hz) ((h z).mpr hz)).trans (home_congr h)
  have hne : siblings.isEmpty = false := by
    cases siblings with
    | nil => exact absurd ((h z).mpr hz) not_mem_nil
    | cons y ys => rfl
  have hall : (siblings.all fun y => !domainNameIsAtOrBelow owner y) =
      decide (∀ y ∈ v.names, domainNameIsAtOrBelow owner y = false) := by
    rw [Bool.eq_iff_iff, all_eq_true, decide_eq_true_eq]
    simp only [h, Bool.not_eq_true']
  simp only [tinydnsOwned, bySiblings, hiff, hne, hall, Bool.not_false, Bool.and_true]

lemma tinydnsOwned_byIndex {v : ViewZones} (hv : v.Sound) {z : Text} (hz : z ∈ v.names)
    (owner : Text) (counted : Bool) :
    tinydnsOwned (byIndex v z) owner counted =
      if Home v.names owner z then (true, false)
      else (false, counted && decide (∀ y ∈ v.names, domainNameIsAtOrBelow owner y = false)) := by
  rw [tinydnsOwned, byIndex]
  dsimp only
  rw [if_neg (hv.nonempty z hz)]
  by_cases henc : domainNameIsAtOrBelow owner z = true
  · rw [if_pos henc]
    have hiff := climb_iff_home hv.hasZone hz henc
    by_cases hhome : Home v.names owner z
    · rw [if_pos hhome, hiff.mpr hhome]
    have hfalse : ¬ ∀ y ∈ v.names, domainNameIsAtOrBelow owner y = false := by
      intro hall
      rw [hall z hz] at henc
      cases henc
    rw [if_neg hhome, decide_eq_false hfalse, Bool.and_false]
    simpa using fun h => hhome (hiff.mp h)
  have hnot : ¬ Home v.names owner z := fun hhome => henc hhome.encloses
  have horphan :
    (((owner :: ancestors owner).all fun p => !viewHasZone v p) && !viewHasZone v [46]) =
      decide (∀ y ∈ v.names, domainNameIsAtOrBelow owner y = false) := by
    rw [Bool.eq_iff_iff, orphan_iff hv.hasZone, decide_eq_true_eq]
  rw [if_neg henc, if_neg hnot, Bool.and_assoc, horphan]

end KariDns
