import KariDns.Name.Order
import KariDns.Query.Lookup

/-! The owners in the image of a loaded zone.

A zone that is served was read by one of the loaders, indexed and frozen. Its owners are
names at or below its apex, each has one entry, the hash table finds it, and its records
stand side by side.
-/

namespace KariDns

open Octets DomainName List Option

variable {nm : ImageName} {i id size : Nat}

/-! ### Hash tables over owners -/

section Find

variable {α : Type} {key : α → Text} {hash : α → UInt32}

lemma find?_congr_of_mem {β : Type} {p q : β → Bool} :
    ∀ {l : List β}, (∀ v ∈ l, p v = q v) → l.find? p = l.find? q
  | [], _ => rfl
  | v :: l, h => by
    rw [find?_cons, find?_cons, h v mem_cons_self,
      find?_congr_of_mem fun u hu => h u (mem_cons_of_mem _ hu)]

/-- No two places hold the same owner. -/
lemma owner_unique {l : List α}
    (hdist : l.Pairwise fun a b => domainNamesMatchCi (key a) (key b) = false) {j : Nat} {v u : α}
    (hi : l[i]? = some v) (hj : l[j]? = some u) (hm : domainNamesMatchCi (key v) (key u) = true) :
      i = j := by
  obtain ⟨hilt, rfl⟩ := List.getElem?_eq_some_iff.mp hi
  obtain ⟨hjlt, rfl⟩ := List.getElem?_eq_some_iff.mp hj
  have hpair := pairwise_iff_getElem.mp hdist
  rcases Nat.lt_trichotomy i j with hlt | heq | hlt
  · exact absurd hm (by simp [hpair i j hilt hjlt hlt])
  · exact heq
  · exact absurd (matchCi_symm hm) (by simp [hpair j i hjlt hilt hlt])

/-- A table over owners that are all different finds the one of a name. -/
lemma find_owner {l : List α} (hlen : l.length ≤ size)
    (hhash : ∀ v ∈ l, hash v = dnsNameHashCi (key v))
    (hdist : l.Pairwise fun a b => domainNamesMatchCi (key a) (key b) = false) (t : Text) :
    (ProbeTable.find size (ProbeTable.build size (fun v => (hash v.1).toNat) l.zipIdx)
      (dnsNameHashCi t).toNat
      fun v => hash v.1 = dnsNameHashCi t ∧ domainNamesMatchCi (key v.1) t).map (·.2) =
      l.findIdx? fun v => domainNamesMatchCi (key v) t := by
  have hsame :
    ∀ v ∈ l.zipIdx, (decide (hash v.1 = dnsNameHashCi t ∧ domainNamesMatchCi (key v.1) t) : Bool) =
      domainNamesMatchCi (key v.1) t := by
    rintro ⟨v, i⟩ hv
    by_cases hm : domainNamesMatchCi (key v) t = true
    · simp [hm, hhash v (fst_mem_of_mem_zipIdx hv), hashCi_of_match hm]
    · simp [hm]
  rw [ProbeTable.find_build (by simpa using hlen), List.findIdx?_eq_fst_find?_zipIdx]
  · rw [find?_congr_of_mem hsame]
  · intro v _ hp
    simp only [decide_eq_true_eq] at hp
    rw [hp.1]
  rintro ⟨v, i⟩ hv ⟨u, j⟩ hu hpv hpu
  rw [hsame _ hv] at hpv
  rw [hsame _ hu] at hpu
  have hi : l[i]? = some v := mem_zipIdx_iff_getElem?.mp hv
  have hj : l[j]? = some u := mem_zipIdx_iff_getElem?.mp hu
  obtain rfl := owner_unique hdist hi hj (matchCi_trans hpv (matchCi_symm hpu))
  rw [some.inj (hi.symm.trans hj)]

/-- The place of the owner of a name. -/
lemma findIdx_owner {l : List α}
    (hdist : l.Pairwise fun a b => domainNamesMatchCi (key a) (key b) = false) {t : Text} :
    l.findIdx? (fun v => domainNamesMatchCi (key v) t) = some i ↔
      ∃ v, l[i]? = some v ∧ domainNamesMatchCi (key v) t = true := by
  rw [findIdx?_eq_some_iff_getElem]
  constructor
  · rintro ⟨hlt, hm, -⟩
    exact ⟨l[i], getElem?_eq_getElem hlt, hm⟩
  rintro ⟨v, hv, hm⟩
  obtain ⟨hlt, rfl⟩ := List.getElem?_eq_some_iff.mp hv
  refine ⟨hlt, hm, fun j hj hmj => ?_⟩
  have := owner_unique hdist (getElem?_eq_getElem (by omega)) hv
    (matchCi_trans hmj (matchCi_symm hm))
  omega

end Find

/-! ### The owners of a zone -/

/-- Owners found so far: with their hash, all different. -/
structure TmpOk (names : List TmpName) : Prop where
  hash : ∀ v ∈ names, v.hash = dnsNameHashCi v.text
  distinct : names.Pairwise fun a b => domainNamesMatchCi a.text b.text = false

lemma tmpFind_eq {names : List TmpName} (h : TmpOk names) (hlen : names.length ≤ size) (t : Text) :
    tmpFind size names t = names.findIdx? fun v => domainNamesMatchCi v.text t :=
  find_owner hlen h.hash h.distinct t

lemma TmpOk.add {names : List TmpName} (h : TmpOk names) {t : Text} {i : Nat}
    (hnew : names.findIdx? (fun v => domainNamesMatchCi v.text t) = none) :
    TmpOk (names ++ [⟨t, dnsNameHashCi t, i⟩]) := by
  refine ⟨?_, ?_⟩
  · intro v hv
    rcases mem_append.mp hv with hv | hv
    · exact h.hash v hv
    · rw [mem_singleton.mp hv]
  rw [pairwise_append]
  refine ⟨h.distinct, pairwise_singleton _ _, ?_⟩
  rintro a ha b hb
  rw [mem_singleton.mp hb]
  exact findIdx?_eq_none_iff.mp hnew a ha

/-- What step 1 leaves behind for the records from some place on. -/
structure Owned (recs : List Slot) (i : Nat) (names : List TmpName)
    (r : List TmpName × List (Option Nat)) : Prop where
  ok : TmpOk r.1
  grows : names <+: r.1
  length : r.1.length ≤ names.length + recs.length
  origin : ∀ v ∈ r.1, v ∈ names ∨
    ∃ (j : Nat) (s : Slot), recs[j]? = some s ∧ s.live = true ∧ v.firstRec = i + j ∧
      v.text = s.record.name
  owner : ∀ (j : Nat) (s : Slot), recs[j]? = some s → s.live = true →
    ∃ (id : Nat) (v : TmpName), r.2[j]? = some (some id) ∧ r.1[id]? = some v ∧
      domainNamesMatchCi v.text s.record.name = true
  dead : ∀ (j : Nat) (s : Slot), recs[j]? = some s → s.live = false → r.2[j]? = some none
  ids : r.2.length = recs.length

lemma getElem?_of_begins {α : Type} {l l' : List α} (h : l <+: l') {a : α} (hi : l[i]? = some a) :
    l'[i]? = some a := by
  obtain ⟨k, rfl⟩ := h
  rw [getElem?_append_left (List.getElem?_eq_some_iff.mp hi).1, hi]

/-- One record in front of the others. -/
lemma Owned.cons {slot : Slot} {rest : List Slot} {i : Nat} {names names' : List TmpName}
    {r : List TmpName × List (Option Nat)} (h : Owned rest (i + 1) names' r)
    (hgrows : names <+: names') (hlen : names'.length ≤ names.length + 1)
    (horigin : ∀ v ∈ names', v ∈ names ∨ slot.live = true ∧ v.firstRec = i ∧
      v.text = slot.record.name)
    {o : Option Nat}
    (ho : slot.live = true → ∃ (id : Nat) (v : TmpName), o = some id ∧ names'[id]? = some v ∧
      domainNamesMatchCi v.text slot.record.name = true) (hdead : slot.live = false → o = none) :
    Owned (slot :: rest) i names (r.1, o :: r.2) := by
  refine ⟨h.ok, hgrows.trans h.grows, ?_, ?_, ?_, ?_, by simp [h.ids]⟩
  · have := h.length
    simp only [length_cons]
    omega
  · intro v hv
    rcases h.origin v hv with hv | ⟨j, s, hj, hlive, hfirst, htext⟩
    · rcases horigin v hv with hv | ⟨hlive, hfirst, htext⟩
      · exact .inl hv
      · exact .inr ⟨0, slot, rfl, hlive, hfirst, htext⟩
    · exact .inr ⟨j + 1, s, by simpa using hj, hlive, by omega, htext⟩
  · intro j s hj hlive
    cases j with
    | zero =>
      obtain rfl : slot = s := by simpa using hj
      obtain ⟨id, v, rfl, hv, hm⟩ := ho hlive
      exact ⟨id, v, rfl, getElem?_of_begins h.grows hv, hm⟩
    | succ j => simpa using h.owner j s (by simpa using hj) hlive
  intro j s hj hnot
  cases j with
  | zero =>
    obtain rfl : slot = s := by simpa using hj
    simp [hdead hnot]
  | succ j => simpa using h.dead j s (by simpa using hj) hnot

lemma nameOwners_owned : ∀ (recs : List Slot) (i : Nat) (names : List TmpName), TmpOk names →
    names.length + recs.length ≤ size → Owned recs i names (nameOwners size recs i names)
  | [], i, names, hok, _ =>
    ⟨hok, prefix_rfl, by simp [nameOwners], fun v hv => .inl hv, by simp, by simp, rfl⟩
  | slot :: rest, i, names, hok, hsize => by
    rw [length_cons] at hsize
    rw [nameOwners, tmpFind_eq hok (by omega)]
    split
    · rename_i hlive
      split
      · rename_i id hid
        obtain ⟨v, hv, hm⟩ := (findIdx_owner hok.distinct).mp hid
        exact (nameOwners_owned rest (i + 1) names hok (by omega)).cons prefix_rfl (by omega)
          (fun v hv => .inl hv) (fun _ => ⟨id, v, rfl, hv, hm⟩) (by simp [hlive])
      rename_i hnew
      refine (nameOwners_owned rest (i + 1) _ (hok.add hnew) (by simp; omega)).cons
        (prefix_append _ _) (by simp) ?_
        (fun _ => ⟨names.length, ⟨slot.record.name, dnsNameHashCi slot.record.name, i⟩,
          rfl, by simp, matchCi_refl _⟩)
        (by simp [hlive])
      intro v hv
      rcases mem_append.mp hv with hv | hv
      · exact .inl hv
      · rw [mem_singleton.mp hv]
        exact .inr ⟨hlive, rfl, rfl⟩
    rename_i hlive
    exact (nameOwners_owned rest (i + 1) names hok (by omega)).cons prefix_rfl (by omega)
      (fun v hv => .inl hv) (fun h => absurd h hlive) fun _ => rfl

/-! ### Sizes of tables -/

lemma nextPow2_ge {n : Nat} : ∀ {fuel p : Nat}, n ≤ p * 2 ^ fuel → n ≤ nextPow2 n fuel p
  | 0, p, h => by simpa [nextPow2] using h
  | fuel + 1, p, h => by
    rw [nextPow2]
    split
    · exact nextPow2_ge (by rwa [Nat.mul_assoc, ← Nat.pow_succ'])
    · omega

lemma hashSizeFor_ge {n : Nat} :
    ∀ {fuel size : Nat}, n ≤ size * 2 ^ fuel → n ≤ hashSizeFor n fuel size
  | 0, size, h => by simpa [hashSizeFor] using h
  | fuel + 1, size, h => by
    rw [hashSizeFor]
    split
    · exact hashSizeFor_ge (by rwa [Nat.mul_assoc, ← Nat.pow_succ'])
    · omega

section Frozen

variable {a : ZoneArena} {apex : Option Text} {ix : ZoneIndex} {img : ZoneImage}

section

variable (h : Frozen a apex ix img)

include h

lemma Frozen.few : a.records.length < 0x7FFFFFFF := by
  have := h.counts
  simp only [freezeCountsOk, decide_eq_true_eq] at this
  exact this.1

lemma Frozen.tableSize : a.records.length ≤ tmpTableSize a.records.length := by
  have hfew := h.few
  have := @nextPow2_ge (a.records.length * 2 + 2) 64 8 (by omega)
  rw [tmpTableSize]
  omega

lemma Frozen.owned :
    Owned a.records 0 [] ((freezePlan a.records).tmp, (freezePlan a.records).recName) :=
  nameOwners_owned a.records 0 [] ⟨by simp, List.Pairwise.nil⟩ (by simpa using h.tableSize)

lemma Frozen.find_eq (t : Text) : (freezePlan a.records).find a.records.length t =
      (freezePlan a.records).tmp.findIdx? fun v => domainNamesMatchCi v.text t := by
  have hlen := h.owned.length
  simp only [length_nil, Nat.zero_add] at hlen
  exact tmpFind_eq h.owned.ok (Nat.le_trans hlen h.tableSize) t

/-- The entry of an owner. -/
lemma Frozen.name {id : Nat} {nm : ImageName} :
    img.names[id]? = some nm ↔ ∃ v, (freezePlan a.records).tmp[id]? = some v ∧
      nm = freezeName a.records (freezePlan a.records) img.rrs img.apexName
        (glueTargets a.records (freezePlan a.records) img.rrs).flagged v id := by
  rw [h.names, getElem?_map, getElem?_zipIdx]
  simp [eq_comm]

lemma Frozen.names_length : img.names.length = (freezePlan a.records).tmp.length := by
  simp [h.names]

lemma Frozen.distinct : img.names.Pairwise fun m n => domainNamesMatchCi m.text n.text = false := by
  have htmp : (img.names.map (·.text)) = (freezePlan a.records).tmp.map (·.text) := by
    apply ext_getElem?
    intro i
    rw [h.names]
    simp [Function.comp_def, freezeName]
  rw [← pairwise_map (f := ImageName.text) (R := fun m n => domainNamesMatchCi m n = false), htmp,
    pairwise_map]
  exact h.owned.ok.distinct

lemma Frozen.hash : ∀ nm ∈ img.names, nm.hash = dnsNameHashCi nm.text := by
  intro nm hnm
  obtain ⟨id, hid⟩ := mem_iff_getElem?.mp hnm
  obtain ⟨v, hv, rfl⟩ := h.name.mp hid
  exact h.owned.ok.hash v (mem_of_getElem? hv)

/-- `zone_image_find_name` finds the owner of a name. -/
lemma Frozen.findName {t : Text} :
    img.findName t = some id ↔ ∃ nm, img.names[id]? = some nm ∧
      domainNamesMatchCi nm.text t = true := by
  have hsize : img.names.length ≤ img.hashSize := by
    rw [h.hashSize, h.names_length]
    have hlen := h.owned.length
    have hfew := h.few
    simp only [length_nil, Nat.zero_add] at hlen
    exact hashSizeFor_ge (by omega)
  rw [ZoneImage.findName, find_owner hsize h.hash h.distinct]
  exact findIdx_owner h.distinct

/-- Owners are found as they were when the zone was frozen. -/
lemma Frozen.find (t : Text) : (freezePlan a.records).find a.records.length t = img.findName t := by
  rw [h.find_eq]
  apply Option.ext
  intro id
  rw [h.findName, findIdx_owner h.owned.ok.distinct]
  constructor
  · rintro ⟨v, hv, hm⟩
    exact ⟨_, h.name.mpr ⟨v, hv, rfl⟩, hm⟩
  rintro ⟨nm, hnm, hm⟩
  obtain ⟨v, hv, rfl⟩ := h.name.mp hnm
  exact ⟨v, hv, hm⟩

end

/-! ### The records of an owner -/

lemma placeRrs_owner (recName : List (Option Nat)) {n : Nat} (h : id < n) :
    ∃ rest, placeRrs n recName = placeRrs id recName ++ recordsOf recName id ++ rest := by
  obtain ⟨k, rfl⟩ : ∃ k, n = id + (k + 1) := ⟨n - id - 1, by omega⟩
  rw [placeRrs, range_add, range_succ_eq_map, flatMap_append, map_cons, flatMap_cons]
  exact ⟨_, by rw [Nat.add_zero, placeRrs, append_assoc]⟩

/-- The place of the `j`-th record of an owner. -/
lemma rrRec_owner {records : List Slot} {i j : Nat} (hid : id < (freezePlan records).tmp.length)
    (hj : (recordsOf (freezePlan records).recName id)[j]? = some i) :
    (freezePlan records).rrRec[(freezePlan records).firstRr id + j]? = some i := by
  obtain ⟨rest, hplace⟩ := placeRrs_owner (freezePlan records).recName hid
  have hrec : (freezePlan records).rrRec = _ := hplace
  rw [hrec, FreezePlan.firstRr, append_assoc, getElem?_append_right (Nat.le_add_right _ _),
    Nat.add_sub_cancel_left, getElem?_append_left (List.getElem?_eq_some_iff.mp hj).1, hj]

lemma ownRrs_of_name (h : img.names[id]? = some nm) :
    img.ownRrs id = (rrRange img.rrs nm.firstRr nm.count).zipIdx nm.firstRr := by
  rw [ZoneImage.ownRrs, h]

lemma any_ownRrs (h : img.names[id]? = some nm) (p : ImageRr → Bool) :
    (img.ownRrs id).any (fun v => p v.1) = (rrRange img.rrs nm.firstRr nm.count).any p := by
  rw [ownRrs_of_name h]
  conv_rhs => rw [← zipIdx_map_fst nm.firstRr (rrRange img.rrs nm.firstRr nm.count), List.any_map]
  rfl

/-- A record of an owner: its number, and the record of the zone it was made from. -/
lemma Frozen.ownRr (h : Frozen a apex ix img) {k : Nat} {rr : ImageRr}
    (hrr : (rr, k) ∈ img.ownRrs id) :
    img.rrs[k]? = some rr ∧ rr.nameId = id ∧ ∃ nm s, img.names[id]? = some nm ∧
      s ∈ a.records ∧ s.live = true ∧
      domainNamesMatchCi nm.text s.record.name = true ∧
        freezeRr id nm.text nm.wire s.record = some rr := by
  rw [ZoneImage.ownRrs] at hrr
  split at hrr
  · cases hrr
  rename_i nm hnm
  obtain ⟨v, hv, rfl⟩ := h.name.mp hnm
  obtain ⟨j, hj, rfl, hget⟩ : ∃ j < (freezePlan a.records).count id, k =
    (freezePlan a.records).firstRr id + j ∧
      img.rrs[(freezePlan a.records).firstRr id + j]? = some rr := by
    obtain ⟨hge, hget⟩ := mk_mem_zipIdx_iff_le_and_getElem?_sub.mp hrr
    obtain ⟨j, rfl⟩ := Nat.exists_eq_add_of_le hge
    rw [Nat.add_sub_cancel_left, rrRange, getElem?_take] at hget
    split at hget
    · rename_i hj
      exact ⟨j, hj, rfl, by rwa [getElem?_drop] at hget⟩
    · cases hget
  -- the record before the freeze: the `j`-th of the owner
  obtain ⟨i, hi⟩ : ∃ i, (recordsOf (freezePlan a.records).recName id)[j]? = some i :=
    ⟨_, getElem?_eq_getElem hj⟩
  have hown := mem_recordsOf.mp (mem_of_getElem? hi)
  obtain ⟨slot, rr', nm, hslot, hrr', hid, hnm', hone⟩ :=
    h.place (rrRec_owner (List.getElem?_eq_some_iff.mp hv).1 hi)
  obtain rfl : rr' = rr := some.inj (hrr'.symm.trans hget)
  obtain rfl : rr'.nameId = id := by simpa [hown] using hid.symm
  obtain rfl := some.inj (hnm.symm.trans hnm')
  have hlive : slot.live = true := by
    by_contra hdead
    have := h.owned.dead i slot hslot (by simpa using hdead)
    rw [hown] at this
    cases this
  obtain ⟨id', v', hid', hv', hm⟩ := h.owned.owner i slot hslot hlive
  obtain rfl : rr'.nameId = id' := by simpa [hown] using hid'
  obtain rfl : v = v' := some.inj (hv.symm.trans hv')
  exact ⟨hget, rfl, _, slot, hnm, mem_of_getElem? hslot, hlive, hm, hone⟩

/-- Every record of the image has its owner there. -/
lemma Frozen.rrName (h : Frozen a apex ix img) {k : Nat} {rr : ImageRr}
    (hrr : img.rrs[k]? = some rr) :
    ∃ nm i s, img.names[rr.nameId]? = some nm ∧ (freezePlan a.records).rrRec[k]? = some i ∧
      a.records[i]? = some s ∧ freezeRr rr.nameId nm.text nm.wire s.record = some rr := by
  have hk : k < (freezePlan a.records).rrRec.length := by
    rw [mapM_length h.rrs]
    exact (List.getElem?_eq_some_iff.mp hrr).1
  obtain ⟨s, rr', nm, hs, hrr', -, hnm, hone⟩ := h.place (getElem?_eq_getElem hk)
  obtain rfl : rr' = rr := some.inj (hrr'.symm.trans hrr)
  exact ⟨nm, _, s, hnm, getElem?_eq_getElem hk, hs, hone⟩

/-- The flag of a zone cut. -/
lemma Frozen.cut_iff (h : Frozen a apex ix img) (hnm : img.names[id]? = some nm) :
    nm.cut = true ↔ img.apexName ≠ some id ∧ ∃ v ∈ img.ownRrs id, v.1.type = 2 := by
  have hany := any_ownRrs hnm fun rr => rr.type = 2
  obtain ⟨v, -, rfl⟩ := h.name.mp hnm
  rw [Bool.eq_iff_iff, List.any_eq_true] at hany
  simp only [decide_eq_true_eq] at hany
  rw [hany]
  simp [freezeName]

end Frozen

end KariDns
