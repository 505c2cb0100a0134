import KariDns.Image.Thaw
import KariDns.Image.Owners

/-! The records of an image in the order of the file, and the records of a name.

`zone_image_seq_rr` leads through the records as the file has them; `zone_image_find_name` and
`zone_image_rrset_next` lead to those of one name and type. Both show every record of the image
once, so the second are the first that have the name and the type.
-/

namespace KariDns

open Octets DomainName List Option

section Order

variable {records : List Slot}

/-- The places of the records that are there. -/
def livePlaces (records : List Slot) : List Nat := (liveRecords records).map (·.1)

lemma mem_livePlaces {i : Nat} : i ∈ livePlaces records ↔ ∃ s, records[i]? = some s ∧
    s.live = true := by
  simp [livePlaces, liveRecords, mem_zipIdx_iff_getElem?]

lemma livePlaces_eq : livePlaces records = (records.zipIdx.filter (·.1.live)).map (·.2) := by
  unfold livePlaces liveRecords
  induction records.zipIdx with
  | nil => rfl
  | cons v l ih =>
    cases hv : v.1.live with
    | true => simp [hv, ih]
    | false => simp [hv, ih]

lemma livePlaces_nodup : (livePlaces records).Nodup := by
  rw [livePlaces_eq]
  refine (filter_sublist.map _).nodup ?_
  rw [zipIdx_map_snd]
  exact nodup_range'

lemma recordsOf_nodup (recName : List (Option Nat)) (id : Nat) : (recordsOf recName id).Nodup := by
  refine (filter_sublist.map _).nodup ?_
  rw [zipIdx_map_snd]
  exact nodup_range'

lemma placeRrs_nodup (n : Nat) (recName : List (Option Nat)) : (placeRrs n recName).Nodup := by
  rw [placeRrs, nodup_flatMap]
  refine ⟨fun id _ => recordsOf_nodup recName id, ?_⟩
  refine nodup_range.imp fun {a b} hne i ha hb => hne ?_
  have hsame := (mem_recordsOf.mp ha).symm.trans (mem_recordsOf.mp hb)
  simpa using hsame

end Order

lemma filterMap_getElem? {α β : Type} {f : α → Option β} : ∀ {l : List α} {n : Nat},
    (∀ x ∈ l, (f x).isSome = true) → (l.filterMap f)[n]? = l[n]?.bind f
  | [], _, _ => rfl
  | x :: l, n, h => by
    obtain ⟨y, hy⟩ := isSome_iff_exists.mp (h x (by simp))
    rw [filterMap_cons_some hy]
    cases n with
    | zero => simp [hy]
    | succ n => simpa using filterMap_getElem? fun x hx => h x (by simp [hx])

section Places

variable {a : ZoneArena} {apex : Option Text} {ix : ZoneIndex} {img : ZoneImage}

/-- The image holds every record that is there, once. -/
lemma Frozen.places_perm (h : Frozen a apex ix img) : (freezePlan a.records).rrRec.Perm
    (livePlaces a.records) := by
  refine (perm_ext_iff_of_nodup (placeRrs_nodup _ _) livePlaces_nodup).mpr fun i => ?_
  rw [mem_livePlaces]
  refine mem_placeRrs.trans ⟨?_, ?_⟩
  · rintro ⟨id, -, hid⟩
    have hlt : i < a.records.length := h.owned.ids ▸ (List.getElem?_eq_some_iff.mp hid).1
    refine ⟨a.records[i], getElem?_eq_getElem hlt, ?_⟩
    by_contra hdead
    have hnone := h.owned.dead i _ (getElem?_eq_getElem hlt) (by simpa using hdead)
    exact absurd (hnone.symm.trans hid) (by simp)
  rintro ⟨s, hs, hlive⟩
  obtain ⟨id, v, hid, hv, -⟩ := h.owned.owner i s hs hlive
  exact ⟨id, (List.getElem?_eq_some_iff.mp hv).1, hid⟩

/-- `zone_image_seq_rr` leads from a place in the file to the image's number of the record. -/
lemma Frozen.seqRr (h : Frozen a apex ix img) {seq i : Nat}
    (hi : (livePlaces a.records)[seq]? = some i) :
    ∃ k, img.seqRr seq = some k ∧ (freezePlan a.records).rrRec[k]? = some i := by
  have hperm := h.perm
  unfold freezePerm at hperm
  dsimp only at hperm
  rw [ZoneImage.seqRr]
  split at hperm
  · rename_i hfile
    rw [hperm]
    exact ⟨seq, rfl, hfile ▸ hi⟩
  rw [hperm]
  dsimp only
  have hplaced : ∀ j ∈ livePlaces a.records, ((freezePlan a.records).recRr j).isSome = true := by
    intro j hj
    obtain ⟨s, hs, hlive⟩ := mem_livePlaces.mp hj
    obtain ⟨k, hk, -⟩ := recRr_isSome hs hlive
    simp [hk]
  obtain ⟨s, hs, hlive⟩ := mem_livePlaces.mp (mem_of_getElem? hi)
  obtain ⟨k, hk, hplace⟩ := recRr_isSome hs hlive
  refine ⟨k, ?_, hplace⟩
  rw [show (liveRecords a.records).map (·.1) = livePlaces a.records from rfl,
    filterMap_getElem? hplaced, hi, bind_some, hk]

end Places

/-- The record at a place of the file. -/
def ZoneImage.fileRr (img : ZoneImage) (seq : Nat) : Option ImageRr :=
  (img.seqRr seq).bind (img.rrs[·]?)

/-- The records in file order, with the text of their owners. -/
def ZoneImage.fileRrs (img : ZoneImage) : List (Text × ImageRr) :=
  ((List.range img.rrs.length).filterMap img.fileRr).map fun rr => (img.nameText rr.nameId, rr)

/-- The records of a name and a type (`zone_image_rrset_next` again and again). -/
def ZoneImage.rrsOf (img : ZoneImage) (name : Text) (type : UInt16) : List ImageRr :=
  ((img.rrsAt (img.findName name)).map (·.1)).filter (·.type = type)

section Frozen

variable {a : ZoneArena} {apex : Option Text} {ix : ZoneIndex} {img : ZoneImage}

/-- What the record at a place of the arena becomes. -/
def frozenAt (records : List Slot) (i : Nat) : Option ImageRr := do
  let slot ← records[i]?
  let id ← ((freezePlan records).recName[i]?).join
  let owner ← (freezePlan records).tmp[id]?
  let first ← records[owner.firstRec]?
  freezeRr id owner.text (recOwnerWire first.record) slot.record

lemma Frozen.rrs_at (h : Frozen a apex ix img) {k i : Nat}
    (hi : (freezePlan a.records).rrRec[k]? = some i) :
    ∃ rr, img.rrs[k]? = some rr ∧ frozenAt a.records i = some rr := mapM_getElem? h.rrs hi

lemma filterMap_of_mapM {α β : Type} {f : α → Option β} : ∀ {l : List α} {l' : List β},
    l.mapM f = some l' → l.filterMap f = l'
  | [], _, h => some.inj h
  | x :: l, l', h => by
    rw [mapM_cons] at h
    obtain ⟨y, hy, h⟩ := bind_eq_some_iff.mp h
    obtain ⟨ys, hys, h⟩ := bind_eq_some_iff.mp h
    obtain rfl := some.inj h
    rw [filterMap_cons_some hy, filterMap_of_mapM hys]

lemma Frozen.rrs_eq (h : Frozen a apex ix img) :
    (freezePlan a.records).rrRec.filterMap (frozenAt a.records) = img.rrs :=
  filterMap_of_mapM h.rrs

/-- The file has the records of the image, in its own order. -/
lemma Frozen.file_perm (h : Frozen a apex ix img) :
    ((List.range img.rrs.length).filterMap img.fileRr).Perm img.rrs := by
  have hlen : (livePlaces a.records).length = img.rrs.length := by
    rw [← h.places_perm.length_eq]
    exact mapM_length h.rrs
  -- the record at each place is the one the live record there becomes
  have hfile : (List.range img.rrs.length).filterMap img.fileRr =
      (livePlaces a.records).filterMap (frozenAt a.records) := by
    have hget : ∀ seq, seq < img.rrs.length →
        ∃ i, (livePlaces a.records)[seq]? = some i ∧ img.fileRr seq = frozenAt a.records i := by
      intro seq hseq
      obtain ⟨i, hi⟩ : ∃ i, (livePlaces a.records)[seq]? = some i :=
        ⟨_, getElem?_eq_getElem (hlen ▸ hseq)⟩
      obtain ⟨k, hk, hplace⟩ := h.seqRr hi
      obtain ⟨rr, hrr, hat⟩ := h.rrs_at hplace
      refine ⟨i, hi, ?_⟩
      rw [ZoneImage.fileRr, hk, bind_some, hrr, hat]
    have hmap : (List.range img.rrs.length).map img.fileRr =
        (livePlaces a.records).map (frozenAt a.records) := by
      refine ext_getElem? fun seq => ?_
      rw [getElem?_map, getElem?_map]
      by_cases hseq : seq < img.rrs.length
      · obtain ⟨i, hi, heq⟩ := hget seq hseq
        rw [hi, getElem?_range hseq, map_some, map_some, heq]
      · rw [getElem?_eq_none (by simpa using hseq), getElem?_eq_none (by omega)]
        rfl
    have hid : ∀ {β : Type} (l : List β) (f : β → Option ImageRr), l.filterMap f =
        (l.map f).filterMap id := by
      intro β l f
      rw [filterMap_map]
      rfl
    rw [hid, hmap, ← hid]
  rw [hfile, ← h.rrs_eq]
  exact h.places_perm.symm.filterMap _

/-- Where the members that are kept are those at some consecutive places. -/
lemma filter_range {α : Type} {p : α → Bool} {l : List α} {first count : Nat}
    (h : ∀ (k : Nat) (x : α), l[k]? = some x → (p x = true ↔ first ≤ k ∧ k < first + count)) :
    l.filter p = (l.drop first).take count := by
  have hfront : (l.take first).filter p = [] := by
    refine filter_eq_nil_iff.mpr fun x hx hp => ?_
    obtain ⟨k, hk⟩ := mem_iff_getElem?.mp hx
    rw [getElem?_take] at hk
    obtain ⟨hlt, hk⟩ := ite_none_right_eq_some.mp hk
    exact Nat.not_lt.mpr ((h k x hk).mp hp).1 hlt
  have hown : ((l.drop first).take count).filter p = (l.drop first).take count := by
    refine filter_eq_self.mpr fun x hx => ?_
    obtain ⟨k, hk⟩ := mem_iff_getElem?.mp hx
    rw [getElem?_take] at hk
    obtain ⟨hlt, hk⟩ := ite_none_right_eq_some.mp hk
    rw [getElem?_drop] at hk
    exact (h _ x hk).mpr ⟨Nat.le_add_right _ _, Nat.add_lt_add_left hlt _⟩
  have hrest : ((l.drop first).drop count).filter p = [] := by
    refine filter_eq_nil_iff.mpr fun x hx hp => ?_
    obtain ⟨k, hk⟩ := mem_iff_getElem?.mp hx
    rw [getElem?_drop, getElem?_drop] at hk
    have := ((h _ x hk).mp hp).2
    omega
  conv_lhs => rw [← take_append_drop first l, ← take_append_drop count (l.drop first)]
  rw [filter_append, filter_append, hfront, hown, hrest, nil_append, append_nil]

/-- The records of an owner are those that name it. -/
lemma Frozen.rrs_of_owner (h : Frozen a apex ix img) {id : Nat} {nm : ImageName}
    (hnm : img.names[id]? = some nm) :
    img.rrs.filter (·.nameId = id) = rrRange img.rrs nm.firstRr nm.count := by
  obtain ⟨v, hv, rfl⟩ := h.name.mp hnm
  have hlt := (List.getElem?_eq_some_iff.mp hv).1
  refine filter_range fun k rr hrr => ?_
  obtain ⟨-, i, -, -, hi, -⟩ := h.rrName hrr
  obtain ⟨-, rr', -, -, hrr', hown, -⟩ := h.place hi
  obtain rfl : rr' = rr := some.inj (hrr'.symm.trans hrr)
  rw [decide_eq_true_eq]
  constructor
  · rintro rfl
    obtain ⟨j, hj⟩ := mem_iff_getElem?.mp (mem_recordsOf.mpr hown)
    have hk : k = (freezePlan a.records).firstRr rr'.nameId + j :=
      (getElem?_inj (List.getElem?_eq_some_iff.mp hi).1 (placeRrs_nodup _ _)).mp
        (hi.trans (rrRec_owner hlt hj).symm)
    exact ⟨hk ▸ Nat.le_add_right _ _,
      hk ▸ Nat.add_lt_add_left (List.getElem?_eq_some_iff.mp hj).1 _⟩
  · rintro ⟨hlo, hhi⟩
    obtain ⟨j, rfl⟩ := Nat.exists_eq_add_of_le hlo
    have hj := getElem?_eq_getElem (Nat.lt_of_add_lt_add_left hhi)
    obtain rfl := some.inj (hi.symm.trans (rrRec_owner hlt hj))
    exact some.inj (some.inj (hown.symm.trans (mem_recordsOf.mp (getElem_mem _))))

/-- The records of a name and a type are those of the file with a matching owner. -/
lemma Frozen.rrsOf_perm (h : Frozen a apex ix img) (t : Text) (type : UInt16) :
    (img.rrsOf t type).Perm
      ((img.fileRrs.filter fun r => domainNamesMatchCi r.1 t && decide (r.2.type = type)).map
        (·.2)) := by
  have hfile :
    (img.fileRrs.filter fun r => domainNamesMatchCi r.1 t && decide (r.2.type = type)).map (·.2) =
      ((List.range img.rrs.length).filterMap img.fileRr).filter fun rr =>
        domainNamesMatchCi (img.nameText rr.nameId) t && decide (rr.type = type) := by
    rw [ZoneImage.fileRrs, List.filter_map, List.map_map]
    exact List.map_id _
  rw [hfile]
  refine List.Perm.trans (List.Perm.of_eq ?_) (h.file_perm.filter _).symm
  -- a record has a matching owner if its owner is the one that is found
  have howner : ∀ rr ∈ img.rrs, domainNamesMatchCi (img.nameText rr.nameId) t = true ↔
      img.findName t = some rr.nameId := by
    intro rr hrr
    obtain ⟨k, hk⟩ := mem_iff_getElem?.mp hrr
    obtain ⟨nm, -, -, hnm, -⟩ := h.rrName hk
    rw [h.findName, ZoneImage.nameText, hnm]
    simp
  cases hfind : img.findName t with
  | none =>
    rw [ZoneImage.rrsOf, hfind, eq_comm, filter_eq_nil_iff.mpr]
    · rfl
    intro rr hrr
    have := howner rr hrr
    rw [hfind] at this
    simp [this]
  | some id =>
    obtain ⟨nm, hnm, -⟩ := h.findName.mp hfind
    have hown : (img.rrsAt (some id)).map (·.1) = img.rrs.filter (·.nameId = id) := by
      rw [h.rrs_of_owner hnm, ZoneImage.rrsAt, ownRrs_of_name hnm, zipIdx_map_fst]
    rw [ZoneImage.rrsOf, hfind, hown, List.filter_filter]
    refine filter_congr fun rr hrr => ?_
    have hiff := howner rr hrr
    rw [hfind, some.injEq] at hiff
    rw [Bool.and_comm, Bool.eq_iff_iff, Bool.and_eq_true, Bool.and_eq_true, hiff, decide_eq_true_eq,
      eq_comm]

end Frozen

end KariDns
