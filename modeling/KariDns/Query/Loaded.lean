import KariDns.Image.Owners

/-! Zones as a loader leaves them. -/

namespace KariDns

open Octets DomainName List Option

/-- A zone as a loader leaves it: names at or below the apex, indexed, frozen. -/
structure LoadedZone where
  arena : ZoneArena
  apex : Name
  domain : Text
  img : ZoneImage
  domain_denotes : Denotes domain apex
  indexed : arena.index = some (buildZoneIndex arena.records)
  frozen : zoneImageFreeze arena (some domain) = some img
  owners : ∀ s ∈ arena.records, s.live = true → ∃ n, Valid n ∧
    s.record.name = nameText n ∧ Below n apex

/-- Every owner is a name at or below the apex. -/
def ownersOk (a : ZoneArena) (apex : Name) : Bool :=
  a.records.all fun s =>
    match readName s.record.name with
    | none => false
    | some n => nameText n = s.record.name ∧ (fold apex).isSuffixOf (fold n)

lemma valid_e : Valid [ascii "e"] := by decide +kernel

/-- The zone of a zone file, if it can be served. -/
def LoadedZone.ofText (recs : List (String × UInt16 × List String)) (apex : Name)
    (hapex : Valid apex) (howners : ownersOk (textArena recs) apex = true)
    (hfreeze : (zoneImageFreeze (textArena recs) (some (nameText apex))).isSome = true) :
      LoadedZone where
  arena := textArena recs
  apex := apex
  domain := nameText apex
  img := (zoneImageFreeze (textArena recs) (some (nameText apex))).get hfreeze
  domain_denotes := denotes_nameText hapex
  indexed := rfl
  frozen := (some_get hfreeze).symm
  owners := by
    intro s hs _
    have hone := List.all_eq_true.mp howners s hs
    split at hone
    · cases hone
    rename_i n hread
    obtain ⟨htext, hsuffix⟩ := of_decide_eq_true hone
    exact ⟨n, readName_valid hread, htext.symm, isSuffixOf_iff_suffix.mp hsuffix⟩

namespace LoadedZone

variable (z : LoadedZone)

lemma isFrozen : Frozen z.arena (some z.domain) (buildZoneIndex z.arena.records) z.img := by
  obtain ⟨ix, h⟩ := frozen_of_freeze z.frozen
  obtain rfl : ix = buildZoneIndex z.arena.records := some.inj (h.index.symm.trans z.indexed)
  exact h

lemma isName_record {s : Slot} (hs : s ∈ z.arena.records) (hlive : s.live = true) :
    IsName s.record.name := by
  obtain ⟨n, hn, htext, -⟩ := z.owners s hs hlive
  exact ⟨n, htext ▸ denotes_nameText hn⟩

lemma name_record {id : Nat} {nm : ImageName} (h : z.img.names[id]? = some nm) :
    ∃ s ∈ z.arena.records, s.live = true ∧ nm.text = s.record.name := by
  obtain ⟨v, hv, rfl⟩ := z.isFrozen.name.mp h
  rcases z.isFrozen.owned.origin v (mem_of_getElem? hv) with hnil | ⟨j, s, hj, hlive, -, htext⟩
  · cases hnil
  · exact ⟨s, mem_of_getElem? hj, hlive, htext⟩

lemma isName {id : Nat} {nm : ImageName} (h : z.img.names[id]? = some nm) : IsName nm.text := by
  obtain ⟨s, hs, hlive, htext⟩ := z.name_record h
  exact htext ▸ z.isName_record hs hlive

end LoadedZone

end KariDns
