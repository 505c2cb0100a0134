import KariDns.Query.Closing

/-! The records of a zone, whatever their order.

An image numbers owners and records in the order of the zone's records. What does not depend
on that order is the content of each owner: `Content t d` says that a record with content `d`
stands at the name `t`. All that the resolver asks an image about names and records can be
said in these terms.
-/

namespace KariDns

open Octets DomainName List Option

variable {img : ZoneImage}

/-! ### Content of a record -/

/-- A record of an image without its place: the owner as the record spells it, type, class, TTL,
RDATA, and who sees it. -/
structure RrContent where
  owner : Text × Option Name
  type : UInt16
  classVal : Nat
  ttl : Nat
  rdata : List UInt8
  raw : Bool
  noNameWire : Bool
  ttd : Int
  countdown : Bool
  loc : UInt8 × UInt8
  ecsTag : Option Text
  locTag : Option Text
  deriving DecidableEq

/-- The content of a record whose owner has the entry `nm`. -/
def rrContent (nm : ImageName) (rr : ImageRr) : RrContent where
  owner := (rr.ext.bind (·.alt)).getD (nm.text, nm.wire)
  type := rr.type
  classVal := rr.classVal
  ttl := rr.ttl
  rdata := rr.rdata
  raw := rr.raw
  noNameWire := rr.noNameWire
  ttd := (rr.ext.map (·.ttd)).getD 0
  countdown := (rr.ext.map (·.countdown)).getD false
  loc := (rr.ext.map (·.loc)).getD (0, 0)
  ecsTag := rr.ext.bind (·.ecsTag)
  locTag := rr.ext.bind (·.locTag)

/-- The content of a record before the freeze. -/
def recordContent (rec : DnsRecord) (rdata : List UInt8) : RrContent where
  owner := (rec.name, recOwnerWire rec)
  type := rec.typeCode
  classVal := recClass rec
  ttl := recTtl rec
  rdata := rdata
  raw := rec.generic.isSome ∨ rec.classVal = classKaridnsExt
  noNameWire := rec.nameWire.isNone
  ttd := rec.tinydnsTtd
  countdown := rec.tinydnsTtlCountdown
  loc := rec.tinydnsLoc
  ecsTag := rec.ecsSubnetTag
  locTag := rec.bindLocationTag

/-- Freezing keeps the content. -/
lemma rrContent_of_freeze {id : Nat} {nm : ImageName} {rec : DnsRecord} {rr : ImageRr}
    (h : freezeRr id nm.text nm.wire rec = some rr) :
    ∃ rdata, captureRdata rec = some rdata ∧ rrContent nm rr = recordContent rec rdata := by
  obtain ⟨rdata, hrdata, rfl⟩ := map_eq_some_iff.mp h
  refine ⟨rdata, hrdata, ?_⟩
  by_cases halt : rec.name ≠ nm.text ∨ recOwnerWire rec ≠ nm.wire
  · simp [rrContent, recordContent, freezeExt, halt]
  obtain ⟨hname, hwire⟩ : rec.name = nm.text ∧ recOwnerWire rec = nm.wire := by tauto
  by_cases hres : rec.restricted = true
  · simp [rrContent, recordContent, freezeExt, hname, hwire, hres]
  have hplain := hres
  simp only [DnsRecord.restricted, decide_eq_true_eq, not_or, not_not, Bool.not_eq_true,
    isSome_eq_false_iff, isNone_iff_eq_none] at hplain
  obtain ⟨httd, hcd, hloc, hecs, htag⟩ := hplain
  simp [rrContent, recordContent, freezeExt, hname, hwire, hres, httd, hcd, hloc, hecs, htag]

/-! ### Content of a zone -/

/-- A record with content `d` stands at the name `t`. -/
def ZoneImage.Content (img : ZoneImage) (t : Text) (d : RrContent) : Prop :=
  ∃ v ∈ img.rrsAt (img.findName t), ∃ nm, img.names[v.1.nameId]? = some nm ∧ rrContent nm v.1 = d

/-- Every record of the zone is in the image, at its owner. -/
lemma Frozen.ownRr_of_record {a : ZoneArena} {apex : Option Text} {ix : ZoneIndex}
    (h : Frozen a apex ix img) {s : Slot} (hs : s ∈ a.records) (hlive : s.live = true) :
    ∃ id nm rr k, img.names[id]? = some nm ∧ domainNamesMatchCi nm.text s.record.name = true ∧
      (rr, k) ∈ img.ownRrs id ∧ rr.nameId = id ∧
        freezeRr id nm.text nm.wire s.record = some rr := by
  obtain ⟨i, hi⟩ := mem_iff_getElem?.mp hs
  obtain ⟨id, v, hid, hv, hm⟩ := h.owned.owner i s hi hlive
  obtain ⟨j, hj⟩ := mem_iff_getElem?.mp (mem_recordsOf.mpr hid)
  obtain ⟨slot, rr, nm, hslot, hrr, hown, hnm, hone⟩ :=
    h.place (rrRec_owner (List.getElem?_eq_some_iff.mp hv).1 hj)
  obtain rfl : s = slot := some.inj (hi.symm.trans hslot)
  obtain rfl : rr.nameId = id := some.inj (some.inj (hown.symm.trans hid))
  obtain rfl := some.inj ((h.name.mpr ⟨v, hv, rfl⟩).symm.trans hnm)
  refine ⟨rr.nameId, _, rr, (freezePlan a.records).firstRr rr.nameId + j, hnm, hm, ?_, rfl, hone⟩
  rw [ownRrs_of_name hnm]
  refine mk_mem_zipIdx_iff_le_and_getElem?_sub.mpr ⟨Nat.le_add_right _ _, ?_⟩
  have hcount : j < (freezePlan a.records).count rr.nameId := (List.getElem?_eq_some_iff.mp hj).1
  simp only [freezeName, rrRange]
  rw [Nat.add_sub_cancel_left, getElem?_take, if_pos hcount, getElem?_drop, hrr]

/-- The content of an image is that of the zone's records. -/
lemma Frozen.content_iff {a : ZoneArena} {apex : Option Text} {ix : ZoneIndex}
    (h : Frozen a apex ix img) {t : Text} {d : RrContent} :
    img.Content t d ↔ ∃ s ∈ a.records, s.live = true ∧ domainNamesMatchCi s.record.name t = true ∧
      ∃ rdata, captureRdata s.record = some rdata ∧ d = recordContent s.record rdata := by
  constructor
  · rintro ⟨⟨rr, k⟩, hv, nm, hnm, rfl⟩
    cases hid : img.findName t with
    | none => simp [hid, ZoneImage.rrsAt] at hv
    | some id =>
      rw [hid] at hv
      obtain ⟨-, hnameId, nm', s, hnm', hs, hlive, hm, hfreeze⟩ := h.ownRr hv
      obtain ⟨nm'', hnm'', hm'⟩ := h.findName.mp hid
      obtain rfl : nm = nm' := some.inj (hnm.symm.trans (hnameId ▸ hnm'))
      obtain rfl : nm = nm'' := some.inj (hnm'.symm.trans hnm'')
      obtain ⟨rdata, hrdata, hcontent⟩ := rrContent_of_freeze hfreeze
      exact ⟨s, hs, hlive, matchCi_trans (matchCi_symm hm) hm', rdata, hrdata, hcontent⟩
  rintro ⟨s, hs, hlive, hm, rdata, hrdata, rfl⟩
  obtain ⟨id, nm, rr, k, hnm, hm', hmem, hnameId, hfreeze⟩ := h.ownRr_of_record hs hlive
  have hfind : img.findName t = some id := h.findName.mpr ⟨nm, hnm, matchCi_trans hm' hm⟩
  obtain ⟨rdata', hrdata', hcontent⟩ := rrContent_of_freeze hfreeze
  obtain rfl : rdata = rdata' := some.inj (hrdata.symm.trans hrdata')
  exact ⟨(rr, k), by rw [hfind]; exact hmem, nm, hnameId ▸ hnm, hcontent⟩

/-- The image as a store: under a name stand the live records of the zone with this owner, case
aside, each with all that it had before the freeze. -/
theorem image_content_iff {a : ZoneArena} {apex : Option Text}
    (h : zoneImageFreeze a apex = some img) (t : Text) (d : RrContent) :
    img.Content t d ↔ ∃ s ∈ a.records, s.live = true ∧ domainNamesMatchCi s.record.name t = true ∧
      ∃ rdata, captureRdata s.record = some rdata ∧ d = recordContent s.record rdata := by
  obtain ⟨ix, hf⟩ := frozen_of_freeze h
  exact hf.content_iff

/-- The contents of the live records with the owner `t`. -/
def contentsAt (records : List Slot) (t : Text) : List (Option RrContent) :=
  (records.filter fun s => s.live && domainNamesMatchCi s.record.name t).map fun s =>
    (captureRdata s.record).map (recordContent s.record)

lemma mem_contentsAt {records : List Slot} {t : Text} {d : RrContent} :
    some d ∈ contentsAt records t ↔
    ∃ s ∈ records, s.live = true ∧ domainNamesMatchCi s.record.name t = true ∧
      ∃ rdata, captureRdata s.record = some rdata ∧ d = recordContent s.record rdata := by
  simp [contentsAt, and_assoc, @eq_comm _ d]

/-- Under `mail.e.` stand the address for everyone and the one for a location, but not the deleted
one. -/
theorem image_content_mail : ∃ img, zoneImageFreeze mailArena (some (ascii "e.")) = some img ∧
    ∀ d, img.Content (ascii "MAIL.e") d ↔
      d = recordContent (textRecord "mail.e." 1 ["192.0.2.1"]) [192, 0, 2, 1] ∨
        d = recordContent mailHere [0x20, 1, 0x0D, 0xB8, 0, 0, 0, 0, 0, 0, 0, 0, 0, 0, 0, 1] := by
  obtain ⟨img, himg⟩ := isSome_iff_exists.mp
    (show (zoneImageFreeze mailArena (some (ascii "e."))).isSome = true by decide +kernel)
  have hcontents : contentsAt mailArena.records (ascii "MAIL.e") =
      [some (recordContent (textRecord "mail.e." 1 ["192.0.2.1"]) [192, 0, 2, 1]),
        some (recordContent mailHere
          [0x20, 1, 0x0D, 0xB8, 0, 0, 0, 0, 0, 0, 0, 0, 0, 0, 0, 1])] := by decide +kernel
  refine ⟨img, himg, fun d => ?_⟩
  rw [image_content_iff himg, ← mem_contentsAt, hcontents]
  simp

end KariDns
