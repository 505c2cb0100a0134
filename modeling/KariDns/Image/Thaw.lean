import KariDns.Image.Unpack
import KariDns.Packet.Readback

/-! The image turned back into a builder (`zone_image_thaw`).

Every record is put into the form of a message and read as a record of a transfer is; a
record that was given as octets keeps them, and so does one whose text does not write the
octets it came from. Records come back in file order.
-/

namespace KariDns

open Octets DomainName List Option

variable {rec : DnsRecord} {alloc : Nat → Bool}

/-- The record of the image as it would stand in a message, the root for an owner without a wire
form. -/
def thawPacket (owner : Option Name) (rr : ImageRr) : List UInt8 :=
  recordWire (wire (owner.getD [])) rr.type.toNat rr.classVal rr.ttl rr.rdata

/-- A record whose RDATA is kept as octets. -/
def rawRecord (text : Text) (rr : ImageRr) : DnsRecord :=
  { name := text
    ttl := decimal rr.ttl
    classStr := parsedClassStr rr.classVal
    classVal := UInt16.ofNat rr.classVal
    typeCode := rr.type
    ttlValue := UInt32.ofNat rr.ttl
    rdata := []
    generic := some rr.rdata }

/-- The owner as it was spelled. -/
def DnsRecord.spelled (alloc : Nat → Bool) (text : Text) (rec : DnsRecord) : DnsRecord :=
  if rec.name = text then rec else preparseCache alloc { rec with name := text }

/-- A record that is raw in the image stays raw. -/
def DnsRecord.keptRaw (raw : Bool) (rec : DnsRecord) : DnsRecord :=
  if raw = true ∧ rec.generic = none then { rec with generic := some [] } else rec

/-- The extras of the image. -/
def DnsRecord.withExt (rec : DnsRecord) : Option ImageExt → DnsRecord
  | none => rec
  | some e =>
    { rec with
      tinydnsTtd := e.ttd
      tinydnsTtlCountdown := e.countdown
      tinydnsLoc := e.loc
      ecsSubnetTag := e.ecsTag
      bindLocationTag := e.locTag }

/-- The record writes the RDATA. -/
def servesRdata (rec : DnsRecord) (rdata : List UInt8) : Bool :=
  match serializeDnsRecord 65535 rec (some (ascii ".")) 0xFFFFFFFF ⟨fun _ => 0, 0, none⟩ with
  | (false, _) => false
  | (true, w) => w.offset = 11 + rdata.length ∧ slice w.buf 11 rdata.length = rdata

/-- The owner of a record of the image: its own spelling, else that of its name. -/
def ImageRr.owner (nm : ImageName) (rr : ImageRr) : Text × Option Name :=
  (rr.ext.bind (·.alt)).getD (nm.text, nm.wire)

/-- The type's names are compressed. -/
def ImageRr.compressed (rr : ImageRr) : Bool := (dnsRdataNameLayout rr.type.toNat).any (·.compress)

/-- The record as it is read, before its owner and its extras are set. -/
def thawDecoded (alloc : Nat → Bool) (owner : Text × Option Name) (rr : ImageRr) :
    Option DnsRecord :=
  let pkt := thawPacket owner.2 rr
  let decoded :=
    if rr.raw ∧ rr.compressed then none
    else (parseResourceRecord alloc (blit (fun _ => 0) 0 pkt) pkt.length 0).map (·.1)
  match decoded with
  | some rec => some rec
  | none => if rr.raw then some (rawRecord owner.1 rr) else none

/-- `thaw_one`; the first three allocations are those of the reader's cache. -/
def thawOne (alloc : Nat → Bool) (nm : ImageName) (rr : ImageRr) : Option DnsRecord :=
  let owner := rr.owner nm
  match thawDecoded alloc owner rr with
  | none => none
  | some read =>
    let thawed := ((read.spelled (fun i => alloc (i + 3)) owner.1).keptRaw rr.raw).withExt rr.ext
    if servesRdata thawed rr.rdata then some thawed
    else if rr.compressed then none
    else some { thawed with generic := some rr.rdata }

/-- `zone_image_seq_rr`. -/
def ZoneImage.seqRr (img : ZoneImage) (seq : Nat) : Option Nat :=
  match img.perm with
  | none => some seq
  | some perm => perm[seq]?

/-- The records in file order; `alloc k` tells about the allocations for record `k`. -/
def thawRecords (alloc : Nat → Nat → Bool) (img : ZoneImage) : Option (List DnsRecord) :=
  (List.range img.rrs.length).mapM fun seq => do
    let k ← img.seqRr seq
    let rr ← img.rrs[k]?
    let nm ← img.names[rr.nameId]?
    thawOne (alloc k) nm rr

/-! ### Captures -/

lemma DnsRecord.Truthful.wiresOk (h : rec.Truthful) : rec.WiresOk := by
  obtain ⟨howner, hcache⟩ := h
  refine ⟨fun n hn => readName_valid (howner n hn), ?_, ?_⟩
  · intro n hn
    unfold CacheOk at hcache
    cases hc : rec.cache with
    | name k =>
      rw [hc] at hcache hn
      obtain rfl : n = k := by simpa [RdataCache.names] using hn
      exact readName_valid hcache.2
    | soa m r wires numbers =>
      rw [hc] at hcache hn
      cases wires with
      | none => cases hn
      | some p =>
        obtain ⟨hm, hr⟩ := hcache.2.2.2 p.1 p.2 rfl
        rcases mem_cons.mp hn with rfl | hn
        · exact readName_valid hm
        · obtain rfl := mem_singleton.mp hn
          exact readName_valid hr
    | mx pref target w =>
      rw [hc] at hcache hn
      cases w with
      | none => cases hn
      | some k =>
        obtain rfl := mem_singleton.mp hn
        exact readName_valid (hcache.2.2 _ rfl)
    | srv p w q target k =>
      rw [hc] at hcache hn
      cases k with
      | none => cases hn
      | some k =>
        obtain rfl := mem_singleton.mp hn
        exact readName_valid (hcache.2.2.2.2 _ rfl)
    | _ =>
      rw [hc] at hn
      cases hn
  · unfold CacheOk at hcache
    cases hc : rec.cache with
    | soa m r wires numbers =>
      rw [hc] at hcache
      rw [RdataCache.NumbersOk, hcache.2.2.1]
      rfl
    | _ => trivial

/-- A cache that tells the truth does not change the capture. -/
lemma capture_uncached (h : rec.Truthful) : captureRdata rec = captureRdata rec.uncached := by
  obtain ⟨hok, hoff, -, -, hbuf⟩ :=
    serialize_uncached 65535 (some (ascii ".")) 0xFFFFFFFF ⟨fun _ => 0, 0, none⟩ h
  rw [captureRdata, captureRdata]
  generalize serializeDnsRecord 65535 rec (some (ascii ".")) 0xFFFFFFFF ⟨fun _ => 0, 0, none⟩ =
    r at hok hoff hbuf ⊢
  generalize serializeDnsRecord 65535 rec.uncached (some (ascii ".")) 0xFFFFFFFF
    ⟨fun _ => 0, 0, none⟩ = r' at hok hoff hbuf ⊢
  obtain ⟨_ | _, w⟩ := r <;> obtain ⟨_ | _, w'⟩ := r' <;> cases hok
  · rfl
  · dsimp only at hoff ⊢
    rw [hoff, hbuf rfl]

/-! ### One record -/

/-- A record as a reader leaves it: no extras, and no cache without text. -/
structure Fresh (rec : DnsRecord) : Prop where
  free : rec.restricted = false
  bare : rec.rdata.length = 0 → rec.uncached = rec

lemma fresh_preparse (alloc : Nat → Bool) (hfree : rec.restricted = false)
    (hplain : rec.uncached = rec) :
    Fresh (preparseCache alloc rec) := by
  refine ⟨?_, ?_⟩
  · rw [preparse_keeps DnsRecord.restricted fun _ _ _ => rfl, hfree]
  intro hlen
  rw [preparse_keeps DnsRecord.rdata fun _ _ _ => rfl] at hlen
  have hkeep : preparseCache alloc rec = rec := if_pos hlen
  rw [hkeep, hplain]

/-- The cache is worked out anew for another spelling of the owner. -/
lemma Fresh.spelled (hfresh : Fresh rec) (htruth : rec.Truthful) (alloc : Nat → Bool)
    (text : Text) :
    (rec.spelled alloc text).Truthful := by
  unfold DnsRecord.spelled
  split
  · exact htruth
  generalize hr : ({ rec with name := text } : DnsRecord) = r
  have hkey : preparseCache alloc r = preparseCache alloc r.uncached := by
    by_cases hlen : r.rdata.length = 0
    · have hbare : r.uncached = r := by
        subst hr
        have hbare := hfresh.bare hlen
        rw [DnsRecord.uncached, DnsRecord.mk.injEq] at hbare ⊢
        exact ⟨rfl, hbare.2⟩
      rw [hbare]
    · rw [preparseCache, if_neg hlen, preparseCache, if_neg (by exact hlen)]
      rfl
  rw [hkey]
  exact truthful_preparse alloc r

/-! ### The arena -/

/-- Whatever was read has caches that tell the truth. -/
lemma parse_truthful {m : Buf} {len off next : Nat}
    (h : parseResourceRecord alloc m len off = some (rec, next)) :
    rec.Truthful ∧ Fresh rec := by
  obtain ⟨owner, p, prd, -, -, -, rfl⟩ := parse_form h
  exact ⟨truthful_preparse alloc (parsedRecord m owner p prd), fresh_preparse alloc rfl rfl⟩

lemma thawOne_truthful {nm : ImageName} {rr : ImageRr} (h : thawOne alloc nm rr = some rec) :
    rec.Truthful := by
  unfold thawOne at h
  dsimp only at h
  split at h
  · cases h
  rename_i read hread
  have hfresh : read.Truthful ∧ Fresh read := by
    unfold thawDecoded at hread
    dsimp only at hread
    split at hread
    · rename_i r hr
      obtain rfl := some.inj hread
      split at hr
      · cases hr
      · obtain ⟨⟨r, next⟩, hparse, rfl⟩ := map_eq_some_iff.mp hr
        exact parse_truthful hparse
    split at hread
    · obtain rfl := some.inj hread
      exact ⟨truthful_uncached (rawRecord (rr.owner nm).1 rr), rfl, fun _ => rfl⟩
    · cases hread
  have hspelled := hfresh.2.spelled hfresh.1 (fun i => alloc (i + 3)) (rr.owner nm).1
  -- neither octets nor extras touch what the caches speak of
  have hkept :
      ((read.spelled (fun i => alloc (i + 3)) (rr.owner nm).1).keptRaw rr.raw).Truthful := by
    unfold DnsRecord.keptRaw
    split
    · exact ⟨hspelled.1, hspelled.2⟩
    · exact hspelled
  generalize (read.spelled (fun i => alloc (i + 3)) (rr.owner nm).1).keptRaw
    rr.raw = kept at hkept h
  have hext : (kept.withExt rr.ext).Truthful := by
    cases rr.ext with
    | none => exact hkept
    | some e => exact ⟨hkept.1, hkept.2⟩
  generalize kept.withExt rr.ext = thawed at hext h
  split at h
  · obtain rfl := some.inj h
    exact hext
  split at h
  · cases h
  · obtain rfl := some.inj h
    exact ⟨hext.1, hext.2⟩

lemma thawRecords_truthful {alloc : Nat → Nat → Bool} {img : ZoneImage} {recs : List DnsRecord}
    (h : thawRecords alloc img = some recs) : ∀ rec ∈ recs, rec.Truthful := by
  intro rec hrec
  obtain ⟨k, -, hone⟩ := mapM_mem h hrec
  obtain ⟨_, -, hone⟩ := bind_eq_some_iff.mp hone
  obtain ⟨_, -, hone⟩ := bind_eq_some_iff.mp hone
  obtain ⟨_, -, hone⟩ := bind_eq_some_iff.mp hone
  exact thawOne_truthful hone

/-- The arena with the records `recs`, indexed. -/
def thawedArena (img : ZoneImage) (recs : List DnsRecord) (tables : ZoneTables)
    (h : ∀ rec ∈ recs, rec.Truthful) : ZoneArena :=
  { records := recs.map (⟨·, true⟩)
    index := some (buildZoneIndex (recs.map (⟨·, true⟩)))
    isTinydns := img.isTinydns
    tables := tables
    wires := by
      intro s hs
      obtain ⟨rec, hrec, rfl⟩ := List.mem_map.mp hs
      exact (h rec hrec).wiresOk }

/-- `zone_image_thaw` into an empty arena. -/
def zoneImageThaw (alloc : Nat → Nat → Bool) (img : ZoneImage) : Option ZoneArena :=
  match h : thawRecords alloc img with
  | none => none
  | some recs =>
    (thawZattr img.zattr).map fun tables => thawedArena img recs tables (thawRecords_truthful h)

end KariDns
