import KariDns.Image.Freeze
import KariDns.Wire.Parse

/-! What the query engine reads of a zone image.

Which records a client sees, the owner of a name, the owner before a name in canonical
order, whether a name exists, the closest encloser, and the NSEC and NSEC3 records that
cover or match a name.
-/

namespace KariDns

open Octets DomainName

/-! ### What a client sees -/

/-- `zone_image_view_t`. -/
structure ClientView where
  loc : UInt8 × UInt8 := (0, 0)
  locTag : Option Text := none
  ecsTag : Option Text := none
  now : Int := 0

variable (rr : ImageRr) (img : ZoneImage) (v : ClientView)

/-- The view of the Authority and Additional sections, which leave ECS aside (RFC 7871 7.4). -/
def ClientView.withoutEcs : ClientView := { v with ecsTag := none }

/-- A record with tag `tag` is not for a client with tag `client`. -/
def tagHides (tag client : Option Text) : Bool :=
  match tag, client with
  | none, _ => false
  | some _, none => true
  | some t, some c => !strcaseeq t c

/-- `zone_image_rr_valid`: the TTL a record is served with, if the client sees it. -/
def rrValid (rr : ImageRr) : Option Nat :=
  match rr.ext with
  | none => some rr.ttl
  | some e =>
    if e.loc ≠ (0, 0) ∧ e.loc ≠ v.loc then none
    else if tagHides e.ecsTag v.ecsTag then none
    else if tagHides e.locTag v.locTag then none
    else if e.ttd = 0 then some rr.ttl
    else if ¬ e.countdown then if e.ttd ≥ v.now then none else some rr.ttl
    else if e.ttd < v.now then none
    else some (min (max (e.ttd - v.now) 2) 3600).toNat

/-- `ext_restricts`. -/
def ImageRr.restricted : Bool :=
  rr.ext.any fun e => e.loc ≠ (0, 0) ∨ e.ecsTag.isSome ∨ e.locTag.isSome ∨ e.ttd ≠ 0

/-! ### Fields of a record -/

/-- RDATA as a buffer. -/
def ImageRr.buf : Buf := blit (fun _ => 0) 0 rr.rdata

/-- `zone_image_rrsig_covered`. -/
def rrsigCovered : Option Nat :=
  if (rr.type = 46 ∨ rr.type = 24) ∧ rr.rdata.length ≥ 18 then some (getU16 rr.buf 0) else none

/-- `is_nsec3_chain_rr`. -/
def isNsec3ChainRr : Bool := rr.type = 50 ∨ (rr.type = 46 ∧ rrsigCovered rr = some 50)

/-- `rr_not_served`: records of the NSEC3 chain, and LUA records. -/
def rrNotServed : Bool := (rr.type = typeLua ∧ rr.classVal = 1) ∨ isNsec3ChainRr rr

/-- `zone_image_rr_target`: the first name of the RDATA. -/
def rrTarget : Option Text :=
  match dnsRdataNameLayout rr.type.toNat with
  | none => none
  | some lay =>
    if lay.skip ≥ rr.rdata.length then none
    else (expandWireNameToBuffer rr.buf rr.rdata.length lay.skip dnsNameTextSize).map (·.1)

/-- `rr_target_text`: raw records have no fields. -/
def rrTargetText : Option Text := if rr.raw then none else rrTarget rr

/-- `zone_image_soa_minimum`. -/
def soaMinimum : Option Nat :=
  if rr.type ≠ 6 ∨ rr.rdata.length < 22 then none else some (getU32 rr.buf (rr.rdata.length - 4))

/-- The next hashed owner of an NSEC3 record (`zone_image_nsec3`). -/
def nsec3Next : Option (List UInt8) :=
  if rr.type ≠ 50 ∨ rr.rdata.length < 5 then none
  else
    let p := 5 + (rr.buf 4).toNat
    let n := (rr.buf p).toNat
    if p ≥ rr.rdata.length ∨ n = 0 ∨ p + 1 + n > rr.rdata.length then none
    else some (slice rr.buf (p + 1) n)

/-! ### Owners -/

/-- `zone_image_find_name`. -/
def ZoneImage.findName (t : Text) : Option Nat :=
  (ProbeTable.find img.hashSize
    (ProbeTable.build img.hashSize (fun v => v.1.hash.toNat) img.names.zipIdx)
    (dnsNameHashCi t).toNat fun v => v.1.hash = dnsNameHashCi t ∧
      domainNamesMatchCi v.1.text t).map (·.2)

/-- The records of an owner with their numbers, in file order. -/
def ZoneImage.ownRrs (id : Nat) : List (ImageRr × Nat) :=
  match img.names[id]? with
  | none => []
  | some nm => (rrRange img.rrs nm.firstRr nm.count).zipIdx nm.firstRr

/-- The records of the owner of a name, none without such an owner. -/
def ZoneImage.rrsAt (id : Option Nat) : List (ImageRr × Nat) :=
  match id with
  | none => []
  | some id => img.ownRrs id

/-- The records at a name. -/
abbrev ZoneImage.atName (t : Text) : List (ImageRr × Nat) := img.rrsAt (img.findName t)

/-- `zone_image_rrset_next` from the first record on. -/
def ZoneImage.firstOf (id : Nat) (type : UInt16) : Option Nat :=
  ((img.ownRrs id).find? fun v => v.1.type = type).map (·.2)

/-- The text of an owner. -/
def ZoneImage.nameText (id : Nat) : Text := ((img.names[id]?).map (·.text)).getD []

/-- The text of the owner of a record. -/
def ZoneImage.rrOwner (rr : Nat) : Text :=
  ((img.rrs[rr]?).map fun r => img.nameText r.nameId).getD []

/-- `ZONE_IMAGE_F_SOA_ATTR`: some SOA of the apex is restricted. -/
def ZoneImage.soaAttr : Bool :=
  (img.rrsAt img.apexName).any fun v => v.1.type = 6 ∧ v.1.restricted

/-- `zone_image_visible_soa`. -/
def ZoneImage.visibleSoa : Option Nat :=
  ((img.rrsAt img.apexName).find? fun r => r.1.type = 6 ∧ (rrValid v r.1).isSome).map (·.2)

/-! ### Searching by halves -/

/-- One half of the range at a time; `best` is the last number met that has the property. -/
def floorLoop (le : Nat → Bool) : Nat → Nat → Nat → Option Nat → Option Nat
  | 0, _, _, best => best
  | fuel + 1, lo, hi, best =>
    if lo < hi then
      let mid := lo + (hi - lo) / 2
      if le mid then floorLoop le fuel (mid + 1) hi (some mid) else floorLoop le fuel lo mid best
    else best

/-- The last number below `n` that has the property. -/
def floorSearch (le : Nat → Bool) (n : Nat) : Option Nat := floorLoop le n 0 n none

def lowerLoop (lt : Nat → Bool) : Nat → Nat → Nat → Nat
  | 0, lo, _ => lo
  | fuel + 1, lo, hi =>
    if lo < hi then
      let mid := lo + (hi - lo) / 2
      if lt mid then lowerLoop lt fuel (mid + 1) hi else lowerLoop lt fuel lo mid
    else lo

/-- The first number that does not have the property, `n` if all below it have it. -/
def lowerBound (lt : Nat → Bool) (n : Nat) : Nat := lowerLoop lt n 0 n

/-- The owner at a place of the canonical order. -/
def ZoneImage.canonText (pos : Nat) : Text :=
  ((img.canon[pos]?).map img.nameText).getD []

/-- `zone_image_canon_floor`. -/
def ZoneImage.canonFloor (name : Text) : Option Nat :=
  floorSearch (fun i => compareCanonicalName (img.canonText i) name ≠ .gt) img.canon.length

/-- `name_exists_in_zone`: an owner with a record the client sees, or a name with an owner below
it. -/
def nameExistsInZone (name : Text) : Bool :=
  if img.names = [] then false
  else if (img.rrsAt (img.findName name)).any fun r =>
    !rrNotServed r.1 && (rrValid v r.1).isSome then true
  else
    let pos := match img.canonFloor name with
      | none => 0
      | some p => p + 1
    if pos ≥ img.canon.length then false
    else domainNameIsAtOrBelow (img.canonText pos) name &&
      !domainNamesMatchCi (img.canonText pos) name

/-- The walk of `find_closest_encloser`. -/
def closestEncloserFrom (img : ZoneImage) (v : ClientView) (apex : Text) : List Text → Text
  | [] => apex
  | parent :: rest =>
    if domainNamesMatchCi parent apex then apex
    else if !domainNameIsAtOrBelow parent apex then apex
    else if nameExistsInZone img v parent then parent
    else closestEncloserFrom img v apex rest

/-- `find_closest_encloser`. -/
def findClosestEncloser (qname apex : Text) : Text :=
  if img.names = [] then apex else closestEncloserFrom img v apex (ancestors qname)

/-- The walk of `find_next_closer_name`. -/
def nextCloserFrom (encloser : Text) : Nat → Text → Option Text
  | 0, _ => none
  | fuel + 1, start =>
    match afterDot start with
    | none => none
    | some rest =>
      if domainNamesMatchCi rest encloser then some start
      else if rest = [] then none
      else nextCloserFrom encloser fuel rest

/-- `find_next_closer_name`: one label more than the encloser, without a final dot. -/
def findNextCloserName (qname encloser : Text) : Option Text :=
  if !domainNameIsAtOrBelow qname encloser || domainNamesMatchCi qname encloser then none
  else
    match nextCloserFrom encloser (qname.length + 1) qname with
    | none => none
    | some start =>
      if dnsNameLenNoRoot start + 1 ≥ dnsNameTextSize then none
      else some (start.take (dnsNameLenNoRoot start))

/-! ### NSEC -/

/-- `nsec_covers_name`. -/
def nsecCoversName (k : Nat) (name : Text) : Bool :=
  match img.rrs[k]? with
  | none => false
  | some rr =>
    if rr.type ≠ 47 then false
    else
      match rrTarget rr with
      | none => false
      | some next =>
        let owner := img.rrOwner k
        let fromOwner := compareCanonicalName owner name ≠ .gt
        let beforeNext := compareCanonicalName name next = .lt
        if compareCanonicalName owner next = .lt then fromOwner && beforeNext
        else fromOwner || beforeNext

/-- `zone_image_nsec_floor`. -/
def ZoneImage.nsecFloor (name : Text) : Option Nat :=
  floorSearch
    (fun i => compareCanonicalName (((img.nsec[i]?).map img.rrOwner).getD []) name ≠ .gt)
      img.nsec.length

/-- `find_covering_nsec`. -/
def findCoveringNsec (name : Text) : Option Nat :=
  if img.nsec = [] then none
  else (img.nsec[(img.nsecFloor name).getD (img.nsec.length - 1)]?).filter fun k =>
    nsecCoversName img k name

/-! ### NSEC3 -/

/-- The rounds of `compute_nsec3_hash` behind the first. -/
def nsec3Rounds (sha1 : List UInt8 → List UInt8) (salt : List UInt8) : Nat → List UInt8 → List UInt8
  | 0, digest => digest
  | n + 1, digest => nsec3Rounds sha1 salt n (sha1 (digest ++ salt))

/-- `compute_nsec3_hash`: of the wire form in lower case. -/
def computeNsec3Hash (sha1 : List UInt8 → List UInt8) (p : ImageN3Params)
    (name : Text) : Option Text :=
  if p.algorithm ≠ 1 then none
  else (readName name).map fun n =>
    base32hexEncode 0 0 (nsec3Rounds sha1 p.salt p.iterations (sha1 (wire (fold n) ++ p.salt)))

/-- `zone_nsec3`: the parameters of the zone's proofs, if they are those of its apex. -/
def zoneNsec3 (apex : Text) : Option ImageN3Params :=
  img.n3.filter fun p => domainNamesMatchCi (img.rrOwner p.paramRr) apex

/-- `nsec3_covers_hash`. -/
def nsec3CoversHash (owner next target : Text) : Bool :=
  match strcasecmp owner next with
  | .lt => strcasecmp owner target = .lt && strcasecmp target next = .lt
  | .gt => strcasecmp owner target = .lt || strcasecmp target next = .lt
  | .eq => strcasecmp owner target ≠ .eq

/-- The entries of a chain, none without one. -/
def ZoneImage.n3Entries (p : ImageN3Params) : List Nat :=
  ((p.chain.bind fun c => img.n3chains[c]?).map (·.entries)).getD []

/-- `zone_image_n3chain_hash`: the first label of the owner, up to a dot. -/
def ZoneImage.n3Hash (k : Nat) : Text := (splitAt 46 (img.rrOwner k)).1

/-- `zone_image_n3chain_lower_bound`. -/
def ZoneImage.n3LowerBound (entries : List Nat) (hash : Text) : Nat :=
  lowerBound
    (fun i => strcasecmp (((entries[i]?).map img.n3Hash).getD []) hash = .lt) entries.length

/-- `find_matching_nsec3`. -/
def findMatchingNsec3 (p : ImageN3Params) (hash apex : Text) : Option Nat :=
  let entries := img.n3Entries p
  ((entries.drop (img.n3LowerBound entries hash)).takeWhile fun k =>
    strcaseeq (img.n3Hash k) hash).find?
    fun k => domainNamesMatchCi ((splitAt 46 (img.rrOwner k)).2.getD []) apex

/-- `find_covering_nsec3`. -/
def findCoveringNsec3 (p : ImageN3Params) (hash : Text) : Option Nat :=
  let entries := img.n3Entries p
  if entries = [] then none
  else
    let i := img.n3LowerBound entries hash
    match entries[if i > 0 then i - 1 else entries.length - 1]? with
    | none => none
    | some k =>
      if (img.n3Hash k).length ≥ 64 then none
      else
        match (img.rrs[k]?).bind nsec3Next with
        | none => none
        | some next =>
          if nsec3CoversHash (img.n3Hash k) (base32hexEncode 0 0 next) hash then some k else none

end KariDns
