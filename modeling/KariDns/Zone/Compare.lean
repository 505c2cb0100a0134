import KariDns.Zone.Validate

/-! When two records are the same record (`compare_records`).

Records that look alike are equal; others are compared by their RDATA in canonical form
(RFC 4034 6.2): written in full, with the names in lower case for the types of RFC 4034.
-/

namespace KariDns

open Octets DomainName

/-! ### RDATA in canonical form -/

/-- `downcase_wire_name`: the octets with the name at their front in lower case, and the length of
the name, 0 for one that is broken. -/
def downcaseWireName : Nat → List UInt8 → List UInt8 × Nat
  | 0, bs => (bs, 0)
  | _, [] => ([], 0)
  | fuel + 1, l :: rest =>
    if l = 0 then (l :: rest, 1)
    else if l > 63 ∨ rest.length < l.toNat then (l :: rest, 0)
    else
      let r := downcaseWireName fuel (rest.drop l.toNat)
      (l :: ((rest.take l.toNat).map lower ++ r.1), if r.2 = 0 then 0 else 1 + l.toNat + r.2)

/-- The name behind `skip` octets in lower case, if there are octets there. -/
def downcaseAt (skip : Nat) (rd : List UInt8) : List UInt8 :=
  if rd.length > skip then rd.take skip ++ (downcaseWireName rd.length (rd.drop skip)).1 else rd

/-- Two names, one behind the other, behind `skip` octets. -/
def downcaseTwoAt (skip : Nat) (rd : List UInt8) : List UInt8 :=
  if rd.length > skip then
    let first := downcaseWireName rd.length (rd.drop skip)
    if first.2 > 0 then
      rd.take skip ++ first.1.take first.2 ++ (downcaseWireName rd.length (first.1.drop first.2)).1
    else rd.take skip ++ first.1
  else rd

/-- The offset behind `n` character-strings. -/
def behindStrings (rd : List UInt8) : Nat → Nat → Nat
  | 0, off => off
  | n + 1, off =>
    if off < rd.length then behindStrings rd n (off + 1 + (rd.getD off 0).toNat) else off

/-- `dns_canonical_downcase_rdata`. -/
def dnsCanonicalDowncaseRdata (type : Nat) (rd : List UInt8) : List UInt8 :=
  -- NS MD MF CNAME MB MG MR PTR, NXT, DNAME
  if type ∈ [2, 3, 4, 5, 7, 8, 9, 12, 30, 39] then downcaseAt 0 rd
  -- SOA, MINFO, RP
  else if type ∈ [6, 14, 17] then downcaseTwoAt 0 rd
  -- MX, AFSDB, RT, KX
  else if type ∈ [15, 18, 21, 36] then downcaseAt 2 rd
  -- PX
  else if type = 26 then downcaseTwoAt 2 rd
  -- SRV
  else if type = 33 then downcaseAt 6 rd
  -- SIG, RRSIG
  else if type = 24 ∨ type = 46 then downcaseAt 18 rd
  -- NAPTR
  else if type = 35 then downcaseAt (behindStrings rd 3 4) rd
  -- A6
  else if type = 38 then
    let plen := (rd.getD 0 0).toNat
    if rd.length > 0 ∧ plen > 0 ∧ plen ≤ 128 then downcaseAt (1 + (128 - plen + 7) / 8) rd else rd
  else rd

/-- `dns_record_canonical_rdata` into 65535 octets. -/
def dnsRecordCanonicalRdata (rec : DnsRecord) : Option (List UInt8) :=
  (captureRdata rec).map (dnsCanonicalDowncaseRdata rec.typeCode.toNat)

/-! ### Equal records -/

/-- `tags_equal_ci`. -/
def tagsEqualCi : Option Text → Option Text → Bool
  | none, none => true
  | some a, some b => strcaseeq a b
  | _, _ => false

/-- `dns_record_same_visibility`. -/
def dnsRecordSameVisibility (a b : DnsRecord) : Bool :=
  a.tinydnsLoc = b.tinydnsLoc ∧ a.tinydnsTtd = b.tinydnsTtd ∧
    a.tinydnsTtlCountdown = b.tinydnsTtlCountdown ∧
      tagsEqualCi a.bindLocationTag b.bindLocationTag ∧
    tagsEqualCi a.ecsSubnetTag b.ecsSubnetTag

/-- The same representation of the same value (`same_text`). -/
def sameText (a b : DnsRecord) : Bool := a.rdata = b.rdata ∧ a.generic.getD [] = b.generic.getD []

/-- Both can be written, and alike. -/
def sameCanonical (a b : DnsRecord) : Bool :=
  match dnsRecordCanonicalRdata a with
  | none => false
  | some ra => dnsRecordCanonicalRdata b = some ra

/-- `compare_records` of two records that have an owner. -/
def compareRecords (a b : DnsRecord) (ignoreTtl : Bool) : Bool :=
  a.typeCode = b.typeCode ∧ strcaseeq a.name b.name ∧ (ignoreTtl ∨ a.ttl = b.ttl) ∧
    dnsRecordSameVisibility a b ∧ (sameText a b ∨ sameCanonical a b)

end KariDns
