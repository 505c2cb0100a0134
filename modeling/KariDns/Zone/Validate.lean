import KariDns.Zone.Arena
import KariDns.Rdata.Layout

/-! Rules a zone must keep to be published (`validate_zone_pdns_types`).

RESINFO is a singleton type, ALIAS and LUA have RDATA of a fixed shape, and an ALIAS owner
has neither addresses nor a signed zone around it.
-/

namespace KariDns

open Octets DomainName

/-- The RDATA of a record with every name in full: what `serialize_dns_record` writes behind a
root owner, without a compression context. -/
def captureRdata (rec : DnsRecord) : Option (List UInt8) :=
  match serializeDnsRecord 65535 rec (some (ascii ".")) 0xFFFFFFFF ⟨fun _ => 0, 0, none⟩ with
  | (false, _) => none
  | (true, w) =>
    if w.offset < 11 ∨ w.buf 0 ≠ 0 then none
    else if 11 + getU16 w.buf 9 ≠ w.offset then none
    else some (slice w.buf 11 (getU16 w.buf 9))

/-- What `validate_zone_pdns_types` complains about. -/
inductive PdnsError
  | multipleResinfo (owner : Text)
  | malformed (isAlias : Bool) (owner : Text)
  | signedAlias (owner : Text)
  | aliasWithAddress (owner : Text)
  deriving DecidableEq

/-- The text of `detail`. -/
def PdnsError.message : PdnsError → Text
  | .multipleResinfo owner =>
    ascii "multiple RRs of singleton type: '" ++ owner.take 200 ++
      ascii "' has more than one RESINFO record (RFC 9606 section 3)"
  | .malformed isAlias owner =>
    ascii (if isAlias then "ALIAS" else "LUA") ++ ascii " record at '" ++ owner.take 200 ++
      ascii "' has malformed RDATA (" ++
      ascii (if isAlias then "one uncompressed domain name expected"
        else "a 16-bit type and <character-string>s expected") ++ ascii ")"
  | .signedAlias owner =>
    ascii "the zone has ALIAS records and DNSSEC records (first at '" ++ owner.take 200 ++
      ascii "'): an ALIAS answer cannot be signed offline"
  | .aliasWithAddress owner =>
    ascii "'" ++ owner.take 200 ++
      ascii "' has an ALIAS record and an A or AAAA record: the ALIAS stands for those RRsets"

def typeAlias : UInt16 := 65401

def typeLua : UInt16 := 65402

/-- `pdns_alias_rdata_ok`: one name in full and nothing behind it. -/
def pdnsAliasRdataOk (rd : List UInt8) : Bool :=
  match wireNameAt rd with
  | some (_, []) => true
  | _ => false

/-- Character-strings up to the end. -/
def charStrings : Nat → List UInt8 → Bool
  | _, [] => true
  | 0, _ :: _ => false
  | fuel + 1, l :: rest => rest.length ≥ l.toNat && charStrings fuel (rest.drop l.toNat)

/-- `pdns_lua_rdata_ok`. -/
def pdnsLuaRdataOk (rd : List UInt8) : Bool := rd.length ≥ 3 && charStrings rd.length (rd.drop 2)

/-- Class IN, written out or left open. -/
def DnsRecord.isIn (rec : DnsRecord) : Bool := rec.classVal = 1 ∨ rec.classVal = 0

/-- The owner of a slot as `%s` prints it. -/
def Slot.owner (s : Slot) : Text := if s.live then s.record.name else []

/-- `validate_zone_singletons`, on the hash chains of the index. -/
def validateZoneSingletons (hashSize : Nat) (records : List Slot) : Option PdnsError :=
  let live := liveRecords records
  live.findSome? fun (i, a) =>
    if a.typeCode ≠ 261 then none
    else
      live.findSome? fun (j, b) =>
        if (calcFnv1aStr b.name).toNat % hashSize ≠ (calcFnv1aStr a.name).toNat % hashSize ∨ j ≤ i ∨
            b.typeCode ≠ 261 ∨ b.classVal ≠ a.classVal ∨
              ¬ domainNamesMatchCi a.name b.name then none
        else
          match captureRdata a, captureRdata b with
          | some ra, some rb => if ra = rb then none else some (.multipleResinfo a.name)
          | _, _ => some (.multipleResinfo a.name)

/-- The RDATA of an ALIAS or LUA record is malformed. -/
def pdnsMalformed (rec : DnsRecord) : Bool :=
  match rec.generic with
  | none => true
  | some rd => if rec.typeCode = typeAlias then !pdnsAliasRdataOk rd else !pdnsLuaRdataOk rd

def isDnssecType (t : UInt16) : Bool := t = 46 ∨ t = 47 ∨ t = 48 ∨ t = 50 ∨ t = 51

/-- `validate_zone_pdns_types`: `none` is the return value 0. -/
def validateZonePdnsTypes (index : Option ZoneIndex) (records : List Slot) : Option PdnsError :=
  let singletons :=
    match index with
    | none => none
    | some ix => validateZoneSingletons ix.hashSize records
  let inClass := records.filter fun s => s.record.isIn
  let pdns := inClass.filter fun s => s.record.typeCode = typeAlias ∨ s.record.typeCode = typeLua
  let aliases := inClass.filter fun s => s.record.typeCode = typeAlias
  let signed := inClass.find? fun s => isDnssecType s.record.typeCode
  let addresses := inClass.filter fun s => s.live ∧ (s.record.typeCode = 1 ∨ s.record.typeCode = 28)
  match singletons, pdns.find? fun s => pdnsMalformed s.record, aliases, signed with
  | some e, _, _, _ => some e
  | none, some s, _, _ => some (.malformed (s.record.typeCode = typeAlias) s.owner)
  | none, none, [], _ => none
  | none, none, _ :: _, some s => some (.signedAlias s.owner)
  | none, none, _ :: _, none =>
    (addresses.find? fun s =>
      aliases.any fun a => a.live && domainNamesMatchCi a.record.name s.record.name).map
      fun s => .aliasWithAddress s.record.name

end KariDns
