import KariDns.Rdata.Special

/-! Resource records in memory.

`DnsRecord` is `dns_record_t`: the owner and RDATA as text, or the RDATA as octets
(`generic`), together with the attributes of tinydns data and of tagged zones. The cache
holds what `dns_record_preparse_cache` worked out ahead of time; names in wire form are kept
as their labels.
-/

namespace KariDns

open Octets DomainName

/-- The union `cache` of `dns_record_t`; `empty` is `is_cached == false`. -/
inductive RdataCache
  | empty
  | a (addr : List UInt8)
  | aaaa (addr : List UInt8)
  | name (wireName : Name)
  | txt (wireData : List UInt8)
  | soa (mname rname : Text) (wires : Option (Name × Name)) (numbers : List Nat)
  | mx (pref : Nat) (target : Text) (targetWire : Option Name)
  | rrsig (typeCovered algorithm labels origTtl sigExp sigInc keyTag : Nat) (signer : Text)
      (signature : Option (List UInt8))
  | srv (priority weight port : Nat) (target : Text) (targetWire : Option Name)
  deriving DecidableEq

/-- `dns_record_t`. A null `ttl` or `class_str` reads as the empty text, a null `generic_data`
is `none`. -/
structure DnsRecord where
  name : Text
  ttl : Text := []
  classStr : Text := []
  classVal : UInt16
  typeCode : UInt16
  ttlValue : UInt32 := 0
  rdata : List Text
  generic : Option (List UInt8) := none
  tinydnsTtd : Int := 0
  tinydnsTtlCountdown : Bool := false
  tinydnsLoc : UInt8 × UInt8 := (0, 0)
  ecsSubnetTag : Option Text := none
  bindLocationTag : Option Text := none
  nameWire : Option Name := none
  cache : RdataCache := .empty
  deriving DecidableEq

/-- `rec->rdata[i]`. -/
def DnsRecord.rd (rec : DnsRecord) (i : Nat) : Text := rec.rdata.getD i []

/-- The names a record keeps in wire form. -/
def RdataCache.names : RdataCache → List Name
  | .name n => [n]
  | .soa _ _ (some (m, r)) _ => [m, r]
  | .mx _ _ (some n) => [n]
  | .srv _ _ _ _ (some n) => [n]
  | _ => []

/-- An SOA has five numbers. -/
def RdataCache.NumbersOk : RdataCache → Prop
  | .soa _ _ _ numbers => numbers.length = 5
  | _ => True

/-- What is kept ready for writing has the shape its C type gives it: names in wire form are
names, an SOA has five numbers. -/
structure DnsRecord.WiresOk (rec : DnsRecord) : Prop where
  owner : ∀ n, rec.nameWire = some n → Valid n
  names : ∀ n ∈ rec.cache.names, Valid n
  numbers : rec.cache.NumbersOk

/-- `DNS_CLASS_KARIDNS_EXT`. -/
def classKaridnsExt : UInt16 := 65302

/-- The class a record is written with (`rec_class`). -/
def recClass (rec : DnsRecord) : Nat :=
  if rec.classVal = 0 then
    if strcaseeq rec.classStr (ascii "CH") then 3
    else if strcaseeq rec.classStr (ascii "NONE") then 254
    else if strcaseeq rec.classStr (ascii "ANY") then 255
    else 1
  else rec.classVal.toNat

/-- The TTL a record is written with when nothing overrides it (`rec_ttl`, RFC 8767 4). -/
def recTtl (rec : DnsRecord) : Nat :=
  let ttl := if rec.ttlValue = 0 ∧ rec.ttl ≠ [] then parseTtlValue rec.ttl else rec.ttlValue.toNat
  min ttl 0x7FFFFFFF

/-- An override replaces a greater TTL; 0xFFFFFFFF is no override. -/
def ttlWithOverride (ttl override : Nat) : Nat :=
  if override ≠ 0xFFFFFFFF ∧ override < ttl then override else ttl

end KariDns
