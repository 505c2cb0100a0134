import KariDns.Zone.Arena

/-! The zone level tables in the image (`build_zattr`).

Locations, tag definitions and trusted resolvers are packed one behind the other into one
block of octets, which is empty for a zone that has none of them.
-/

namespace KariDns

open Octets DomainName

/-- A 32-bit number as the machine stores it, least significant octet first. -/
def le32 (n : Nat) : List UInt8 :=
  [UInt8.ofNat n, UInt8.ofNat (n / 256), UInt8.ofNat (n / 65536), UInt8.ofNat (n / 16777216)]

/-- `put_str`: the length (0xFFFFFFFF for a null pointer), the octets and a NUL. -/
def putStr : Option Text → List UInt8
  | none => le32 0xFFFFFFFF
  | some s => le32 s.length ++ s ++ [0]

/-- `put_tags`. -/
def putTags (tags : List TagDef) : List UInt8 :=
  le32 tags.length ++ tags.flatMap fun t =>
    putStr t.tag ++ le32 t.cidrs.length ++ t.cidrs.flatMap fun c => putStr c.cidr ++ c.parsed

def LocationEntry.octets (e : LocationEntry) : List UInt8 :=
  [e.code.1, e.code.2, e.network.1, e.network.2.1, e.network.2.2.1, e.network.2.2.2, e.bits]

/-- `zattr_any`. -/
def ZoneTables.any (t : ZoneTables) : Bool :=
  t.locations ≠ [] ∨ t.locationTags ≠ [] ∨ t.ecsTags ≠ [] ∨ t.trustedResolvers ≠ []

/-- `compute_mask`. -/
def computeMask (plen total : Nat) : List UInt8 :=
  (List.range total).map fun i =>
    if plen ≥ i * 8 + 8 then 0xFF
    else if plen > i * 8 then UInt8.ofNat (0xFF <<< (8 - (plen - i * 8)))
    else 0

/-- The octets of a `cidr_entry_t`. -/
def cidrOctets (valid any : Bool) (family plen : Nat) (addr mask : List UInt8) : List UInt8 :=
  [if valid then 1 else 0, if any then 1 else 0, 0, 0] ++ le32 family ++ [UInt8.ofNat plen] ++
    (addr ++ List.replicate 16 0).take 16 ++ (mask ++ List.replicate 16 0).take 16 ++ [0, 0, 0]

/-- `cidr_entry_parse`: an entry that cannot be parsed stays all zero. -/
def cidrEntryParse (s : Text) : List UInt8 :=
  let bad := cidrOctets false false 0 0 [] []
  if s = [] then bad
  else if s = ascii "any" ∨ s = ascii "any;" then cidrOctets true true 0 0 [] []
  else
    let (addr, tail) := splitAt 47 (s.take 255)
    let plen : Option (Option Nat) :=
      match tail with
      | none => some none
      | some t =>
        match scanNumber t, strtol t with
        | some _, (v, []) => if v < 0 ∨ v > 128 then none else some (some v.toNat)
        | _, _ => none
    match plen, inetPton4 addr, inetPton6 addr with
    | some p, some a, _ => if p.getD 32 > 32 then bad
      else cidrOctets true false 2 (p.getD 32) a (computeMask (p.getD 32) 4)
    | some p, none, some a => cidrOctets true false 10 (p.getD 128) a (computeMask (p.getD 128) 16)
    | _, _, _ => bad

/-- `acl_list_parse`: one `acl_entry_t` for each rule, all zero for a null pointer. -/
def aclEntry : Option Text → List UInt8
  | none => List.replicate 48 0
  | some rule =>
    if rule.head? = some 33 then cidrEntryParse rule.tail ++ [1, 0, 0, 0]
    else cidrEntryParse rule ++ [0, 0, 0, 0]

/-- Zeros up to the next multiple of eight. -/
def padding (len : Nat) : List UInt8 := List.replicate ((8 - len % 8) % 8) 0

/-- `build_zattr`. -/
def buildZattr (t : ZoneTables) : List UInt8 :=
  if t.any then
    let front :=
      le32 t.locations.length ++ t.locations.flatMap LocationEntry.octets ++
        putTags t.locationTags ++
        putTags t.ecsTags ++ le32 t.trustedResolvers.length ++ t.trustedResolvers.flatMap putStr ++
        le32 t.trustedResolvers.length
    if t.trustedResolvers = [] then front
    else front ++ padding front.length ++ t.trustedResolvers.flatMap aclEntry
  else []

end KariDns
