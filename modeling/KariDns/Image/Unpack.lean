import KariDns.Image.Tables

/-! The zone level tables read back from the image (`thaw_zattr`).

A cursor over the block gives numbers and strings and stops at anything that does not fit
into the block; a reader takes a value off the front of what is left.
-/

namespace Unpack

/-- A value and what is left behind it. -/
abbrev Reader (α : Type) := List UInt8 → Option (α × List UInt8)

/-- One reader after another. -/
def andThen {α β : Type} (r : Reader α) (f : α → Reader β) : Reader β := fun bs =>
  match r bs with
  | none => none
  | some (x, rest) => f x rest

/-- A value worked out from the one that was read. -/
def mapped {α β : Type} (r : Reader α) (f : α → β) : Reader β := fun bs =>
  (r bs).map fun (x, rest) => (f x, rest)

/-- `n` values, one behind the other. -/
def many {α : Type} (r : Reader α) : Nat → Reader (List α)
  | 0 => fun bs => some ([], bs)
  | n + 1 => andThen r fun x => mapped (many r n) (x :: ·)

end Unpack

namespace KariDns

open Octets DomainName Unpack

/-- `get_u32`. -/
def getU32Le : Reader Nat
  | a :: b :: c :: d :: rest =>
    some (a.toNat + 256 * b.toNat + 65536 * c.toNat + 16777216 * d.toNat, rest)
  | _ => none

/-- `get_str` in a block of `len` octets. -/
def getStr (len : Nat) : Reader (Option Text) :=
  andThen getU32Le fun n bs =>
    if n = 0xFFFFFFFF then some (none, bs)
    else if n ≥ len ∨ bs.length < n + 1 then none
    else some (some (bs.take n), bs.drop (n + 1))

/-- A number of things, at most as many as the block has octets. -/
def counted32 {α : Type} (len : Nat) (r : Reader α) : Reader (List α) :=
  andThen getU32Le fun n bs => if n > len then none else many r n bs

/-- The parsed form of a CIDR. -/
def getParsed : Reader { bs : List UInt8 // bs.length = cidrEntrySize } := fun bs =>
  if h : (bs.take cidrEntrySize).length = cidrEntrySize then
    some (⟨bs.take cidrEntrySize, h⟩, bs.drop cidrEntrySize)
  else none

def getCidr (len : Nat) : Reader CidrEntry :=
  andThen (getStr len) fun cidr => mapped getParsed fun p => ⟨cidr, p.1, p.2⟩

/-- `get_tags`. -/
def getTags (len : Nat) : Reader (List TagDef) :=
  counted32 len
    (andThen (getStr len) fun tag => mapped (counted32 len (getCidr len)) fun cidrs => ⟨tag, cidrs⟩)

/-- A `tinydns_location_entry_t`. -/
def getLocation : Reader LocationEntry
  | a :: b :: n1 :: n2 :: n3 :: n4 :: bits :: rest => some (⟨(a, b), (n1, n2, n3, n4), bits⟩, rest)
  | _ => none

def getLocations (len : Nat) : Reader (List LocationEntry) :=
  andThen getU32Le fun n bs => if n > len / 7 then none else many getLocation n bs

/-- The tables at the front of the block. -/
def getTables (len : Nat) : Reader ZoneTables :=
  andThen (getLocations len) fun locations =>
  andThen (getTags len) fun locationTags =>
  andThen (getTags len) fun ecsTags =>
  mapped (counted32 len (getStr len)) fun trustedResolvers =>
    ⟨locations, locationTags, ecsTags, trustedResolvers⟩

/-- `thaw_zattr`; what stands behind the strings of the trusted resolvers is worked out anew. -/
def thawZattr (zattr : List UInt8) : Option ZoneTables :=
  if zattr = [] then some {} else (getTables zattr.length zattr).map (·.1)

end KariDns
