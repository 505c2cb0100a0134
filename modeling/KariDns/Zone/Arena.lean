import KariDns.Name.Match
import KariDns.Wire.Preparse

/-! The builder of a zone (`zone_arena_t`) and its indexes (`build_zone_index`).

A deleted record keeps its slot and loses its owner; `Slot.live` tells the two apart.
`buildZoneIndex` works out the hash chains, the owners in canonical order, the NSEC
records in canonical order of their owners, the NSEC3 chains and the NSEC3 parameters that
denial proofs use.
-/

namespace KariDns

open Octets DomainName

/-! ### Zone level tables -/

/-- `tinydns_location_entry_t`. -/
structure LocationEntry where
  code : UInt8 × UInt8
  network : UInt8 × UInt8 × UInt8 × UInt8
  bits : UInt8
  deriving DecidableEq

/-- `sizeof (cidr_entry_t)`. -/
def cidrEntrySize : Nat := 44

/-- `ecs_cidr_entry_t`: the text and the octets of its parsed form. -/
structure CidrEntry where
  cidr : Option Text
  parsed : List UInt8
  parsed_length : parsed.length = cidrEntrySize

/-- `ecs_tag_def_t`. -/
structure TagDef where
  tag : Option Text
  cidrs : List CidrEntry

/-- The tables of a zone: tinydns locations, `$LOCATION-TAG` and `$ECS-SUBNET-TAG`
definitions and the trusted resolvers. -/
structure ZoneTables where
  locations : List LocationEntry := []
  locationTags : List TagDef := []
  ecsTags : List TagDef := []
  trustedResolvers : List (Option Text) := []

/-! ### NSEC3 chains -/

/-- `nsec3_index_entry_t`: the chain's parameters, the hash (first label of the owner) and the
place of the record. -/
structure Nsec3Entry where
  algorithm : Nat
  iterations : Nat
  salt : Text
  hash : Text
  next : Text
  place : Nat
  deriving DecidableEq

/-- `nsec3_chain_t`. -/
structure Nsec3Chain where
  algorithm : Nat
  iterations : Nat
  salt : Text
  entries : List Nsec3Entry
  deriving DecidableEq

/-- `nsec3_params_t`. -/
structure Nsec3Params where
  param : Nat
  chain : Option Nat
  algorithm : Nat
  iterations : Nat
  salt : List UInt8
  deriving DecidableEq

/-- `nsec3_rdata_params`. -/
def nsec3RdataParams (rec : DnsRecord) : Option (Nat × Nat × Text) :=
  if rec.rdata.length < 4 then none
  else do return (← parseU8 (rec.rd 0), ← parseU16 (rec.rd 2), rec.rd 3)

/-- Case-insensitive order of C strings (`strcasecmp`). -/
def strcasecmp (a b : Text) : Ordering := strcmp (a.map lower) (b.map lower)

/-- `cmp_nsec3_salt`. -/
def cmpNsec3Salt (a b : Text) : Ordering :=
  strcasecmp (if a = ascii "-" then [] else a) (if b = ascii "-" then [] else b)

/-- `cmp_nsec3_params`. -/
def cmpNsec3Params (a b : Nat × Nat × Text) : Ordering :=
  (compare a.1 b.1).then ((compare a.2.1 b.2.1).then (cmpNsec3Salt a.2.2 b.2.2))

def Nsec3Entry.params (e : Nsec3Entry) : Nat × Nat × Text := (e.algorithm, e.iterations, e.salt)

/-- `cmp_nsec3_entry`: by parameters, then in hash order. -/
def cmpNsec3Entry (x y : Nsec3Entry) : Ordering :=
  (cmpNsec3Params x.params y.params).then (strcasecmp x.hash y.hash)

/-- A digit of base32hex in either case. -/
def isBase32hexDigit (c : UInt8) : Bool := isDigit c || (65 ≤ upper c && upper c ≤ 86)

/-- `nsec3_index_entry_init` for the record at place `i`. -/
def nsec3IndexEntry (i : Nat) (rec : DnsRecord) : Option Nsec3Entry :=
  if rec.typeCode ≠ 50 ∨ rec.rdata.length < 5 then none
  else
    match nsec3RdataParams rec, splitAt 46 rec.name with
    | some (alg, it, salt), (hash, some rest) =>
      if hash = [] ∨ rest = [] ∨ hash.length > 63 ∨ ¬ hash.all isBase32hexDigit then none
      else some ⟨alg, it, salt, hash, rec.rd 4, i⟩
    | _, _ => none

/-- Entries in order, cut where the parameters change. -/
def groupChains : List Nsec3Entry → List Nsec3Chain
  | [] => []
  | e :: es =>
    match groupChains es with
    | [] => [⟨e.algorithm, e.iterations, e.salt, [e]⟩]
    | ch :: chains =>
      if cmpNsec3Params e.params (ch.algorithm, ch.iterations, ch.salt) = .eq then
        ⟨e.algorithm, e.iterations, e.salt, e :: ch.entries⟩ :: chains
      else ⟨e.algorithm, e.iterations, e.salt, [e]⟩ :: ch :: chains

/-- One element of `records[]`; a slot that is not live has a null `name`. -/
structure Slot where
  record : DnsRecord
  live : Bool := true

/-- The records of an arena with their places, deleted ones left out. -/
def liveRecords (records : List Slot) : List (Nat × DnsRecord) :=
  (records.zipIdx).filterMap fun (s, i) => if s.live then some (i, s.record) else none

/-- The order `qsort` leaves, by a comparison function. -/
def sortBy {α : Type} (cmp : α → α → Ordering) (l : List α) : List α :=
  l.insertionSort fun a b => cmp a b ≠ .gt

/-- `build_nsec3_index`. -/
def buildNsec3Index (records : List Slot) : List Nsec3Chain :=
  groupChains
    (sortBy cmpNsec3Entry ((liveRecords records).filterMap fun (i, rec) => nsec3IndexEntry i rec))

/-- `hex_to_bytes`: no octets for `-`, `none` for text that is not an even number of hex digits or
does not fit. -/
def hexToBytes (maxOut : Nat) (t : Text) : Option (List UInt8) :=
  if t = ascii "-" then some []
  else if t.length / 2 > maxOut then none
  else go t
where
  go : Text → Option (List UInt8)
    | [] => some []
    | [_] => none
    | a :: b :: rest => do
      return UInt8.ofNat ((← hexCharToVal a) * 16 + (← hexCharToVal b)) :: (← go rest)

/-- `zone_find_nsec3_chain`. -/
def zoneFindNsec3Chain (chains : List Nsec3Chain) (rec : DnsRecord) : Option Nat := do
  let params ← nsec3RdataParams rec
  chains.findIdx? fun ch => cmpNsec3Params (ch.algorithm, ch.iterations, ch.salt) params = .eq

/-- `nsec3_chain_complete`: every record names the hash behind its own, the last one the first. -/
def nsec3ChainComplete (ch : Nsec3Chain) : Bool :=
  ch.entries ≠ [] ∧
    (ch.entries.zip (ch.entries.tail ++ ch.entries.take 1)).all fun (e, following) =>
      strcaseeq e.next following.hash

/-- What an NSEC3PARAM at the apex offers, and how good it is: 3 with a complete chain, 2 with a
chain, 1 without. -/
def nsec3Candidate (chains : List Nsec3Chain) (i : Nat) (rec : DnsRecord) :
    Option (Nat × Nsec3Params) :=
  do
    let (alg, it, salt) ← nsec3RdataParams rec
    let flags ← parseU8 (rec.rd 1)
    if flags ≠ 0 ∨ alg ≠ 1 then none
    else
      let salt ← hexToBytes 255 salt
      let chain := zoneFindNsec3Chain chains rec
      let rank :=
        match chain.bind (chains[·]?) with
        | none => 1
        | some ch => if nsec3ChainComplete ch then 3 else 2
      return (rank, ⟨i, chain, alg, it, salt⟩)

/-- `select_nsec3_params`: the first candidate of the highest rank. -/
def selectNsec3Params (records : List Slot) (chains : List Nsec3Chain) : Option Nsec3Params :=
  match (liveRecords records).find? fun (_, rec) => rec.typeCode == 6 with
  | none => none
  | some (_, soa) =>
    let candidates := (liveRecords records).filterMap fun (i, rec) =>
      if rec.typeCode = 51 ∧ domainNamesMatchCi rec.name soa.name then nsec3Candidate chains i rec
      else none
    (candidates.foldl (fun best c => if c.1 > best.1 then (c.1, some c.2) else best) (0, none)).2

/-- Neighbours that compare equal are one owner; the first one stays. `last` is the one kept
before. -/
def dropRepeatsFrom (last : Text) : List Text → List Text
  | [] => []
  | t :: ts =>
    if compareCanonicalName t last = .eq then dropRepeatsFrom last ts else t :: dropRepeatsFrom t ts

def dropRepeats : List Text → List Text
  | [] => []
  | t :: ts => t :: dropRepeatsFrom t ts

/-- What `build_zone_index` leaves in the arena. -/
structure ZoneIndex where
  hashSize : Nat
  nsecRecords : List Nat
  nsec3Chains : List Nsec3Chain
  nsec3Active : Option Nsec3Params
  sortedUniqueNames : List Text

/-- `next_pow2`, doubling at most `fuel` times. -/
def nextPow2 (n : Nat) : Nat → Nat → Nat
  | 0, p => p
  | fuel + 1, p => if p < n then nextPow2 n fuel (p * 2) else p

/-- `build_zone_index` without the harmonising of TTLs. -/
def buildZoneIndex (records : List Slot) : ZoneIndex :=
  let live := liveRecords records
  let chains := buildNsec3Index records
  { hashSize := nextPow2 (records.length * 2) 64 8
    nsecRecords :=
      (sortBy (fun a b => compareCanonicalName a.2.name b.2.name)
        (live.filter fun (_, rec) => rec.typeCode == 47 && rec.rdata.length ≥ 1)).map (·.1)
    nsec3Chains := chains
    nsec3Active := selectNsec3Params records chains
    sortedUniqueNames :=
      dropRepeats (sortBy compareCanonicalName (live.map fun (_, rec) => rec.name)) }

/-! ### The arena -/

/-- `zone_arena_t`: the records, the index when there is one, and the tables of the zone. -/
structure ZoneArena where
  records : List Slot
  index : Option ZoneIndex
  isTinydns : Bool := false
  tables : ZoneTables := {}
  wires : ∀ s ∈ records, s.record.WiresOk

/-! ### Zones in text form -/

/-- A record as the parser of zone files leaves it. -/
def textRecord (name : String) (type : UInt16) (rdata : List String) : DnsRecord :=
  { name := ascii name, classVal := 1, typeCode := type, ttlValue := 3600,
    rdata := rdata.map ascii }

lemma textRecord_wiresOk (name : String) (type : UInt16) (rdata : List String) :
    (textRecord name type rdata).WiresOk :=
  ⟨by simp [textRecord], by simp [textRecord, RdataCache.names], trivial⟩

/-- An arena with these records, indexed. -/
def textArena (recs : List (String × UInt16 × List String)) : ZoneArena :=
  let records := recs.map fun r => (⟨textRecord r.1 r.2.1 r.2.2, true⟩ : Slot)
  { records
    index := some (buildZoneIndex records)
    wires := by
      intro s hs
      obtain ⟨r, -, rfl⟩ := List.mem_map.mp hs
      exact textRecord_wiresOk _ _ _ }

end KariDns
