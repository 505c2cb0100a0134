import KariDns.Wire.Parse
import KariDns.Zone.Ttl

/-! Dynamic updates (`process_update_sections_policy`).

An UPDATE names its zone, states prerequisites and lists changes (RFC 2136). The prerequisites
are read against the builder, then all changes are checked, and only then are they made, one
behind the other, in the hash chained array of records. A deleted record keeps its slot until
the end. An UPDATE that fails at any point is given up as a whole.
-/

namespace KariDns

open Octets DomainName ChainTable

/-- The RCODEs an UPDATE is answered with. -/
inductive Rcode
  | noerror | formerr | servfail | nxdomain | refused
  | yxdomain | yxrrset | nxrrset | notauth | notzone
  deriving DecidableEq

/-- The number of an RCODE. -/
def Rcode.code : Rcode → Nat
  | .noerror => 0
  | .formerr => 1
  | .servfail => 2
  | .nxdomain => 3
  | .refused => 5
  | .yxdomain => 6
  | .yxrrset => 7
  | .nxrrset => 8
  | .notauth => 9
  | .notzone => 10

/-! ### Update policy -/

/-- `UPD_NAME` and its like: which names a rule is about. -/
inductive UpdateMatch
  | name | subdomain | wildcard | self | selfSub | selfWild
  deriving DecidableEq

/-- `update_rule_t`; no types at all are all types but NS, SOA and RRSIG. -/
structure UpdateRule where
  grant : Bool
  mtype : UpdateMatch
  identWild : Bool
  identity : Text
  name : Text
  types : List Nat

/-- `upd_proper_below`. -/
def updProperBelow (name parent : Text) : Bool :=
  domainNameIsAtOrBelow name parent && !domainNamesMatchCi name parent

/-- The rule is about this signer, name and type. -/
def UpdateRule.covers (r : UpdateRule) (signer name : Text) (type : Nat) : Bool :=
  let ident := if r.identWild then updProperBelow signer (r.identity.drop 2)
    else domainNamesMatchCi signer r.identity
  let named :=
    match r.mtype with
    | .name => domainNamesMatchCi name r.name
    | .subdomain => domainNameIsAtOrBelow name r.name
    | .wildcard => updProperBelow name (r.name.drop 2)
    | .self => domainNamesMatchCi name signer
    | .selfSub => domainNameIsAtOrBelow name signer
    | .selfWild => updProperBelow name signer
  let typed :=
    if r.types = [] then decide (¬ (type = 2 ∨ type = 6 ∨ type = 46))
    else r.types.any fun t => t = 255 ∨ t = type
  ident && named && typed

/-- `update_policy_allows`: the first rule that covers the change decides. -/
def updatePolicyAllows (pol : List UpdateRule) (signer : Option Text) (name : Text)
    (type : Nat) : Bool :=
  match signer with
  | none => false
  | some signer =>
    match pol.find? fun r => r.covers signer name type with
    | none => false
    | some r => r.grant

/-! ### What is told about an UPDATE -/

/-- `UPD_WHY_*`. -/
inductive UpdateWhy
  | none | policy | tooMany
  deriving DecidableEq

/-- An UPDATE that is not applied: the RCODE and, for the log, what was refused. -/
structure UpdateFailure where
  rcode : Rcode
  why : UpdateWhy := .none
  denyType : Nat := 0
  denyName : Text := []
  deriving DecidableEq

/-- `update_result_t` of an UPDATE that is accepted. -/
structure UpdateResult where
  prcount : Nat
  upcount : Nat
  changed : Bool
  soaReplaced : Bool
  deriving DecidableEq

/-- `update_deny`. -/
def updateDeny (name : Text) (type : Nat) : UpdateFailure :=
  ⟨.refused, .policy, type, name.take 255⟩

/-- Which allocations succeed: the index, its TTL pass, the array of prerequisites, the scratch
buffer and the caches for the update RR of a number, the array of records at a length. -/
structure UpdateMemory where
  index : Bool
  ttls : Bool
  temp : Bool
  scratch : Nat → Bool
  cache : Nat → Nat → Bool
  grow : Nat → Bool

/-! ### Records of the message and of the zone -/

/-- The fixed part of a record and where the record starts. -/
structure RrHeader where
  start : Nat
  name : Text
  type : Nat
  class_ : Nat
  ttl : Nat
  rdlen : Nat
  deriving DecidableEq

/-- `update_read_rr_header`: the fixed part and the offset behind the record. -/
def updateReadRrHeader (m : Buf) (len offset : Nat) : Option (RrHeader × Nat) :=
  match expandWireNameToBuffer m len offset dnsNameTextSize with
  | none => none
  | some (name, p) =>
    if p + 10 > len then none
    else if p + 10 + getU16 m (p + 8) > len then none
    else
      some (⟨offset, name, getU16 m p, getU16 m (p + 2), getU32 m (p + 4), getU16 m (p + 8)⟩,
        p + 10 + getU16 m (p + 8))

/-- `update_type_is_meta`. -/
def updateTypeIsMeta (type : Nat) : Bool := type = 0 ∨ type = 41 ∨ (128 ≤ type ∧ type ≤ 255)

/-- `type_may_coexist_with_cname`: RRSIG, NSEC, KEY. -/
def typeMayCoexistWithCname (type : Nat) : Bool := type = 46 ∨ type = 47 ∨ type = 25

/-- The chain of an owner. -/
def Standby.bucket (st : Standby) (name : Text) : Nat := nameBucket st.size name

/-- `update_rec_is_at`. -/
def updateRecIsAt (s : Slot) (name : Text) : Bool := s.live ∧ strcaseeq s.record.name name

/-- A record at the name, of the type; 255 stands for every type. -/
def isAtOfType (name : Text) (type : Nat) (s : Slot) : Bool :=
  updateRecIsAt s name ∧ (type = 255 ∨ s.record.typeCode.toNat = type)

/-- `update_zone_has`. -/
def updateZoneHas (st : Standby) (name : Text) (type : Nat) : Bool :=
  st.table.any (st.bucket name) (isAtOfType name type)

/-- The record is `rr`, whatever its TTL. -/
def isRr (rr : DnsRecord) (s : Slot) : Bool := s.live ∧ compareRecords s.record rr true

/-- `update_find_rr`. -/
def updateFindRr (st : Standby) (rr : DnsRecord) : Option Nat :=
  st.table.find (st.bucket rr.name) (isRr rr)

/-- The key of a WKS record in text form. -/
def wksTextKey (rec : DnsRecord) : Option (List UInt8 × UInt8) :=
  if rec.rdata.length < 2 then none
  else
    match inetPton4 (rec.rd 0) with
    | none => none
    | some addr => (wksProtocolFromText (rec.rd 1)).map fun p => (addr, UInt8.ofNat p)

/-- `update_wks_key`: ADDRESS and PROTOCOL. -/
def updateWksKey (rec : DnsRecord) : Option (List UInt8 × UInt8) :=
  match rec.generic with
  | none => wksTextKey rec
  | some bs => if bs.length ≥ 5 then some (bs.take 4, bs.getD 4 0) else wksTextKey rec

/-- `update_soa_serial`. -/
def updateSoaSerial (soa : DnsRecord) : Nat :=
  if soa.rdata.length ≥ 3 then strtoul32 (soa.rd 2) else 0

/-- `serial_is_newer` (RFC 1982). -/
def serialIsNewer (s1 s2 : Nat) : Bool :=
  let d := (s1 + 2 ^ 32 - s2) % 2 ^ 32
  0 < d ∧ d < 2 ^ 31

/-- `update_replaces`. -/
def updateReplaces (zrr rr : DnsRecord) : Bool :=
  rr.typeCode = 5 ∨ rr.typeCode = 6 ∨ rr.typeCode = 39 ∨
    (rr.typeCode = 11 ∧ (updateWksKey zrr).isSome ∧ updateWksKey zrr = updateWksKey rr) ∨
    compareRecords zrr rr true

/-- `update_rr_encodable`; without memory to find out, it is taken to be. -/
def updateRrEncodable (scratch : Bool) (rr : DnsRecord) : Bool :=
  !scratch || (dnsRecordCanonicalRdata rr).isSome

/-! ### Prerequisites -/

variable (zoneName : Text)

/-- One prerequisite: whether it asks for an RRset with values, which is looked at later. -/
def checkPrerequisite (st : Standby) (h : RrHeader) : Except UpdateFailure Bool :=
  if h.ttl ≠ 0 then .error ⟨.formerr, .none, 0, []⟩
  else if ¬ domainNameIsAtOrBelow h.name zoneName then .error ⟨.notzone, .none, 0, []⟩
  else if h.class_ = 255 then
    if h.rdlen ≠ 0 then .error ⟨.formerr, .none, 0, []⟩
    else if ¬ updateZoneHas st h.name h.type then
      .error ⟨if h.type = 255 then .nxdomain else .nxrrset, .none, 0, []⟩
    else .ok false
  else if h.class_ = 254 then
    if h.rdlen ≠ 0 then .error ⟨.formerr, .none, 0, []⟩
    else if updateZoneHas st h.name h.type then
      .error ⟨if h.type = 255 then .yxdomain else .yxrrset, .none, 0, []⟩
    else .ok false
  else if h.class_ = 1 then .ok true
  else .error ⟨.formerr, .none, 0, []⟩

/-- The loop over the Prerequisite Section: where the RRs with values start, and the offset behind
the section. -/
def readPrerequisites (m : Buf) (len : Nat) (zoneName : Text) (st : Standby) :
    Nat → Nat → Except UpdateFailure (List Nat × Nat)
  | 0, offset => .ok ([], offset)
  | n + 1, offset =>
    match updateReadRrHeader m len offset with
    | none => .error ⟨.formerr, .none, 0, []⟩
    | some (h, next) => do
      let valued ← checkPrerequisite zoneName st h
      let (starts, stop) ← readPrerequisites m len zoneName st n next
      return (if valued then h.start :: starts else starts, stop)

/-- Same owner and type. -/
def sameSet (a b : DnsRecord) : Bool := a.typeCode = b.typeCode ∧ strcaseeq a.name b.name

/-- RRset by RRset, the RRs of the message are those of the zone; `before` are the RRs whose sets
were looked at. -/
def valuesMatch (st : Standby) : List DnsRecord → List DnsRecord → Bool
  | _, [] => true
  | before, first :: rest =>
    (before.any (sameSet first) ||
      (((first :: rest).filter (sameSet first)).all (fun rr => (updateFindRr st rr).isSome) &&
        !st.table.any (st.bucket first.name) fun s =>
          updateRecIsAt s first.name && s.record.typeCode == first.typeCode &&
            !(first :: rest).any (compareRecords s.record · true))) &&
      valuesMatch st (first :: before) rest

/-- The Prerequisite Section (RFC 2136 3.2.5): the offset behind it. -/
def checkPrerequisites (mem : UpdateMemory) (m : Buf) (len : Nat) (zoneName : Text) (st : Standby)
    (count offset : Nat) : Except UpdateFailure Nat := do
  let (starts, stop) ← readPrerequisites m len zoneName st count offset
  if starts ≠ [] ∧ ¬ mem.temp then .error ⟨.servfail, .none, 0, []⟩
  else
    match starts.mapM fun start => (parseResourceRecord (fun _ => true) m len start).map (·.1) with
    | none => .error ⟨.formerr, .none, 0, []⟩
    | some temp => if valuesMatch st [] temp then .ok stop else .error ⟨.nxrrset, .none, 0, []⟩

/-! ### Prescan -/

/-- The form of an update RR (RFC 2136 3.4.1.3). -/
def updateRrOk (h : RrHeader) : Bool :=
  if h.class_ = 1 then !updateTypeIsMeta h.type
  else if h.class_ = 255 then h.ttl = 0 ∧ h.rdlen = 0 ∧ ¬ (h.type ≠ 255 ∧ updateTypeIsMeta h.type)
  else if h.class_ = 254 then h.ttl = 0 ∧ ¬ updateTypeIsMeta h.type
  else false

/-- The first type at the name that the signer may not change. -/
def deniedType (pol : List UpdateRule) (signer : Option Text) (st : Standby)
    (name : Text) : Option Nat :=
  (st.table.chain (st.bucket name)).findSome? fun k =>
    (st.table.get k).bind fun s =>
      if updateRecIsAt s name ∧ ¬ updatePolicyAllows pol signer name s.record.typeCode.toNat then
        some s.record.typeCode.toNat
      else none

/-- The signer may make the change; deleting a name changes every type that is there. -/
def checkPolicy (pol : Option (List UpdateRule)) (signer : Option Text) (st : Standby)
    (h : RrHeader) : Except UpdateFailure Unit :=
  match pol with
  | none => .ok ()
  | some pol =>
    if h.class_ = 255 ∧ h.type = 255 then
      match deniedType pol signer st h.name with
      | some type => .error (updateDeny h.name type)
      | none => .ok ()
    else if ¬ updatePolicyAllows pol signer h.name h.type then .error (updateDeny h.name h.type)
    else .ok ()

/-- The prescan of one update RR. -/
def prescanRr (pol : Option (List UpdateRule)) (signer : Option Text) (st : Standby)
    (h : RrHeader) : Except UpdateFailure Unit :=
  if ¬ domainNameIsAtOrBelow h.name zoneName then .error ⟨.notzone, .none, 0, []⟩
  else if ¬ updateRrOk h then .error ⟨.formerr, .none, 0, []⟩
  else checkPolicy pol signer st h

/-- The prescan of the Update Section. -/
def prescan (m : Buf) (len : Nat) (zoneName : Text) (pol : Option (List UpdateRule))
    (signer : Option Text) (st : Standby) : Nat → Nat → Except UpdateFailure Unit
  | 0, _ => .ok ()
  | n + 1, offset =>
    match updateReadRrHeader m len offset with
    | none => .error ⟨.formerr, .none, 0, []⟩
    | some (h, next) => do
      prescanRr zoneName pol signer st h
      prescan m len zoneName pol signer st n next

/-! ### Changes -/

/-- The builder while changes are made. -/
structure UpdateState where
  standby : Standby
  changed : Bool := false
  soaReplaced : Bool := false

/-- `zrr->name = NULL`. -/
def Slot.bury (s : Slot) : Slot := { s with live := false }

/-- Deletes the records of a chain that satisfy `p`. -/
def UpdateState.delete (st : UpdateState) (name : Text) (p : Slot → Bool) : UpdateState :=
  let chain := st.standby.table.chain (st.standby.bucket name)
  { st with
    standby := { st.standby with table := st.standby.table.sweep p Slot.bury chain }
    changed := st.changed || st.standby.table.any (st.standby.bucket name) p }

/-- SOA and NS, which stay at the apex. -/
def staysAtApex (type : Nat) : Bool := type = 6 ∨ type = 2

/-- Class ANY: an RRset, or all RRsets of a name (RFC 2136 3.4.2.3). -/
def deleteSet (st : UpdateState) (h : RrHeader) : UpdateState :=
  let atApex := domainNamesMatchCi h.name zoneName
  if atApex ∧ staysAtApex h.type then st
  else
    st.delete h.name fun s =>
      isAtOfType h.name h.type s && !(atApex && staysAtApex s.record.typeCode.toNat)

/-- The number of NS records at the name. -/
def countNs (st : Standby) (name : Text) : Nat :=
  (st.table.chain (st.bucket name)).countP fun k => (st.table.get k).any (isAtOfType name 2)

/-- Class NONE: the RR `rr` (RFC 2136 3.4.2.4). -/
def deleteRr (st : UpdateState) (h : RrHeader) (rr : DnsRecord) : UpdateState :=
  if h.type = 6 then st
  else if h.type = 2 ∧ domainNamesMatchCi h.name zoneName ∧ countNs st.standby h.name ≤ 1 then st
  else st.delete h.name (isRr rr)

/-- A record at the name that a record of this type cannot stand beside (RFC 4035 2.5). -/
def conflicts (name : Text) (type : Nat) (s : Slot) : Bool :=
  updateRecIsAt s name &&
    if type = 5 then s.record.typeCode ≠ 5 ∧ ¬ typeMayCoexistWithCname s.record.typeCode.toNat
    else decide (¬ typeMayCoexistWithCname type ∧ s.record.typeCode = 5)

/-- An SOA that does not replace the one at the name, or finds none there (RFC 2136 3.4.2.2). -/
def staleSoa (st : Standby) (name : Text) (rr : DnsRecord) : Bool :=
  match (st.table.find (st.bucket name) (isAtOfType name 6)).bind st.table.get with
  | none => true
  | some soa => !serialIsNewer (updateSoaSerial rr) (updateSoaSerial soa.record)

/-- The record `rr` takes the place of. -/
def isReplaced (name : Text) (rr : DnsRecord) (s : Slot) : Bool :=
  updateRecIsAt s name ∧ s.record.typeCode = rr.typeCode ∧ updateReplaces s.record rr

variable (mem : UpdateMemory) (m : Buf) (len : Nat) (zoneName : Text)

/-- Class IN: a record that is added or takes the place of another; `i` is its number in the
section. -/
def addRr (i : Nat) (st : UpdateState) (h : RrHeader) (rr : DnsRecord) :
    Except UpdateFailure UpdateState :=
  let b := st.standby.bucket h.name
  if st.standby.table.any b (conflicts h.name h.type) then .ok st
  else if h.type = 6 ∧ staleSoa st.standby h.name rr then .ok st
  else if ¬ updateRrEncodable (mem.scratch i) rr then .ok st
  else
    let new : Slot := ⟨preparseCache (mem.cache i) rr, true⟩
    match st.standby.table.find b (isReplaced h.name rr) with
    | some k =>
      if (st.standby.table.get k).any fun s => compareRecords s.record rr false then .ok st
      else
        .ok
          { standby := { st.standby with table := st.standby.table.set k new }
            changed := true
            soaReplaced := st.soaReplaced || h.type == 6 }
    | none =>
      -- the array grows when it is full
      if mem.grow st.standby.table.cells.length then
        .ok
          { st with
            standby := { st.standby with table := st.standby.table.push b new }
            changed := true }
      else .error ⟨.servfail, .none, 0, []⟩

/-- One update RR (RFC 2136 3.4.2). -/
def applyRr (i : Nat) (st : UpdateState) (h : RrHeader) : Except UpdateFailure UpdateState :=
  if h.class_ = 255 then .ok (deleteSet zoneName st h)
  else
    match parseResourceRecord (mem.cache i) m len h.start with
    | none => .error ⟨.formerr, .none, 0, []⟩
    | some (rr, _) => if h.class_ = 254 then .ok (deleteRr zoneName st h rr)
      else addRr mem i st h rr

/-- The Update Section; `i` is the number of the first RR given. -/
def applyUpdates (mem : UpdateMemory) (m : Buf) (len : Nat) (zoneName : Text) :
    Nat → Nat → Nat → UpdateState → Except UpdateFailure UpdateState
  | 0, _, _, st => .ok st
  | n + 1, i, offset, st =>
    match updateReadRrHeader m len offset with
    | none => .error ⟨.formerr, .none, 0, []⟩
    | some (h, next) => do
      let st ← applyRr mem m len zoneName i st h
      applyUpdates mem m len zoneName n (i + 1) next st

/-! ### The whole message -/

/-- The Zone Section (RFC 2136 3.1): the offset behind it. -/
def checkZoneSection : Except UpdateFailure Nat :=
  match expandWireNameToBuffer m len dnsHeaderSize dnsNameTextSize with
  | none => .error ⟨.formerr, .none, 0, []⟩
  | some (zname, p) =>
    if p + 4 > len then .error ⟨.formerr, .none, 0, []⟩
    else if getU16 m p ≠ 6 then .error ⟨.formerr, .none, 0, []⟩
    else if getU16 m (p + 2) ≠ 1 ∨ ¬ domainNamesMatchCi zname zoneName then
      .error ⟨.notauth, .none, 0, []⟩
    else .ok (p + 4)

/-- The builder as it is indexed for the UPDATE. -/
def indexStandby (records : List Slot) : Standby :=
  if mem.ttls then harmonizeRrsetTtls (linkRecords records) else linkRecords records

/-- `process_update_sections_policy`: what is told about the UPDATE and the records it leaves. -/
def processUpdateSectionsPolicy (records : List Slot) (pol : Option (List UpdateRule))
    (signer : Option Text) : Except UpdateFailure (UpdateResult × List Slot) :=
  if len < dnsHeaderSize then .error ⟨.formerr, .none, 0, []⟩
  else if getU16 m 4 ≠ 1 then .error ⟨.formerr, .none, 0, []⟩
  else if getU16 m 6 + getU16 m 8 > 1000 then .error ⟨.refused, .tooMany, 0, []⟩
  else do
    let offset ← checkZoneSection m len zoneName
    if ¬ mem.index then .error ⟨.servfail, .none, 0, []⟩
    else
      let st := indexStandby mem records
      let offset ← checkPrerequisites mem m len zoneName st (getU16 m 6) offset
      prescan m len zoneName pol signer st (getU16 m 8) offset
      let done ← applyUpdates mem m len zoneName (getU16 m 8) 0 offset ⟨st, false, false⟩
      return (⟨getU16 m 6, getU16 m 8, done.changed, done.soaReplaced⟩,
        done.standby.table.vals.filter (·.live))

end KariDns
