import KariDns.Tsig.Verify
import KariDns.Update.Handle
import KariDns.Wire.Walk

/-! The receiving side of a zone transfer (`parse_xfr_packet`, `handle_axfr_event`).

The answer RRs of all messages drive one state machine: the first SOA opens the transfer, an
incremental transfer (RFC 1995) then alternates between deletions and additions at every SOA, a
full one (RFC 5936) ends at the SOA it began with. Records of the private class are the markers
and definitions of extended transfers. A message is parsed when it arrives, signed or not; what
came without a signature is digested with the next signature.
-/

namespace KariDns

open Octets DomainName

/-! ### Session and builder -/

/-- The fields of `axfr_session_t` that the transfer itself reads and writes. A tag that is not set
is the empty text; `soaSet` holds the numbers of apex SOA records announced and seen. -/
structure AxfrSession where
  isIxfr : Bool
  clientSerial : Nat
  isFinished : Bool := false
  isDeleting : Bool := false
  soaCount : Nat := 0
  initialSoaName : Text := []
  initialSoaSerial : Nat := 0
  ixfrExpectedSerial : Nat := 0
  currentLocTag : Text := []
  currentEcsTag : Text := []
  soaSet : Option (Nat × Nat) := none
  frame : Option (Nat × Nat × Nat) := none
  settings : Option (List UInt8) := none
  extVersion : Option Nat := none
  trailingRrs : Bool := false
  gotFirstMsg : Bool := false

/-- The tables of definitions a zone carries (tags, resolvers, locations), and how one record of
a type adds to them; `none` refuses the transfer. -/
structure XferTables (T : Type) where
  empty : T
  define : UInt16 → List UInt8 → T → Option T

/-- The session and the builder `standby`. -/
structure Receiver (T : Type) where
  session : AxfrSession
  records : List DnsRecord
  tables : T
  isTinydns : Bool := false

/-- Why a transfer is given up; the caller asks again in another way after the last two. -/
inductive XferReject
  | refused | serialBehind | badSequence
  deriving DecidableEq, Repr

/-- What becomes of the transfer after one RR: `stop` leaves the message. -/
inductive XferStep (T : Type)
  | reject (why : XferReject)
  | stop (r : Receiver T)
  | next (r : Receiver T)

/-- What the receiver is given besides the messages. `thaw` is the builder made from the version in
use, `db` the stream of the database loader. -/
structure XferEnv (T : Type) where
  domain : Text
  tables : XferTables T
  thaw : Option (List DnsRecord × T × Bool)
  db : Bool

/-! ### Records of extended transfers -/

/-- A C string in a buffer of octets. -/
def cString (bs : List UInt8) : Text := bs.takeWhile (· != 0)

/-- A state marker: the tag it sets, `char [64]`. -/
def markerTag (data : List UInt8) : Text := cString (data.take 63)

/-- Eight octets, the first the most significant, as a signed number. -/
def signed64 (bs : List UInt8) : Int :=
  let n : Nat := bs.foldl (fun n b => n * 256 + b.toNat) 0
  if n ≥ 2 ^ 63 then (n : Int) - 2 ^ 64 else n

/-- The number two octets of a list stand for. -/
def u16At (bs : List UInt8) (i : Nat) : Nat := getU16 (bufOf bs) i

/-- The wire form that a wrapper is unwrapped from: the owner of the wrapper with the type, class,
TTL and RDATA inside, `none` when it does not fit the buffer of 4096 octets. -/
def wrappedWire (name : Text) (data : List UInt8) : Option (List UInt8) :=
  match readName name with
  | none => none
  | some n =>
    let rdlen := u16At data 19
    if rdlen > 0 ∧ (wire n).length + 10 + rdlen > 4096 then none
    else some (wire n ++ data.take 8 ++ (data.drop 19).take 2 ++ (data.drop 21).take rdlen)

/-- The record inside a wrapper, or what stands for it when it cannot be decoded: its type, class
and TTL without RDATA. -/
def unwrapTinydns (alloc : Nat → Bool) (rec : DnsRecord) (data : List UInt8) : DnsRecord × Bool :=
  let parsed := (wrappedWire rec.name data).bind fun w =>
    parseResourceRecord alloc (bufOf w) w.length 0
  match parsed with
  | some (inner, _) => (inner, true)
  | none =>
    let ttl := min (getU32 (bufOf data) 4) 0x7FFFFFFF
    ({ rec with
        generic := none
        typeCode := UInt16.ofNat (u16At data 0)
        classVal := UInt16.ofNat (u16At data 2)
        ttlValue := UInt32.ofNat ttl
        classStr := if u16At data 2 = 1 then ascii "IN" else ascii "CH"
        ttl := decimal ttl }, false)

/-- The attributes of a wrapper. -/
def withTinydns (rec : DnsRecord) (data : List UInt8) : DnsRecord :=
  { rec with
    tinydnsLoc := (data.getD 8 0, data.getD 9 0)
    tinydnsTtd := signed64 ((data.drop 10).take 8)
    tinydnsTtlCountdown := data.getD 18 0 &&& 1 != 0 }

/-- The wrapper has an attribute. -/
def hasTinydns (rec : DnsRecord) : Bool :=
  rec.tinydnsLoc != (0, 0) || rec.tinydnsTtd != 0 || rec.tinydnsTtlCountdown

/-- What a record of the private class is: refused, taken in, or an RR like any other, perhaps an
SOA out of a wrapper. -/
inductive ExtStep (T : Type)
  | reject
  | consumed (r : Receiver T)
  | record (rec : DnsRecord) (wrappedSoa : Bool) (r : Receiver T)

section

variable {T : Type} (env : XferEnv T) (alloc : Nat → Bool)

/-- TINYDNS_WRAP. -/
def xferWrap (rec : DnsRecord) (r : Receiver T) : ExtStep T :=
  let data := rec.generic.getD []
  if data.length < 21 then if env.db then .reject else .record rec false r
  else
    let rdlen := u16At data 19
    if 21 + rdlen > data.length then
      if env.db then .reject else .record (withTinydns rec data) false
        { r with isTinydns := r.isTinydns || hasTinydns (withTinydns rec data) }
    else
      let (inner, ok) := unwrapTinydns alloc rec data
      if ¬ ok ∧ env.db then .reject
      else .record (withTinydns inner data) (ok && inner.typeCode == 6)
        { r with isTinydns := r.isTinydns || hasTinydns (withTinydns inner data) }

/-- SOA_SET: the opening SOA is the frame and not zone data; `n` apex SOA records follow. -/
def xferSoaSet (data : List UInt8) (r : Receiver T) : ExtStep T :=
  match r.records with
  | [soa] =>
    if data.length ≠ 3 ∨ data.getD 0 0 &&& 1 = 0 ∨ r.session.soaSet.isSome ∨
      r.session.soaCount ≠ 1 ∨
        soa.typeCode ≠ 6 ∨ soa.rdata.length < 7 then .reject
    else
      let n := u16At data 1
      if n = 0 ∨ n > 4096 then .reject
      else .consumed { r with
        records := []
        session := { r.session with
          soaSet := some (n, 0)
          frame := some (parseTtlValue (soa.rd 3), parseTtlValue (soa.rd 4),
            parseTtlValue (soa.rd 5)) } }
  | _ => .reject

/-- The records of the private class. -/
def xferExtension (rec : DnsRecord) (r : Receiver T) : ExtStep T :=
  let data := rec.generic.getD []
  let define (r : Receiver T) : ExtStep T :=
    match env.tables.define rec.typeCode data r.tables with
    | none => .reject
    | some t => .consumed { r with tables := t }
  if rec.typeCode = 65401 then
    if env.db ∧ data.length ≥ 64 then .reject
    else .consumed { r with session := { r.session with currentLocTag := markerTag data } }
  else if rec.typeCode = 65402 then
    if env.db ∧ data.length ≥ 64 then .reject
    else .consumed { r with session := { r.session with currentEcsTag := markerTag data } }
  else if rec.typeCode = 65403 ∨ rec.typeCode = 65404 then define r
  else if rec.typeCode = 65407 then if env.db then .reject else define r
  else if rec.typeCode = 65409 then xferSoaSet data r
  else if rec.typeCode = 65408 then
    if env.db then .reject
    else if r.session.extVersion.getD 0 ≥ 3 ∧ r.session.settings.isNone ∧ data ≠ [] ∧
      data.length ≤ 32768 then
      .consumed { r with session := { r.session with settings := some data } }
    else .consumed r
  else if rec.typeCode = 65405 then define { r with isTinydns := true }
  else if rec.typeCode = 65406 then xferWrap env alloc rec r
  else .record rec false r

/-! ### Zone data -/

/-- The record is an SOA at the apex. -/
def isZoneSoa (domain : Text) (rec : DnsRecord) : Bool :=
  rec.typeCode == 6 && domainNamesMatchCi rec.name domain

/-- `x` takes the place of the first element with `p`, or comes behind all. -/
def replaceFirst {α : Type} (p : α → Bool) (x : α) : List α → List α
  | [] => [x]
  | z :: zs => if p z then x :: zs else z :: replaceFirst p x zs

/-- The first element with `p` is deleted, and the last one takes its place. -/
def deleteFirst {α : Type} (p : α → Bool) (l : List α) : List α :=
  match l.findIdx? p with
  | none => l
  | some k =>
    match l.getLast? with
    | none => l
    | some last => (l.set k last).dropLast

/-- The newer SOA of a difference takes the place of the first apex SOA. -/
def replaceSoa (domain : Text) (soa : DnsRecord) : List DnsRecord → List DnsRecord :=
  replaceFirst (isZoneSoa domain) soa

/-- The first record equal to `rec` is deleted. -/
def deleteRecord (rec : DnsRecord) : List DnsRecord → List DnsRecord :=
  deleteFirst (compareRecords · rec true)

/-- The tags in force. -/
def withTags (s : AxfrSession) (rec : DnsRecord) : DnsRecord :=
  { rec with
    bindLocationTag := if s.currentLocTag = [] then rec.bindLocationTag else some s.currentLocTag
    ecsSubnetTag := if s.currentEcsTag = [] then rec.ecsSubnetTag else some s.currentEcsTag }

/-- An SOA: the opening one, the turns of an incremental transfer, or the end. `isLast` says that it
is the last answer of its message. -/
def xferSoa (ancount : Nat) (isLast : Bool) (rec : DnsRecord) (r : Receiver T) : XferStep T :=
  let s := { r.session with soaCount := r.session.soaCount + 1 }
  let serial := strtoul32 (rec.rd 2)
  if s.soaCount = 1 then
    let s := { s with initialSoaName := rec.name, initialSoaSerial := serial }
    if s.isIxfr ∧ ancount = 1 ∧ serial = s.clientSerial then
      .stop { r with session := { s with isFinished := true }, records := [] }
    else if s.clientSerial ≠ 0 ∧ serial = s.clientSerial then
      .stop { r with session := { s with isFinished := true }, records := [] }
    else if s.clientSerial ≠ 0 ∧ serialIsNewer serial s.clientSerial = false then
      .reject .serialBehind
    else .next { r with session := s, records := r.records ++ [rec] }
  else if s.soaCount = 2 ∧ s.isIxfr then
    if serial ≠ s.clientSerial then .reject .badSequence
    else
      match env.thaw with
      | none => .reject .refused
      | some (records, tables, isTinydns) =>
        .next ⟨{ s with isDeleting := true }, records, tables, isTinydns⟩
  else if s.isIxfr ∧ s.isDeleting then
    .next { r with session := { s with isDeleting := false, ixfrExpectedSerial := serial }
                   records := replaceSoa env.domain rec r.records }
  else if s.isIxfr then
    if serial = s.initialSoaSerial ∧ s.ixfrExpectedSerial = s.initialSoaSerial then
      .next { r with session := { s with isFinished := true } }
    else if serial ≠ s.ixfrExpectedSerial then .reject .badSequence
    else .next { r with session := { s with isDeleting := true } }
  else if domainNamesMatchCi s.initialSoaName rec.name ∧ s.initialSoaSerial = serial then
    if s.soaSet.any fun n => n.2 ≠ n.1 then .reject .refused
    else .next
      { r with session := { s with isFinished := true, trailingRrs := s.trailingRrs || !isLast } }
  else .next { r with session := s, records := r.records ++ [rec] }

/-- Any other RR of the zone. -/
def xferData (rec : DnsRecord) (r : Receiver T) : Receiver T :=
  let s := if r.session.soaCount = 1 ∧ r.session.isIxfr then
    { r.session with isIxfr := false } else r.session
  if s.isIxfr ∧ s.isDeleting then { r with session := s, records := deleteRecord rec r.records }
  else { r with session := s, records := r.records ++ [rec] }

/-- An SOA out of a wrapper in a transfer with an SOA set. -/
def xferBodySoa (rec : DnsRecord) (expected seen : Nat) (r : Receiver T) : XferStep T :=
  if domainNamesMatchCi rec.name env.domain = false ∨ rec.rdata.length < 7 ∨
      strtoul32 (rec.rd 2) ≠ r.session.initialSoaSerial ∨ seen + 1 > expected then .reject .refused
  else
    .next { r with
      session := { r.session with soaSet := some (expected, seen + 1) }
      records := r.records ++ [rec] }

/-- One RR that is no marker: its class, its place and its type. -/
def xferZoneRr (ancount : Nat) (isLast : Bool) (rec : DnsRecord) (wrappedSoa : Bool)
    (r : Receiver T) : XferStep T :=
  if rec.classVal ≠ 1 then .reject .refused
  else if domainNameIsAtOrBelow rec.name env.domain = false then
    if rec.typeCode = 6 then .reject .refused else .next r
  else
    let tagged := withTags r.session rec
    match rec.typeCode == 6 && wrappedSoa, r.session.soaSet with
    | true, some (expected, seen) => xferBodySoa env tagged expected seen r
    | _, _ =>
      if rec.typeCode = 6 then
        if rec.rdata.length < 3 then .reject .refused else xferSoa env ancount isLast tagged r
      else .next (xferData tagged r)

/-- One answer RR. -/
def xferRr (ancount : Nat) (isLast : Bool) (rec : DnsRecord) (r : Receiver T) : XferStep T :=
  if rec.classVal = classKaridnsExt then
    match xferExtension env alloc rec r with
    | .reject => .reject .refused
    | .consumed r' => .next r'
    | .record rec' wrappedSoa r' => xferZoneRr env ancount isLast rec' wrappedSoa r'
  else xferZoneRr env ancount isLast rec false r

/-! ### One message -/

/-- A message as it came off the connection: its octets, the clock its signature is checked with,
what its OPT record says about extended transfers, and which allocations succeed for its records. -/
structure XferMessage where
  buf : Buf
  len : Nat
  clock : Nat := 0
  extVersion : Option Nat := none
  cache : Nat → Nat → Bool := fun _ _ => true

/-- The loop over the answer RRs, `k` of `ancount` still to come. -/
def xferAnswers (msg : XferMessage) (ancount : Nat) : Nat → Nat → Receiver T → XferStep T
  | 0, _, r => .next r
  | k + 1, offset, r =>
    match parseResourceRecord (msg.cache (ancount - (k + 1))) msg.buf msg.len offset with
    | none => .reject .refused
    | some (rec, offset') =>
      match xferRr env (msg.cache (ancount - (k + 1))) ancount (k == 0) rec r with
      | .next r' => xferAnswers msg ancount k offset' r'
      | other => other

/-- `parse_xfr_packet`. -/
def parseXfrPacket (msg : XferMessage) (r : Receiver T) : XferStep T :=
  if msg.len < 12 then .reject .refused
  else
    match skipWireQuestions msg.buf msg.len (getU16 msg.buf 4) 12 with
    | none => .reject .refused
    | some offset =>
      let r := if r.session.soaCount = 0 ∧ msg.extVersion.isSome then
          { r with session := { r.session with extVersion := msg.extVersion } } else r
      xferAnswers env msg (getU16 msg.buf 6) (getU16 msg.buf 6) offset r

/-! ### The whole transfer -/

/-- What a transfer is asked with and what limits it. The MAC of the request is kept in 64
octets. -/
structure XferRequest (T : Type) extends XferEnv T where
  queryId : Nat
  queryType : Nat
  key : Option TsigKey
  hash : KeyedHash
  reqMac : List UInt8
  reqMac_le : reqMac.length ≤ 64
  maxRecords : Nat
  maxBytes : Nat
  extProbe : Bool
  /-- memory to find records that cannot be encoded -/
  scratch : Bool
  /-- the limits of the zone and the making of its image -/
  installs : List DnsRecord → Bool

/-- The loop of `handle_axfr_event` between two messages. -/
structure XferLoop (T : Type) where
  receiver : Receiver T
  priorMac : List UInt8
  isSubsequent : Bool := false
  firstMsg : Bool := true
  unsignedMsgs : List UInt8 := []
  unsignedRun : Nat := 0
  totalBytes : Nat := 0

variable (req : XferRequest T) (l : XferLoop T)

/-- The end of a transfer: a zone is installed, or the zone in use is the newest. The records are
those that the transfer leaves; `build_zone_index (builder, true)` behind it, which gives the
records of an RRset one TTL, is not modelled. -/
inductive XferOutcome
  | installed (records : List DnsRecord)
  | upToDate

/-- What becomes of the transfer after one message. -/
inductive XferTurn (T : Type)
  | failed
  | more (l : XferLoop T)
  | done (o : XferOutcome)

/-- `xfr_check_response_header` returns 0. -/
def xfrCheckResponseHeader (m : Buf) (len : Nat) (first : Bool) : Bool :=
  let qdcount := getU16 m 4
  let rcode := m 3 &&& 0x0F
  if len < 12 then false
  else if getU16 m 0 ≠ req.queryId then false
  else if m 2 &&& 0x80 = 0 ∨ (m 2 >>> 3) &&& 0x0F ≠ 0 then false
  else if qdcount > 1 ∨ (qdcount = 0 ∧ (first ∨ rcode ≠ 0)) then false
  else
    let question :=
      if qdcount = 1 then
        match expandWireNameToBuffer m len 12 dnsNameTextSize with
        | none => false
        | some (qname, e) =>
          decide (e + 4 ≤ len) && domainNamesMatchCi qname req.domain &&
            getU16 m e == req.queryType && getU16 m (e + 2) == 1
      else true
    question && rcode == 0

/-- The signature of one message: `none` gives the transfer up. -/
def xferTsig (msg : XferMessage) (l : XferLoop T) : Option (XferLoop T) :=
  match req.key with
  | none => some l
  | some key =>
    if packetHasTsig msg.buf msg.len then
      match tsigVerifyPacketEx req.hash msg.buf msg.len key
        ⟨l.priorMac, l.unsignedMsgs, l.isSubsequent⟩ msg.clock with
      | (0, some mac) =>
        let l := { l with unsignedMsgs := [], unsignedRun := 0 }
        some (if mac ≠ [] ∧ mac.length ≤ 64 then
          { l with priorMac := mac, isSubsequent := true } else l)
      | _ => none
    else if l.isSubsequent = false then none
    else if l.unsignedRun + 1 > 99 then none
    else
      some { l with
        unsignedRun := l.unsignedRun + 1
        unsignedMsgs := l.unsignedMsgs ++ slice msg.buf 0 msg.len }

/-- A finished transfer. -/
def xferFinish : XferTurn T :=
  if req.key.isSome ∧ l.unsignedMsgs ≠ [] then .failed
  else if l.receiver.records = [] then .done .upToDate
  else
    let records := if req.scratch then l.receiver.records.filter fun r =>
      (dnsRecordCanonicalRdata r).isSome
      else l.receiver.records
    if req.installs records then .done (.installed records) else .failed

/-- The checks behind a message that was parsed. -/
def xferParsed (r : Receiver T) : XferTurn T :=
  if req.maxRecords ≠ 0 ∧ r.records.length > req.maxRecords then .failed
  else if l.firstMsg ∧ req.extProbe ∧ r.session.extVersion = none then .failed
  else if r.session.isFinished then xferFinish req { l with receiver := r, firstMsg := false }
  else .more { l with receiver := r, firstMsg := false }

/-- One turn of the loop of `handle_axfr_event`. -/
def xferMessage (msg : XferMessage) (l : XferLoop T) : XferTurn T :=
  let l := { l with totalBytes := l.totalBytes + msg.len }
  if req.maxBytes ≠ 0 ∧ l.totalBytes > req.maxBytes then .failed
  else if xfrCheckResponseHeader req msg.buf msg.len (!l.receiver.session.gotFirstMsg) =
    false then .failed
  else
    let l := { l with receiver :=
      { l.receiver with session := { l.receiver.session with gotFirstMsg := true } } }
    match xferTsig req msg l with
    | none => .failed
    | some l =>
      match parseXfrPacket req.toXferEnv msg l.receiver with
      | .reject _ => .failed
      | .stop r => xferParsed req l r
      | .next r => xferParsed req l r

/-- `handle_axfr_event` on the messages that arrive; when they end before the transfer does, it
fails. The connection may be given up at any point, which is an end of the messages. -/
def xferRun (req : XferRequest T) : List XferMessage → XferLoop T → Option XferOutcome
  | [], _ => none
  | msg :: rest, l =>
    match xferMessage req msg l with
    | .failed => none
    | .done o => some o
    | .more l' => xferRun req rest l'

/-- The messages that are read before the transfer ends. -/
def xferConsumed (req : XferRequest T) : List XferMessage → XferLoop T → List XferMessage
  | [], _ => []
  | msg :: rest, l =>
    match xferMessage req msg l with
    | .more l' => msg :: xferConsumed req rest l'
    | _ => [msg]

/-- The loop before the first message. -/
def xferStart (clientSerial : Nat) (isIxfr : Bool) : XferLoop T :=
  { receiver := { session := { isIxfr, clientSerial }, records := [], tables := req.tables.empty }
    priorMac := if req.reqMac.length ≤ 64 then req.reqMac else [] }

/-- `handle_axfr_event`. -/
def handleAxfrEvent (clientSerial : Nat) (isIxfr : Bool) (msgs : List XferMessage) :
    Option XferOutcome :=
  xferRun req msgs (xferStart req clientSerial isIxfr)

end

end KariDns
