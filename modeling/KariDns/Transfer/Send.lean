import KariDns.Transfer.Receive

/-! The sending side of an extended transfer.

The tags of an RR travel as state markers that stick until they are changed (`xext_select`), its
tinydns attributes in a wrapper around it (`wrap_tinydns_record`). The SOAs that frame a transfer
and the turns of an incremental one are sent without markers. What is sent is a list of records; how
they are spread over messages does not matter to the receiver.
-/

namespace KariDns

open Octets DomainName

/-! ### State markers -/

/-- `xext_t`: the tags in force at the receiver, a null tag as the empty text. -/
structure Xext where
  curLoc : Text := []
  curEcs : Text := []

/-- What a record that is sent stands for. -/
inductive SentKind
  /-- a state marker -/
  | state
  /-- a definition of the zone, or its settings -/
  | define
  /-- the opening SOA of a transfer with an SOA set, which is not zone data -/
  | frame
  /-- SOA_SET -/
  | soaSet
  /-- an SOA sent without markers -/
  | soa (rec : DnsRecord)
  /-- an RR of the zone -/
  | rr (rec : DnsRecord)

/-- A record that is sent, and the tags in force behind it. -/
structure SentRr where
  wire : DnsRecord
  kind : SentKind
  tags : Xext

/-- `xext_emit_blob`. -/
def xextEmitBlob (zone : Text) (type : UInt16) (data : List UInt8) : Option DnsRecord :=
  if data.length > 0xFFFF then none
  else
    some { name := zone, typeCode := type, classVal := classKaridnsExt, classStr := ascii "KARIDNS"
           rdata := [], generic := some data }

/-- The marker that makes `tag` the tag in force, `current` being the one before. -/
def xextMarker (zone : Text) (type : UInt16) (tag current : Text) (x' : Xext) :
    Option (List SentRr) :=
  if strcaseeq tag current then some []
  else (xextEmitBlob zone type tag).map fun m => [⟨m, .state, x'⟩]

/-- `xext_select`. A tag that is in force but for the case of letters stays. -/
def xextSelect (zone : Text) (x : Xext) (locTag ecsTag : Option Text) :
    Option (List SentRr × Xext) :=
  let loc := locTag.getD []
  let ecs := ecsTag.getD []
  let x₁ := if strcaseeq loc x.curLoc then x else { x with curLoc := loc }
  let x₂ := if strcaseeq ecs x₁.curEcs then x₁ else { x₁ with curEcs := ecs }
  match xextMarker zone 65401 loc x.curLoc x₁, xextMarker zone 65402 ecs x₁.curEcs x₂ with
  | some a, some b => some (a ++ b, x₂)
  | _, _ => none

/-- `xext_finish`: no tag is in force any more. -/
def xextFinish (zone : Text) (x : Xext) : Option (List SentRr × Xext) := xextSelect zone x none none

/-! ### Wrappers -/

/-- `xext_rr_is_tinydns`. -/
def xextRrIsTinydns (rec : DnsRecord) : Bool := rec.tinydnsLoc != (0, 0) || rec.tinydnsTtd != 0

/-- Eight octets, the first the most significant. -/
def be64 (n : Nat) : List UInt8 := (List.range 8).map fun b => UInt8.ofNat (n / 2 ^ ((7 - b) * 8))

/-- The RDATA of a wrapper: the type, class and TTL (`head`), the location, time stamp and countdown
of `rec`, and the RDATA inside. -/
def wrapRdata (rec : DnsRecord) (head rdata : List UInt8) : List UInt8 :=
  head ++ [rec.tinydnsLoc.1, rec.tinydnsLoc.2] ++ be64 (rec.tinydnsTtd % 2 ^ 64).toNat ++
    [if rec.tinydnsTtlCountdown then 1 else 0] ++ be16 rdata.length ++ rdata

/-- `wrap_tinydns_wire` around the RR in the first `len` octets of `m`. -/
def wrapTinydnsWire (m : Buf) (len : Nat) (rec : DnsRecord) (cap : Nat) : Option DnsRecord :=
  match skipWireName m len 0 with
  | none => none
  | some p =>
    if p + 10 > len then none
    else
      let rdlen := getU16 m (p + 8)
      if p + 10 + rdlen > len ∨ 21 + rdlen > cap then none
      else
        some { name := rec.name, typeCode := 65406, classVal := classKaridnsExt
               classStr := ascii "KARIDNS", rdata := [], ttlValue := rec.ttlValue
               generic := some (wrapRdata rec (slice m p 8) (slice m (p + 10) rdlen)) }

/-- `wrap_tinydns_record` with its buffers of 4096 octets; `wrap_tinydns_image_rr` writes the
same. -/
def wrapTinydnsRecord (rec : DnsRecord) : Option DnsRecord :=
  match serializeDnsRecord 4096 rec none 0xFFFFFFFF ⟨fun _ => 0, 0, some compressCtxInit⟩ with
  | (false, _) => none
  | (true, w) => wrapTinydnsWire w.buf w.offset rec 4096

/-- The RR is to be wrapped. -/
def axfrWraps (zone : Text) (wrapApexSoa : Bool) (rec : DnsRecord) : Bool :=
  xextRrIsTinydns rec || (wrapApexSoa && isZoneSoa zone rec)

/-- `axfr_emit_zone_item` in an extended transfer: an RR whose wrapper does not fit is sent as it
is. -/
def axfrEmitZoneItem (zone : Text) (wrapApexSoa : Bool) (x : Xext) (rec : DnsRecord) :
    Option (List SentRr × Xext) :=
  match xextSelect zone x rec.bindLocationTag rec.ecsSubnetTag with
  | none => none
  | some (markers, x') =>
    let wire := if axfrWraps zone wrapApexSoa rec then (wrapTinydnsRecord rec).getD rec else rec
    some (markers ++ [⟨wire, .rr rec, x'⟩], x')

/-! ### Transfers -/

/-- What `send_axfr_response` emits, call by call. -/
inductive SendOp
  /-- `axfr_emit_record` of an SOA -/
  | soa (rec : DnsRecord)
  /-- the opening SOA and `xext_emit_soa_set` -/
  | soaSet (rec : DnsRecord) (n : Nat)
  /-- settings, tag, resolver and location definitions -/
  | define (rec : DnsRecord)
  | item (rec : DnsRecord)
  | finish

/-- One call. -/
def SendOp.send (zone : Text) (wrapApexSoa : Bool) (x : Xext) : SendOp → Option (List SentRr × Xext)
  | .soa rec => some ([⟨rec, .soa rec, x⟩], x)
  | .soaSet rec n => (xextEmitBlob zone 65409 (1 :: be16 n)).map fun m =>
    ([⟨rec, .frame, x⟩, ⟨m, .soaSet, x⟩], x)
  | .define rec => some ([⟨rec, .define, x⟩], x)
  | .item rec => axfrEmitZoneItem zone wrapApexSoa x rec
  | .finish => xextFinish zone x

/-- All calls. -/
def sendAll (zone : Text) (wrapApexSoa : Bool) : List SendOp → Xext → Option (List SentRr)
  | [], _ => some []
  | op :: ops, x =>
    match op.send zone wrapApexSoa x with
    | none => none
    | some (sent, x') => (sendAll zone wrapApexSoa ops x').map (sent ++ ·)

/-- A difference between two versions (`ixfr_txn_t`). -/
structure IxfrTxn where
  deleted : List DnsRecord
  added : List DnsRecord

/-- The first SOA is sent first, without markers, the other RRs behind it. -/
def differenceOps (recs : List DnsRecord) : List SendOp :=
  match recs.findIdx? fun r => r.typeCode == 6 with
  | none => recs.map SendOp.item
  | some k => (recs[k]?.toList.map SendOp.soa) ++ (recs.eraseIdx k).map SendOp.item

/-- An extended transfer. `frame` is the reference SOA, `defines` what is defined behind it. A full
transfer has the records in file order and, for a zone with several or restricted apex SOAs, their
number. -/
inductive ExtTransfer
  | full (frame : DnsRecord) (soaSet : Option Nat) (defines records : List DnsRecord)
  | incremental (frame : DnsRecord) (defines : List DnsRecord) (txns : List IxfrTxn)

/-- The apex SOAs are in the body of a transfer with an SOA set. -/
def ExtTransfer.wrapApexSoa : ExtTransfer → Bool
  | .full _ soaSet _ _ => soaSet.isSome
  | .incremental .. => false

/-- The calls of a transfer of `zone`. -/
def ExtTransfer.ops (zone : Text) : ExtTransfer → List SendOp
  | .full frame soaSet defines records =>
    (match soaSet with
      | none => [.soa frame]
      | some n => [.soaSet frame n]) ++ defines.map SendOp.define ++
      (records.filter fun r => soaSet.isSome || !isZoneSoa zone r).map SendOp.item ++
        [.finish, .soa frame]
  | .incremental frame defines txns =>
    -- a requester that is up to date gets the SOA alone
    if txns = [] then [.soa frame]
    else [.soa frame] ++ defines.map SendOp.define ++
      txns.flatMap (fun t => differenceOps t.deleted ++ differenceOps t.added) ++ [.soa frame]

/-- `send_axfr_response` in an extended transfer: `none` gives the transfer up. -/
def sendAxfrResponse (zone : Text) (t : ExtTransfer) : Option (List SentRr) :=
  sendAll zone t.wrapApexSoa (t.ops zone) {}

end KariDns
