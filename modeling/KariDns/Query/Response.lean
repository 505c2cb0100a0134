import KariDns.Query.Lookup
import KariDns.Image.Serialize

/-! A response under construction.

The engine writes records one by one into a packet that may be full, and takes back what it
wrote when a set does not fit. `Sink` is what it needs of the packet, `Resp` the response:
the sink, and section by section the records that stand in it.
-/

namespace KariDns

open Octets DomainName

/-! ### Records and where they go -/

/-- A record for the packet: one of an image, with an owner in place of its own for a wildcard, or
one made up for the answer. -/
inductive Emit
  | rr (nm : ImageName) (rr : ImageRr) (owner : Option Text) (ttl : Nat)
  | synth (rec : DnsRecord)
  deriving DecidableEq

/-- A packet that takes records: `put` tells whether the record fits, `rollback` goes back to an
earlier write position. -/
structure Sink (σ : Type) where
  put : σ → Emit → Bool × σ
  rollback : σ → σ → σ

/-- A packet of `maxLen` octets. -/
def packetPut (maxLen : Nat) (w : Out) : Emit → Bool × Out
  | .rr nm rr owner ttl =>
    if isMetaRrtype rr.type.toNat then (false, w)
    else
      writeRecord maxLen
        (recordHead (imageOwnerScript w.ctx.isSome nm rr owner) rr.type.toNat rr.classVal
          (min ttl 0x7FFFFFFF))
        (imageRdataScript w.ctx.isSome rr) w
  | .synth rec => serializeDnsRecord maxLen rec none 0xFFFFFFFF w

/-- The packet of a query; going back leaves the octets and the compression table as they are. -/
def packetSink (maxLen : Nat) : Sink Out where
  put := packetPut maxLen
  rollback saved now := { now with offset := saved.offset }

/-- A packet that takes every record. -/
def roomySink : Sink Unit where
  put _ _ := (true, ())
  rollback _ _ := ()

/-! ### The response -/

inductive Section
  | answer
  | authority
  | additional
  deriving DecidableEq

/-- The packet, the records of each section, the glue targets met so far, the flags AA and TC, the
RCODE, and what the engine remembers for the response cache. -/
structure Resp (σ : Type) where
  sink : σ
  answer : List Emit := []
  authority : List Emit := []
  additional : List Emit := []
  glue : List Text := []
  aa : Bool := true
  tc : Bool := false
  rcode : Nat := 0
  included : List Nat := []
  crossedZone : Bool := false
  additionalCut : Bool := false
  siblingGlue : Bool := false
  aliasExpanded : Bool := false

variable {σ : Type}

def Resp.add (r : Resp σ) (e : Emit) : Section → Resp σ
  | .answer => { r with answer := r.answer ++ [e] }
  | .authority => { r with authority := r.authority ++ [e] }
  | .additional => { r with additional := r.additional ++ [e] }

variable (S : Sink σ) (img : ZoneImage)

/-- Write one record. -/
def Resp.write (sec : Section) (e : Emit) (r : Resp σ) : Bool × Resp σ :=
  match S.put r.sink e with
  | (true, s) => (true, { r with sink := s }.add e sec)
  | (false, s) => (false, { r with sink := s })

/-- Go back to the records and the write position of `saved`. -/
def Resp.restore (saved r : Resp σ) : Resp σ :=
  { r with
    sink := S.rollback saved.sink r.sink
    answer := saved.answer
    authority := saved.authority
    additional := saved.additional }

/-- Write a record of an image. -/
def Resp.writeRr (sec : Section) (img : ZoneImage) (rr : ImageRr) (owner : Option Text)
    (ttl : Nat) (r : Resp σ) : Bool × Resp σ :=
  match img.names[rr.nameId]? with
  | none => (false, r)
  | some nm => r.write S sec (.rr nm rr owner ttl)

/-! ### RRsets -/

/-- `attach_covering_rrsig_ext`: the signatures of an owner over a type; false when one does not
fit. -/
def attachCoveringRrsig (S : Sink σ) (sec : Section) (img : ZoneImage) (owner : Option Text)
    (covered : Nat) (overrideTtl : Nat) : List (ImageRr × Nat) → Resp σ → Bool × Resp σ
  | [], r => (true, r)
  | (rr, _) :: rest, r =>
    if rr.type = 46 ∧ rrsigCovered rr = some covered then
      match r.writeRr S sec img rr owner (ttlWithOverride rr.ttl overrideTtl) with
      | (false, r) => (false, r)
      | (true, r) => attachCoveringRrsig S sec img owner covered overrideTtl rest r
    else attachCoveringRrsig S sec img owner covered overrideTtl rest r

/-- `collect_additional_rr_glue`: at most sixteen targets, each once. -/
def collectGlue (minimal : Bool) (rr : ImageRr) (glue : List Text) : List Text :=
  if minimal ∨ ¬ (rr.type = 15 ∨ rr.type = 33 ∨ rr.type = 2) then glue
  else
    match rrTargetText rr with
    | none => glue
    | some t =>
      if glue.any fun u => strcaseeq u t then glue
      else if glue.length < 16 then glue ++ [t]
      else glue

/-- How an RRset is signed: not at all, or it must be, or it may. -/
inductive RrsigMode
  | none
  | required
  | optional
  deriving DecidableEq

/-- What an RRset is written with: the section, the owner in place of its own, the type, the class
(255 is any), the view, the signatures, and whether its targets are collected and then whether
they are left aside. -/
structure RrsetSpec where
  sec : Section
  owner : Option Text := none
  type : UInt16
  qclass : Nat
  view : ClientView
  mode : RrsigMode
  collect : Option Bool := none

/-- The record is written as part of the RRset, with this TTL. -/
def RrsetSpec.serves (spec : RrsetSpec) (rr : ImageRr) : Option Nat :=
  if rr.type ≠ spec.type ∨ rrNotServed rr ∨
    ¬ (spec.qclass = 255 ∨ spec.qclass = rr.classVal) then none
  else rrValid spec.view rr

/-- The records of `emit_rrset`; `none` when one does not fit. -/
def emitLoop (S : Sink σ) (img : ZoneImage) (spec : RrsetSpec) :
    List (ImageRr × Nat) → Nat → Resp σ → Option Nat × Resp σ
  | [], written, r => (some written, r)
  | (rr, _) :: rest, written, r =>
    match spec.serves rr with
    | none => emitLoop S img spec rest written r
    | some ttl =>
      match r.writeRr S spec.sec img rr spec.owner ttl with
      | (false, r) => (none, r)
      | (true, r) =>
        let r := match spec.collect with
          | none => r
          | some minimal => { r with glue := collectGlue minimal rr r.glue }
        -- a zone with restricted SOA records answers with the first one the client sees
        if spec.type = 6 ∧ img.soaAttr then (some (written + 1), r)
        else emitLoop S img spec rest (written + 1) r

/-- `emit_rrset`: the number of records written; `none` when the set, or signatures it must have,
do not fit. -/
def emitRrset (id : Option Nat) (spec : RrsetSpec) (r : Resp σ) : Option Nat × Resp σ :=
  match emitLoop S img spec (img.rrsAt id) 0 r with
  | (none, full) => (none, r.restore S full)
  | (some written, done) =>
    if written = 0 ∨ spec.mode = .none ∨ spec.type = 46 then (some written, done)
    else
      match attachCoveringRrsig S spec.sec img spec.owner spec.type.toNat 0xFFFFFFFF
        (img.rrsAt id) done with
      | (true, signed) => (some written, signed)
      | (false, full) =>
        (if spec.mode = .required then none else some written, done.restore S full)

/-! ### Additional records -/

/-- `additional-from-auth`. -/
inductive AdditionalAuth
  | no
  | inDomain
  | yes
  deriving DecidableEq

/-- `name_is_authoritative`: no zone cut between a name and the apex. -/
def nameIsAuthoritative (name apex : Text) : Bool :=
  domainNameIsAtOrBelow name apex &&
    (((name :: ancestors name).filter (· ≠ [])).takeWhile fun n => !domainNamesMatchCi n apex).all
      fun n => ((img.findName n).bind fun id => img.firstOf id 2).isNone

/-- A set of addresses; signed if it fits, in a zone that speaks for the name. -/
def addressSpec (apex target : Text) (dnssecOk : Bool) (view : ClientView)
    (type : UInt16) : RrsetSpec :=
  { sec := .additional, type, qclass := 255, view,
    mode := if dnssecOk && nameIsAuthoritative img target apex then RrsigMode.optional else .none }

/-- `append_additional_from_zone`: A, then AAAA; the number of records, `none` when a set does not
fit. -/
def appendAdditionalFromZone (apex target : Text) (id : Option Nat)
    (dnssecOk : Bool) (view : ClientView) (r : Resp σ) : Option Nat × Resp σ :=
  if id = none then (some 0, r)
  else
    match emitRrset S img id (addressSpec img apex target dnssecOk view 1) r with
    | (none, r) => (none, r)
    | (some a, r) =>
      match emitRrset S img id (addressSpec img apex target dnssecOk view 28) r with
      | (none, r) => (none, r)
      | (some b, r) => (some (a + b), r)

/-- The prelinked addresses of a target: the first 32 address records of the owner. -/
def linkedAddresses (id : Nat) : List (ImageRr × Nat) :=
  ((img.ownRrs id).filter fun v => v.1.type = 1 ∨ v.1.type = 28).take 32

/-- The records of the prelinked glue; false when one does not fit. -/
def appendLinked (S : Sink σ) (img : ZoneImage) (view : ClientView) :
    List (ImageRr × Nat) → Resp σ → Bool × Resp σ
  | [], r => (true, r)
  | (rr, _) :: rest, r =>
    match rrValid view rr with
    | none => appendLinked S img view rest r
    | some ttl =>
      match r.writeRr S .additional img rr none ttl with
      | (false, r) => (false, r)
      | (true, r) => appendLinked S img view rest r

/-- What the view holds for a target that this zone has no address of: another zone, or one that is
not in memory. -/
inductive Sibling
  | none
  | absent
  /-- `other` unless it is this very zone; the client may query it, sees it as `view`. -/
  | zone (other : Bool) (image : Option ZoneImage) (apex : Text) (permitted : Bool)
    (view : ClientView)

/-- Part 3 of `append_glue_records`: a zone of the view next to this one. -/
def appendFromSibling (target : Text) (dnssecOk : Bool) (sib : Sibling) (r : Resp σ) :
    Bool × Resp σ :=
  match sib with
  | .none => (true, r)
  | .absent => (true, { r with siblingGlue := true })
  | .zone other image apex permitted view =>
    let r := if other then { r with siblingGlue := true } else r
    match image with
    | none => (true, r)
    | some img =>
      if ¬ other ∨ ¬ permitted then (true, r)
      else if img.soaAttr ∧ img.visibleSoa view = .none then (true, r)
      else
        match appendAdditionalFromZone S img apex target
          (img.findName target) dnssecOk view.withoutEcs r with
        | (.none, r) => (false, r)
        | (some _, r) => (true, r)

/-- `append_glue_records`: the addresses of a target; false when they do not fit. -/
def appendGlueRecords (target apex : Text) (view : ClientView) (policy : AdditionalAuth)
    (sib : Text → Sibling) (dnssecOk : Bool) (r : Resp σ) : Bool × Resp σ :=
  if policy = .no then (true, r)
  else
    let id := img.findName target
    let inZone := policy ≠ .inDomain ∨ domainNameIsAtOrBelow target apex
    let linked := id.filter fun i => (img.names[i]?).any (·.glue)
    match (if dnssecOk = false ∧ inZone then linked else none) with
    | some i =>
      match appendLinked S img view.withoutEcs (linkedAddresses img i) r with
      | (true, done) => (true, done)
      | (false, full) => (false, r.restore S full)
    | none =>
      if ¬ inZone then (true, r)
      else
        match appendAdditionalFromZone S img apex target id dnssecOk view.withoutEcs r with
        | (none, r) => (false, r)
        | (some w, r) =>
          if w > 0 ∨ policy ≠ .yes then (true, r)
          else appendFromSibling S target dnssecOk (sib target) r

/-! ### Denial -/

/-- `attach_denial_record`: the record at place `k` of an image and its signatures, once; `attached`
holds what was written before, by zone and place. -/
def attachDenialRecord (zone : Nat) (img : ZoneImage) (k : Option Nat) (ttl : Option Nat)
    (attached : List (Nat × Nat)) (r : Resp σ) : Bool × List (Nat × Nat) × Resp σ :=
  match k.bind fun k => (img.rrs[k]?).map (k, ·) with
  | none => (true, attached, r)
  | some (k, rr) =>
    if (zone, k) ∈ attached then (true, attached, r)
    else
      let attached := if attached.length < 8 then attached ++ [(zone, k)] else attached
      match r.writeRr S .authority img rr none (ttl.getD rr.ttl) with
      | (false, r) => (false, attached, r)
      | (true, r) =>
        let (ok, r) := attachCoveringRrsig S .authority img none rr.type.toNat 0xFFFFFFFF
          (img.rrsAt (some rr.nameId)) r
        (ok, attached, r)

end KariDns
