import KariDns.Query.Response

/-! The resolver (`resolve_name_answer`, `find_delegation`).

One round of the loop handles one name of an alias chain: referral, exact match, ALIAS,
DNAME, wildcard, further types, negative answer, proof of denial, name servers and
addresses. A round ends with the response, or goes on with the target of an alias, at most
sixteen times.
-/

namespace KariDns

open Octets DomainName

/-! ### What the engine knows about a query -/

/-- A zone of the client's view, as this client is served from it. -/
structure ZoneEntry where
  id : Nat
  domain : Text
  image : Option ZoneImage
  /-- Not a forward or program zone. -/
  served : Bool := true
  forward : Bool := false
  /-- `allow-query` lets the client in. -/
  permitted : Bool := true
  view : ClientView := {}
  policy : AdditionalAuth := .yes
  /-- `alias_resolvers_key`, `none` for 0. -/
  aliasKey : Option Nat := none

/-- What a search for a zone gives: a zone, or one that is not in memory. -/
inductive ZoneFound
  | none
  | absent
  | entry (e : ZoneEntry)

/-- The name one label up, the root above a name of one label. -/
def parentText (name : Text) : Text :=
  match afterDot name with
  | none => ascii "."
  | some [] => ascii "."
  | some parent => parent

/-- `find_zone_for_query_ex`, given the search for the longest suffix: DS of an apex is in the zone
above. -/
def findZoneForQuery (suffix : Text → ZoneFound) (qname : Text) (qtype : UInt16) : ZoneFound :=
  match suffix qname with
  | .none => .none
  | .absent => .absent
  | .entry e =>
    if qtype ≠ 43 ∨ ¬ domainNamesMatchCi e.domain qname ∨ dnsNameLenNoRoot qname = 0 then .entry e
    else
      match suffix (parentText qname) with
      | .none => .entry e
      | .absent => .absent
      | .entry p => if p.id = e.id ∨ p.forward then .entry e else .entry p

inductive MinimalMode
  | no
  | yes
  | noAuth
  deriving DecidableEq

/-- The question, the options it is answered under, and what lies outside the engine: the zones of
the view, SHA-1, and the addresses found for ALIAS targets. -/
structure Query where
  qclass : Nat := 1
  first : UInt16
  more : List UInt16 := []
  minimal : MinimalMode := .no
  minimalAny : Bool := false
  minimalAnyTtl : Nat := 86400
  dnssecOk : Bool := false
  suffixZone : Text → ZoneFound
  sha1 : List UInt8 → List UInt8
  aliasLookup : Nat → List UInt8 → UInt16 → Option (Nat × List (List UInt8))

def Query.findZone (q : Query) : Text → UInt16 → ZoneFound := findZoneForQuery q.suffixZone

variable {σ : Type} (S : Sink σ) (q : Query) (e : ZoneEntry) (img : ZoneImage)

/-- An NS question gets the name servers and their addresses in any case. -/
def Query.mode : MinimalMode := if q.first = 2 then .no else q.minimal

def Query.glueMinimal : Bool := q.mode = .yes

/-- Signatures behind the sets of an answer, unless signatures are asked for. -/
def Query.signAnswers : Bool := q.dnssecOk && !(q.first = 46 || q.more.contains 46)

def Query.rrsigMode (type : UInt16) : RrsigMode :=
  if q.signAnswers && type ≠ 46 then .required else .none

def Query.classMatches (rr : ImageRr) : Bool := q.qclass = 255 ∨ q.qclass = rr.classVal

/-- The zone of the view that a glue target is in. -/
def Query.sibling (target : Text) : Sibling :=
  match q.findZone target 0 with
  | .none => .none
  | .absent => .absent
  | .entry s => .zone (s.id ≠ e.id) s.image s.domain s.permitted s.view.withoutEcs

def Resp.truncated (r : Resp σ) : Resp σ := { r with tc := true }

/-! ### Proofs of denial -/

/-- A record that a proof needs; `none` when the zone has no such record. -/
structure Denial where
  zone : Nat
  img : ZoneImage
  rr : Option Nat
  ttl : Option Nat := none

/-- Attach the records of a proof; false when one does not fit. -/
def attachDenials : List Denial → List (Nat × Nat) → Resp σ → Bool × Resp σ
  | [], _, r => (true, r)
  | d :: rest, attached, r =>
    match attachDenialRecord S d.zone d.img d.rr d.ttl attached r with
    | (false, _, r) => (false, r)
    | (true, attached, r) => attachDenials rest attached r

/-- The first NSEC of an owner that the client sees; one without RDATA ends the search. -/
def nsecAtOwner (v : ClientView) : List (ImageRr × Nat) → Option (Nat × Nat)
  | [] => none
  | (rr, k) :: rest =>
    if rr.type = 47 then
      if rr.rdata.length < 1 then none
      else
        match rrValid v rr with
        | none => nsecAtOwner v rest
        | some ttl => some (k, ttl)
    else nsecAtOwner v rest

/-- NSEC3 records by the name they match or cover. -/
def matchNsec3 (p : ImageN3Params) (name : Text) : Option Nat :=
  (computeNsec3Hash q.sha1 p name).bind fun h => findMatchingNsec3 img p h e.domain

def coverNsec3 (p : ImageN3Params) (name : Text) : Option Nat :=
  (computeNsec3Hash q.sha1 p name).bind fun h => findCoveringNsec3 img p h

/-- The wildcard below a name. -/
def wildcardOf (name : Text) : Text := ascii "*." ++ name

/-! ### Referrals -/

/-- The proof that a delegation has no DS. -/
def noDsDenials (id : Nat) (name : Text) : List Denial :=
  match zoneNsec3 img e.domain with
  | none =>
    match nsecAtOwner e.view (img.ownRrs id) with
    | some (k, ttl) => [⟨e.id, img, some k, some ttl⟩]
    | none => [⟨e.id, img, findCoveringNsec img name, none⟩]
  | some p =>
    match computeNsec3Hash q.sha1 p name with
    | none => []
    | some _ =>
      match matchNsec3 q e img p name with
      | some k => [⟨e.id, img, some k, none⟩]
      | none =>
        [⟨e.id, img, coverNsec3 q img p name, none⟩,
          ⟨e.id, img, matchNsec3 q e img p (findClosestEncloser img e.view name e.domain), none⟩]

/-- The addresses of the name servers of a delegation; `full` once addresses outside the delegated
zone did not fit. -/
def referralGlue (name : Text) : List (ImageRr × Nat) → Bool → Resp σ → Resp σ
  | [], _, r => r
  | (rr, _) :: rest, full, r =>
    match (if rr.type = 2 then rrTargetText rr else none) with
    | none => referralGlue name rest full r
    | some target =>
      let inDomain := domainNameIsAtOrBelow target name
      if ¬ inDomain ∧ full then referralGlue name rest full r
      else
        match appendGlueRecords S img target e.domain e.view e.policy
          (q.sibling e) q.dnssecOk r with
        | (true, r) => referralGlue name rest full r
        | (false, r) => if inDomain then r.truncated else referralGlue name rest true r

/-- The RRset of a referral or of its DS. -/
def referralSpec (type : UInt16) (mode : RrsigMode) : RrsetSpec :=
  { sec := .authority, type, qclass := 255, view := e.view.withoutEcs, mode }

/-- DS of a delegation, or the proof that there is none; false when it does not fit. -/
def referralDs (id : Nat) (name : Text) (r : Resp σ) : Bool × Resp σ :=
  if q.dnssecOk then
    match emitRrset S img (some id) (referralSpec e 43 .required) r with
    | (none, r) => (false, r)
    | (some 0, r) => attachDenials S (noDsDenials q e img id name) [] r
    | (some _, r) => (true, r)
  else (true, r)

/-- The rest of a referral behind its NS records. -/
def referralRest (id : Nat) (name : Text) (r : Resp σ) : Resp σ :=
  match referralDs S q e img id name { r with aa := false } with
  | (false, r) => r.truncated
  | (true, r) => referralGlue S q e img name (img.ownRrs id) false r

/-- The walk of `find_delegation`; a DS question skips the name it asks for. -/
def delegationWalk : Bool → List Text → Resp σ → Option (Resp σ)
  | _, [], _ => none
  | skip, name :: rest, r =>
    if name = [] ∨ domainNamesMatchCi name e.domain then none
    else
      match (if skip then none else img.findName name) with
      | none => delegationWalk false rest r
      | some id =>
        match emitRrset S img (some id) (referralSpec e 2 .none) r with
        | (none, r) => some { r with aa := false, tc := true }
        | (some 0, r) => delegationWalk false rest r
        | (some _, r) => some (referralRest S q e img id name r)

/-- `find_delegation`: the referral, if the name is at or below a zone cut. -/
def findDelegation (qname : Text) (r : Resp σ) : Option (Resp σ) :=
  if img.names = [] ∨ img.hasCut = false then none
  else delegationWalk S q e img (q.first = 43) (qname :: ancestors qname) r

/-! ### The records of one owner -/

/-- Where the answer is taken from: the owner in place of its own, whether ALIAS records are
expanded, and whether ANY gives one set only. -/
structure ScanSpec where
  owner : Option Text := none
  expandAlias : Bool := false
  oneSet : Bool := false

/-- A record was seen, one of the type asked for, the types written, the one type of a minimal
ANY. -/
structure ScanState where
  found : Bool := false
  typeMatched : Bool := false
  types : List UInt16 := []
  chosen : UInt16 := 0
  deriving DecidableEq

/-- How the records of an owner were worked through: to the end, up to an alias with its target if
it can be read, or until the packet was full. -/
inductive ScanEnd (σ : Type)
  | over (st : ScanState) (r : Resp σ)
  | cname (st : ScanState) (target : Option Text) (r : Resp σ)
  | full (r : Resp σ)

/-- The RRset of one type in the answer. -/
def answerSpec (owner : Option Text) (type : UInt16) : RrsetSpec :=
  { sec := .answer, owner, type, qclass := q.qclass, view := e.view, mode := q.rrsigMode type,
    collect := some q.glueMinimal }

/-- `rrset_type_seen` when the type is not there yet; the list has room for 64 types. -/
def typeSeen (types : List UInt16) (t : UInt16) : List UInt16 :=
  if types.length < 64 then types ++ [t] else types

/-- Phase 2, and phase 4 for the records of a wildcard. -/
def scanRrs (id : Option Nat) (spec : ScanSpec) :
    List (ImageRr × Nat) → ScanState → Resp σ → ScanEnd σ
  | [], st, r => .over st r
  | (rr, _) :: rest, st, r =>
    if ¬ q.classMatches rr ∨ rrNotServed rr then scanRrs id spec rest st r
    else
      match rrValid e.view rr with
      | none => scanRrs id spec rest st r
      | some ttl =>
        let st := { st with found := true }
        if rr.type = 5 ∧ q.first ≠ 5 ∧ q.first ≠ 255 then
          match r.writeRr S .answer img rr spec.owner ttl with
          | (false, r) => .full r.truncated
          | (true, r) =>
            match (if q.dnssecOk then
                attachCoveringRrsig S .answer img spec.owner 5 0xFFFFFFFF (img.rrsAt id) r
              else (true, r)) with
            | (false, r) => .full r.truncated
            | (true, r) => .cname st (rrTargetText rr) r
        else if spec.expandAlias ∧
          ((rr.type = typeAlias ∧ rr.classVal = 1) ∨ (q.first = 255 ∧ rr.type ≠ 5)) then
          scanRrs id spec rest st r
        else if spec.oneSet ∧ (rr.type = 46 ∨ (st.chosen ≠ 0 ∧ st.chosen ≠ rr.type)) then
          scanRrs id spec rest st r
        else
          let st := if spec.oneSet then { st with chosen := rr.type } else st
          if ¬ (q.first = 255 ∨ q.first = rr.type) ∨
            (q.first = 255 ∧ q.dnssecOk ∧ rr.type = 46) then
            scanRrs id spec rest st r
          else
            let st := { st with typeMatched := true }
            if rr.type ∈ st.types then scanRrs id spec rest st r
            else
              match emitRrset S img id (answerSpec q e spec.owner rr.type) r with
              | (none, r) => .full r.truncated
              | (some _, r) =>
                scanRrs id spec rest { st with types := typeSeen st.types rr.type } r

/-! ### ALIAS -/

/-- The records for one ALIAS target and one address type. -/
def aliasRecords (owner : Text) (type : UInt16) (ttl : Nat) (addrs : List (List UInt8)) :
    List DnsRecord :=
  addrs.map fun addr =>
    { name := owner, classVal := 1, typeCode := type, ttlValue := UInt32.ofNat ttl, rdata := [],
      generic := some addr }

/-- What the ALIAS records of an owner stand for: a list of records for each target and type that
has a result (`answer_alias`). -/
def aliasResults (key : Nat) (owner : Text) (qtype : UInt16) (rrs : List (ImageRr × Nat)) :
    List (List DnsRecord) :=
  rrs.flatMap fun v =>
    if v.1.type ≠ typeAlias ∨ v.1.classVal ≠ 1 then []
    else
      match wireNameAt v.1.rdata with
      | some (n, []) =>
        [1, 28].filterMap fun t =>
          if qtype ≠ 255 ∧ qtype ≠ t then none
          else (q.aliasLookup key (wire (fold n)) t).map fun (ttl, addrs) =>
            aliasRecords owner t (min ttl v.1.ttl) addrs
      | _ => []

/-- Write made-up records into the answer. -/
def writeSynth : List DnsRecord → Resp σ → Bool × Resp σ
  | [], r => (true, r)
  | rec :: rest, r =>
    match r.write S .answer (.synth rec) with
    | (false, r) => (false, r)
    | (true, r) => writeSynth rest r

/-- `answer_alias`: the number of records written, `none` when they do not fit, and the number of
results. -/
def answerAlias (key : Nat) (owner : Text) (qtype : UInt16)
    (rrs : List (ImageRr × Nat)) (r : Resp σ) : Option Nat × Nat × Resp σ :=
  let results := aliasResults q key owner qtype rrs
  match writeSynth S results.flatten r with
  | (true, done) => (some results.flatten.length, results.length, done)
  | (false, full) => (none, results.length, r.restore S full)

/-! ### The chain -/

/-- What one round hands to the next: the name, the names met, the zone, and the first name that a
wildcard gave an alias for, with its zone. -/
structure Chain where
  qname : Text
  visited : List Text
  entry : ZoneEntry
  firstWc : Option (Text × ZoneEntry) := none

inductive Step (σ : Type)
  | done (r : Resp σ)
  | again (c : Chain) (r : Resp σ)

/-- Follow an alias: not to a name met before, and to the zone of the view that the target is in. -/
def follow (c : Chain) (target : Text) (r : Resp σ) : Step σ :=
  if c.visited.any fun v => domainNamesMatchCi target v then .done { r with rcode := 0 }
  else
    let c := { c with
      qname := target
      visited := if c.visited.length < 16 then c.visited ++ [target] else c.visited }
    match q.findZone target q.first with
    | .absent => .done { r with crossedZone := true }
    | .none => .done r
    | .entry e =>
      if ¬ e.served then .done r
      else if e.id = c.entry.id then .again c r
      else if ¬ e.permitted then .done { r with crossedZone := true }
      else .again { c with entry := e } { r with crossedZone := true }

/-! ### DNAME -/

/-- The DNAME of the nearest ancestor that has one. -/
def dnameSearch (v : ClientView) (qname : Text) : Option (Text × Nat × ImageRr × Nat) :=
  if ¬ img.hasDname then none
  else (ancestors qname).findSome? fun parent =>
    (img.findName parent).bind fun id =>
      ((img.ownRrs id).findSome? fun (rr, _) =>
        if rr.type = 39 then (rrValid v rr).map (rr, ·) else none).map fun (rr, ttl) =>
          (parent, id, rr, ttl)

/-- The CNAME made up from a DNAME. -/
def synthCname (qname target : Text) (ttl : Nat) : DnsRecord :=
  { name := qname, classVal := 0, typeCode := 5, ttlValue := UInt32.ofNat ttl, rdata := [target] }

/-- Phase 3: the DNAME, its signatures, and the CNAME it stands for. -/
def answerDname (c : Chain) (parent : Text) (id : Nat)
    (rr : ImageRr) (ttl : Nat) (target : Text) (r : Resp σ) : Step σ :=
  match r.writeRr S .answer img rr none ttl with
  | (false, r) => .done r.truncated
  | (true, r) =>
    match (if q.dnssecOk then attachCoveringRrsig S .answer img none 39 0xFFFFFFFF (img.ownRrs id) r
      else (true, r)) with
    | (false, r) => .done r.truncated
    | (true, r) =>
      let synth := c.qname.take (c.qname.length - parent.length) ++ target
      if synth.length ≥ dnsNameTextSize ∨ readName synth = none then .done { r with rcode := 6 }
      else
        match r.write S .answer (.synth (synthCname c.qname synth ttl)) with
        | (false, r) => .done r.truncated
        | (true, r) => follow q c synth r

/-! ### Wildcards -/

/-- Phase 4: the wildcards above a name, up to the first with a record for the client, or the first
name that exists. -/
def wildcardWalk (qname : Text) : List Text → Resp σ → ScanEnd σ
  | [], r => .over {} r
  | parent :: rest, r =>
    if parent.length + 3 > dnsNameTextSize then .over {} r
    else
      let id := img.findName (wildcardOf parent)
      match scanRrs S q e img id { owner := some qname } (img.rrsAt id) {} r with
      | .over st r =>
        if st.found then .over st r
        else if nameExistsInZone img e.view parent then .over {} r
        else wildcardWalk qname rest r
      | result => result

/-! ### Further types -/

/-- The result for one further type: the number of records, `none` when they do not fit, and
whether they come from a wildcard, if wildcards were looked at. -/
def furtherWildcard (qname : Text)
    (type : UInt16) : List Text → Option Bool → Resp σ → Option Bool × Option Bool × Resp σ
  | [], wc, r => (some false, wc, r)
  | parent :: rest, wc, r =>
    if parent.length + 3 > dnsNameTextSize then (some false, wc, r)
    else
      match emitRrset S img (img.findName (wildcardOf parent))
        (answerSpec q e (some qname) type) r with
      | (none, r) => (none, some false, r)
      | (some (_ + 1), r) => (some true, some true, r)
      | (some 0, r) =>
        if nameExistsInZone img e.view parent then (some false, some false, r)
        else furtherWildcard qname type rest (some false) r

/-- One further type: the name itself, its ALIAS, its wildcard; `none` when it does not fit, else
whether there are records; and what becomes of the wildcard flag. -/
def furtherType (qname : Text)
    (aliasKey : Option Nat) (type : UInt16) (r : Resp σ) : Option Bool × Option Bool × Resp σ :=
  let id := img.findName qname
  match (if aliasKey.isSome ∧ type = typeAlias then (some 0, r)
    else emitRrset S img id (answerSpec q e none type) r) with
  | (none, r) => (none, none, r)
  | (some (_ + 1), r) => (some true, none, r)
  | (some 0, r) =>
    match (match aliasKey with
      | some key =>
        if type = 1 ∨ type = 28 then
          let (w, _, r) :=
            answerAlias S q key qname type (img.rrsAt id) { r with aliasExpanded := true }
          (w, r)
        else (some 0, r)
      | none => (some 0, r)) with
    | (none, r) => (none, none, r)
    | (some (_ + 1), r) => (some true, none, r)
    | (some 0, r) =>
      if img.hasWild then furtherWildcard S q e img qname type (ancestors qname) none r
      else (some false, none, r)

/-- Phase 6: further types in turn, until one does not fit; `j` is the number of the type. -/
def furtherTypes (qname : Text)
    (aliasKey : Option Nat) : List UInt16 → Nat → Bool → Bool → Resp σ → Bool × Bool × Resp σ
  | [], _, allMatched, wcFound, r => (allMatched, wcFound, r)
  | type :: rest, j, allMatched, wcFound, r =>
    match furtherType S q e img qname aliasKey type r with
    | (none, wc, full) =>
      (allMatched, wc.getD wcFound, { r.restore S full with glue := r.glue })
    | (some matched, wc, r) =>
      furtherTypes qname aliasKey rest (j + 1) (allMatched && matched) (wc.getD wcFound)
        { r with included := r.included ++ [j] }

/-! ### Negative answers -/

/-- Phase 7: the SOA with the TTL of negative answers; false when it does not fit. -/
def negativeSoa (r : Resp σ) : Bool × Resp σ :=
  let own := img.rrsAt (img.findName e.domain)
  match own.findSome? fun (rr, _) =>
    if rr.type = 6 then (rrValid e.view rr).map (rr, ·) else none with
  | none => (true, r)
  | some (rr, ttl) =>
    let minimum := (soaMinimum rr).getD 3600
    match r.writeRr S .authority img rr none (ttlWithOverride ttl minimum) with
    | (false, r) => (false, r)
    | (true, r) =>
      if q.dnssecOk then attachCoveringRrsig S .authority img none 6 minimum own r else (true, r)

/-- How a name was answered, for the proof. -/
structure Verdict where
  found : Bool
  allMatched : Bool
  wildcard : Bool
  ent : Bool

/-- Phase 8 with NSEC. -/
def nsecDenials (qname : Text) (v : Verdict) : List Denial :=
  let cover := findCoveringNsec img qname
  let wc := wildcardOf (findClosestEncloser img e.view qname e.domain)
  if v.found && v.wildcard then
    ⟨e.id, img, cover, none⟩ ::
      if v.allMatched then []
      else [⟨e.id, img, (img.findName wc).bind fun id => img.firstOf id 47, none⟩]
  else if v.found && !v.allMatched then
    match nsecAtOwner e.view (img.rrsAt (img.findName qname)) with
    | some (k, ttl) => [⟨e.id, img, some k, some ttl⟩]
    | none => if v.ent then [⟨e.id, img, cover, none⟩] else []
  else if !v.found then
    ⟨e.id, img, cover, none⟩ ::
      if wc.length < dnsNameTextSize ∧ ¬ cover.any (fun k => nsecCoversName img k wc) then
        [⟨e.id, img, findCoveringNsec img wc, none⟩]
      else []
  else []

/-- The closest encloser and the next closer name of a proof with NSEC3. -/
def encloserDenials (p : ImageN3Params) (v : ClientView) (qname : Text) : List Denial :=
  let encloser := findClosestEncloser img v qname e.domain
  [⟨e.id, img, matchNsec3 q e img p encloser, none⟩,
    ⟨e.id, img, (findNextCloserName qname encloser).bind (coverNsec3 q img p), none⟩]

/-- Phase 8 with NSEC3. -/
def nsec3Denials (p : ImageN3Params) (qname : Text) (v : Verdict) : List Denial :=
  let wc := wildcardOf (findClosestEncloser img e.view qname e.domain)
  if v.found && v.wildcard then
    encloserDenials q e img p e.view qname ++
      if v.allMatched then [] else [⟨e.id, img, matchNsec3 q e img p wc, none⟩]
  else if v.found && !v.allMatched then [⟨e.id, img, matchNsec3 q e img p qname, none⟩]
  else if !v.found then
    encloserDenials q e img p e.view qname ++ [⟨e.id, img, coverNsec3 q img p wc, none⟩]
  else []

/-- The proof for the first alias that came from a wildcard, with the client's view of the last
zone. -/
def aliasDenials (v : ClientView) : Option (Text × ZoneEntry) → List Denial
  | none => []
  | some (name, e) =>
    match e.image with
    | none => []
    | some img =>
      match zoneNsec3 img e.domain with
      | none => [⟨e.id, img, findCoveringNsec img name, none⟩]
      | some p => encloserDenials q e img p v name

/-- Phase 8. -/
def denials (qname : Text) (v : Verdict) (firstWc : Option (Text × ZoneEntry)) : List Denial :=
  if ¬ q.dnssecOk then []
  else
    (match zoneNsec3 img e.domain with
      | none => nsecDenials e img qname v
      | some p => nsec3Denials q e img p qname v) ++ aliasDenials q e.view firstWc

/-! ### The end of an answer -/

/-- Phase 10: addresses of the targets, until one does not fit. -/
def additionalGlue : List Text → Resp σ → Resp σ
  | [], r => r
  | target :: rest, r =>
    match appendGlueRecords S img target e.domain e.view e.policy (q.sibling e) q.dnssecOk r with
    | (true, r) => additionalGlue rest r
    | (false, r) => { r with additionalCut := true }

/-- Phases 9 and 10. -/
def finishAnswer (typeMatched : Bool) (r : Resp σ) : Resp σ :=
  match (if typeMatched ∧ q.mode = .no ∧ q.first ≠ 2 ∧ q.first ≠ 255 then
      emitRrset S img (img.findName e.domain)
        { sec := .authority, type := 2, qclass := 255, view := e.view.withoutEcs,
          mode := if q.dnssecOk then .required else .none, collect := some q.glueMinimal } r
    else (some 0, r)) with
  | (none, r) => r.truncated
  | (some _, r) =>
    if q.mode ≠ .yes ∧ e.policy ≠ .no then additionalGlue S q e img r.glue r else r

/-- Phases 6 to 10, for a name that no alias leads on from. -/
def answerName (c : Chain) (img : ZoneImage) (aliasKey : Option Nat)
    (st : ScanState) (wcFound : Bool) (r : Resp σ) : Resp σ :=
  let e := c.entry
  let (allMatched, wcFound, r) :=
    if st.found then furtherTypes S q e img c.qname aliasKey q.more 1 st.typeMatched wcFound r
    else (st.typeMatched, wcFound, r)
  let ent := !st.found && nameExistsInZone img e.view c.qname
  let found := st.found || ent
  match (if found ∧ st.typeMatched then (true, r)
    else negativeSoa S q e img { r with rcode := if found then 0 else 3 }) with
  | (false, r) => r.truncated
  | (true, r) =>
    let v : Verdict := ⟨found, allMatched && !ent, wcFound, ent⟩
    match attachDenials S (denials q e img c.qname v c.firstWc) [] r with
    | (false, full) => (r.restore S full).truncated
    | (true, r) => finishAnswer S q e img st.typeMatched r

/-! ### One round -/

/-- The synthesized answer to ANY (RFC 8482), its TTL printed. -/
def hinfoRecord (qname : Text) (ttl : Nat) : DnsRecord :=
  { name := qname, classVal := 0, typeCode := 13, ttl := decimal ttl,
    rdata := [ascii "RFC8482", []] }

/-- The records that a minimal ANY looks at. -/
def anyRrs (v : ClientView) (rrs : List (ImageRr × Nat)) : List ImageRr :=
  (rrs.filter fun r => !rrNotServed r.1 && (rrValid v r.1).isSome).map (·.1)

/-- A minimal ANY is answered with one set: the zone is signed and the client wants signatures. -/
def Query.oneSet (rrs : List (ImageRr × Nat)) : Bool :=
  q.first = 255 && q.minimalAny && q.dnssecOk && (anyRrs e.view rrs).any fun rr => rr.type = 46

/-- A minimal ANY is answered with HINFO. -/
def Query.hinfo (rrs : List (ImageRr × Nat)) : Bool :=
  q.first = 255 && q.minimalAny && anyRrs e.view rrs ≠ [] &&
    !((anyRrs e.view rrs).any fun rr => rr.type = 5) && !q.oneSet e rrs

/-- The response with nothing written, SERVFAIL. -/
def Resp.servfail (init r : Resp σ) : Resp σ := { init.restore S r with rcode := 2 }

/-- Phases 3 and 4 and what follows them, for a name without records. -/
def answerMissing (c : Chain) (img : ZoneImage) (aliasKey : Option Nat) (r : Resp σ) : Step σ :=
  let e := c.entry
  match dnameSearch img e.view c.qname with
  | some (parent, id, rr, ttl) =>
    match rrTargetText rr with
    | some target => answerDname S q img c parent id rr ttl target r
    | none => .done (answerName S q c img aliasKey {} false r)
  | none =>
    if img.hasWild ∧ ¬ nameExistsInZone img e.view c.qname then
      match wildcardWalk S q e img c.qname (ancestors c.qname) r with
      | .full r => .done r
      | .over st r => .done (answerName S q c img aliasKey st st.found r)
      | .cname st target r =>
        let c := { c with firstWc := c.firstWc.or (some (c.qname, e)) }
        match target with
        | some target => follow q c target r
        | none => .done (answerName S q c img aliasKey st true r)
    else .done (answerName S q c img aliasKey {} false r)

/-- Phase 2 and what follows it. -/
def answerFrom (init : Resp σ) (c : Chain) (img : ZoneImage) (r : Resp σ) : Step σ :=
  let e := c.entry
  let id := img.findName c.qname
  let own := img.rrsAt id
  let aliasKey := if (id.bind (img.names[·]?)).any (·.isAlias) ∧
    (q.qclass = 1 ∨ q.qclass = 255) then e.aliasKey
    else none
  if q.hinfo e own then
    match r.write S .answer (.synth (hinfoRecord c.qname q.minimalAnyTtl)) with
    | (false, r) => .done r.truncated
    | (true, r) => .done r
  else
    match scanRrs S q e img id
        { expandAlias := aliasKey.isSome, oneSet := q.oneSet e own } own {} r with
    | .full r => .done r
    | .cname _ (some target) r => follow q c target r
    | .cname st none r => expanded init c img aliasKey own st r
    | .over st r => expanded init c img aliasKey own st r
where
  /-- The expansion of ALIAS behind phase 2. -/
  expanded (init : Resp σ) (c : Chain) (img : ZoneImage) (aliasKey : Option Nat)
      (own : List (ImageRr × Nat)) (st : ScanState) (r : Resp σ) : Step σ :=
    match aliasKey.filter fun _ =>
      st.found && !st.typeMatched && (q.first = 1 || q.first = 28 || q.first = 255) with
    | some key =>
      match answerAlias S q key c.qname q.first own { r with aliasExpanded := true } with
      | (none, _, r) => .done r.truncated
      | (some _, 0, r) => .done (init.servfail S r)
      | (some w, _, r) =>
        .done (answerName S q c img aliasKey { st with typeMatched := w > 0 } false r)
    | none =>
      if st.found then .done (answerName S q c img aliasKey st false r)
      else answerMissing S q c img aliasKey r

/-- One round of the loop; only the query's own zone (`depth` 0) is served without a visible SOA. -/
def resolveStep (init : Resp σ) (depth : Nat) (c : Chain) (r : Resp σ) : Step σ :=
  match c.entry.image with
  | none => .done (init.servfail S r)
  | some img =>
    if depth > 0 ∧ img.soaAttr ∧ img.visibleSoa c.entry.view = none then .done r
    else
      match findDelegation S q c.entry img c.qname r with
      | some r => .done r
      | none => answerFrom S q init c img r

/-- The loop; an alias chain that is still going on ends with the aliases found. -/
def resolveLoop (init : Resp σ) : Nat → Nat → Chain → Resp σ → Resp σ
  | 0, _, _, r =>
    if r.answer.length > init.answer.length then { r with rcode := 0 } else init.servfail S r
  | fuel + 1, depth, c, r =>
    match resolveStep S q init depth c r with
    | .done r => r
    | .again c r => resolveLoop init fuel (depth + 1) c r

/-- `resolve_name_answer`. -/
def resolveName (qname : Text) (r : Resp σ) : Resp σ :=
  resolveLoop S q r 16 0 { qname, visited := [qname], entry := e } r

end KariDns
