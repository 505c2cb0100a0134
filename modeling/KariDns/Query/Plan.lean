import KariDns.Query.Chunks

/-! What a round of the resolver means to answer.

`roundPlan` says, from the zone and the question alone, which chunks a round puts into the
Answer section and how it goes on. For every packet the round writes them and goes on as
planned, or ends with a truncated response that holds some of them (`answerFrom_writes`).
-/

namespace KariDns

open Octets DomainName List Option

variable {σ : Type}

/-! ### The records of one owner -/

/-- The types whose sets are written, the alias that ends the scan with its TTL, and the state in
which it ends. -/
structure ScanPlan where
  st : ScanState
  types : List UInt16 := []
  cname : Option (ImageRr × Nat) := none

/-- What `scanRrs` does, without the packet. -/
def scanPlan (q : Query) (e : ZoneEntry) (spec : ScanSpec) :
    List (ImageRr × Nat) → ScanState → ScanPlan
  | [], st => { st }
  | (rr, _) :: rest, st =>
    if ¬ q.classMatches rr ∨ rrNotServed rr then scanPlan q e spec rest st
    else
      match rrValid e.view rr with
      | none => scanPlan q e spec rest st
      | some ttl =>
        let st := { st with found := true }
        if rr.type = 5 ∧ q.first ≠ 5 ∧ q.first ≠ 255 then { st, cname := some (rr, ttl) }
        else if spec.expandAlias ∧
          ((rr.type = typeAlias ∧ rr.classVal = 1) ∨ (q.first = 255 ∧ rr.type ≠ 5)) then
          scanPlan q e spec rest st
        else if spec.oneSet ∧ (rr.type = 46 ∨ (st.chosen ≠ 0 ∧ st.chosen ≠ rr.type)) then
          scanPlan q e spec rest st
        else
          let st := if spec.oneSet then { st with chosen := rr.type } else st
          if ¬ (q.first = 255 ∨ q.first = rr.type) ∨
            (q.first = 255 ∧ q.dnssecOk ∧ rr.type = 46) then
            scanPlan q e spec rest st
          else
            let st := { st with typeMatched := true }
            if rr.type ∈ st.types then scanPlan q e spec rest st
            else
              let p := scanPlan q e spec rest { st with types := typeSeen st.types rr.type }
              { p with types := rr.type :: p.types }

/-- An alias with its signatures. -/
def cnameChunks (q : Query) (img : ZoneImage) (id : Option Nat) (owner : Option Text) (rr : ImageRr)
    (ttl : Nat) : List (List Emit) :=
  img.emit rr owner ttl ::
    if q.dnssecOk then sigChunks img owner 5 0xFFFFFFFF (img.rrsAt id) else []

/-- The chunks of a plan. -/
def ScanPlan.chunks (p : ScanPlan) (q : Query) (e : ZoneEntry) (img : ZoneImage) (id : Option Nat)
    (owner : Option Text) : List (List Emit) :=
  (p.types.flatMap fun t => (answerSpec q e owner t).chunks img (img.rrsAt id)) ++
    (p.cname.map fun v => cnameChunks q img id owner v.1 v.2).getD []

/-- How the scan ends when everything fits. -/
def ScanPlan.ended (p : ScanPlan) (r : Resp σ) : ScanEnd σ :=
  match p.cname with
  | none => .over p.st r
  | some (rr, _) => .cname p.st (rrTargetText rr) r

lemma answerSpec_mode (q : Query) (e : ZoneEntry) (owner : Option Text) (t : UInt16) :
    (answerSpec q e owner t).mode ≠ .optional := by
  simp only [answerSpec, Query.rrsigMode]
  split <;> simp

section Scan

variable (S : Sink σ) (q : Query) (e : ZoneEntry) {img : ZoneImage} (id : Option Nat)
    (spec : ScanSpec)

/-- The alias of an owner. -/
lemma writeCname_writes (h : img.Loaded) {rr : ImageRr} {nm : ImageName}
    (hnm : img.names[rr.nameId]? = some nm) (ttl : Nat) (st : ScanState) (r : Resp σ) :
    ∃ ok r', Writes S .answer (cnameChunks q img id spec.owner rr ttl) ok r r' ∧
      (match r.writeRr S .answer img rr spec.owner ttl with
        | (false, r) => ScanEnd.full r.truncated
        | (true, r) =>
          match (if q.dnssecOk then
              attachCoveringRrsig S .answer img spec.owner 5 0xFFFFFFFF (img.rrsAt id) r
            else (true, r)) with
          | (false, r) => .full r.truncated
          | (true, r) => .cname st (rrTargetText rr) r) =
        if ok then .cname st (rrTargetText rr) r' else .full r'.truncated := by
  have hw := writeRr_writes hnm S .answer spec.owner ttl r
  rw [cnameChunks, ← singleton_append]
  generalize r.writeRr S .answer img rr spec.owner ttl = res at hw ⊢
  obtain ⟨_ | _, r₁⟩ := res
  · exact ⟨false, r₁, hw.stop (sublist_append_left _ _), rfl⟩
  by_cases hdo : q.dnssecOk = true
  · have hsig := attachCoveringRrsig_writes S spec.owner 5 0xFFFFFFFF .answer (h.holds id) r₁
    simp only [hdo, if_true]
    generalize attachCoveringRrsig S .answer img spec.owner 5 0xFFFFFFFF
      (img.rrsAt id) r₁ = res at hsig ⊢
    obtain ⟨_ | _, r₂⟩ := res <;> exact ⟨_, r₂, hw.seq hsig, rfl⟩
  · simp only [hdo]
    exact ⟨true, r₁, hw.seq (.nil _ _ _), rfl⟩

/-- The scan of an owner's records follows its plan. -/
lemma scanRrs_writes (h : img.Loaded) :
    ∀ {l : List (ImageRr × Nat)}, img.Holds l → ∀ (st : ScanState) (r : Resp σ),
    ∃ ok r', Writes S .answer ((scanPlan q e spec l st).chunks q e img id spec.owner) ok r r' ∧
      scanRrs S q e img id spec l st r = if ok then (scanPlan q e spec l st).ended r'
        else .full r'.truncated
  | [], _, st, r => ⟨true, r, .nil _ _ _, rfl⟩
  | (rr, k) :: l, hl, st, r => by
    have ih := scanRrs_writes h fun v hv => hl v (mem_cons_of_mem _ hv)
    obtain ⟨nm, hnm⟩ := hl (rr, k) mem_cons_self
    rw [scanRrs, scanPlan]
    by_cases hcls : ¬ q.classMatches rr ∨ rrNotServed rr
    · rw [if_pos hcls, if_pos hcls]
      exact ih st r
    rw [if_neg hcls, if_neg hcls]
    cases hv : rrValid e.view rr with
    | none => exact ih st r
    | some ttl =>
      dsimp only
      by_cases hcn : rr.type = 5 ∧ q.first ≠ 5 ∧ q.first ≠ 255
      · rw [if_pos hcn, if_pos hcn]
        exact writeCname_writes S q id spec h hnm ttl _ r
      rw [if_neg hcn, if_neg hcn]
      by_cases hexp : spec.expandAlias ∧
        ((rr.type = typeAlias ∧ rr.classVal = 1) ∨ (q.first = 255 ∧ rr.type ≠ 5))
      · rw [if_pos hexp, if_pos hexp]
        exact ih _ r
      rw [if_neg hexp, if_neg hexp]
      by_cases hone : spec.oneSet ∧ (rr.type = 46 ∨ (st.chosen ≠ 0 ∧ st.chosen ≠ rr.type))
      · rw [if_pos hone, if_pos hone]
        exact ih _ r
      rw [if_neg hone, if_neg hone]
      -- the state with the one type of a minimal ANY
      generalize (if spec.oneSet = true then { { st with found := true } with chosen := rr.type }
        else { st with found := true } : ScanState) = st'
      by_cases htype : ¬ (q.first = 255 ∨ q.first = rr.type) ∨
        (q.first = 255 ∧ q.dnssecOk ∧ rr.type = 46)
      · rw [if_pos htype, if_pos htype]
        exact ih _ r
      rw [if_neg htype, if_neg htype]
      by_cases hseen : rr.type ∈ st'.types
      · rw [if_pos hseen, if_pos hseen]
        exact ih _ r
      rw [if_neg hseen, if_neg hseen]
      obtain ⟨ok, hw, hres⟩ := emitRrset_writes S (answerSpec q e spec.owner rr.type) (h.holds id)
        (answerSpec_mode q e spec.owner rr.type) r
      rcases hemit : emitRrset S img id (answerSpec q e spec.owner rr.type) r with ⟨o, r₁⟩
      rw [hemit] at hw hres
      simp only at hres
      cases ok with
      | false =>
        refine ⟨false, r₁, hw.stop ?_, by rw [hres]; rfl⟩
        rw [ScanPlan.chunks, flatMap_cons, append_assoc]
        exact sublist_append_left _ _
      | true =>
        obtain ⟨ok, r₂, hw', hres'⟩ := ih
          { { st' with typeMatched := true } with types := typeSeen st'.types rr.type } r₁
        refine ⟨ok, r₂, ?_, by rw [hres]; exact hres'⟩
        rw [ScanPlan.chunks, flatMap_cons, append_assoc]
        exact hw.seq hw'

end Scan

/-- The client sees a record and the question's class is its class. -/
def Query.sees (q : Query) (e : ZoneEntry) (rr : ImageRr) : Bool :=
  q.classMatches rr && !rrNotServed rr && (rrValid e.view rr).isSome

/-- The question is for the type of a record. -/
def Query.wants (q : Query) (rr : ImageRr) : Bool :=
  (q.first = 255 ∨ q.first = rr.type) ∧ ¬ (q.first = 255 ∧ q.dnssecOk ∧ rr.type = 46)

/-- An alias is followed, unless aliases or all types are asked for. -/
def Query.follows (q : Query) : Bool := q.first ≠ 5 && q.first ≠ 255

section Found

variable (q : Query) (e : ZoneEntry) (spec : ScanSpec)

/-- A record that brings its set into the answer. -/
def takes (rr : ImageRr) : Bool :=
  q.sees e rr && q.wants rr &&
    ¬ (spec.expandAlias ∧ ((rr.type = typeAlias ∧ rr.classVal = 1) ∨ (q.first = 255 ∧ rr.type ≠ 5)))

/-- What one record does to the plan, `next` being that of the others: nothing if the client does
not see it, an alias ends it, a record that is not taken or was before is passed, any other brings
its set. -/
inductive ScanStep (rr : ImageRr) (st : ScanState) (next : ScanState → ScanPlan)
    (p : ScanPlan) : Prop
  | hidden (hs : q.sees e rr = false) (hp : p = next st)
  | alias {ttl : Nat} (hs : q.sees e rr = true) (h5 : rr.type = 5) (hf : q.follows = true)
      (hv : rrValid e.view rr = some ttl)
        (hp : p = { st := { st with found := true }, cname := some (rr, ttl) })
  | passed (st' : ScanState) (hs : q.sees e rr = true) (hno : ¬ (rr.type = 5 ∧ q.follows = true))
      (found : st'.found = true) (types : st'.types = st.types)
      (matched : st'.typeMatched = st.typeMatched ∧
        (spec.oneSet = true ∨ takes q e spec rr = false) ∨
        st'.typeMatched = true ∧ takes q e spec rr = true ∧ rr.type ∈ st.types) (hp : p = next st')
  | taken (st' : ScanState) (htake : takes q e spec rr = true) (found : st'.found = true)
      (matched : st'.typeMatched = true) (types : st'.types = typeSeen st.types rr.type)
      (hp : p = { next st' with types := rr.type :: (next st').types })

lemma scanPlan_step (rr : ImageRr) (k : Nat) (l : List (ImageRr × Nat)) (st : ScanState) :
    ScanStep q e spec rr st (scanPlan q e spec l) (scanPlan q e spec ((rr, k) :: l) st) := by
  rw [scanPlan]
  by_cases hcls : ¬ q.classMatches rr ∨ rrNotServed rr
  · rw [if_pos hcls]
    refine .hidden ?_ rfl
    rcases hcls with h | h <;> simp [Query.sees, h]
  rw [if_neg hcls]
  cases hv : rrValid e.view rr with
  | none => exact .hidden (by simp [Query.sees, hv]) rfl
  | some ttl =>
    have hsees : q.sees e rr = true := by
      rw [not_or, not_not] at hcls
      simp [Query.sees, hv, hcls]
    dsimp only
    by_cases hcn : rr.type = 5 ∧ q.first ≠ 5 ∧ q.first ≠ 255
    · rw [if_pos hcn]
      exact .alias hsees hcn.1 (by simp [Query.follows, hcn]) hv rfl
    rw [if_neg hcn]
    have hno : ¬ (rr.type = 5 ∧ q.follows = true) := by simpa [Query.follows] using hcn
    by_cases hexp : spec.expandAlias ∧
      ((rr.type = typeAlias ∧ rr.classVal = 1) ∨ (q.first = 255 ∧ rr.type ≠ 5))
    · have hskip : takes q e spec rr = false := by
        rw [takes, decide_eq_false (not_not_intro hexp), Bool.and_false]
      rw [if_pos hexp]
      exact .passed { st with found := true } hsees hno rfl rfl (.inl ⟨rfl, .inr hskip⟩) rfl
    rw [if_neg hexp]
    have htakes : takes q e spec rr = q.wants rr := by
      rw [takes, decide_eq_true hexp, hsees, Bool.and_true, Bool.true_and]
    by_cases hone : spec.oneSet ∧ (rr.type = 46 ∨ (st.chosen ≠ 0 ∧ st.chosen ≠ rr.type))
    · rw [if_pos hone]
      exact .passed { st with found := true } hsees hno rfl rfl (.inl ⟨rfl, .inl hone.1⟩) rfl
    rw [if_neg hone]
    obtain ⟨st', hfound, htypes, hmatched, hst⟩ : ∃ st' : ScanState, st'.found = true ∧
      st'.types = st.types ∧
        st'.typeMatched = st.typeMatched ∧
          (if spec.oneSet = true then { { st with found := true } with chosen := rr.type }
          else { st with found := true } : ScanState) = st' := by
      refine ⟨_, ?_, ?_, ?_, rfl⟩ <;> split <;> rfl
    rw [hst]
    by_cases htype : ¬ (q.first = 255 ∨ q.first = rr.type) ∨
      (q.first = 255 ∧ q.dnssecOk ∧ rr.type = 46)
    · have hskip : takes q e spec rr = false := by
        rw [htakes, Query.wants, decide_eq_false_iff_not]
        rintro ⟨hask, hsig⟩
        exact htype.elim (fun h => h hask) hsig
      rw [if_pos htype]
      exact .passed st' hsees hno hfound htypes (.inl ⟨hmatched, .inr hskip⟩) rfl
    have htake : takes q e spec rr = true := by
      rw [not_or, not_not] at htype
      rw [htakes, Query.wants, decide_eq_true_eq]
      exact htype
    rw [if_neg htype]
    by_cases hseen : rr.type ∈ st'.types
    · rw [if_pos hseen]
      exact .passed { st' with typeMatched := true } hsees hno hfound htypes
        (.inr ⟨rfl, htake, htypes ▸ hseen⟩) rfl
    · rw [if_neg hseen]
      exact .taken { { st' with typeMatched := true } with types := typeSeen st'.types rr.type }
        htake hfound rfl
        (by rw [← htypes]) rfl

lemma scanPlan_found : ∀ (l : List (ImageRr × Nat)) (st : ScanState), st.found = true →
    (scanPlan q e spec l st).st.found = true
  | [], st, h => h
  | (rr, k) :: l, st, h => by
    have ih := scanPlan_found l
    rcases scanPlan_step q e spec rr k l st with ⟨-, hp⟩ | ⟨-, -, -, -, hp⟩ | ⟨_, -, -, hf, -, -,
      hp⟩ | ⟨_, -, hf, -, -, hp⟩
    · rw [hp]
      exact ih st h
    · rw [hp]
    · rw [hp]
      exact ih _ hf
    · rw [hp]
      exact ih _ hf

/-- Without a record for the client nothing is written. -/
lemma scanPlan_unfound :
    ∀ (l : List (ImageRr × Nat)) {st : ScanState}, (scanPlan q e spec l st).st.found = false →
    scanPlan q e spec l st = { st }
  | [], st, _ => rfl
  | (rr, k) :: l, st, h => by
    rcases scanPlan_step q e spec rr k l st with ⟨-, hp⟩ | ⟨-, -, -, -, hp⟩ | ⟨_, -, -, hf, -, -,
      hp⟩ | ⟨_, -, hf, -, -, hp⟩
    · rw [hp] at h ⊢
      exact scanPlan_unfound l h
    · rw [hp] at h
      cases h
    · rw [hp, scanPlan_found q e spec l _ hf] at h
      cases h
    · rw [hp] at h
      exact absurd (scanPlan_found q e spec l _ hf) (by simpa using h)

end Found

/-! ### Wildcards -/

/-- The wildcard that answers for a name, and the plan of its records. -/
def wildcardPlan (q : Query) (e : ZoneEntry) (img : ZoneImage) (qname : Text) :
    List Text → Option Nat × ScanPlan
  | [] => (none, { st := {} })
  | parent :: rest =>
    if parent.length + 3 > dnsNameTextSize then (none, { st := {} })
    else
      let id := img.findName (wildcardOf parent)
      let p := scanPlan q e { owner := some qname } (img.rrsAt id) {}
      if p.st.found then (id, p)
      else if nameExistsInZone img e.view parent then (none, { st := {} })
      else wildcardPlan q e img qname rest

def wildcardChunks (q : Query) (e : ZoneEntry) (img : ZoneImage) (qname : Text)
    (parents : List Text) : List (List Emit) :=
  (wildcardPlan q e img qname parents).2.chunks q e img
    (wildcardPlan q e img qname parents).1 (some qname)

lemma wildcardWalk_writes (S : Sink σ) (q : Query) (e : ZoneEntry) {img : ZoneImage}
    (h : img.Loaded) (qname : Text) :
    ∀ (parents : List Text) (r : Resp σ), ∃ ok r', Writes S .answer
      (wildcardChunks q e img qname parents) ok r r' ∧
        wildcardWalk S q e img qname parents r =
          if ok then (wildcardPlan q e img qname parents).2.ended r' else .full r'.truncated
  | [], r => ⟨true, r, .nil _ _ _, rfl⟩
  | parent :: rest, r => by
    have ih := wildcardWalk_writes S q e h qname rest
    rw [wildcardChunks, wildcardWalk, wildcardPlan]
    by_cases hlen : parent.length + 3 > dnsNameTextSize
    · rw [if_pos hlen, if_pos hlen]
      exact ⟨true, r, .nil _ _ _, rfl⟩
    rw [if_neg hlen, if_neg hlen]
    dsimp only
    obtain ⟨ok, r₁, hw, hres⟩ :=
      scanRrs_writes S q e (img.findName (wildcardOf parent)) { owner := some qname } h
      (h.holds (img.findName (wildcardOf parent))) {} r
    rw [hres]
    by_cases hfound :
      (scanPlan q e { owner := some qname } (img.atName (wildcardOf parent)) {}).st.found = true
    · rw [if_pos hfound]
      refine ⟨ok, r₁, hw, ?_⟩
      cases ok with
      | false => rfl
      | true =>
        simp only [if_true, ScanPlan.ended]
        cases (scanPlan q e { owner := some qname } (img.atName (wildcardOf parent)) {}).cname with
        | none => exact if_pos hfound
        | some v => rfl
    have hplan := scanPlan_unfound q e { owner := some qname } (img.atName (wildcardOf parent))
      (by simpa using hfound)
    rw [hplan] at hw ⊢
    obtain rfl := Writes.of_nil hw
    simp only [if_true, ScanPlan.ended, Bool.false_eq_true, if_false]
    by_cases hex : nameExistsInZone img e.view parent
    · rw [if_pos hex, if_pos hex]
      exact ⟨true, r₁, hw, rfl⟩
    rw [if_neg hex, if_neg hex]
    obtain ⟨ok, r₂, hw', hres'⟩ := ih r₁
    exact ⟨ok, r₂, hw.seq hw', hres'⟩

/-! ### ALIAS and DNAME -/

lemma writeSynth_eq (S : Sink σ) : ∀ (recs : List DnsRecord) (r : Resp σ),
    writeSynth S recs r = writeAll S .answer (recs.map .synth) r
  | [], r => rfl
  | rr :: recs, r => by
    rw [writeSynth, map_cons, writeAll]
    rcases r.write S .answer (.synth rr) with ⟨_ | _, r'⟩
    · rfl
    · exact writeSynth_eq S recs r'

/-- The addresses for the ALIAS records of an owner are written together. -/
lemma answerAlias_writes (S : Sink σ) (q : Query) (key : Nat) (owner : Text) (qtype : UInt16)
    (rrs : List (ImageRr × Nat)) (r : Resp σ) :
    ∃ ok r', Writes S .answer [(aliasResults q key owner qtype rrs).flatten.map .synth] ok r r' ∧
      answerAlias S q key owner qtype rrs r =
        (if ok then some (aliasResults q key owner qtype rrs).flatten.length else none,
          (aliasResults q key owner qtype rrs).length, r') := by
  have hw := writeAll_writes S .answer ((aliasResults q key owner qtype rrs).flatten.map .synth) r
  rw [answerAlias, writeSynth_eq]
  generalize writeAll S .answer
    ((aliasResults q key owner qtype rrs).flatten.map .synth) r = res at hw ⊢
  obtain ⟨_ | _, r₁⟩ := res
  · exact ⟨false, r.restore S r₁, hw.restore (by simp), rfl⟩
  · exact ⟨true, r₁, hw.regroup (by rw [flatten_singletons, flatten_singleton]), rfl⟩

/-- A DNAME, its signatures and the CNAME it stands for, unless that is too long. -/
def dnameChunks (q : Query) (img : ZoneImage) (c : Chain) (parent : Text) (id : Nat) (rr : ImageRr)
    (ttl : Nat) (target : Text) : List (List Emit) :=
  img.emit rr none ttl ::
    (if q.dnssecOk then sigChunks img none 39 0xFFFFFFFF (img.ownRrs id) else []) ++
    let synth := c.qname.take (c.qname.length - parent.length) ++ target
    if synth.length ≥ dnsNameTextSize ∨ readName synth = none then []
    else [[.synth (synthCname c.qname synth ttl)]]

/-! ### A round -/

/-- What a round comes to behind its answer. -/
inductive RoundEnd
  | stop
  /-- The name a DNAME leads to is too long (YXDOMAIN). -/
  | tooLong
  | servfail
  | follow (c : Chain) (target : Text)
  /-- Phases 6 to 10. -/
  | name (c : Chain) (st : ScanState) (wcFound : Bool)

/-- The chain that a round goes on with. -/
def RoundEnd.chain : RoundEnd → Option Chain
  | .follow c _ => some c
  | .name c _ _ => some c
  | _ => none

structure RoundPlan where
  answer : List (List Emit) := []
  last : RoundEnd

/-- The resolvers for ALIAS records at the name of a round. -/
def roundAliasKey (q : Query) (c : Chain) (img : ZoneImage) : Option Nat :=
  if ((img.findName c.qname).bind (img.names[·]?)).any (·.isAlias) ∧
    (q.qclass = 1 ∨ q.qclass = 255) then
    c.entry.aliasKey
  else none

def dnamePlan (q : Query) (img : ZoneImage) (c : Chain) (parent : Text) (id : Nat) (rr : ImageRr)
    (ttl : Nat) (target : Text) : RoundPlan where
  answer := dnameChunks q img c parent id rr ttl target
  last :=
    let synth := c.qname.take (c.qname.length - parent.length) ++ target
    if synth.length ≥ dnsNameTextSize ∨ readName synth = none then .tooLong else .follow c synth

/-- Phases 3 and 4. -/
def missingPlan (q : Query) (c : Chain) (img : ZoneImage) : RoundPlan :=
  match dnameSearch img c.entry.view c.qname with
  | some (parent, id, rr, ttl) =>
    match rrTargetText rr with
    | some target => dnamePlan q img c parent id rr ttl target
    | none => { last := .name c {} false }
  | none =>
    if img.hasWild ∧ ¬ nameExistsInZone img c.entry.view c.qname then
      let p := (wildcardPlan q c.entry img c.qname (ancestors c.qname)).2
      let c' := { c with firstWc := c.firstWc.or (some (c.qname, c.entry)) }
      { answer := wildcardChunks q c.entry img c.qname (ancestors c.qname)
        last :=
          match p.cname with
          | none => .name c p.st p.st.found
          | some (rr, _) =>
            match rrTargetText rr with
            | some target => .follow c' target
            | none => .name c' p.st true }
    else { last := .name c {} false }

/-- Behind phase 2. -/
def expandedPlan (q : Query) (c : Chain) (img : ZoneImage) (st : ScanState) : RoundPlan :=
  match (roundAliasKey q c img).filter fun _ =>
      st.found && !st.typeMatched && (q.first = 1 || q.first = 28 || q.first = 255) with
  | some key =>
    let results := aliasResults q key c.qname q.first (img.rrsAt (img.findName c.qname))
    { answer := [results.flatten.map .synth]
      last := if results.length = 0 then .servfail
        else .name c { st with typeMatched := results.flatten.length > 0 } false }
  | none => if st.found then { last := .name c st false } else missingPlan q c img

/-- Phase 2. -/
def ownPlan (q : Query) (c : Chain) (img : ZoneImage) : ScanPlan :=
  let own := img.rrsAt (img.findName c.qname)
  scanPlan q c.entry
    { expandAlias := (roundAliasKey q c img).isSome, oneSet := q.oneSet c.entry own } own {}

/-- What a round means to answer, and how it goes on. -/
def roundPlan (q : Query) (c : Chain) (img : ZoneImage) : RoundPlan :=
  let id := img.findName c.qname
  if q.hinfo c.entry (img.rrsAt id) then
    { answer := [[.synth (hinfoRecord c.qname q.minimalAnyTtl)]], last := .stop }
  else
    let p := ownPlan q c img
    let rest : RoundPlan :=
      match p.cname.bind (rrTargetText ·.1) with
      | some target => { last := .follow c target }
      | none => expandedPlan q c img p.st
    { rest with answer := p.chunks q c.entry img id none ++ rest.answer }

/-- The round goes on as planned. -/
def RoundEnd.step (S : Sink σ) (q : Query) (init : Resp σ) (img : ZoneImage) (aliasKey : Option Nat)
    (r : Resp σ) :
    RoundEnd → Step σ
  | .stop => .done r
  | .tooLong => .done { r with rcode := 6 }
  | .servfail => .done (init.servfail S r)
  | .follow c target => KariDns.follow q c target r
  | .name c st wcFound => .done (answerName S q c img aliasKey st wcFound r)

/-- A round follows a plan, or ends truncated. -/
def Follows (S : Sink σ) (q : Query) (init : Resp σ) (c : Chain) (img : ZoneImage) (p : RoundPlan)
    (r : Resp σ) (step : Step σ) : Prop :=
  ∃ ok r', Writes S .answer p.answer ok r r' ∧
    step = if ok then p.last.step S q init img (roundAliasKey q c img) r' else .done r'.truncated

section Round

variable {S : Sink σ} {q : Query} {init : Resp σ} {c : Chain} {img : ZoneImage} {p : RoundPlan}
    {cs : List (List Emit)}
  {r r' : Resp σ} {step : Step σ}

lemma Follows.seq (h : Writes S .answer cs true r r') (h' : Follows S q init c img p r' step) :
    Follows S q init c img { p with answer := cs ++ p.answer } r step := by
  obtain ⟨ok, r'', hw, hstep⟩ := h'
  exact ⟨ok, r'', h.seq hw, hstep⟩

lemma Follows.full (h : Writes S .answer cs false r r') (hsub : cs.Sublist p.answer) :
    Follows S q init c img p r (.done r'.truncated) :=
  ⟨false, r', h.stop hsub, rfl⟩

/-- The DNAME of a name, as `dnameSearch` finds it there. -/
def dnameAt (img : ZoneImage) (v : ClientView) (parent : Text) :
    Option (Text × Nat × ImageRr × Nat) :=
  (img.findName parent).bind fun id =>
    ((img.ownRrs id).findSome? fun (rr, _) =>
      if rr.type = 39 then (rrValid v rr).map (rr, ·) else none).map fun (rr, ttl) =>
        (parent, id, rr, ttl)

lemma dnameSearch_eq (img : ZoneImage) (v : ClientView) (qname : Text) :
    dnameSearch img v qname = if ¬ img.hasDname then none
      else (ancestors qname).findSome? (dnameAt img v) := rfl

section Dname

variable {v : ClientView} {qname parent p : Text} {id ttl : Nat} {rr : ImageRr}

lemma firstVisible_some {type : UInt16} {l : List (ImageRr × Nat)}
    (h : (l.findSome? fun (rr, _) =>
      if rr.type = type then (rrValid v rr).map (rr, ·) else none) = some (rr, ttl)) :
    rr.type = type ∧ rrValid v rr = some ttl ∧ ∃ k, (rr, k) ∈ l := by
  obtain ⟨⟨rr', k⟩, hmem, hv⟩ := exists_of_findSome?_eq_some h
  dsimp only at hv
  split at hv
  · rename_i htype
    obtain ⟨ttl', httl, hpair⟩ := map_eq_some_iff.mp hv
    cases hpair
    exact ⟨htype, httl, k, hmem⟩
  · cases hv

lemma dnameAt_some (h : dnameAt img v parent = some (p, id, rr, ttl)) :
    p = parent ∧ img.findName parent = some id ∧ rr.type = 39 ∧ rrValid v rr = some ttl ∧
      ∃ k, (rr, k) ∈ img.atName parent := by
  obtain ⟨id', hid, h⟩ := bind_eq_some_iff.mp h
  obtain ⟨⟨rr', ttl'⟩, hfind, h⟩ := map_eq_some_iff.mp h
  cases h
  rw [ZoneImage.atName, hid]
  exact ⟨rfl, rfl, firstVisible_some hfind⟩

lemma dnameSearch_some (h : dnameSearch img v qname = some (parent, id, rr, ttl)) :
    img.findName parent = some id ∧ rr.type = 39 ∧ rrValid v rr = some ttl ∧
      ∃ k, (rr, k) ∈ img.atName parent := by
  rw [dnameSearch_eq] at h
  split at h
  · cases h
  obtain ⟨p, -, hat⟩ := exists_of_findSome?_eq_some h
  obtain ⟨rfl, hrest⟩ := dnameAt_some hat
  exact hrest

end Dname

lemma answerDname_follows (h : img.Loaded) {parent : Text} {id : Nat} {rr : ImageRr}
    {nm : ImageName} (hnm : img.names[rr.nameId]? = some nm) (ttl : Nat) (target : Text)
    (r : Resp σ) :
    Follows S q init c img (dnamePlan q img c parent id rr ttl target) r
      (answerDname S q img c parent id rr ttl target r) := by
  have hw := writeRr_writes hnm S .answer none ttl r
  rw [answerDname]
  generalize r.writeRr S .answer img rr none ttl = res at hw ⊢
  obtain ⟨_ | _, r₁⟩ := res
  · exact Follows.full hw (List.Sublist.cons_cons _ (nil_sublist _))
  -- the signatures
  obtain ⟨ok, r₂, hsig, hres⟩ : ∃ ok r₂,
      Writes S .answer
        (if q.dnssecOk then sigChunks img none 39 0xFFFFFFFF (img.ownRrs id) else []) ok r₁ r₂ ∧
        (if q.dnssecOk then attachCoveringRrsig S .answer img none 39 0xFFFFFFFF (img.ownRrs id) r₁
          else (true, r₁)) =
          (ok, r₂) := by
    by_cases hdo : q.dnssecOk = true
    · rw [if_pos hdo, if_pos hdo]
      exact ⟨_, _,
        attachCoveringRrsig_writes S none 39 0xFFFFFFFF .answer (h.holds (some id)) r₁, rfl⟩
    · rw [if_neg hdo, if_neg hdo]
      exact ⟨true, r₁, .nil _ _ _, rfl⟩
  simp only [hres]
  cases ok with
  | false =>
    refine Follows.full (hw.seq hsig) ?_
    exact List.Sublist.cons_cons _ (sublist_append_left _ _)
  | true =>
    have hsofar := hw.seq hsig
    simp only [dnamePlan, dnameChunks]
    by_cases hlong :
      (c.qname.take (c.qname.length - parent.length) ++ target).length ≥ dnsNameTextSize ∨
        readName (c.qname.take (c.qname.length - parent.length) ++ target) = none
    · simp only [hlong, if_true]
      exact ⟨true, r₂, by simpa using hsofar, rfl⟩
    simp only [hlong, if_false]
    have hcn := write_writes S .answer
      (.synth (synthCname c.qname (c.qname.take (c.qname.length - parent.length) ++ target) ttl)) r₂
    generalize r₂.write S .answer
      (.synth (synthCname c.qname (c.qname.take (c.qname.length - parent.length) ++ target) ttl)) =
        res at hcn ⊢
    obtain ⟨_ | _, r₃⟩ := res <;> exact ⟨_, r₃, hsofar.seq hcn, rfl⟩

lemma answerMissing_follows (h : img.Loaded) (r : Resp σ) :
    Follows S q init c img (missingPlan q c img) r
      (answerMissing S q c img (roundAliasKey q c img) r) := by
  rw [answerMissing, missingPlan]
  cases hd : dnameSearch img c.entry.view c.qname with
  | some v =>
    obtain ⟨parent, id, rr, ttl⟩ := v
    obtain ⟨-, -, -, k, hmem⟩ := dnameSearch_some hd
    obtain ⟨nm, hnm⟩ := h.holds _ _ hmem
    dsimp only
    cases ht : rrTargetText rr with
    | none => exact ⟨true, r, .nil _ _ _, rfl⟩
    | some target => exact answerDname_follows h hnm ttl target r
  | none =>
    by_cases hwild : img.hasWild ∧ ¬ nameExistsInZone img c.entry.view c.qname
    · simp only [if_pos hwild]
      obtain ⟨ok, r', hw, hres⟩ := wildcardWalk_writes S q c.entry h c.qname (ancestors c.qname) r
      rw [hres]
      refine ⟨ok, r', hw, ?_⟩
      cases ok with
      | false => rfl
      | true =>
        rw [if_pos rfl, if_pos rfl, ScanPlan.ended]
        cases hcn : (wildcardPlan q c.entry img c.qname (ancestors c.qname)).2.cname with
        | none => rfl
        | some v =>
          obtain ⟨rr, ttl⟩ := v
          dsimp only
          cases rrTargetText rr <;> rfl
    · simp only [if_neg hwild]
      exact ⟨true, r, .nil _ _ _, rfl⟩

lemma expanded_follows (h : img.Loaded) (st : ScanState) (r : Resp σ) :
    Follows S q init c img (expandedPlan q c img st) r
      (answerFrom.expanded S q init c img (roundAliasKey q c img) (img.atName c.qname) st r) := by
  rw [answerFrom.expanded, expandedPlan]
  cases hkey : (roundAliasKey q c img).filter fun _ =>
      st.found && !st.typeMatched && (q.first = 1 || q.first = 28 || q.first = 255) with
  | none =>
    by_cases hf : st.found = true
    · rw [if_pos hf, if_pos hf]
      exact ⟨true, r, .nil _ _ _, rfl⟩
    · rw [if_neg hf, if_neg hf]
      exact answerMissing_follows h r
  | some key =>
    obtain ⟨ok, r', hw, hres⟩ := answerAlias_writes S q key c.qname q.first (img.atName c.qname)
      { r with aliasExpanded := true }
    have hstart : Writes S .answer [] true r { r with aliasExpanded := true } :=
      ⟨[], List.Sublist.refl _, by constructor <;> simp, fun _ => ⟨rfl, by simp⟩, by simp⟩
    refine ⟨ok, r', hstart.seq hw, ?_⟩
    dsimp only
    rw [hres]
    cases ok with
    | false => rfl
    | true =>
      simp only [if_true]
      cases hlen : (aliasResults q key c.qname q.first (img.atName c.qname)).length with
      | zero => rfl
      | succ n => rfl

/-- A round follows its plan. -/
lemma answerFrom_follows (h : img.Loaded) (r : Resp σ) :
    Follows S q init c img (roundPlan q c img) r (answerFrom S q init c img r) := by
  rw [answerFrom, roundPlan]
  dsimp only
  by_cases hhinfo : q.hinfo c.entry (img.atName c.qname) = true
  · rw [if_pos hhinfo, if_pos hhinfo]
    have hw := write_writes S .answer (.synth (hinfoRecord c.qname q.minimalAnyTtl)) r
    generalize r.write S .answer (.synth (hinfoRecord c.qname q.minimalAnyTtl)) = res at hw ⊢
    obtain ⟨_ | _, r₁⟩ := res <;> exact ⟨_, r₁, hw, rfl⟩
  rw [if_neg hhinfo, if_neg hhinfo]
  obtain ⟨ok, r', hw, hres⟩ := scanRrs_writes S q c.entry (img.findName c.qname)
    { expandAlias := (roundAliasKey q c img).isSome,
      oneSet := q.oneSet c.entry (img.atName c.qname) } h
    (h.holds (img.findName c.qname)) {} r
  have hscan : scanRrs S q c.entry img (img.findName c.qname)
      { expandAlias := (roundAliasKey q c img).isSome,
        oneSet := q.oneSet c.entry (img.atName c.qname) }
      (img.atName c.qname) {} r = if ok then (ownPlan q c img).ended r'
        else .full r'.truncated := hres
  simp only [roundAliasKey] at hscan
  rw [hscan]
  cases ok with
  | false => exact Follows.full hw (sublist_append_left _ _)
  | true =>
    rw [if_pos rfl, ScanPlan.ended]
    cases hcn : (ownPlan q c img).cname with
    | none => exact Follows.seq hw (expanded_follows h _ r')
    | some v =>
      obtain ⟨rr, ttl⟩ := v
      simp only [bind_some]
      cases ht : rrTargetText rr with
      | none => exact Follows.seq hw (expanded_follows h _ r')
      | some target =>
        exact Follows.seq hw (p := { last := .follow c target }) ⟨true, r', .nil _ _ _, rfl⟩

end Round

end KariDns
