import KariDns.Query.Glue
import KariDns.Query.Denial

/-! Referrals (`find_delegation`).

The walk goes from the name up and stops at the first owner with name servers. Data below a
zone cut is occluded, name servers below it too, so the referral should be to the cut nearest
the apex; it is, unless a cut below that one is met first.
-/

namespace KariDns

open Octets DomainName List Option

variable {v : ClientView} {rest : List Text} {n p : Name} {id : Nat}
    {qname t : Text} {e : ZoneEntry}
  {img : ZoneImage}

variable {σ : Type}

/-- The zones of the view are as loaders left them. -/
def Query.Loaded (q : Query) : Prop :=
  ∀ t e img, q.suffixZone t = .entry e → e.image = some img → img.Loaded

/-- A search for a question ends in a zone that a search by name finds. -/
lemma Query.findZone_entry {q : Query} {type : UInt16} (h : q.findZone t type = .entry e) :
    ∃ t', q.suffixZone t' = .entry e := by
  rw [Query.findZone, findZoneForQuery] at h
  split at h
  · cases h
  · cases h
  rename_i e' he'
  split at h
  · cases h
    exact ⟨t, he'⟩
  split at h
  · cases h
    exact ⟨t, he'⟩
  · cases h
  rename_i p hp
  split at h
  · cases h
    exact ⟨t, he'⟩
  · cases h
    exact ⟨_, hp⟩

lemma Query.Loaded.findZone {q : Query} (h : q.Loaded) {type : UInt16}
    (hfind : q.findZone t type = .entry e) (himg : e.image = some img) : img.Loaded := by
  obtain ⟨t', he⟩ := Query.findZone_entry hfind
  exact h t' e img he himg

lemma Query.Loaded.sibling {q : Query} (h : q.Loaded) (e : ZoneEntry) (t : Text) :
    (q.sibling e t).Loaded := by
  rw [Query.sibling]
  cases hfind : q.findZone t 0 with
  | none => trivial
  | absent => trivial
  | entry s =>
    cases himg : s.image with
    | none => simp [himg, Sibling.Loaded]
    | some img =>
      simp only [himg, Sibling.Loaded]
      exact h.findZone hfind himg

/-! ### Zone cuts -/

/-- The client sees name servers at an owner. -/
def ZoneImage.delegates (img : ZoneImage) (v : ClientView) (id : Nat) : Bool :=
  (img.ownRrs id).any fun r => r.1.type = 2 ∧ (rrValid v.withoutEcs r.1).isSome

/-- A zone cut at or above a name: an owner below the apex with name servers. -/
def LoadedZone.CutAbove (z : LoadedZone) (v : ClientView) (qname : Text) (id : Nat) : Prop :=
  ∃ nm, z.img.names[id]? = some nm ∧ domainNamesMatchCi nm.text z.domain = false ∧
    domainNameIsAtOrBelow qname nm.text = true ∧ z.img.delegates v id = true

instance (z : LoadedZone) (v : ClientView) (qname : Text) (id : Nat) :
    Decidable (z.CutAbove v qname id) :=
  decidable_of_iff ((z.img.names[id]?).any fun nm =>
      !domainNamesMatchCi nm.text z.domain &&
        (domainNameIsAtOrBelow qname nm.text && z.img.delegates v id)) <| by
    cases h : z.img.names[id]? <;> simp [LoadedZone.CutAbove, h]

/-- The zone cut nearest the apex. -/
def LoadedZone.Topmost (z : LoadedZone) (v : ClientView) (qname : Text) (id : Nat) : Prop :=
  z.CutAbove v qname id ∧
    ∀ id', z.CutAbove v qname id' →
      domainNameIsAtOrBelow (z.img.nameText id') (z.img.nameText id) = true

/-- The name servers of an owner that the client sees. -/
def nsRecords (img : ZoneImage) (e : ZoneEntry) (id : Nat) : List Emit :=
  (referralSpec e 2 .none).emits img (img.rrsAt (some id))

/-- A referral to the zone cut at an owner, unless it is truncated. -/
def Resp.RefersTo (img : ZoneImage) (e : ZoneEntry) (id : Nat) (r : Resp σ) : Prop :=
  r.tc = true ∨
    (r.aa = false ∧ r.answer = [] ∧ r.authority.filter (fun x => x.type = 2) = nsRecords img e id)

instance (img : ZoneImage) (e : ZoneEntry) (id : Nat) (r : Resp σ) :
    Decidable (r.RefersTo img e id) :=
  inferInstanceAs (Decidable (_ ∨ _))

/-- It is enough to look at the owners of the zone. -/
lemma LoadedZone.topmost_of_owners {z : LoadedZone} (h : z.CutAbove v qname id)
    (hall : ∀ id' < z.img.names.length, z.CutAbove v qname id' →
      domainNameIsAtOrBelow (z.img.nameText id') (z.img.nameText id) = true) :
        z.Topmost v qname id := by
  refine ⟨h, fun id' h' => hall id' ?_ h'⟩
  obtain ⟨nm, hnm, -⟩ := h'
  exact (List.getElem?_eq_some_iff.mp hnm).1

lemma ns_served {rr : ImageRr} {mode : RrsigMode} :
    (referralSpec e 2 mode).serves rr = if rr.type = 2 then
      rrValid e.view.withoutEcs rr else none := by
  rw [RrsetSpec.serves]
  by_cases htype : rr.type = 2
  · have hserved : rrNotServed rr = false := by
      simp [rrNotServed, isNsec3ChainRr, htype, typeLua]
    simp [referralSpec, htype, hserved]
  · simp [referralSpec, htype]

lemma nsRecords_ne_nil :
    (referralSpec e 2 .none).records img (img.rrsAt (some id)) ≠ [] ↔
      img.delegates e.view id = true := by
  rw [Ne, RrsetSpec.records_eq_nil, ZoneImage.delegates, List.any_eq_true]
  simp only [ns_served, ZoneImage.rrsAt]
  constructor
  · intro hne
    obtain ⟨v, hv⟩ := not_forall.mp hne
    obtain ⟨hv, hs⟩ := Classical.not_imp.mp hv
    split at hs
    · rename_i htype
      exact ⟨v, hv, by simp [htype, isSome_iff_ne_none, hs]⟩
    · exact absurd rfl hs
  rintro ⟨v, hv, hs⟩ hall
  have := hall v hv
  simp only [decide_eq_true_eq] at hs
  rw [if_pos hs.1] at this
  rw [this] at hs
  cases hs.2

/-! ### The cut the walk finds -/

/-- The walk of `find_delegation`, without the packet: the first owner with name servers. -/
def cutSearch (e : ZoneEntry) (img : ZoneImage) : Bool → List Text → Option (Nat × Text)
  | _, [] => none
  | skip, name :: rest =>
    if name = [] ∨ domainNamesMatchCi name e.domain then none
    else
      match (if skip then none else img.findName name) with
      | none => cutSearch e img false rest
      | some id => if img.delegates e.view id then some (id, name) else cutSearch e img false rest

/-- The zone cut that a question is referred to, with its name as the walk spells it. -/
def findCut (q : Query) (e : ZoneEntry) (img : ZoneImage) (qname : Text) : Option (Nat × Text) :=
  if img.names = [] ∨ img.hasCut = false then none
  else cutSearch e img (q.first = 43) (qname :: ancestors qname)

/-- DS of a delegation, or the proof that there is none. -/
def dsChunks (q : Query) (e : ZoneEntry) (img : ZoneImage) (id : Nat) (name : Text) :
    List (List Emit) :=
  if q.dnssecOk then
    if (referralSpec e 43 .required).records img (img.rrsAt (some id)) = [] then
      denialChunks (noDsDenials q e img id name) []
    else (referralSpec e 43 .required).chunks img (img.rrsAt (some id))
  else []

/-- The Authority section of a referral. -/
def referralChunks (q : Query) (e : ZoneEntry) (img : ZoneImage) (id : Nat) (name : Text) :
    List (List Emit) :=
  (referralSpec e 2 .none).chunks img (img.rrsAt (some id)) ++ dsChunks q e img id name

section Walk

variable {img : ZoneImage} {q : Query} {e : ZoneEntry} {name : Text}

lemma noDsDenials_img : ∀ d ∈ noDsDenials q e img id name, d.img = img := by
  intro d hd
  rw [noDsDenials] at hd
  split at hd
  · split at hd
    · rw [mem_singleton.mp hd]
    · rw [mem_singleton.mp hd]
  split at hd
  · cases hd
  split at hd
  · rw [mem_singleton.mp hd]
  rcases mem_cons.mp hd with rfl | hd
  · rfl
  · rw [mem_singleton.mp hd]

lemma matchNsec3_denies (h : img.Loaded) {p : ImageN3Params} {k : Nat}
    (hk : matchNsec3 q e img p t = some k) :
    img.Denies k := by
  obtain ⟨z, rfl⟩ := h
  obtain ⟨hash, -, hk⟩ := bind_eq_some_iff.mp hk
  exact z.matching_denies hk

lemma coverNsec3_denies {p : ImageN3Params} {k : Nat} (hk : coverNsec3 q img p t = some k) :
    img.Denies k := by
  obtain ⟨hash, -, hk⟩ := bind_eq_some_iff.mp hk
  exact findCoveringNsec3_denies hk

lemma nsecAtOwner_denies (h : img.Loaded) {v : ClientView} {id k ttl : Nat}
    (hk : nsecAtOwner v (img.ownRrs id) = some (k, ttl)) : img.Denies k := by
  obtain ⟨z, rfl⟩ := h
  exact z.nsecAtOwner_denies (fun u hu => hu) hk

lemma noDsDenials_denies (h : img.Loaded) : ∀ d ∈ noDsDenials q e img id name, ∀ k, d.rr = some k →
    d.img.Denies k := by
  intro d hd k hk
  rw [noDsDenials_img d hd]
  rw [noDsDenials] at hd
  split at hd
  · split at hd
    · rename_i k' ttl hnsec
      rw [mem_singleton.mp hd] at hk
      cases hk
      exact nsecAtOwner_denies h hnsec
    · rw [mem_singleton.mp hd] at hk
      exact findCoveringNsec_denies hk
  split at hd
  · cases hd
  split at hd
  · rename_i hmatch
    rw [mem_singleton.mp hd] at hk
    cases hk
    exact matchNsec3_denies h hmatch
  rcases mem_cons.mp hd with rfl | hd
  · exact coverNsec3_denies hk
  · rw [mem_singleton.mp hd] at hk
    exact matchNsec3_denies h hk

lemma noDsDenials_loaded (h : img.Loaded) : ∀ d ∈ noDsDenials q e img id name, d.img.Loaded := by
  intro d hd
  rw [noDsDenials_img d hd]
  exact h

variable (S : Sink σ)

lemma referralDs_writes (h : img.Loaded) (q : Query) (e : ZoneEntry) (id : Nat) (name : Text)
    (r : Resp σ) :
    Writes S .authority (dsChunks q e img id name) (referralDs S q e img id name r).1 r
      (referralDs S q e img id name r).2 := by
  rw [referralDs, dsChunks]
  by_cases hdo : q.dnssecOk = true
  swap
  · rw [if_neg hdo, if_neg hdo]
    exact .nil S .authority r
  rw [if_pos hdo, if_pos hdo]
  by_cases hnil : (referralSpec e 43 .required).records img (img.rrsAt (some id)) = []
  · rw [if_pos hnil, emitRrset_none S _ (RrsetSpec.records_eq_nil.mp hnil)]
    exact attachDenials_writes S (noDsDenials_loaded h) [] r
  rw [if_neg hnil]
  obtain ⟨ok, hw, hres⟩ := emitRrset_writes S (referralSpec e 43 .required) (h.holds (some id))
    (by simp [referralSpec]) r
  rcases hemit : emitRrset S img (some id) (referralSpec e 43 .required) r with ⟨o, r₁⟩
  rw [hemit] at hw hres
  cases ok with
  | false =>
    obtain rfl : o = none := hres
    exact hw
  | true =>
    obtain ⟨n, hn⟩ := Nat.exists_eq_succ_of_ne_zero fun h0 => hnil (length_eq_zero_iff.mp h0)
    obtain rfl : o = some (n + 1) := hres.trans (congrArg some hn)
    exact hw

lemma Writes.unauthoritative {S : Sink σ} {sec : Section} {cs : List (List Emit)} {ok : Bool}
    {r r' : Resp σ} (h : Writes S sec cs ok r r') :
      Writes S sec cs ok { r with aa := false } { r' with aa := false } := by
  obtain ⟨ds, hsub, ⟨ha, hb, hc, hd, he, hf, hg⟩, hrest⟩ := h
  refine ⟨ds, hsub, ?_, hrest⟩
  cases sec <;> exact ⟨ha, hb, hc, rfl, he, hf, hg⟩

/-- A zone cut ends the walk with a referral. -/
lemma referral_at (h : img.Loaded) (hdel : img.delegates e.view id = true) (r : Resp σ) :
    ∃ ok r', Writes S .authority (referralChunks q e img id name) ok { r with aa := false } r' ∧
      (match emitRrset S img (some id) (referralSpec e 2 .none) r with
        | (none, r) => some { r with aa := false, tc := true }
        | (some 0, r) => delegationWalk S q e img false rest r
        | (some _, r) => some (referralRest S q e img id name r)) =
      some (if ok then referralGlue S q e img name (img.ownRrs id) false r' else r'.truncated) := by
  obtain ⟨ok, hw, hres⟩ :=
    emitRrset_writes S (referralSpec e 2 .none) (h.holds (some id)) (by simp [referralSpec]) r
  rcases hemit : emitRrset S img (some id) (referralSpec e 2 .none) r with ⟨o, r₁⟩
  rw [hemit] at hw hres
  cases ok with
  | false =>
    obtain rfl : o = none := hres
    exact ⟨false, { r₁ with aa := false }, hw.unauthoritative.stop (sublist_append_left _ _), rfl⟩
  | true =>
    obtain ⟨n, hn⟩ := Nat.exists_eq_succ_of_ne_zero fun h0 =>
      nsRecords_ne_nil.mpr hdel (length_eq_zero_iff.mp h0)
    obtain rfl : o = some (n + 1) := hres.trans (congrArg some hn)
    have hds := referralDs_writes S h q e id name { r₁ with aa := false }
    refine ⟨_, _, hw.unauthoritative.seq hds, ?_⟩
    show some (referralRest S q e img id name r₁) = _
    rw [referralRest]
    rcases referralDs S q e img id name { r₁ with aa := false } with ⟨_ | _, r₂⟩ <;> rfl

lemma delegationWalk_cut (S : Sink σ) (h : img.Loaded) :
    ∀ (path : List Text) (skip : Bool) (r : Resp σ),
    (cutSearch e img skip path = none → delegationWalk S q e img skip path r = none) ∧
    ∀ id name, cutSearch e img skip path = some (id, name) →
      ∃ ok r', Writes S .authority (referralChunks q e img id name) ok { r with aa := false } r' ∧
        delegationWalk S q e img skip path r =
          some (if ok then referralGlue S q e img name (img.ownRrs id) false r' else r'.truncated)
  | [], skip, r => ⟨fun _ => rfl, by simp [cutSearch]⟩
  | name :: path, skip, r => by
    have ih := delegationWalk_cut S h path false r
    rw [delegationWalk, cutSearch]
    by_cases hend : name = [] ∨ domainNamesMatchCi name e.domain
    · rw [if_pos hend, if_pos hend]
      simp
    rw [if_neg hend, if_neg hend]
    cases hid : (if skip then none else img.findName name) with
    | none => exact ih
    | some id =>
      dsimp only
      by_cases hdel : img.delegates e.view id = true
      · rw [if_pos hdel]
        refine ⟨by simp, ?_⟩
        intro id' name' heq
        cases heq
        exact referral_at S h hdel r
      have hnone : ∀ v ∈ img.rrsAt (some id), (referralSpec e 2 .none).serves v.1 = none := by
        rw [← @RrsetSpec.records_eq_nil _ img]
        by_contra hne
        exact hdel (nsRecords_ne_nil.mp hne)
      rw [if_neg hdel, emitRrset_none S _ hnone]
      exact ih

lemma findDelegation_none (h : img.Loaded) (hcut : findCut q e img qname = none) (r : Resp σ) :
    findDelegation S q e img qname r = none := by
  rw [findDelegation]
  rw [findCut] at hcut
  split
  · rfl
  rename_i hsome
  rw [if_neg hsome] at hcut
  exact (delegationWalk_cut S h _ _ r).1 hcut

/-- What `find_delegation` does. -/
lemma findDelegation_cut (h : img.Loaded) (hcut : findCut q e img qname = some (id, name))
    (r : Resp σ) :
    ∃ ok r', Writes S .authority (referralChunks q e img id name) ok { r with aa := false } r' ∧
      findDelegation S q e img qname r =
        some (if ok then referralGlue S q e img name (img.ownRrs id) false r'
          else r'.truncated) := by
  rw [findDelegation]
  rw [findCut] at hcut
  split
  · rename_i hnone
    rw [if_pos hnone] at hcut
    cases hcut
  rename_i hsome
  rw [if_neg hsome] at hcut
  exact (delegationWalk_cut S h _ _ r).2 id name hcut

/-! ### The addresses of a referral -/

/-- The targets of name servers. -/
def nsTargets (l : List (ImageRr × Nat)) : List Text :=
  l.filterMap fun v => if v.1.type = 2 then rrTargetText v.1 else none

/-- The addresses of a name server for a referral. -/
def targetChunks (q : Query) (e : ZoneEntry) (img : ZoneImage) (t : Text) : List (List Emit) :=
  glueChunks img t e.domain e.view e.policy (q.sibling e) q.dnssecOk

/-- What the addresses of a referral come to: some of them, and of the name servers in the delegated
zone all, or TC. -/
lemma referralGlue_adds (S : Sink σ) (h : img.Loaded) (hq : q.Loaded) (e : ZoneEntry)
    (name : Text) :
    ∀ (l : List (ImageRr × Nat)) (full : Bool) (r : Resp σ),
      ∃ (cut : Bool) (ds : List (List Emit)) (r' : Resp σ),
      ds.Sublist ((nsTargets l).flatMap (targetChunks q e img)) ∧ r.Grew .additional ds.flatten r' ∧
      referralGlue S q e img name l full r = (if cut then r'.truncated else r') ∧
        (cut = true → S.Full) ∧
      (cut = false → ∀ t ∈ nsTargets l, domainNameIsAtOrBelow t name = true →
        ∀ x ∈ glueEmits img t e.domain e.view e.policy (q.sibling e) q.dnssecOk false, x ∈
          ds.flatten)
  | [], full, r => ⟨false, [], r, nil_sublist _, .refl _ r, rfl, by simp, by simp [nsTargets]⟩
  | (rr, k) :: l, full, r => by
    have ih := referralGlue_adds S h hq e name l
    rw [referralGlue]
    cases ht : (if rr.type = 2 then rrTargetText rr else none) with
    | none =>
      have hskip : nsTargets ((rr, k) :: l) = nsTargets l := filterMap_cons_none ht
      rw [hskip]
      exact ih full r
    | some target =>
      have hcons : nsTargets ((rr, k) :: l) = target :: nsTargets l := filterMap_cons_some ht
      rw [hcons, flatMap_cons]
      dsimp only
      by_cases hout : ¬ domainNameIsAtOrBelow target name = true ∧ full = true
      · rw [if_pos hout]
        obtain ⟨cut, ds, r', hsub, hgrew, hres, hfull, hall⟩ := ih full r
        refine ⟨cut, ds, r', hsub.trans (sublist_append_right _ _), hgrew, hres, hfull, ?_⟩
        intro hcut t hmem hin
        rcases mem_cons.mp hmem with rfl | hmem
        · exact absurd hin hout.1
        · exact hall hcut t hmem hin
      rw [if_neg hout]
      have hadds := appendGlueRecords_adds S h.holds target e.domain e.view e.policy
        (fun t => (hq.sibling e t).owned) q.dnssecOk r
      rcases happ : appendGlueRecords S img target e.domain e.view e.policy
        (q.sibling e) q.dnssecOk r with ⟨_ | _, r₁⟩
      · rw [happ] at hadds
        obtain ⟨ds, hsub, hgrew, -, hfull⟩ := hadds
        dsimp only
        by_cases hin : domainNameIsAtOrBelow target name = true
        · rw [if_pos hin]
          exact ⟨true, ds, r₁, hsub.trans (sublist_append_left _ _), hgrew, rfl,
            fun _ => hfull rfl, by simp⟩
        rw [if_neg hin]
        obtain ⟨cut, ds', r', hsub', hgrew', hres, hfull', hall⟩ := ih true r₁
        refine ⟨cut, ds ++ ds', r', hsub.append hsub', ?_, hres, hfull', ?_⟩
        · rw [flatten_append]
          exact hgrew.trans hgrew'
        intro hcut t hmem hin' x hx
        rw [flatten_append]
        rcases mem_cons.mp hmem with rfl | hmem
        · exact absurd hin' hin
        · exact mem_append_right _ (hall hcut t hmem hin' x hx)
      rw [happ] at hadds
      obtain ⟨ds, hsub, hgrew, hmust, -⟩ := hadds
      dsimp only
      obtain ⟨cut, ds', r', hsub', hgrew', hres, hfull', hall⟩ := ih full r₁
      refine ⟨cut, ds ++ ds', r', hsub.append hsub', ?_, hres, hfull', ?_⟩
      · rw [flatten_append]
        exact hgrew.trans hgrew'
      intro hcut t hmem hin x hx
      rw [flatten_append]
      rcases mem_cons.mp hmem with rfl | hmem
      · exact mem_append_left _ ((hmust rfl).subset hx)
      · exact mem_append_right _ (hall hcut t hmem hin x hx)

/-- The signatures and the proof behind the name servers are no name servers. -/
lemma dsChunks_type (h : img.Loaded) : ∀ x ∈ (dsChunks q e img id name).flatten, x.type ≠ 2 := by
  intro x hx h2
  rw [dsChunks] at hx
  split at hx
  · split at hx
    · rw [denialChunks_flatten] at hx
      rcases type_of_denials (noDsDenials_denies h) hx with h' | h' | h' <;>
      · rw [h2] at h'
        cases h'
    rw [RrsetSpec.chunks_flatten] at hx
    rcases RrsetSpec.type_of_signed hx with h' | h'
    · rw [h2] at h'
      cases h'
    · rw [h2] at h'
      cases h'
  · cases hx

lemma referralChunks_flatten (id : Nat) :
    (referralChunks q e img id name).flatten = nsRecords img e id ++
      (dsChunks q e img id name).flatten := by
  rw [referralChunks, flatten_append, RrsetSpec.chunks_flatten]
  simp [RrsetSpec.signed, referralSpec, nsRecords]

/-- The response refers to the cut that is found, or is truncated. -/
lemma refersTo_cut (h : img.Loaded) (hq : q.Loaded) (hcut : findCut q e img qname = some (id, name))
    (r : Resp σ) (hempty : r.answer = [] ∧ r.authority = []) :
    ∃ r', findDelegation S q e img qname r = some r' ∧ r'.RefersTo img e id ∧
      (¬ S.Full → r'.tc = r.tc) := by
  obtain ⟨ok, r', hw, hres⟩ := findDelegation_cut S h hcut r
  refine ⟨_, hres, ?_⟩
  cases ok with
  | false => exact ⟨.inl rfl, fun hroom => absurd hw.full hroom⟩
  | true =>
    have hgrew := hw.grew
    obtain ⟨cut, ds, r'', -, hglue, hres', hfull, -⟩ :=
      referralGlue_adds S h hq e name (img.ownRrs id) false r'
    rw [if_pos rfl, hres']
    cases cut with
    | true => exact ⟨.inl rfl, fun hroom => absurd (hfull rfl) hroom⟩
    | false =>
      simp only [Bool.false_eq_true, if_false]
      refine ⟨.inr ⟨?_, ?_, ?_⟩, fun _ => ?_⟩
      · rw [hglue.aa, hgrew.aa]
      · rw [hglue.answer, Resp.addAll, hgrew.answer, Resp.addAll]
        exact hempty.1
      · have hauth : r''.authority = nsRecords img e id ++ (dsChunks q e img id name).flatten := by
          rw [hglue.authority, Resp.addAll, hgrew.authority, Resp.addAll, referralChunks_flatten]
          simp [hempty.2]
        have hleft : (nsRecords img e id).filter (fun x => x.type = 2) = nsRecords img e id := by
          rw [filter_eq_self]
          intro x hx
          simpa [referralSpec] using RrsetSpec.type_of_emits hx
        have hright : (dsChunks q e img id name).flatten.filter (fun x => x.type = 2) = [] := by
          rw [filter_eq_nil_iff]
          intro x hx
          simpa using dsChunks_type h x hx
        rw [hauth, filter_append, hleft, hright, append_nil]
      · rw [hglue.tc, hgrew.tc]

/-- The walk passes names without name servers. -/
lemma cutSearch_pass {skip : Bool} (hname : t ≠ [] ∧ domainNamesMatchCi t e.domain = false)
    (hno : skip = true ∨ ∀ id, img.findName t = some id → img.delegates e.view id = false) :
    cutSearch e img skip (t :: rest) = cutSearch e img false rest := by
  rw [cutSearch, if_neg (by simp [hname])]
  cases skip with
  | true => rfl
  | false =>
    simp only [Bool.false_eq_true, if_false]
    cases hid : img.findName t with
    | none => rfl
    | some id => simp [(hno.resolve_left (by simp)) id hid]

lemma cutSearch_passAll :
    ∀ pre : List Text, (∀ p ∈ pre, (p ≠ [] ∧ domainNamesMatchCi p e.domain = false) ∧
      ∀ id', img.findName p = some id' → img.delegates e.view id' = false) →
    cutSearch e img false (pre ++ rest) = cutSearch e img false rest
  | [], _ => rfl
  | p :: pre, hpre => by
    obtain ⟨hp, hno⟩ := hpre p mem_cons_self
    rw [cons_append, cutSearch_pass hp (.inr hno)]
    exact cutSearch_passAll pre fun p' hp' => hpre p' (mem_cons_of_mem _ hp')

lemma cutSearch_here (hname : t ≠ [] ∧ domainNamesMatchCi t e.domain = false)
    (hid : img.findName t = some id) (hdel : img.delegates e.view id = true) :
      cutSearch e img false (t :: rest) = some (id, t) := by
  rw [cutSearch, if_neg (by simp [hname])]
  simp [hid, hdel]

end Walk

/-! ### The cut that is found -/

/-- The names the walk meets, without the root. -/
lemma mem_path : p ∈ n :: parents n ↔ p = n ∨ p ≠ [] ∧ ∃ k, k ≠ [] ∧ n = k ++ p := by
  rw [mem_cons, mem_parents]

lemma valid_suffix : ∀ {k : Name}, Valid (k ++ p) → Valid p
  | [], h => h
  | _ :: _, h => valid_suffix h.tail

lemma path_valid (hn : Valid n) (h : p ∈ n :: parents n) : Valid p := by
  rcases mem_path.mp h with rfl | ⟨-, k, -, rfl⟩
  · exact hn
  · exact valid_suffix hn

lemma path_below (h : p ∈ n :: parents n) : Below n p := by
  rcases mem_path.mp h with rfl | ⟨-, k, -, rfl⟩
  · exact suffix_refl _
  · exact ⟨fold k, by simp [fold]⟩

/-- A name at or above another is on its path, unless it is the root. -/
lemma path_of_below {m : Name} (h : Below n m) (hm : m ≠ []) : ∃ p ∈ n :: parents n, Same m p := by
  obtain ⟨k, hk⟩ := h
  obtain ⟨k', p, rfl, -, hp⟩ := map_eq_append_iff.mp hk.symm
  refine ⟨p, mem_path.mpr ?_, hp.symm⟩
  rcases eq_or_ne k' [] with rfl | hne
  · exact .inl rfl
  refine .inr ⟨?_, k', hne, rfl⟩
  rintro rfl
  exact hm (by simpa [fold] using hp.symm)

section Path

variable (z : LoadedZone) {q : Query} {e : ZoneEntry} {n : Name}

/-- Name servers at a name of the path, below the apex. -/
def LoadedZone.CutAt (v : ClientView) (p : Name) (id : Nat) : Prop :=
  z.img.findName (nameText p) = some id ∧ z.img.delegates v id = true ∧
    domainNamesMatchCi (nameText p) z.domain = false

/-- The zone cuts at or above a name are on its path. -/
lemma LoadedZone.cutAbove_iff (hn : Valid n) :
    z.CutAbove v (nameText n) id ↔ ∃ p ∈ n :: parents n, z.CutAt v p id := by
  constructor
  · rintro ⟨nm, hnm, hapex, hbelow, hdel⟩
    obtain ⟨s, hs, hlive, htext⟩ := z.name_record hnm
    obtain ⟨m, hm, hsm, hin⟩ := z.owners s hs hlive
    have hden : Denotes nm.text m := by rw [htext, hsm]; exact denotes_nameText hm
    have hne : m ≠ [] := by
      rintro rfl
      have hroot : z.apex = [] := by simpa [Below, fold] using hin
      have := (hden.match_iff z.domain_denotes).mpr (by rw [hroot]; exact Same.refl [])
      rw [hapex] at this
      cases this
    obtain ⟨p, hp, hsame⟩ := path_of_below (((denotes_nameText hn).below_iff hden).mp hbelow) hne
    have hmatch := (hden.match_iff (denotes_nameText (path_valid hn hp))).mpr hsame
    refine ⟨p, hp, z.isFrozen.findName.mpr ⟨nm, hnm, hmatch⟩, hdel, ?_⟩
    by_contra hcon
    rw [matchCi_trans hmatch (by simpa using hcon)] at hapex
    cases hapex
  rintro ⟨p, hp, hfind, hdel, hapex⟩
  obtain ⟨nm, hnm, hmatch⟩ := z.isFrozen.findName.mp hfind
  refine ⟨nm, hnm, ?_, ?_, hdel⟩
  · by_contra hcon
    rw [matchCi_trans (matchCi_symm hmatch) (by simpa using hcon)] at hapex
    cases hapex
  obtain ⟨m, hden⟩ := z.isName hnm
  have hsame := (hden.match_iff (denotes_nameText (path_valid hn hp))).mp hmatch
  rw [(denotes_nameText hn).below_iff hden, Below, hsame]
  exact path_below hp

lemma path_shorter : ∀ n : Name, (n :: parents n).Pairwise fun a b => b.length < a.length
  | [] => pairwise_singleton _ _
  | l :: n => by
    rw [parents]
    split
    · exact pairwise_singleton _ _
    have ih := path_shorter n
    refine pairwise_cons.mpr ⟨?_, ih⟩
    intro p hp
    rcases mem_cons.mp hp with rfl | hp
    · exact Nat.lt_succ_self _
    · exact Nat.lt_succ_of_lt ((pairwise_cons.mp ih).1 p hp)

lemma nameText_ne_nil (n : Name) : nameText n ≠ [] := by
  rcases eq_or_ne n [] with rfl | hne
  · decide
  · rw [nameText_of_ne hne, labelsText_eq_stem hne]
    simp

/-- The owners of a zone are at or below its apex. -/
lemma LoadedZone.owner_below (hp : Valid p) (h : z.img.findName (nameText p) = some id) :
    Below p z.apex := by
  obtain ⟨nm, hnm, hmatch⟩ := z.isFrozen.findName.mp h
  obtain ⟨s, hs, hlive, htext⟩ := z.name_record hnm
  obtain ⟨m, hm, hsm, hin⟩ := z.owners s hs hlive
  have hsame : Same m p := by
    rw [htext, hsm] at hmatch
    exact ((denotes_nameText hm).match_iff (denotes_nameText hp)).mp hmatch
  rw [Below, ← hsame]
  exact hin

/-- The first cut of the path that the question does not skip is the one referred to. -/
lemma LoadedZone.findCut_first (hn : Valid n) (hdom : e.domain = z.domain) {pre post : List Name}
    (hpath : n :: parents n = pre ++ p :: post) (hcut : z.CutAt e.view p id)
    (hds : ¬ (q.first = 43 ∧ p = n))
    (hpre : ∀ p' ∈ pre, ∀ id', z.CutAt e.view p' id' → q.first = 43 ∧ p' = n) :
    findCut q e z.img (nameText n) = some (id, nameText p) := by
  obtain ⟨hfind, hdel, hapex⟩ := hcut
  have hpmem : p ∈ n :: parents n := by rw [hpath]; simp
  -- names before the cut are longer than it, so none of them is the apex
  have hnames : ∀ p' ∈ pre, domainNamesMatchCi (nameText p') z.domain = false := by
    intro p' hp'
    by_contra hcon
    have hp'mem : p' ∈ n :: parents n := by rw [hpath]; exact mem_append_left _ hp'
    have hsame := ((denotes_nameText (path_valid hn hp'mem)).match_iff z.domain_denotes).mp
      (by simpa using hcon)
    have hlt : p.length < p'.length := by
      have hsorted := path_shorter n
      rw [hpath, pairwise_append] at hsorted
      exact hsorted.2.2 p' hp' p mem_cons_self
    have hle := (z.owner_below (path_valid hn hpmem) hfind).length_le
    have hlen := congrArg List.length hsame
    simp only [fold, length_map] at hle hlen
    omega
  have hok : nameText p ≠ [] ∧ domainNamesMatchCi (nameText p) e.domain = false :=
    ⟨nameText_ne_nil p, hdom ▸ hapex⟩
  have hnone : ∀ p' ∈ pre, p' ≠ n ∨ q.first ≠ 43 → ∀ id', z.img.findName (nameText p') = some id' →
      z.img.delegates e.view id' = false := by
    intro p' hp' hskip id' hid'
    by_contra hcon
    obtain ⟨h43, heq⟩ := hpre p' hp' id' ⟨hid', by simpa using hcon, hnames p' hp'⟩
    exact hskip.elim (· heq) (· h43)
  obtain ⟨nm, hnm, -⟩ := z.isFrozen.findName.mp hfind
  have hguard : ¬ (z.img.names = [] ∨ z.img.hasCut = false) := by
    rintro (hnil | hcut)
    · simp [hnil] at hnm
    have hflag : nm.cut = true := by
      refine (z.isFrozen.cut_iff hnm).mpr ⟨?_, ?_⟩
      · rw [z.isFrozen.apexName]
        intro hap
        rw [bind_some, z.isFrozen.find] at hap
        obtain ⟨nm', hnm', hm'⟩ := z.isFrozen.findName.mp hap
        obtain ⟨nm'', hnm'', hm''⟩ := z.isFrozen.findName.mp hfind
        obtain rfl : nm' = nm'' := some.inj (hnm'.symm.trans hnm'')
        rw [matchCi_trans (matchCi_symm hm'') hm'] at hapex
        cases hapex
      · obtain ⟨r, hr, hr2⟩ := List.any_eq_true.mp hdel
        exact ⟨r, hr, (of_decide_eq_true hr2).1⟩
    rw [ZoneImage.hasCut, ← Bool.not_eq_true, List.any_eq_true] at hcut
    exact hcut ⟨nm, mem_of_getElem? hnm, hflag⟩
  rw [findCut, if_neg hguard, ancestors_nameText hn.labels,
    show nameText n :: (parents n).map nameText = (n :: parents n).map nameText from rfl, hpath,
    map_append, map_cons]
  rcases pre with _ | ⟨p₀, pre⟩
  · -- the name itself: not skipped
    obtain rfl : n = p := (List.cons.inj hpath).1
    have hskip : (decide (q.first = 43)) = false := by simpa using hds
    rw [hskip]
    exact cutSearch_here hok hfind hdel
  obtain rfl : n = p₀ := (List.cons.inj hpath).1
  have hn₀ : nameText n ≠ [] ∧ domainNamesMatchCi (nameText n) e.domain = false :=
    ⟨nameText_ne_nil n, hdom ▸ hnames n mem_cons_self⟩
  rw [map_cons, cons_append, cutSearch_pass hn₀]
  · rw [cutSearch_passAll (pre.map nameText), cutSearch_here hok hfind hdel]
    intro t ht
    obtain ⟨p', hp', rfl⟩ := List.mem_map.mp ht
    have hne : p' ≠ n := by
      rintro rfl
      have hsorted := path_shorter p'
      rw [hpath, cons_append] at hsorted
      exact absurd ((pairwise_cons.mp hsorted).1 p' (mem_append_left _ hp')) (Nat.lt_irrefl _)
    exact ⟨⟨nameText_ne_nil p', hdom ▸ hnames p' (mem_cons_of_mem _ hp')⟩,
      hnone p' (mem_cons_of_mem _ hp') (.inl hne)⟩
  by_cases h43 : q.first = 43
  · exact .inl (by simp [h43])
  · exact .inr (hnone n mem_cons_self (.inr h43))

/-- A list with a member that has a property has a first one. -/
lemma exists_first {α : Type} {P : α → Prop} {l : List α} (h : ∃ a ∈ l, P a) :
    ∃ pre a post, l = pre ++ a :: post ∧ P a ∧ ∀ b ∈ pre, ¬ P b := by
  classical
  obtain ⟨a, ha, hpa⟩ := h
  cases hfind : l.find? (fun a => decide (P a)) with
  | none => exact absurd hpa (by simpa using find?_eq_none.mp hfind a ha)
  | some b =>
    obtain ⟨hb, pre, post, rfl, hpre⟩ := find?_eq_some_iff_append.mp hfind
    exact ⟨pre, b, post, rfl, by simpa using hb, by simpa using hpre⟩

lemma resolveName_delegation (S : Sink σ) {r r' : Resp σ} (himg : e.image = some img)
    (h : findDelegation S q e img qname r = some r') : resolveName S q e qname r = r' := by
  simp [resolveName, resolveLoop, resolveStep, himg, h]

/-- Names of one path are equal if they are spellings of one name. -/
lemma path_same {p' : Name} (hp : p ∈ n :: parents n) (hp' : p' ∈ n :: parents n)
    (h : Same p p') : p = p' := by
  have hlen : p.length = p'.length := by simpa [fold] using congrArg List.length h
  obtain ⟨k, hk⟩ : ∃ k, n = k ++ p := by
    rcases mem_path.mp hp with rfl | ⟨-, k, -, hk⟩
    · exact ⟨[], rfl⟩
    · exact ⟨k, hk⟩
  obtain ⟨k', hk'⟩ : ∃ k', n = k' ++ p' := by
    rcases mem_path.mp hp' with rfl | ⟨-, k, -, hk⟩
    · exact ⟨[], rfl⟩
    · exact ⟨k, hk⟩
  exact (append_inj' (hk.symm.trans hk') hlen).2

/-- The owner of a cut is a spelling of its name on the path. -/
lemma LoadedZone.CutAt.nameText_match (h : z.CutAt v p id) :
    domainNamesMatchCi (z.img.nameText id) (nameText p) = true := by
  obtain ⟨nm, hnm, hmatch⟩ := z.isFrozen.findName.mp h.1
  simpa [ZoneImage.nameText, hnm] using hmatch

/-- Name servers of different owners are different. -/
lemma LoadedZone.nsRecords_inj {id' : Nat} (hdel : z.img.delegates e.view id = true)
    (h : nsRecords z.img e id = nsRecords z.img e id') : id = id' := by
  have hload : z.img.Loaded := ⟨z, rfl⟩
  have howner : ∀ i, ∀ x ∈ nsRecords z.img e i, ∃ nm rr owner ttl, x = .rr nm rr owner ttl ∧
      rr.nameId = i := by
    intro i x hx
    obtain ⟨⟨rr, k⟩, hv, hx⟩ := mem_flatMap.mp hx
    obtain ⟨-, hid, -⟩ := z.isFrozen.ownRr (RrsetSpec.records_sub _ _ _ _ hv).1
    rw [ZoneImage.emit, mem_toList] at hx
    obtain ⟨nm, -, rfl⟩ := map_eq_some_iff.mp hx
    exact ⟨nm, rr, _, _, rfl, hid⟩
  have hne : nsRecords z.img e id ≠ [] := by
    rw [nsRecords, Ne, RrsetSpec.emits_eq_nil (hload.holds (some id))]
    exact nsRecords_ne_nil.mpr hdel
  obtain ⟨x, hx⟩ := exists_mem_of_ne_nil _ hne
  obtain ⟨nm, rr, owner, ttl, rfl, hid⟩ := howner id x hx
  obtain ⟨_, _, _, _, heq, hid'⟩ := howner id' _ (h ▸ hx)
  cases heq
  exact hid.symm.trans hid'

end Path

/-- For every loaded zone, question and name at or below a zone cut, other than a DS question at
the topmost one: the response, in whatever packet, refers to the topmost cut exactly if every
other cut at or above the name is the name itself, under DS. -/
theorem referral_topmost_iff (z : LoadedZone) {q : Query} {e : ZoneEntry} {n : Name} {top : Nat}
    (himg : e.image = some z.img) (hdom : e.domain = z.domain) (hq : q.Loaded) (hn : Valid n)
    (htop : z.Topmost e.view (nameText n) top)
    (hds : ¬ (q.first = 43 ∧ domainNamesMatchCi (nameText n) (z.img.nameText top) = true)) :
    (∀ (σ : Type) (S : Sink σ) (s : σ),
      (resolveName S q e (nameText n) { sink := s }).RefersTo z.img e top) ↔
      ∀ id, z.CutAbove e.view (nameText n) id →
        id = top ∨ (q.first = 43 ∧ domainNamesMatchCi (nameText n) (z.img.nameText id) = true) := by
  obtain ⟨pt, hpt, hcutt⟩ := (z.cutAbove_iff hn).mp htop.1
  have hself : ∀ {p : Name} {id : Nat}, p ∈ n :: parents n → z.CutAt e.view p id →
      (p = n ↔ domainNamesMatchCi (nameText n) (z.img.nameText id) = true) := by
    intro p id hp hcut
    have hm := LoadedZone.CutAt.nameText_match z hcut
    constructor
    · rintro rfl
      exact matchCi_symm hm
    intro h
    have := matchCi_trans h hm
    have hsame := ((denotes_nameText hn).match_iff (denotes_nameText (path_valid hn hp))).mp this
    exact (path_same mem_cons_self hp hsame).symm
  constructor
  · intro hall id₁ hcut₁
    by_contra hcon
    obtain ⟨hne, hskip⟩ := not_or.mp hcon
    obtain ⟨p₁, hp₁, hat₁⟩ := (z.cutAbove_iff hn).mp hcut₁
    obtain ⟨pre, p, post, hpath, ⟨⟨id, hat⟩, hnot⟩, hpre⟩ :=
      @exists_first Name (fun p => (∃ id, z.CutAt e.view p id) ∧ ¬ (q.first = 43 ∧ p = n))
        (n :: parents n)
        ⟨p₁, hp₁, ⟨id₁, hat₁⟩, fun h => hskip ⟨h.1, (hself hp₁ hat₁).mp h.2⟩⟩
    have hpmem : p ∈ n :: parents n := by rw [hpath]; simp
    -- the cut found first is not the topmost one: the other cut is at or behind it on the path
    have hidne : id ≠ top := by
      rintro rfl
      have hbelow := htop.2 id₁ hcut₁
      obtain ⟨nm, hnm, hm⟩ := z.isFrozen.findName.mp hat.1
      obtain ⟨nm₁, hnm₁, hm₁⟩ := z.isFrozen.findName.mp hat₁.1
      simp only [ZoneImage.nameText, hnm, hnm₁, map_some, getD_some] at hbelow
      obtain ⟨m, hm'⟩ := z.isName hnm
      obtain ⟨m₁, hm₁'⟩ := z.isName hnm₁
      have hs := (hm'.match_iff (denotes_nameText (path_valid hn hpmem))).mp hm
      have hs₁ := (hm₁'.match_iff (denotes_nameText (path_valid hn hp₁))).mp hm₁
      have hle := ((hm₁'.below_iff hm').mp hbelow).length_le
      rw [hs, hs₁] at hle
      simp only [fold, length_map] at hle
      have hsorted := path_shorter n
      rw [hpath, pairwise_append] at hsorted
      rw [hpath] at hp₁
      rcases mem_append.mp hp₁ with hp₁ | hp₁
      · exact hpre p₁ hp₁
          ⟨⟨id₁, hat₁⟩,
            fun h => hskip ⟨h.1, (hself (by rw [hpath]; exact mem_append_left _ hp₁) hat₁).mp h.2⟩⟩
      rcases mem_cons.mp hp₁ with rfl | hp₁
      · exact hne (some.inj (hat₁.1.symm.trans hat.1))
      · have := (pairwise_cons.mp hsorted.2.1).1 p₁ hp₁
        omega
    obtain ⟨r', hr', href, htc⟩ :=
      refersTo_cut roomySink ⟨z, rfl⟩ hq (z.findCut_first hn hdom hpath hat hnot
      fun p' hp' id' hat' => by_contra fun hno =>
        hpre p' hp' ⟨⟨id', hat'⟩, hno⟩) { sink := () } ⟨rfl, rfl⟩
    replace htc : r'.tc = false := htc roomySink_not_full
    have hres := hall Unit roomySink ()
    rw [resolveName_delegation roomySink himg hr'] at hres
    rcases hres with h | ⟨-, -, h⟩
    · rw [htc] at h
      cases h
    rcases href with h' | ⟨-, -, h'⟩
    · rw [htc] at h'
      cases h'
    · exact hidne (z.nsRecords_inj hat.2.1 (h'.symm.trans h))
  · intro hall σ S s
    obtain ⟨pre, p, post, hpath, ⟨⟨id, hat⟩, hnot⟩, hpre⟩ :=
      @exists_first Name (fun p => (∃ id, z.CutAt e.view p id) ∧ ¬ (q.first = 43 ∧ p = n))
        (n :: parents n)
        ⟨pt, hpt, ⟨top, hcutt⟩, fun h => hds ⟨h.1, (hself hpt hcutt).mp h.2⟩⟩
    have hpmem : p ∈ n :: parents n := by rw [hpath]; simp
    obtain rfl : id = top := by
      rcases hall id ((z.cutAbove_iff hn).mpr ⟨p, hpmem, hat⟩) with h | h
      · exact h
      · exact absurd ⟨h.1, (hself hpmem hat).mpr h.2⟩ hnot
    obtain ⟨r', hr', href, -⟩ := refersTo_cut S ⟨z, rfl⟩ hq (z.findCut_first hn hdom hpath hat hnot
      fun p' hp' id' hat' => by_contra fun hno =>
        hpre p' hp' ⟨⟨id', hat'⟩, hno⟩) { sink := s } ⟨rfl, rfl⟩
    rw [resolveName_delegation S himg hr']
    exact href

/-- A zone with a zone cut below a zone cut. -/
def nestedCuts : LoadedZone :=
  .ofText
    [("example.", 6, ["ns.example.", "admin.example.", "1", "3600", "600", "86400", "300"]),
      ("example.", 2, ["ns.example."]), ("sub.example.", 2, ["ns.sub.example."]),
      ("deep.sub.example.", 2, ["ns.deep.sub.example."])]
    [ascii "example"] (by decide +kernel) (by decide +kernel) (by decide +kernel)

def nestedEntry : ZoneEntry :=
  { id := 0, domain := nestedCuts.domain, image := some nestedCuts.img }

/-- A question for addresses in a view without other zones. -/
def addressQuery : Query :=
  { first := 1, suffixZone := fun _ => .none, sha1 := fun _ => [],
    aliasLookup := fun _ _ _ => none }

lemma addressQuery_loaded : addressQuery.Loaded := by
  intro t e img h
  cases h

/-- `x.sub.example.` is below one zone cut. -/
theorem referral_topmost_iff_single :
    (resolveName (packetSink 512) addressQuery nestedEntry
      (nameText [ascii "x", ascii "sub", ascii "example"])
      { sink := ⟨fun _ => 0, 12, some compressCtxInit⟩ }).RefersTo nestedCuts.img
        nestedEntry 1 := by
  have hcuts : ∀ id < nestedCuts.img.names.length,
      nestedCuts.CutAbove nestedEntry.view (nameText [ascii "x", ascii "sub", ascii "example"])
        id → id = 1 := by
    decide +kernel
  have htop : nestedCuts.Topmost nestedEntry.view
      (nameText [ascii "x", ascii "sub", ascii "example"]) 1 :=
    LoadedZone.topmost_of_owners (by decide +kernel) (by decide +kernel)
  refine (referral_topmost_iff nestedCuts rfl rfl addressQuery_loaded (by decide +kernel) htop
    (by decide +kernel)).mpr
    ?_ _ (packetSink 512) _
  intro id hcut
  have hlt : id < nestedCuts.img.names.length := by
    obtain ⟨nm, hnm, -⟩ := hcut
    exact (List.getElem?_eq_some_iff.mp hnm).1
  exact .inl (hcuts id hlt hcut)

/-- Below two zone cuts the response refers to the lower one, whose name servers are not the
authority's business. -/
theorem referral_nested :
    nestedCuts.Topmost nestedEntry.view
      (nameText [ascii "x", ascii "deep", ascii "sub", ascii "example"]) 1 ∧
      ¬ (resolveName (packetSink 512) addressQuery nestedEntry
          (nameText [ascii "x", ascii "deep", ascii "sub", ascii "example"])
          { sink := ⟨fun _ => 0, 12, some compressCtxInit⟩ }).RefersTo nestedCuts.img
            nestedEntry 1 :=
  ⟨LoadedZone.topmost_of_owners (by decide +kernel) (by decide +kernel), by decide +kernel⟩

end KariDns
