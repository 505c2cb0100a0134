import KariDns.Query.Plan
import KariDns.Query.Referral

/-! The end of a response: negative answers, proofs, name servers and addresses.

What phases 7 to 10 write into the Authority section depends on the zone, the question and how
the name was answered; `closeAnswer_writes` says what, for every packet. The addresses behind it
are those of the targets collected.
-/

namespace KariDns

open Octets DomainName List Option

variable {p : ImageN3Params} {qname : Text} {v : Verdict}

variable {σ : Type}

/-! ### Phases 7 to 10 -/

/-- The SOA of a negative answer with its signatures. -/
def soaChunks (q : Query) (e : ZoneEntry) (img : ZoneImage) : List (List Emit) :=
  let own := img.rrsAt (img.findName e.domain)
  match own.findSome? fun (rr, _) =>
    if rr.type = 6 then (rrValid e.view rr).map (rr, ·) else none with
  | none => []
  | some (rr, ttl) =>
    let minimum := (soaMinimum rr).getD 3600
    img.emit rr none (ttlWithOverride ttl minimum) :: if q.dnssecOk then
      sigChunks img none 6 minimum own else []

/-- The name servers of the apex behind an answer. -/
def apexNsSpec (q : Query) (e : ZoneEntry) : RrsetSpec :=
  { sec := .authority, type := 2, qclass := 255, view := e.view.withoutEcs,
    mode := if q.dnssecOk then .required else .none, collect := some q.glueMinimal }

def apexNsChunks (q : Query) (e : ZoneEntry) (img : ZoneImage) (typeMatched : Bool) :
    List (List Emit) :=
  if typeMatched ∧ q.mode = .no ∧ q.first ≠ 2 ∧ q.first ≠ 255 then
    (apexNsSpec q e).chunks img (img.rrsAt (img.findName e.domain))
  else []

/-- How a name was answered. -/
def verdictOf (e : ZoneEntry) (img : ZoneImage) (qname : Text) (st : ScanState)
    (allMatched wcFound : Bool) : Verdict :=
  let ent := !st.found && nameExistsInZone img e.view qname
  ⟨st.found || ent, allMatched && !ent, wcFound, ent⟩

/-- The Authority section of an answer. -/
def closeChunks (q : Query) (c : Chain) (img : ZoneImage) (typeMatched : Bool) (v : Verdict) :
    List (List Emit) :=
  (if v.found ∧ typeMatched then [] else soaChunks q c.entry img) ++
    (denialChunks (denials q c.entry img c.qname v c.firstWc)
      [] ++ apexNsChunks q c.entry img typeMatched)

/-- Phases 7 to 10, given how the name was answered. -/
def closeAnswer (S : Sink σ) (q : Query) (c : Chain) (img : ZoneImage) (typeMatched : Bool)
    (v : Verdict) (r : Resp σ) : Resp σ :=
  match (if v.found ∧ typeMatched then (true, r)
    else negativeSoa S q c.entry img { r with rcode := if v.found then 0 else 3 }) with
  | (false, r) => r.truncated
  | (true, r) =>
    match attachDenials S (denials q c.entry img c.qname v c.firstWc) [] r with
    | (false, full) => (r.restore S full).truncated
    | (true, r) => finishAnswer S q c.entry img typeMatched r

/-- Phase 10. -/
def addressed (S : Sink σ) (q : Query) (e : ZoneEntry) (img : ZoneImage) (r : Resp σ) : Resp σ :=
  if q.mode ≠ .yes ∧ e.policy ≠ .no then additionalGlue S q e img r.glue r else r

lemma answerName_eq (S : Sink σ) (q : Query) (c : Chain) (img : ZoneImage) (aliasKey : Option Nat)
    (st : ScanState) (wcFound : Bool) (r : Resp σ) :
    answerName S q c img aliasKey st wcFound r =
      let p := if st.found then
        furtherTypes S q c.entry img c.qname aliasKey q.more 1 st.typeMatched wcFound r
        else (st.typeMatched, wcFound, r)
      closeAnswer S q c img st.typeMatched (verdictOf c.entry img c.qname st p.1 p.2.1) p.2.2 := rfl

/-! ### Zones a loader left -/

def ZoneEntry.Loaded (e : ZoneEntry) : Prop := ∀ img, e.image = some img → img.Loaded

lemma Query.Loaded.entries {q : Query} (h : q.Loaded) (t : Text) (type : UInt16) (e : ZoneEntry)
    (he : q.findZone t type = .entry e) : e.Loaded :=
  fun _ himg => h.findZone he himg

/-- The zone of a round and that of the first alias from a wildcard have a property. -/
def Chain.All (P : ZoneEntry → Prop) (c : Chain) : Prop :=
  P c.entry ∧ ∀ p, c.firstWc = some p → P p.2

def Chain.Loaded : Chain → Prop := Chain.All ZoneEntry.Loaded

section Closing

variable {q : Query} {c : Chain} {e : ZoneEntry} {img : ZoneImage}

/-- A record for a proof about a zone: an NSEC or NSEC3 record of it, if there is one. -/
structure Denial.Of (d : Denial) (e : ZoneEntry) (img : ZoneImage) : Prop where
  zone : d.zone = e.id
  image : d.img = img
  denies : ∀ k, d.rr = some k → img.Denies k

lemma firstOf_denies (h : img.Loaded) {id k : Nat} (hk : img.firstOf id 47 = some k) :
    img.Denies k := by
  obtain ⟨z, rfl⟩ := h
  obtain ⟨⟨rr, k'⟩, hfind, rfl⟩ := map_eq_some_iff.mp hk
  have htype : rr.type = 47 := by simpa using find?_some hfind
  exact ⟨rr, (z.isFrozen.ownRr (mem_of_find?_eq_some hfind)).1, .inl htype⟩

lemma coverNsec_of (e : ZoneEntry) (img : ZoneImage) (t : Text) :
    Denial.Of ⟨e.id, img, findCoveringNsec img t, none⟩ e img :=
  ⟨rfl, rfl, fun _ hk => findCoveringNsec_denies hk⟩

lemma matchNsec3_of (h : img.Loaded) {t : Text} :
    Denial.Of ⟨e.id, img, matchNsec3 q e img p t, none⟩ e img :=
  ⟨rfl, rfl, fun _ hk => matchNsec3_denies h hk⟩

lemma encloserDenials_of (h : img.Loaded) {v : ClientView} :
    ∀ d ∈ encloserDenials q e img p v qname, d.Of e img := by
  intro d hd
  rcases mem_cons.mp hd with rfl | hd
  · exact matchNsec3_of h
  rw [mem_singleton.mp hd]
  refine ⟨rfl, rfl, fun k hk => ?_⟩
  obtain ⟨t, -, hk⟩ := bind_eq_some_iff.mp hk
  exact coverNsec3_denies hk

lemma nsecDenials_of (h : img.Loaded) : ∀ d ∈ nsecDenials e img qname v, d.Of e img := by
  intro d hd
  rw [nsecDenials] at hd
  split at hd
  · rcases mem_cons.mp hd with rfl | hd
    · exact coverNsec_of e img qname
    split at hd
    · cases hd
    rw [mem_singleton.mp hd]
    refine ⟨rfl, rfl, fun k hk => ?_⟩
    obtain ⟨id, -, hk⟩ := bind_eq_some_iff.mp hk
    exact firstOf_denies h hk
  split at hd
  · split at hd
    · rename_i k ttl hnsec
      rw [mem_singleton.mp hd]
      refine ⟨rfl, rfl, fun k' hk => ?_⟩
      cases hk
      cases hid : img.findName qname with
      | none =>
        rw [hid] at hnsec
        cases hnsec
      | some id =>
        rw [hid] at hnsec
        exact nsecAtOwner_denies h hnsec
    split at hd
    · rw [mem_singleton.mp hd]
      exact coverNsec_of e img qname
    · cases hd
  split at hd
  · rcases mem_cons.mp hd with rfl | hd
    · exact coverNsec_of e img qname
    split at hd
    · rw [mem_singleton.mp hd]
      exact coverNsec_of e img _
    · cases hd
  · cases hd

lemma nsec3Denials_of (h : img.Loaded) : ∀ d ∈ nsec3Denials q e img p qname v, d.Of e img := by
  intro d hd
  rw [nsec3Denials] at hd
  split at hd
  · rcases mem_append.mp hd with hd | hd
    · exact encloserDenials_of h d hd
    split at hd
    · cases hd
    · rw [mem_singleton.mp hd]
      exact matchNsec3_of h
  split at hd
  · rw [mem_singleton.mp hd]
    exact matchNsec3_of h
  split at hd
  · rcases mem_append.mp hd with hd | hd
    · exact encloserDenials_of h d hd
    · rw [mem_singleton.mp hd]
      exact ⟨rfl, rfl, fun _ hk => coverNsec3_denies hk⟩
  · cases hd

/-- The records of a proof are of the zone itself, or of the zone of the first alias from a
wildcard. -/
lemma denials_of (h : img.Loaded) {firstWc : Option (Text × ZoneEntry)}
    (hwc : ∀ p, firstWc = some p → p.2.Loaded) :
    ∀ d ∈ denials q e img qname v firstWc,
      d.Of e img ∨ ∃ p img', firstWc = some p ∧ p.2.image = some img' ∧ d.Of p.2 img' := by
  intro d hd
  rw [denials] at hd
  split at hd
  · cases hd
  rcases mem_append.mp hd with hd | hd
  · left
    split at hd
    · exact nsecDenials_of h d hd
    · exact nsec3Denials_of h d hd
  right
  rcases firstWc with _ | ⟨name, e'⟩
  · cases hd
  rw [aliasDenials] at hd
  split at hd
  · cases hd
  rename_i img' himg
  refine ⟨_, img', rfl, himg, ?_⟩
  split at hd
  · rw [mem_singleton.mp hd]
    exact coverNsec_of e' img' name
  · exact encloserDenials_of (hwc _ rfl img' himg) d hd

lemma denials_loaded (h : img.Loaded) (hc : c.Loaded) :
    ∀ d ∈ denials q e img qname v c.firstWc, d.img.Loaded := by
  intro d hd
  rcases denials_of h hc.2 d hd with hof | ⟨p, img', hp, himg, hof⟩
  · rw [hof.image]
    exact h
  · rw [hof.image]
    exact hc.2 p hp _ himg

variable (S : Sink σ)

lemma negativeSoa_writes (h : img.Loaded) (q : Query) (e : ZoneEntry) (r : Resp σ) :
    Writes S .authority (soaChunks q e img) (negativeSoa S q e img r).1 r
      (negativeSoa S q e img r).2 := by
  rw [negativeSoa, soaChunks]
  dsimp only
  cases hfind : (img.atName e.domain).findSome? fun (rr, _) =>
      if rr.type = 6 then (rrValid e.view rr).map (rr, ·) else none with
  | none => exact .nil S .authority r
  | some v =>
    obtain ⟨rr, ttl⟩ := v
    obtain ⟨-, -, k, hmem⟩ := firstVisible_some hfind
    obtain ⟨nm, hnm⟩ := h.holds _ _ hmem
    have hw :=
      writeRr_writes hnm S .authority none (ttlWithOverride ttl ((soaMinimum rr).getD 3600)) r
    dsimp only
    rw [← singleton_append]
    generalize r.writeRr S .authority img rr none
      (ttlWithOverride ttl ((soaMinimum rr).getD 3600)) = res at hw ⊢
    obtain ⟨_ | _, r₁⟩ := res
    · exact hw.stop (sublist_append_left _ _)
    dsimp only
    by_cases hdo : q.dnssecOk = true
    · rw [if_pos hdo, if_pos hdo]
      exact hw.seq (attachCoveringRrsig_writes S none 6 _ .authority (h.holds _) r₁)
    · rw [if_neg hdo, if_neg hdo]
      exact hw.seq (.nil _ _ _)

lemma finishAnswer_writes (h : img.Loaded) (q : Query) (e : ZoneEntry) (typeMatched : Bool)
    (r : Resp σ) :
    ∃ ok r', Writes S .authority (apexNsChunks q e img typeMatched) ok r r' ∧
      finishAnswer S q e img typeMatched r = if ok then addressed S q e img r'
        else r'.truncated := by
  rw [finishAnswer, apexNsChunks]
  by_cases hns : typeMatched = true ∧ q.mode = .no ∧ q.first ≠ 2 ∧ q.first ≠ 255
  · simp only [if_pos hns]
    obtain ⟨ok, hw, hres⟩ := emitRrset_writes S (apexNsSpec q e) (h.holds (img.findName e.domain))
      (by simp only [apexNsSpec]; split <;> simp) r
    rcases hemit : emitRrset S img (img.findName e.domain) (apexNsSpec q e) r with ⟨o, r₁⟩
    rw [hemit] at hw hres
    rw [apexNsSpec] at hemit
    rw [hemit]
    refine ⟨ok, r₁, hw, ?_⟩
    cases ok with
    | false =>
      obtain rfl : o = none := hres
      rfl
    | true =>
      obtain rfl : o = some _ := hres
      rfl
  · simp only [if_neg hns]
    exact ⟨true, r, .nil _ _ _, rfl⟩

lemma closeAnswer_writes (h : img.Loaded) (hc : c.Loaded) (q : Query) (typeMatched : Bool)
    (v : Verdict) (r : Resp σ) (hr : r.rcode = 0) :
    ∃ ok r', Writes S .authority (closeChunks q c img typeMatched v) ok
      { r with rcode := if v.found then 0 else 3 } r' ∧
      closeAnswer S q c img typeMatched v r = if ok then addressed S q c.entry img r'
        else r'.truncated := by
  rw [closeAnswer, closeChunks]
  obtain ⟨ok, r₁, hw, hres⟩ : ∃ ok r₁,
      Writes S .authority
        (if v.found = true ∧ typeMatched = true then [] else soaChunks q c.entry img) ok
        { r with rcode := if v.found then 0 else 3 } r₁ ∧
      (if v.found = true ∧ typeMatched = true then (true, r)
        else negativeSoa S q c.entry img
          { r with rcode := if v.found then 0 else 3 }) = (ok, r₁) := by
    by_cases hpos : v.found = true ∧ typeMatched = true
    · have hsame : { r with rcode := if v.found then 0 else 3 } = r := by
        rw [if_pos hpos.1, ← hr]
      rw [if_pos hpos, if_pos hpos, hsame]
      exact ⟨true, r, .nil _ _ _, rfl⟩
    · rw [if_neg hpos, if_neg hpos]
      exact ⟨_, _, negativeSoa_writes S h q c.entry _, rfl⟩
  rw [hres]
  cases ok with
  | false => exact ⟨false, r₁, hw.stop (sublist_append_left _ _), rfl⟩
  | true =>
    have hden :=
      attachDenials_writes S
        (denials_loaded h hc : ∀ d ∈ denials q c.entry img c.qname v c.firstWc, _) [] r₁
    dsimp only
    generalize attachDenials S (denials q c.entry img c.qname v c.firstWc) [] r₁ = res at hden ⊢
    obtain ⟨_ | _, r₂⟩ := res
    · exact ⟨false, _, hw.seq ((hden.restore hden.ne_nil).stop (sublist_append_left _ _)), rfl⟩
    obtain ⟨ok, r₃, hns, hfin⟩ := finishAnswer_writes S h q c.entry typeMatched r₂
    exact ⟨ok, r₃, hw.seq (hden.seq hns), hfin⟩

lemma additionalGlue_grew (S : Sink σ) (h : img.Loaded) (hq : q.Loaded) (e : ZoneEntry) :
    ∀ (targets : List Text) (r : Resp σ), ∃ ds : List (List Emit), ds.Sublist
      (targets.flatMap (targetChunks q e img)) ∧
        r.Grew .additional ds.flatten (additionalGlue S q e img targets r)
  | [], r => ⟨[], List.Sublist.refl _, .refl _ r⟩
  | t :: targets, r => by
    have hadds := appendGlueRecords_adds S h.holds t e.domain e.view e.policy
      (fun u => (hq.sibling e u).owned) q.dnssecOk r
    rw [additionalGlue, flatMap_cons]
    rcases happ : appendGlueRecords S img t e.domain e.view e.policy
      (q.sibling e) q.dnssecOk r with ⟨_ | _, r₁⟩
    · rw [happ] at hadds
      obtain ⟨ds, hsub, ⟨ha, hb, hc, hd, he, hf, hg⟩, -⟩ := hadds
      exact ⟨ds, hsub.trans (sublist_append_left _ _), ⟨ha, hb, hc, hd, he, hf, hg⟩⟩
    rw [happ] at hadds
    obtain ⟨ds, hsub, hgrew, -⟩ := hadds
    obtain ⟨ds', hsub', hgrew'⟩ := additionalGlue_grew S h hq e targets r₁
    refine ⟨ds ++ ds', hsub.append hsub', ?_⟩
    rw [flatten_append]
    exact hgrew.trans hgrew'

lemma addressed_grew (h : img.Loaded) (hq : q.Loaded) (e : ZoneEntry) (r : Resp σ) :
    ∃ ds : List (List Emit), ds.Sublist (r.glue.flatMap (targetChunks q e img)) ∧
      r.Grew .additional ds.flatten (addressed S q e img r) := by
  rw [addressed]
  split
  · exact additionalGlue_grew S h hq e r.glue r
  · exact ⟨[], nil_sublist _, .refl _ r⟩

end Closing

end KariDns
