import KariDns.Query.Loaded
import KariDns.Query.Views
import KariDns.Server.QueryAcl

/-! Zones that a client may not query.

The engine asks the lists of a zone before it answers from it, before it follows an alias into it,
and before it takes addresses from it. So the response is the same whatever the zones hold that the
check keeps the client out of. It keeps the client out of the zones whose lists in force do so,
except where a view shares a zone that has no configuration of its own.
-/

namespace KariDns

open Octets DomainName

variable {σ : Type}

/-! ### Data behind the check -/

/-- The same zone, with other data only if the client is kept out of it. -/
def Withheld (e e' : ZoneEntry) : Prop :=
  e' = e ∨ e.permitted = false ∧ ∃ image, e' = e.holding image

lemma Withheld.holding {e e' : ZoneEntry} (h : Withheld e e') : ∃ image, e' = e.holding image := by
  obtain rfl | ⟨-, h⟩ := h
  · exact ⟨e'.image, rfl⟩
  · exact h

section Resolver

variable {q : Query} {zones : Text → ZoneFound}

lemma scanRrs_on (S : Sink σ) (e : ZoneEntry) (img : ZoneImage) (id : Option Nat)
    (spec : ScanSpec) :
    ∀ (l : List (ImageRr × Nat)) (st : ScanState) (r : Resp σ),
      scanRrs S (q.on zones) e img id spec l st r = scanRrs S q e img id spec l st r
  | [], _, _ => rfl
  | (rr, k) :: l, st, r => by
    rw [scanRrs, scanRrs]
    simp only [scanRrs_on S e img id spec l]
    rfl

lemma wildcardWalk_on (S : Sink σ) (e : ZoneEntry) (img : ZoneImage) (qname : Text) :
    ∀ (parents : List Text) (r : Resp σ),
      wildcardWalk S (q.on zones) e img qname parents r = wildcardWalk S q e img qname parents r
  | [], _ => rfl
  | parent :: rest, r => by
    rw [wildcardWalk, wildcardWalk]
    simp only [scanRrs_on, wildcardWalk_on S e img qname rest]

variable (hz : ∀ t, FoundRel Withheld (q.suffixZone t) (zones t))

include hz

variable (S : Sink σ) (init : Resp σ) (depth : Nat) (c : Chain) (img : ZoneImage)
    (key : Option Nat) (e : ZoneEntry)
  (target : Text) (dnssecOk : Bool) (r : Resp σ)

lemma appendFromSibling_on : appendFromSibling S target dnssecOk ((q.on zones).sibling e target) r =
      appendFromSibling S target dnssecOk (q.sibling e target) r := by
  have hfound := findZone_rel (fun _ _ => Withheld.holding) hz target 0
  rw [Query.sibling, Query.sibling]
  generalize q.findZone target 0 = f, (q.on zones).findZone target 0 = f' at hfound ⊢
  cases hfound with
  | none => rfl
  | absent => rfl
  | @entry s s' h =>
    obtain rfl | ⟨hshut, image, rfl⟩ := h
    · rfl
    -- the check comes before the data is looked at
    dsimp only [ZoneEntry.holding]
    rw [hshut]
    cases s.image <;> cases image <;> simp [appendFromSibling]

lemma appendGlueRecords_on (target apex : Text) (view : ClientView) (policy : AdditionalAuth)
    (dnssecOk : Bool) (r : Resp σ) :
    appendGlueRecords S img target apex view policy ((q.on zones).sibling e) dnssecOk r =
      appendGlueRecords S img target apex view policy (q.sibling e) dnssecOk r := by
  rw [appendGlueRecords, appendGlueRecords]
  simp only [appendFromSibling_on hz]

lemma referralGlue_on (S : Sink σ) (e : ZoneEntry) (img : ZoneImage) (name : Text) :
    ∀ (l : List (ImageRr × Nat)) (full : Bool) (r : Resp σ),
      referralGlue S (q.on zones) e img name l full r = referralGlue S q e img name l full r
  | [], _, _ => rfl
  | (rr, k) :: l, full, r => by
    rw [referralGlue, referralGlue]
    simp only [appendGlueRecords_on hz, referralGlue_on S e img name l, Query.on_dnssecOk]

lemma additionalGlue_on (S : Sink σ) (e : ZoneEntry) (img : ZoneImage) :
    ∀ (l : List Text) (r : Resp σ),
      additionalGlue S (q.on zones) e img l r = additionalGlue S q e img l r
  | [], _ => rfl
  | target :: l, r => by
    rw [additionalGlue, additionalGlue]
    simp only [appendGlueRecords_on hz, additionalGlue_on S e img l, Query.on_dnssecOk]

lemma delegationWalk_on (S : Sink σ) (e : ZoneEntry) (img : ZoneImage) :
    ∀ (skip : Bool) (path : List Text) (r : Resp σ),
      delegationWalk S (q.on zones) e img skip path r = delegationWalk S q e img skip path r
  | _, [], _ => rfl
  | skip, name :: rest, r => by
    have hrest : ∀ id r, referralRest S (q.on zones) e img id name r =
        referralRest S q e img id name r := by
      intro id r
      rw [referralRest, referralRest]
      simp only [referralGlue_on hz]
      rfl
    rw [delegationWalk, delegationWalk]
    simp only [hrest, delegationWalk_on S e img false rest]

/-- An alias is followed into a zone that the check lets the client into, and into no other. -/
lemma follow_on : follow (q.on zones) c target r = follow q c target r := by
  have hfound := findZone_rel (fun _ _ => Withheld.holding) hz target q.first
  rw [follow, follow, Query.on_first]
  generalize q.findZone target q.first = f, (q.on zones).findZone target q.first = f' at hfound ⊢
  cases hfound with
  | none => rfl
  | absent => rfl
  | @entry s s' h =>
    obtain rfl | ⟨hshut, image, rfl⟩ := h
    · rfl
    · simp [ZoneEntry.holding, hshut]

lemma answerName_on (st : ScanState) (wc : Bool) (r : Resp σ) :
    answerName S (q.on zones) c img key st wc r = answerName S q c img key st wc r := by
  have hfinish : ∀ matched r, finishAnswer S (q.on zones) c.entry img matched r =
      finishAnswer S q c.entry img matched r := by
    intro matched r
    rw [finishAnswer, finishAnswer]
    simp only [additionalGlue_on hz]
    rfl
  have hfurther : ∀ j all wc r, furtherTypes S (q.on zones) c.entry img c.qname key
    q.more j all wc r =
      furtherTypes S q c.entry img c.qname key q.more j all wc r :=
    furtherTypes_on q c.entry zones c.entry.image S img c.qname key q.more
  rw [answerName, answerName]
  simp only [hfinish, hfurther, Query.on_more]
  rfl

lemma answerDname_on (c : Chain) (parent : Text) (id : Nat) (rr : ImageRr) (ttl : Nat)
    (target : Text) (r : Resp σ) :
    answerDname S (q.on zones) img c parent id rr ttl target r =
      answerDname S q img c parent id rr ttl target r := by
  rw [answerDname, answerDname]
  simp only [follow_on hz]
  rfl

lemma answerMissing_on :
    answerMissing S (q.on zones) c img key r = answerMissing S q c img key r := by
  rw [answerMissing, answerMissing]
  simp only [answerDname_on hz, answerName_on hz, wildcardWalk_on, follow_on hz]

lemma answerFrom_on : answerFrom S (q.on zones) init c img r = answerFrom S q init c img r := by
  have hexpanded : ∀ key own st r, answerFrom.expanded S (q.on zones) init c img key own st r =
      answerFrom.expanded S q init c img key own st r := by
    intro key own st r
    rw [answerFrom.expanded, answerFrom.expanded]
    simp only [answerName_on hz, answerMissing_on hz]
    rfl
  rw [answerFrom, answerFrom]
  simp only [hexpanded, scanRrs_on, follow_on hz]
  rfl

lemma resolveStep_on :
    resolveStep S (q.on zones) init depth c r = resolveStep S q init depth c r := by
  have hcut : ∀ img, findDelegation S (q.on zones) c.entry img c.qname r =
      findDelegation S q c.entry img c.qname r := by
    intro img
    rw [findDelegation, findDelegation]
    simp only [delegationWalk_on hz]
    rfl
  rw [resolveStep, resolveStep]
  simp only [hcut, answerFrom_on hz]

lemma resolveLoop_on (S : Sink σ) (init : Resp σ) : ∀ (fuel depth : Nat) (c : Chain) (r : Resp σ),
      resolveLoop S (q.on zones) init fuel depth c r = resolveLoop S q init fuel depth c r
  | 0, _, _, _ => rfl
  | fuel + 1, depth, c, r => by
    rw [resolveLoop, resolveLoop, resolveStep_on hz]
    simp only [resolveLoop_on S init fuel]

end Resolver

/-! ### A query at the server -/

/-- A zone in memory, with what is known of its configuration. -/
structure HeldZone (cfg : ServerConfig) where
  entry : ZoneEntry
  config : Option ZoneConfig
  configured : ConfigOf cfg entry.domain config
  /-- A forward or program zone has no data. -/
  noData : entry.served = false → entry.image = none

/-- What a search in the directory of a view finds. -/
inductive HeldFound (cfg : ServerConfig)
  | none
  | absent
  | zone (z : HeldZone cfg)

/-- The client, and the view it was matched to. -/
structure Visit where
  ifaces : List Iface
  view : Text
  client : Client

section Server

variable {cfg : ServerConfig} (w : Visit)

/-- `zone_query_permitted`. -/
def HeldZone.queryPermitted (z : HeldZone cfg) : Bool :=
  queryAclPermits cfg w.ifaces z.config w.view w.client

/-- The lists in force for the zone let the client ask. -/
def HeldZone.Permitted (z : HeldZone cfg) : Prop :=
  KariDns.Permitted cfg w.ifaces w.view z.entry.domain z.config w.client

def HeldZone.entryFor (z : HeldZone cfg) : ZoneEntry :=
  { z.entry with permitted := z.queryPermitted w }

/-- The zones as the engine sees them for the client. -/
def Visit.zones (dir : Text → HeldFound cfg) (t : Text) : ZoneFound :=
  match dir t with
  | .none => .none
  | .absent => .absent
  | .zone z => .entry (z.entryFor w)

/-- The part of `process_query_body` that looks at the zone of the question. -/
inductive Reply (σ : Type)
  | noZone
  | notInMemory
  | refused
  | passedOn (zone : Nat)
  | answered (r : Resp σ)

def processQuery (S : Sink σ) (q : Query) (qname : Text) (r : Resp σ) : Reply σ :=
  match q.findZone qname q.first with
  | .none => .noZone
  | .absent => .notInMemory
  | .entry e =>
    if ¬ e.permitted then .refused
    else if ¬ e.served then .passedOn e.id
    else .answered (resolveName S q e qname r)

/-- The same zone, with other data only if its lists in force keep the client out. -/
def SameFor (z z' : HeldZone cfg) : Prop :=
  z' = z ∨ ¬ z.Permitted w ∧ z'.config = z.config ∧ ∃ image, z'.entry = z.entry.holding image

inductive FoundFor : HeldFound cfg → HeldFound cfg → Prop
  | none : FoundFor .none .none
  | absent : FoundFor .absent .absent
  | zone {z z' : HeldZone cfg} (h : SameFor w z z') : FoundFor (.zone z) (.zone z')

/-- No response holds anything of a zone whose lists keep the client out: it is the same response,
whatever such zones hold. -/
def Confined (dir : Text → HeldFound cfg) : Prop :=
  ∀ (σ : Type) (S : Sink σ) (q : Query) (qname : Text) (r : Resp σ) (dir' : Text → HeldFound cfg),
    (∀ t, FoundFor w (dir t) (dir' t)) →
      processQuery S (q.on (w.zones dir')) qname r = processQuery S (q.on (w.zones dir)) qname r

variable {w} {z : HeldZone cfg}

lemma processQuery_on {q : Query} {zones : Text → ZoneFound}
    (hz : ∀ t, FoundRel Withheld (q.suffixZone t) (zones t)) (S : Sink σ) (qname : Text)
    (r : Resp σ) : processQuery S (q.on zones) qname r = processQuery S q qname r := by
  have hfound := findZone_rel (fun _ _ => Withheld.holding) hz qname q.first
  rw [processQuery, processQuery, Query.on_first]
  generalize q.findZone qname q.first = f, (q.on zones).findZone qname q.first = f' at hfound ⊢
  cases hfound with
  | none => rfl
  | absent => rfl
  | @entry e e' h =>
    obtain rfl | ⟨hshut, image, rfl⟩ := h
    · simp only [resolveName, resolveLoop_on hz]
    · simp [ZoneEntry.holding, hshut]

/-- What the lists withhold the check withholds, in a zone where it lets in nobody else. -/
lemma SameFor.withheld {z' : HeldZone cfg} (h : SameFor w z z')
    (hcheck : z.entry.served = true → z.queryPermitted w = true → z.Permitted w) :
    Withheld (z.entryFor w) (z'.entryFor w) := by
  obtain rfl | ⟨hshut, hconfig, image, he⟩ := h
  · exact .inl rfl
  have hperm : z'.queryPermitted w = z.queryPermitted w := by
    rw [HeldZone.queryPermitted, hconfig, HeldZone.queryPermitted]
  cases hserved : z.entry.served with
  | true =>
    refine .inr ⟨Bool.eq_false_iff.2 fun h => hshut (hcheck hserved h), image, ?_⟩
    rw [HeldZone.entryFor, he, hperm]
    rfl
  | false =>
    have himg' := z'.noData (by rw [he]; exact hserved)
    rw [he] at himg'
    have himg : image = z.entry.image := himg'.trans (z.noData hserved).symm
    left
    rw [HeldZone.entryFor, he, hperm, himg]
    rfl

/-- What the check does not see: a zone without a configuration that the view shares. The lists of
the view let in nobody there whom the lists in force keep out. -/
def SharedOk (w : Visit) (z : HeldZone cfg) : Prop :=
  z.config = none → (cfg.stub w.view z.entry.domain).isSome = true →
    Admits w.ifaces (cfg.viewList w.view .query)
      (cfg.viewList w.view .queryOn) w.client → z.Permitted w

lemma stub_view {domain : Text} (h : (cfg.stub w.view domain).isSome = true) : w.view ≠ [] := by
  intro hnil
  simp [ServerConfig.stub, hnil] at h

lemma queryPermitted_ok (hz : SharedOk w z) (h : z.queryPermitted w = true) : z.Permitted w := by
  cases hstub : (cfg.stub w.view z.entry.domain).isSome with
  | false => exact (queryAclPermits_iff z.configured (.inr (by simpa using hstub))).1 h
  | true =>
    cases hconfig : z.config with
    | some c => exact (queryAclPermits_iff z.configured (.inl (by rw [hconfig]; rfl))).1 h
    | none =>
      have hpick := (queryAclPermits_iff_pick z.configured).1 h
      rw [hconfig, aclPick_none (stub_view hstub), aclPick_none (stub_view hstub)] at hpick
      exact hz hconfig hstub hpick

lemma sharedOk_of_check (h : z.queryPermitted w = true → z.Permitted w) : SharedOk w z := by
  intro hconfig hstub hadm
  refine h ((queryAclPermits_iff_pick z.configured).2 ?_)
  rw [hconfig, aclPick_none (stub_view hstub), aclPick_none (stub_view hstub)]
  exact hadm

/-! ### A zone answers by its data -/

/-- An image without records. -/
def emptyImage : ZoneImage :=
  { names := [], rrs := [], canon := [], nsec := [], n3chains := [], n3 := none, glue := [],
    hashSize := 0, perm := none,
    apexName := none, isTinydns := false, zattr := [] }

lemma emptyImage_find (t : Text) : emptyImage.findName t = none := rfl

lemma resolveName_lost {q : Query} {e : ZoneEntry} (h : e.image = none) (qname : Text) :
    (resolveName roomySink q e qname { sink := () }).rcode = 2 := by
  simp [resolveName, resolveLoop, resolveStep, h, Resp.servfail]

lemma resolveName_empty {q : Query} {e : ZoneEntry} (h : e.image = some emptyImage)
    (hdo : q.dnssecOk = false) (hany : q.first ≠ 255) (qname : Text) :
      (resolveName roomySink q e qname { sink := () }).rcode = 3 := by
  have hnames : emptyImage.names = [] := rfl
  have hname : answerName roomySink q { qname, visited := [qname], entry := e } emptyImage none
      {} false { sink := () } =
      { sink := (), rcode := 3 } := by
    simp [answerName, nameExistsInZone, hnames, negativeSoa, emptyImage_find, ZoneImage.rrsAt,
      denials, hdo, attachDenials, finishAnswer, additionalGlue]
  have hstep : resolveStep roomySink q { sink := () } 0 { qname, visited := [qname], entry := e }
      { sink := () } =
      .done { sink := (), rcode := 3 } := by
    simp [resolveStep, h, findDelegation, hnames, answerFrom, answerFrom.expanded, emptyImage_find,
      Query.hinfo, ZoneImage.rrsAt, hany, scanRrs, answerMissing, dnameSearch, ZoneImage.hasDname,
      ZoneImage.hasWild, hname]
  rw [resolveName, resolveLoop, hstep]

/-- A question for the name of a zone is answered from it, if the check lets the client in. -/
lemma processQuery_at {dir : Text → HeldFound cfg} {t : Text} (hz : dir t = .zone z)
    (hserved : z.entry.served = true) (hperm : z.queryPermitted w = true) {q : Query}
    (hds : q.first ≠ 43) (S : Sink σ) (r : Resp σ) :
    processQuery S (q.on (w.zones dir)) t r =
      .answered (resolveName S (q.on (w.zones dir)) (z.entryFor w) t r) := by
  have hfind : (q.on (w.zones dir)).findZone t q.first = .entry (z.entryFor w) := by
    simp [Query.findZone, findZoneForQuery, Query.on, Visit.zones, hz, hds]
  rw [processQuery, Query.on_first, hfind]
  simp [HeldZone.entryFor, hperm, hserved]

/-- A question of one type without options. -/
def plainQuery (type : UInt16) : Query :=
  { first := type, suffixZone := fun _ => .none, sha1 := fun _ => [],
    aliasLookup := fun _ _ _ => none }

/-- The directory with another zone at one name. -/
def withZone (dir : Text → HeldFound cfg) (t : Text) (z : HeldZone cfg) : Text → HeldFound cfg :=
  fun t' => if t' = t then .zone z else dir t'

/-- A zone of the directory with other data. -/
def HeldZone.withData (z : HeldZone cfg) (hserved : z.entry.served = true)
    (image : Option ZoneImage) : HeldZone cfg where
  entry := z.entry.holding image
  config := z.config
  configured := z.configured
  noData := fun h => absurd (hserved.symm.trans h) (by simp)

/-- Where responses are confined, the check lets in whom the lists in force let in. -/
lemma Confined.permitted {dir : Text → HeldFound cfg} (hconf : Confined w dir) {t : Text}
    (hz : dir t = .zone z) (hserved : z.entry.served = true) (hcheck : z.queryPermitted w = true) :
      z.Permitted w := by
  by_contra hshut
  have hrel : ∀ image t', FoundFor w (dir t') (withZone dir t (z.withData hserved image) t') := by
    intro image t'
    rw [withZone]
    split
    · rename_i h
      rw [h, hz]
      exact .zone (.inr ⟨hshut, rfl, image, rfl⟩)
    cases dir t' with
    | none => exact .none
    | absent => exact .absent
    | zone z' => exact .zone (.inl rfl)
  -- with no data at all the zone gives SERVFAIL, with data but no records NXDOMAIN
  have hanswer : ∀ image,
      processQuery roomySink ((plainQuery 6).on (w.zones dir)) t { sink := () } = .answered
        (resolveName roomySink
          ((plainQuery 6).on (w.zones (withZone dir t (z.withData hserved image))))
        ((z.withData hserved image).entryFor w) t { sink := () }) := by
    intro image
    have hat : withZone dir t (z.withData hserved image) t = .zone (z.withData hserved image) :=
      if_pos rfl
    rw [← hconf Unit roomySink (plainQuery 6) t { sink := () } _ (hrel image)]
    exact processQuery_at hat hserved hcheck (show (6 : UInt16) ≠ 43 by decide) roomySink _
  have hsame := (hanswer none).symm.trans (hanswer (some emptyImage))
  injection hsame with hsame
  have hlost :=
    resolveName_lost (q := (plainQuery 6).on (w.zones (withZone dir t (z.withData hserved none))))
    (e := (z.withData hserved none).entryFor w) rfl t
  have hempty :=
    resolveName_empty
      (q := (plainQuery 6).on (w.zones (withZone dir t (z.withData hserved (some emptyImage)))))
    (e := (z.withData hserved (some emptyImage)).entryFor w) rfl rfl
      (show (6 : UInt16) ≠ 255 by decide) t
  rw [hsame, hempty] at hlost
  exact absurd hlost (by decide)

/-- Responses are confined to what the lists in force let the client read, exactly if this is so for
every zone without a configuration that the view shares. -/
theorem confined_iff (w : Visit) (dir : Text → HeldFound cfg) :
    Confined w dir ↔ ∀ t z, dir t = .zone z → z.entry.served = true → SharedOk w z := by
  constructor
  · exact fun hconf t z hz hserved => sharedOk_of_check (hconf.permitted hz hserved)
  intro h σ S q qname r dir' hrel
  have hz : ∀ t, FoundRel Withheld ((q.on (w.zones dir)).suffixZone t) (w.zones dir' t) := by
    intro t
    have ht := hrel t
    have hok := h t
    change FoundRel Withheld (w.zones dir t) (w.zones dir' t)
    rw [Visit.zones, Visit.zones]
    generalize dir t = f, dir' t = f' at ht hok ⊢
    cases ht with
    | none => exact .none
    | absent => exact .absent
    | zone hsame =>
      exact .entry (hsame.withheld fun hserved => queryPermitted_ok (hok _ rfl hserved))
  exact processQuery_on hz S qname r

end Server

/-! ### A shared member of a catalog zone -/

/-- `allow-query { };` -/
def nobody : Aml := ⟨[], by simp [AmlElem.depth]⟩

/-- View `b` shares `m.e.` from view `a`, for nobody to query there. -/
def sharedMember : InViewZone :=
  { domain := ascii "m.e.", view := ascii "a", acl := { query := some nobody },
    settings := some .view }

def sharingConfig : ServerConfig :=
  { views := [{ name := ascii "a" }, { name := ascii "b", inViewZones := [sharedMember] }] }

def memberZone : LoadedZone :=
  .ofText [("m.e.", 6, ["n.m.e.", "a.m.e.", "1", "3600", "600", "86400", "300"]),
    ("m.e.", 2, ["n.m.e."])]
    [ascii "m", ascii "e"] (by decide +kernel) (by decide +kernel) (by decide +kernel)

/-- A member of a catalog zone of view `a`. -/
def heldMember : HeldZone sharingConfig where
  entry := { id := 0, domain := ascii "m.e.", image := some memberZone.img }
  config := none
  configured := ⟨by simp, by simp⟩
  noData := by simp

def memberDirectory (t : Text) : HeldFound sharingConfig :=
  if domainNameIsAtOrBelow t (ascii "m.e.") then .zone heldMember else .none

def visitor : Visit := { ifaces := [], view := ascii "b", client := { ip := ascii "10.0.0.1" } }

/-- The record of an image that is written. -/
def Emit.source : Emit → Option ImageRr
  | .rr _ x _ _ => some x
  | .synth _ => none

/-- The list in force lets nobody in, but the SOA record of the member is answered. -/
theorem confined_sharedMember :
    ¬ heldMember.Permitted visitor ∧ ¬ Confined visitor memberDirectory ∧
    ∃ r, processQuery roomySink ((plainQuery 6).on (visitor.zones memberDirectory)) (ascii "m.e.")
      { sink := () } = .answered r ∧
      r.answer.map Emit.source = [memberZone.img.rrs.find? fun rr => rr.type = 6] := by
  have hshut : ¬ heldMember.Permitted visitor := by
    intro h
    obtain ⟨a, -, hallows⟩ := h.client nobody rfl
    simp [Aml.Allows, AmlElem.allows, nobody] at hallows
  have hat : memberDirectory (ascii "m.e.") = .zone heldMember := if_pos (by decide +kernel)
  have hcheck : heldMember.queryPermitted visitor = true := rfl
  refine ⟨hshut, fun hconf => hshut (hconf.permitted hat rfl hcheck), _,
    processQuery_at hat rfl hcheck (show (6 : UInt16) ≠ 43 by decide) _ _, ?_⟩
  decide +kernel

end KariDns
