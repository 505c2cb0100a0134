import KariDns.Transfer.Tags

/-! Tags and attributes through an extended transfer.

The relation `InForce` says that the receiver holds the tags the sender thinks it does. Every record
that is sent keeps it, so an RR behind `xext_select` arrives with its own tags if markers carry
them. An SOA is sent without `xext_select` and takes whatever tags are in force. Beside the zone of
the receiver stands the one that the same edits make of the sender's own RRs (`replay`).
-/

namespace KariDns

open Octets DomainName List Option

variable {o : DnsRecord} {sent : List SentRr} {s : SentRr}

section

variable {T : Type} {env : XferEnv T} {r r' : Receiver T} {rec z : DnsRecord}

/-! ### The stream -/

/-- A definition of the zone: a record of the private class that is no marker. -/
structure IsDefinition (rec : DnsRecord) : Prop where
  class_ : rec.classVal = classKaridnsExt
  type : rec.typeCode ≠ 65401 ∧ rec.typeCode ≠ 65402 ∧ rec.typeCode ≠ 65406 ∧ rec.typeCode ≠ 65409

/-- An RR that a zone may hold: not of the private class, with a time stamp that is an `int64_t`. -/
structure ZoneRr (rec : DnsRecord) : Prop where
  class_ : rec.classVal ≠ classKaridnsExt
  ttd_lo : -2 ^ 63 ≤ rec.tinydnsTtd
  ttd_hi : rec.tinydnsTtd < 2 ^ 63

/-- The record that is sent for an RR of the zone. -/
def axfrWire (zone : Text) (wrapApexSoa : Bool) (rec : DnsRecord) : DnsRecord :=
  if axfrWraps zone wrapApexSoa rec then (wrapTinydnsRecord rec).getD rec else rec

/-- One record of a stream, `x` being the tags in force before it. -/
inductive SentStep (zone : Text) (wrapApexSoa : Bool) : Xext → SentRr → Prop
  | loc {x : Xext} {tag : Text} {m : DnsRecord} : xextEmitBlob zone 65401 tag = some m →
      SentStep zone wrapApexSoa x ⟨m, .state, { x with curLoc := tag }⟩
  | ecs {x : Xext} {tag : Text} {m : DnsRecord} : xextEmitBlob zone 65402 tag = some m →
      SentStep zone wrapApexSoa x ⟨m, .state, { x with curEcs := tag }⟩
  | define {x : Xext} {rec : DnsRecord} : IsDefinition rec →
    SentStep zone wrapApexSoa x ⟨rec, .define, x⟩
  | soa {x : Xext} {o : DnsRecord} : ZoneRr o → SentStep zone wrapApexSoa x ⟨o, .soa o, x⟩
  | rr {x : Xext} {o : DnsRecord} : ZoneRr o →
    strcaseeq (o.bindLocationTag.getD []) x.curLoc = true →
      strcaseeq (o.ecsSubnetTag.getD []) x.curEcs = true →
      SentStep zone wrapApexSoa x ⟨axfrWire zone wrapApexSoa o, .rr o, x⟩

/-- A stream that starts with the tags `x` in force and ends with `x'`. The opening SOA of a set
comes with its announcement. -/
inductive SentChain (zone : Text) (wrapApexSoa : Bool) : Xext → List SentRr → Xext → Prop
  | nil {x : Xext} : SentChain zone wrapApexSoa x [] x
  | cons {x x' : Xext} {s : SentRr} {rest : List SentRr} : SentStep zone wrapApexSoa x s →
      SentChain zone wrapApexSoa s.tags rest x' → SentChain zone wrapApexSoa x (s :: rest) x'
  | framed {x x' : Xext} {rec m : DnsRecord} {rest : List SentRr} : ZoneRr rec →
    m.classVal = classKaridnsExt →
      m.typeCode = 65409 → SentChain zone wrapApexSoa x rest x' →
      SentChain zone wrapApexSoa x (⟨rec, .frame, x⟩ :: ⟨m, .soaSet, x⟩ :: rest) x'

variable {zone : Text} {wrapApexSoa : Bool} {x x' x'' : Xext}

lemma SentChain.append {a b : List SentRr} (ha : SentChain zone wrapApexSoa x a x')
    (hb : SentChain zone wrapApexSoa x' b x'') : SentChain zone wrapApexSoa x (a ++ b) x'' := by
  induction ha with
  | nil => exact hb
  | cons hs _ ih => exact .cons hs (ih hb)
  | framed hz hc ht _ ih => exact .framed hz hc ht (ih hb)

lemma xextSelect_chain {loc ecs : Option Text} {sent : List SentRr}
    (h : xextSelect zone x loc ecs = some (sent, x')) :
    SentChain zone wrapApexSoa x sent x' ∧ strcaseeq (loc.getD []) x'.curLoc = true ∧
      strcaseeq (ecs.getD []) x'.curEcs = true := by
  have hrefl : ∀ t : Text, strcaseeq t t = true := fun t => beq_self_eq_true _
  rw [xextSelect] at h
  split at h
  · rename_i a b ha hb
    cases h
    rw [xextMarker] at ha hb
    cases hl : strcaseeq (loc.getD []) x.curLoc <;> cases he : strcaseeq (ecs.getD []) x.curEcs <;>
      simp only [hl, he, Bool.false_eq_true, if_false, if_true] at ha hb ⊢
    · obtain ⟨m, hm, rfl⟩ := map_eq_some_iff.mp ha
      obtain ⟨m', hm', rfl⟩ := map_eq_some_iff.mp hb
      exact ⟨.cons (.loc hm) (.cons (.ecs hm') .nil), hrefl _, hrefl _⟩
    · obtain ⟨m, hm, rfl⟩ := map_eq_some_iff.mp ha
      cases hb
      exact ⟨.cons (.loc hm) .nil, hrefl _, trivial⟩
    · obtain ⟨m, hm, rfl⟩ := map_eq_some_iff.mp hb
      cases ha
      exact ⟨.cons (.ecs hm) .nil, trivial, hrefl _⟩
    cases ha
    cases hb
    exact ⟨.nil, trivial, trivial⟩
  · cases h

/-- What a call is given: RRs a zone may hold, definitions. -/
def SendOp.Ok : SendOp → Prop
  | .soa rec => ZoneRr rec
  | .soaSet rec _ => ZoneRr rec
  | .define rec => IsDefinition rec
  | .item rec => ZoneRr rec
  | .finish => True

lemma SendOp.send_chain {op : SendOp} (hop : op.Ok)
    (h : op.send zone wrapApexSoa x = some (sent, x')) :
    SentChain zone wrapApexSoa x sent x' := by
  cases op with
  | soa rec =>
    cases h
    exact .cons (.soa hop) .nil
  | soaSet rec n =>
    rw [SendOp.send] at h
    obtain ⟨m, hm, heq⟩ := map_eq_some_iff.mp h
    cases heq
    rw [xextEmitBlob] at hm
    split at hm
    · cases hm
    · cases hm
      exact .framed hop rfl rfl .nil
  | define rec =>
    cases h
    exact .cons (.define hop) .nil
  | item rec =>
    rw [SendOp.send, axfrEmitZoneItem] at h
    split at h
    · cases h
    rename_i markers x₁ hselect
    cases h
    obtain ⟨hchain, hl, he⟩ := @xextSelect_chain zone wrapApexSoa _ _ _ _ _ hselect
    exact hchain.append (.cons (.rr hop hl he) .nil)
  | finish => exact (xextSelect_chain h).1

lemma sendAll_chain : ∀ {ops : List SendOp} {x : Xext} {sent : List SentRr}, (∀ op ∈ ops, op.Ok) →
    sendAll zone wrapApexSoa ops x = some sent → ∃ x', SentChain zone wrapApexSoa x sent x'
  | [], _, _, _, h => by
    cases h
    exact ⟨_, .nil⟩
  | op :: ops, x, sent, hops, h => by
    rw [sendAll] at h
    split at h
    · cases h
    rename_i first x₁ hfirst
    obtain ⟨rest, hrest, rfl⟩ := map_eq_some_iff.mp h
    obtain ⟨x', hchain⟩ := sendAll_chain (fun op hop => hops op (by simp [hop])) hrest
    exact ⟨x', (SendOp.send_chain (hops op (by simp)) hfirst).append hchain⟩

/-! ### One record -/

/-- The RR of the sender that a record stands for. -/
def SentRr.origin (s : SentRr) : DnsRecord :=
  match s.kind with
  | .soa o => o
  | .rr o => o
  | _ => s.wire

/-- What an RR must be like for its tags and attributes to arrive: attributes need a wrapper, tags
must fit a marker; an SOA that is sent without markers must have the tags that are in force. -/
def SentRr.Carried (zone : Text) (wrapApexSoa : Bool) (s : SentRr) : Prop :=
  match s.kind with
  | .rr o =>
    ((axfrWraps zone wrapApexSoa o = true ∧ (wrapTinydnsRecord o).isSome = true) ∨
      PlainAttributes o) ∧
      (∀ t ∈ o.bindLocationTag, TagFits t) ∧ ∀ t ∈ o.ecsSubnetTag, TagFits t
  | .soa o => PlainAttributes o ∧ tagsEqualCi o.bindLocationTag (heldTag s.tags.curLoc) = true ∧
      tagsEqualCi o.ecsSubnetTag (heldTag s.tags.curEcs) = true
  | _ => True

lemma withTags_held (hx : InForce x r) (hl : rec.bindLocationTag = none)
    (he : rec.ecsSubnetTag = none) :
    (withTags r.session rec).bindLocationTag = heldTag x.curLoc ∧
      (withTags r.session rec).ecsSubnetTag = heldTag x.curEcs := by
  rw [withTags, hx.loc, hx.ecs, hl, he]
  exact ⟨rfl, rfl⟩

lemma xextEmitBlob_arrives {m got : DnsRecord} {data : List UInt8} {type : UInt16}
    (hm : xextEmitBlob zone type data = some m) (hgot : Arrives m got) :
    got.classVal = classKaridnsExt ∧ got.typeCode = type ∧ got.generic.getD [] = data := by
  rw [xextEmitBlob] at hm
  split at hm
  · cases hm
  · cases hm
    exact ⟨hgot.ext.mpr rfl, hgot.type, hgot.generic (ext_iff_class.mp rfl)⟩

variable {alloc : Nat → Bool} {ancount : Nat} {isLast : Bool} {got : DnsRecord}

section

variable (hclass : got.classVal = classKaridnsExt)
    (h : xferRr env alloc ancount isLast got r = .next r')

include hclass h

/-- A record that is used up is refused, or leaves the receiver as it says. -/
lemma xferRr_consumed {r₁ : Receiver T} {P : Prop} [Decidable P]
    (hext : xferExtension env alloc got r = if P then .reject else .consumed r₁) : r' = r₁ := by
  rw [xferRr, if_pos hclass, hext] at h
  by_cases hP : P
  · rw [if_pos hP] at h
    cases h
  rw [if_neg hP] at h
  cases h
  rfl

lemma xferRr_locState (htype : got.typeCode = 65401) :
    r' = { r with session :=
      { r.session with currentLocTag := markerTag (got.generic.getD []) } } :=
  xferRr_consumed hclass h (by rw [xferExtension, if_pos htype])

lemma xferRr_ecsState (htype : got.typeCode = 65402) :
    r' = { r with session :=
      { r.session with currentEcsTag := markerTag (got.generic.getD []) } } :=
  xferRr_consumed hclass h (by rw [xferExtension, if_neg (by rw [htype]; decide), if_pos htype])

/-- A record of the private class that is no marker and no wrapper leaves the tags in force. -/
lemma xferRr_definition {t : UInt16} (htype : got.typeCode = t)
    (ht : t ≠ 65401 ∧ t ≠ 65402 ∧ t ≠ 65406) :
    r'.session.currentLocTag = r.session.currentLocTag ∧
      r'.session.currentEcsTag = r.session.currentEcsTag := by
  subst htype
  rw [xferRr, if_pos hclass] at h
  have heffect := @extEffect T env r got alloc
  generalize xferExtension env alloc got r = step at h heffect
  cases heffect with
  | reject => cases h
  | locTag htype => exact absurd htype ht.1
  | ecsTag htype => exact absurd htype ht.2.1
  | soaSet _ _ hl he | define _ _ _ _ hl he =>
    cases h
    exact ⟨hl, he⟩
  | record hrec =>
    rcases hrec with htype | rfl
    · exact absurd htype ht.2.2
    dsimp only at h
    rw [xferZoneRr_private hclass] at h
    cases h

/-- A record of the private class that is no wrapper and no SOA_SET leaves the zone as it is. -/
lemma xferEdit_private {t : UInt16} (htype : got.typeCode = t) (ht : t ≠ 65406 ∧ t ≠ 65409) :
    (xferEdit env alloc got r).1 = .pass := by
  subst htype
  rw [xferRr, if_pos hclass] at h
  rw [xferEdit, if_neg fun hc => ht.2 hc.2, xferSeen, if_pos hclass]
  have heffect := @extEffect T env r got alloc
  generalize xferExtension env alloc got r = step at h heffect ⊢
  cases heffect with
  | reject | locTag | ecsTag | soaSet | define => rfl
  | record hrec =>
    rcases hrec with htype | rfl
    · exact absurd htype ht.1
    dsimp only at h
    rw [xferZoneRr_private hclass] at h
    cases h

end

/-- An RR that is no record of the private class. -/
lemma xferRr_zoneRr (hclass : got.classVal ≠ classKaridnsExt) :
    xferRr env alloc ancount isLast got r = xferZoneRr env ancount isLast got false r := by
  rw [xferRr, if_neg hclass]

lemma unwrapTinydns_bare {data : List UInt8} (hl : rec.bindLocationTag = none)
    (he : rec.ecsSubnetTag = none) :
    (unwrapTinydns alloc rec data).1.bindLocationTag = none ∧
      (unwrapTinydns alloc rec data).1.ecsSubnetTag = none := by
  rw [unwrapTinydns]
  dsimp only
  split
  · rename_i inner e hparse
    obtain ⟨w, -, hinner⟩ := bind_eq_some_iff.mp hparse
    exact parse_bare hinner
  · exact ⟨hl, he⟩

/-- A wrapper that is whole. -/
lemma xferWrap_whole {data : List UInt8} (hdata : rec.generic.getD [] = data)
    (hlen : 21 ≤ data.length) (hrd : 21 + u16At data 19 = data.length) :
    xferWrap env alloc rec r = .reject ∨ ∃ r', r'.session = r.session ∧
      xferWrap env alloc rec r = .record (withTinydns (unwrapTinydns alloc rec data).1 data)
      ((unwrapTinydns alloc rec data).2 && (unwrapTinydns alloc rec data).1.typeCode == 6) r' := by
  rw [xferWrap, hdata]
  dsimp only
  rw [if_neg (by omega), if_neg (by omega)]
  split
  · exact .inl rfl
  · exact .inr ⟨{ r with
      isTinydns := r.isTinydns || hasTinydns (withTinydns (unwrapTinydns alloc rec data).1 data) },
      rfl, rfl⟩

/-- A wrapper shows the RR inside with its attributes. -/
lemma xferSeen_wrapper {w : DnsRecord} (ho : ZoneRr o) (hw : wrapTinydnsRecord o = some w)
    (hgot : Arrives w got) (h : xferRr env alloc ancount isLast got r = .next r') :
    ∃ inner wrappedSoa r₁, xferSeen env alloc got r = some (inner, wrappedSoa, r₁) ∧
      r₁.session = r.session ∧
      xferZoneRr env ancount isLast inner wrappedSoa r₁ = .next r' ∧
      SameTinydns o inner ∧ inner.bindLocationTag = none ∧ inner.ecsSubnetTag = none := by
  obtain ⟨htype, hclass, head, rdata, hgeneric, hhead, hrdata⟩ := wrapTinydnsRecord_generic hw
  have hclass' : got.classVal = classKaridnsExt := hgot.ext.mpr hclass
  have htype' : got.typeCode = 65406 := hgot.type.trans htype
  have hdata : got.generic.getD [] = wrapRdata o head rdata := by
    rw [hgot.generic (ext_iff_class.mp hclass), hgeneric, getD_some]
  have hext : xferExtension env alloc got r = xferWrap env alloc got r := by
    rw [xferExtension, htype']
    rfl
  have hlen := @wrapRdata_length o head rdata hhead
  obtain ⟨hl, he⟩ := @unwrapTinydns_bare got alloc (wrapRdata o head rdata) hgot.locTag hgot.ecsTag
  rw [xferRr, if_pos hclass', hext] at h
  rw [xferSeen, if_pos hclass', hext]
  rcases @xferWrap_whole T env r got alloc _ hdata (by omega)
    (by rw [wrapRdata_rdlen hhead hrdata, hlen]) with
    hrej | ⟨r₁, hsession, hrec⟩
  · rw [hrej] at h
    cases h
  · rw [hrec] at h ⊢
    exact ⟨_, _, r₁, rfl, hsession, h, withTinydns_wrapRdata hhead ho.ttd_lo ho.ttd_hi, hl, he⟩

/-! ### What is stored for an RR -/

lemma axfrWire_cases (zone : Text) (wrapApexSoa : Bool) (o : DnsRecord) :
    (∃ w, axfrWraps zone wrapApexSoa o = true ∧ wrapTinydnsRecord o = some w ∧
      axfrWire zone wrapApexSoa o = w) ∨
    (¬ (axfrWraps zone wrapApexSoa o = true ∧ (wrapTinydnsRecord o).isSome = true) ∧
      axfrWire zone wrapApexSoa o = o) := by
  rw [axfrWire]
  split
  · rename_i hwraps
    cases hw : wrapTinydnsRecord o with
    | none => exact .inr ⟨by simp, rfl⟩
    | some w => exact .inl ⟨w, hwraps, rfl, rfl⟩
  · rename_i hwraps
    exact .inr ⟨fun hc => hwraps hc.1, rfl⟩

lemma sameTinydns_plain {z : DnsRecord} (hz : PlainAttributes z) :
    SameTinydns o z ↔ PlainAttributes o := by
  obtain ⟨hl, ht, hc⟩ := hz
  exact ⟨fun h => ⟨h.loc.trans hl, h.ttd.trans ht, h.countdown.trans hc⟩,
    fun h => ⟨h.1.trans hl.symm, h.2.1.trans ht.symm, h.2.2.trans hc.symm⟩⟩

/-- An RR that arrives without a wrapper is taken with the tags in force and no attributes. -/
lemma taken_plain (env : XferEnv T) (alloc : Nat → Bool) (hx : InForce x r)
    (hclass : got.classVal ≠ classKaridnsExt) {s : DnsRecord} (hgot : Arrives s got)
    (hz : (xferEdit env alloc got r).2 = z) :
    PlainAttributes z ∧ z.bindLocationTag = heldTag x.curLoc ∧
      z.ecsSubnetTag = heldTag x.curEcs := by
  rw [xferEdit, if_neg fun hc => hclass hc.1, xferSeen, if_neg hclass] at hz
  subst hz
  exact ⟨⟨hgot.loc, hgot.ttd, hgot.countdown⟩, withTags_held hx hgot.locTag hgot.ecsTag⟩

/-- The step of an RR: what is taken for it looks like it exactly when it is carried. -/
lemma rr_sameVisibility (hx : InForce x r) (ho : ZoneRr o)
    (hl : strcaseeq (o.bindLocationTag.getD []) x.curLoc = true)
    (he : strcaseeq (o.ecsSubnetTag.getD []) x.curEcs = true)
    (hgot : Arrives (axfrWire zone wrapApexSoa o) got)
    (h : xferRr env alloc ancount isLast got r = .next r') :
    dnsRecordSameVisibility o (xferEdit env alloc got r).2 = true ↔
      ((axfrWraps zone wrapApexSoa o = true ∧ (wrapTinydnsRecord o).isSome = true) ∨
        PlainAttributes o) ∧
        (∀ t ∈ o.bindLocationTag, TagFits t) ∧ ∀ t ∈ o.ecsSubnetTag, TagFits t := by
  rw [sameVisibility_iff, ← heldTag_selected hl, ← heldTag_selected he]
  rcases axfrWire_cases zone wrapApexSoa o with ⟨w, hwraps, hw, hwire⟩ | ⟨hnot, hwire⟩
  · rw [hwire] at hgot
    obtain ⟨inner, wrappedSoa, r₁, hseen, hsession, -, hsame, hil, hie⟩ :=
      xferSeen_wrapper ho hw hgot h
    have htype : got.typeCode = 65406 := hgot.type.trans (wrapTinydnsRecord_generic hw).1
    rw [xferEdit, if_neg (by simp [htype]), hseen]
    obtain ⟨hzl, hze⟩ :=
      withTags_held (@InForce.congr T r r₁ x hx (by rw [hsession]) (by rw [hsession])) hil hie
    dsimp only
    rw [hzl, hze]
    exact and_congr_left'
      ⟨fun _ => .inl ⟨hwraps, by rw [hw]; rfl⟩, fun _ => ⟨hsame.loc, hsame.ttd, hsame.countdown⟩⟩
  rw [hwire] at hgot
  obtain ⟨hplain, hzl, hze⟩ :=
    taken_plain env alloc hx (fun hc => ho.class_ (hgot.ext.mp hc)) hgot rfl
  rw [hzl, hze, sameTinydns_plain hplain]
  exact and_congr_left' ⟨.inr, fun hor => hor.resolve_left hnot⟩

/-- The step of an SOA without markers. -/
lemma soa_sameVisibility (env : XferEnv T) (alloc : Nat → Bool) (hx : InForce x r) (ho : ZoneRr o)
    (hgot : Arrives o got) :
    dnsRecordSameVisibility o (xferEdit env alloc got r).2 = true ↔
      PlainAttributes o ∧ tagsEqualCi o.bindLocationTag (heldTag x.curLoc) = true ∧
        tagsEqualCi o.ecsSubnetTag (heldTag x.curEcs) = true := by
  obtain ⟨hplain, hzl, hze⟩ :=
    taken_plain env alloc hx (fun hc => ho.class_ (hgot.ext.mp hc)) hgot rfl
  rw [sameVisibility_iff, hzl, hze, sameTinydns_plain hplain]

/-- The two records that open a transfer with an SOA set. -/
lemma InForce.frame {rec : DnsRecord} (hx : InForce x r) (hz : ZoneRr rec) (hgot : Arrives rec got)
    (h : xferRr env alloc ancount isLast got r = .next r') : InForce x r' := by
  rw [xferRr_zoneRr fun hc => hz.class_ (hgot.ext.mp hc)] at h
  exact hx.congr (xferZoneRr_takes h).loc (xferZoneRr_takes h).ecs

lemma InForce.soaSet {m : DnsRecord} (hx : InForce x r) (hclass : m.classVal = classKaridnsExt)
    (htype : m.typeCode = 65409) (hgot : Arrives m got)
    (h : xferRr env alloc ancount isLast got r = .next r') :
    InForce x r' := by
  obtain ⟨hl, he⟩ := xferRr_definition (hgot.ext.mpr hclass) h (hgot.type.trans htype) (by decide)
  exact hx.congr hl he

/-- Every record of a stream keeps the tags in force in step. -/
lemma InForce.step (hx : InForce x r) (hs : SentStep zone wrapApexSoa x s)
    (hgot : Arrives s.wire got) (h : xferRr env alloc ancount isLast got r = .next r') :
      InForce s.tags r' := by
  cases hs with
  | loc hm =>
    obtain ⟨hclass, htype, hdata⟩ := xextEmitBlob_arrives hm hgot
    obtain rfl := xferRr_locState hclass h htype
    exact ⟨by rw [hdata], hx.ecs⟩
  | ecs hm =>
    obtain ⟨hclass, htype, hdata⟩ := xextEmitBlob_arrives hm hgot
    obtain rfl := xferRr_ecsState hclass h htype
    exact ⟨hx.loc, by rw [hdata]⟩
  | define hdef =>
    obtain ⟨hloc, hecs, hwrap, -⟩ := hdef.type
    obtain ⟨hl, he⟩ := xferRr_definition (hgot.ext.mpr hdef.class_) h hgot.type ⟨hloc, hecs, hwrap⟩
    exact hx.congr hl he
  | soa ho => exact hx.frame ho hgot h
  | rr ho =>
    rename_i o hl he
    rcases axfrWire_cases zone wrapApexSoa o with ⟨w, -, hw, hwire⟩ | ⟨-, hwire⟩
    · dsimp only at hgot
      rw [hwire] at hgot
      obtain ⟨inner, wrappedSoa, r₁, -, hsession, hzone, -⟩ := xferSeen_wrapper ho hw hgot h
      obtain ⟨htl, hte, -⟩ := xferZoneRr_takes hzone
      exact hx.congr (by rw [htl, hsession]) (by rw [hte, hsession])
    dsimp only at hgot
    rw [hwire] at hgot
    exact hx.frame ho hgot h

/-! ### The zone of the sender -/

/-- An RR of the sender, and the record it was sent in, if it is not one of the version in use. -/
structure Original where
  rr : DnsRecord
  sent : Option SentRr

/-- The edit that the receiver makes for an answer, made with the sender's RR. -/
def Original.edit (env : XferEnv T) (base : List DnsRecord) (zone : List Original)
    (p : SentRr × TakenRr T) : List Original :=
  (xferEdit env p.2.alloc p.2.answer p.2.before).1.apply Original.rr env.domain
    (base.map (⟨·, none⟩))
    ⟨p.1.origin, some p.1⟩ zone

/-- The zone that the RRs of the sender make, `base` being its version that the receiver has in
use. -/
def replay (env : XferEnv T) (base : List DnsRecord) (stream : List (SentRr × TakenRr T)) :
    List Original :=
  stream.foldl (Original.edit env base) []

/-- Every deletion, and every newer SOA, falls at the receiver on the RRs that it falls on at the
sender. -/
def Aligned (env : XferEnv T) (base : List DnsRecord) :
    List (SentRr × TakenRr T) → List Original → Prop
  | [], _ => True
  | p :: rest, zone =>
    let e := xferEdit env p.2.alloc p.2.answer p.2.before
    (∀ y ∈ zone.zip p.2.before.records, e.1.hits env.domain e.2 y.2 =
      e.1.hits env.domain p.1.origin y.1.rr) ∧
      Aligned env base rest (Original.edit env base zone p)

/-- The receiver has `z` for an RR: it looks like it if it was in use, or else exactly when it was
carried. -/
def Original.Stands (zone : Text) (wrapApexSoa : Bool) (x : Original) (z : DnsRecord) : Prop :=
  match x.sent with
  | none => dnsRecordSameVisibility x.rr z = true
  | some s => dnsRecordSameVisibility x.rr z = true ↔ s.Carried zone wrapApexSoa

/-! ### The whole transfer -/

/-- Two states between which only a message begins. -/
def NextMessage (r r' : Receiver T) : Prop :=
  ∃ gotFirst version, r' =
    { r with session := { r.session with gotFirstMsg := gotFirst, extVersion := version } }

/-- The answers that take the receiver from `r` to `r'`. -/
inductive ReceiverTrace (env : XferEnv T) : Receiver T → List (TakenRr T) → Receiver T → Prop
  | nil {r r' : Receiver T} : NextMessage r r' → ReceiverTrace env r [] r'
  | cons {r r₀ r₁ r' : Receiver T} {rec : DnsRecord} {alloc : Nat → Bool}
    {ancount : Nat} {isLast : Bool}
      {rest : List (TakenRr T)} :
        NextMessage r r₀ → xferRr env alloc ancount isLast rec r₀ = .next r₁ →
      ReceiverTrace env r₁ rest r' → ReceiverTrace env r (⟨rec, r₀, alloc⟩ :: rest) r'

lemma NextMessage.refl (r : Receiver T) : NextMessage r r :=
  ⟨r.session.gotFirstMsg, r.session.extVersion, rfl⟩

lemma NextMessage.trans {r r₁ r₂ : Receiver T} (h : NextMessage r r₁) (h' : NextMessage r₁ r₂) :
    NextMessage r r₂ := by
  obtain ⟨g, v, rfl⟩ := h
  obtain ⟨g', v', rfl⟩ := h'
  exact ⟨g', v', rfl⟩

lemma ReceiverTrace.pause {tr : List (TakenRr T)} {r₁ : Receiver T} (h : ReceiverTrace env r tr r₁)
    (hs : NextMessage r₁ r') : ReceiverTrace env r tr r' := by
  induction h with
  | nil h => exact .nil (h.trans hs)
  | cons h hstep _ ih => exact .cons h hstep (ih hs)

lemma ReceiverTrace.snoc {tr : List (TakenRr T)} {r₀ : Receiver T} (h : ReceiverTrace env r tr r₀)
    (hstep : xferRr env alloc ancount isLast got r₀ = .next r') :
    ReceiverTrace env r (tr ++ [⟨got, r₀, alloc⟩]) r' := by
  induction h with
  | nil h =>
    exact .cons h hstep (.nil (NextMessage.refl _))
  | cons h hfirst _ ih => exact .cons h hfirst (ih hstep)

/-- The answers taken are a trace. -/
lemma trace_invariant (env : XferEnv T) (start : Receiver T) :
    StreamInvariant env (ReceiverTrace env start) where
  rr h hstep := h.snoc hstep
  gotFirst h := h.pause ⟨_, _, rfl⟩
  extVersion v h := h.pause ⟨_, v, rfl⟩

lemma InForce.pause (hx : InForce x r) (h : NextMessage r r') : InForce x r' := by
  obtain ⟨g, v, rfl⟩ := h
  exact ⟨hx.loc, hx.ecs⟩

/-- One answer: the RR taken looks like the one that was sent exactly when that is carried. -/
lemma step_stands (hx : InForce x r) (hs : SentStep zone wrapApexSoa x s)
    (hgot : Arrives s.wire got) (h : xferRr env alloc ancount isLast got r = .next r')
    (hedit : (xferEdit env alloc got r).1 ≠ .pass) :
    Original.Stands zone wrapApexSoa ⟨s.origin, some s⟩ (xferEdit env alloc got r).2 := by
  cases hs with
  | loc hm | ecs hm =>
    obtain ⟨hclass, htype, -⟩ := xextEmitBlob_arrives hm hgot
    exact absurd (xferEdit_private hclass h htype (by decide)) hedit
  | define hdef =>
    obtain ⟨-, -, hwrap, hset⟩ := hdef.type
    exact absurd (xferEdit_private (hgot.ext.mpr hdef.class_) h hgot.type ⟨hwrap, hset⟩) hedit
  | soa ho => exact soa_sameVisibility env alloc hx ho hgot
  | rr ho hl he => exact rr_sameVisibility hx ho hl he hgot h

/-- The run: the zone of the receiver stands for the one that the sender's RRs make. -/
lemma trace_stands {base : List DnsRecord} (hsent : SentChain zone wrapApexSoa x sent x')
    (hbase : Forall₂ (Original.Stands zone wrapApexSoa) (base.map (⟨·, none⟩)) env.inUse) :
    ∀ {tr : List (TakenRr T)} {r : Receiver T} {now : List Original}, ReceiverTrace env r tr
      r' → InForce x r →
      Forall₂ (fun (s : SentRr) (t : TakenRr T) => Arrives s.wire t.answer) sent tr →
      Aligned env base (sent.zip tr) now →
        Forall₂ (Original.Stands zone wrapApexSoa) now r.records →
      Forall₂ (Original.Stands zone wrapApexSoa) ((sent.zip tr).foldl (Original.edit env base) now)
        r'.records := by
  have hpause : ∀ {r r₀ : Receiver T}, NextMessage r r₀ → r₀.records = r.records := by
    rintro r _ ⟨g, v, rfl⟩
    rfl
  induction hsent with
  | nil =>
    intro tr r now htr _ harr _ hnow
    cases harr
    cases htr with
    | nil hnext => exact hpause hnext ▸ hnow
  | cons hs _ ih =>
    intro tr r now htr hx harr halign hnow
    cases harr with
    | cons hgot harr =>
      cases htr with
      | cons hnext hstep htr =>
        have hx₀ := hx.pause hnext
        rw [zip_cons_cons] at halign ⊢
        refine ih htr (hx₀.step hs hgot hstep) harr halign.2 ?_
        rw [xferRr_edit hstep]
        exact ZoneEdit.apply_alike (hpause hnext ▸ hnow) hbase
          (step_stands hx₀ hs hgot hstep) halign.1
  | framed hz hclass htype _ ih =>
    intro tr r now htr hx harr halign hnow
    cases harr with
    | cons hgot harr =>
      cases harr with
      | cons hgot' harr =>
        cases htr with
        | cons hnext hstep htr =>
          cases htr with
          | cons hnext' hstep' htr =>
            have hx₁ := (hx.pause hnext).frame hz hgot hstep
            have hx₂ := (hx₁.pause hnext').soaSet hclass htype hgot' hstep'
            rw [zip_cons_cons, zip_cons_cons] at halign ⊢
            refine ih htr hx₂ harr halign.2.2 ?_
            -- the announcement clears both zones
            rw [xferRr_edit hstep', Original.edit, xferEdit,
              if_pos ⟨hgot'.ext.mpr hclass, hgot'.type.trans htype⟩]
            exact .nil

/-- The RRs of a transfer are such as a zone may hold, and its definitions are definitions. -/
def ExtTransfer.Ok (zone : Text) (t : ExtTransfer) : Prop := ∀ op ∈ t.ops zone, op.Ok

/-- The RRs taken in a transfer, each with the record it was sent in. -/
def takenStream (req : XferRequest T) (clientSerial : Nat) (isIxfr : Bool) (msgs : List XferMessage)
    (sent : List SentRr) : List (SentRr × TakenRr T) :=
  sent.zip (streamTaken req msgs (xferStart req clientSerial isIxfr))

/-- An extended transfer to a receiver whose version in use looks as it does at the sender (`base`),
all of whose deletions fall at the receiver on what they fall on at the sender. What is installed
stands, RR by RR, for the zone that the sender's RRs make; each RR of it has the tags and attributes
it has at the sender, exactly when each that came in this transfer is carried. -/
theorem extended_transfer_iff (zone : Text) (t : ExtTransfer) (sent : List SentRr)
    (req : XferRequest T) (clientSerial : Nat) (isIxfr : Bool) (msgs : List XferMessage)
    (records base : List DnsRecord) (ht : t.Ok zone) (hsent : sendAxfrResponse zone t = some sent)
    (h : handleAxfrEvent req clientSerial isIxfr msgs = some (.installed records))
    (harr : Forall₂ Arrives (sent.map SentRr.wire)
      (streamAnswers (xferConsumed req msgs (xferStart req clientSerial isIxfr))))
    (hbase : Forall₂ (fun o z => dnsRecordSameVisibility o z = true) base req.inUse)
    (halign : Aligned req.toXferEnv base (takenStream req clientSerial isIxfr msgs sent) []) :
    ∃ held : List DnsRecord, records = req.kept held ∧
      held.length =
        (replay req.toXferEnv base (takenStream req clientSerial isIxfr msgs sent)).length ∧
      ((∀ p ∈ (replay req.toXferEnv base (takenStream req clientSerial isIxfr msgs sent)).zip held,
        p.2 ∈ records →
          dnsRecordSameVisibility p.1.rr p.2 = true) ↔
        ∀ p ∈ (replay req.toXferEnv base (takenStream req clientSerial isIxfr msgs sent)).zip held,
          p.2 ∈ records →
          ∀ s ∈ p.1.sent, s.Carried zone t.wrapApexSoa) := by
  obtain ⟨x', hchain⟩ := sendAll_chain ht hsent
  obtain ⟨hanswers, -, -, -, -, r, -, -, -, htr, -, hrec⟩ :=
    @xferRun_installed T req _
      (trace_invariant req.toXferEnv (xferStart req clientSerial isIxfr).receiver) records msgs []
      _ (.nil (NextMessage.refl _)) rfl h
  have harr' : Forall₂ (fun (s : SentRr) (t : TakenRr T) => Arrives s.wire t.answer) sent
      (streamTaken req msgs (xferStart req clientSerial isIxfr)) := by
    rw [← hanswers, forall₂_map_left_iff, forall₂_map_right_iff] at harr
    exact harr
  have hstands :=
    trace_stands hchain (forall₂_map_left_iff.mpr hbase) htr ⟨rfl, rfl⟩ harr' halign .nil
  refine ⟨r.records, hrec, hstands.length_eq.symm, forall₂_congr fun p hp => ?_⟩
  have hp := (forall₂_iff_zip.mp hstands).2 hp
  rw [Original.Stands] at hp
  cases hsent : p.1.sent with
  | none => simp_all
  | some s => simp_all

end

/-! ### A tag that sticks to the SOA -/

instance (zone : Text) (wrapApexSoa : Bool) : (s : SentRr) → Decidable (s.Carried zone wrapApexSoa)
  | ⟨_, .rr _, _⟩ =>
    inferInstanceAs (Decidable ((_ ∨ _) ∧ (∀ t ∈ _, TagFits t) ∧ ∀ t ∈ _, TagFits t))
  | ⟨_, .soa _, _⟩ => inferInstanceAs (Decidable (_ ∧ _ ∧ _))
  | ⟨_, .state, _⟩ | ⟨_, .define, _⟩ | ⟨_, .frame, _⟩ | ⟨_, .soaSet, _⟩ => .isTrue trivial

instance (s g : DnsRecord) : Decidable (Arrives s g) :=
  decidable_of_iff (g.typeCode = s.typeCode ∧ recClass g = recClass s ∧
      (recClass s = classKaridnsExt.toNat → g.generic.getD [] = s.generic.getD []) ∧
        g.bindLocationTag = none ∧
      g.ecsSubnetTag = none ∧ PlainAttributes g)
    ⟨fun ⟨a, b, c, d, e, f, g, h⟩ => ⟨a, b, c, d, e, f, g, h⟩,
      fun ⟨a, b, c, d, e, f, g, h⟩ => ⟨a, b, c, d, e, f, g, h⟩⟩

instance : (op : SendOp) → Decidable op.Ok
  | .soa rr | .soaSet rr _ | .item rr =>
    decidable_of_iff
      (rr.classVal ≠ classKaridnsExt ∧ -2 ^ 63 ≤ rr.tinydnsTtd ∧ rr.tinydnsTtd < 2 ^ 63)
      ⟨fun ⟨a, b, c⟩ => ⟨a, b, c⟩, fun ⟨a, b, c⟩ => ⟨a, b, c⟩⟩
  | .define rr => decidable_of_iff (rr.classVal = classKaridnsExt ∧
      (rr.typeCode ≠ 65401 ∧ rr.typeCode ≠ 65402 ∧ rr.typeCode ≠ 65406 ∧ rr.typeCode ≠ 65409))
      ⟨fun ⟨a, b⟩ => ⟨a, b⟩, fun ⟨a, b⟩ => ⟨a, b⟩⟩
  | .finish => .isTrue trivial

/-- The SOA of `z.` at the sender. -/
def soaRecord (serial : Nat) : DnsRecord :=
  { name := ascii "z.", classVal := 1, typeCode := 6, ttlValue := 60,
    rdata := [ascii "z.", ascii "z.", decimal serial, ascii "9", ascii "9", ascii "9", ascii "9"] }

/-- An address of `a.z.` that only the clients of the location `x` see. -/
def taggedAddress : DnsRecord :=
  { name := ascii "a.z.", classVal := 1, typeCode := 1, ttlValue := 60,
    rdata := [ascii "192.0.2.1"], bindLocationTag := some (ascii "x") }

/-- A state marker for a location tag on the wire. -/
def locState (tag : Text) : List UInt8 :=
  [0xC0, 12, 0xFF, 0x79, 0xFF, 0x16, 0, 0, 0, 0, 0, UInt8.ofNat tag.length] ++ tag

/-- The difference of version 5 to version 4: the address is gone. -/
def addressGone : ExtTransfer :=
  .incremental (soaRecord 5) [] [⟨[soaRecord 4, taggedAddress], [soaRecord 5]⟩]

/-- Its message. -/
def addressGoneMessage : XferMessage :=
  zoneMessage [zoneSoa 5, zoneSoa 4, locState (ascii "x"), zoneAddress 97, zoneSoa 5, zoneSoa 5]

/-- The secondary asks for it with version 4 in use. -/
def addressGoneRequest : XferRequest Unit :=
  { plainRequest with thaw := some ([soaRecord 4, taggedAddress], (), false) }

/-- The location tags of the zone that a transfer installs. -/
def installedTags (o : Option XferOutcome) : Option (List (UInt16 × Option Text)) :=
  o.bind fun o => match o with
    | .installed records => some (records.map fun r => (r.typeCode, r.bindLocationTag))
    | .upToDate => none

/-- The records that were sent are the ones that arrive in one message. -/
def ArrivesIn (msg : XferMessage) (sent : List SentRr) : Prop :=
  sent.length = (messageAnswers msg).length ∧
    ∀ p ∈ sent.zip (messageAnswers msg), Arrives p.1.wire p.2

instance (msg : XferMessage) (sent : List SentRr) : Decidable (ArrivesIn msg sent) :=
  inferInstanceAs (Decidable (_ ∧ _))

lemma ArrivesIn.forall₂ {msg : XferMessage} (h : ArrivesIn msg sent) :
    List.Forall₂ Arrives (sent.map SentRr.wire) (streamAnswers [msg]) := by
  rw [streamAnswers_singleton, forall₂_map_left_iff]
  exact forall₂_iff_zip.mpr ⟨h.1, fun hp => h.2 _ hp⟩

/-- The marker in front of the deleted address is still in force at the new SOA: the secondary shows
the SOA to the clients of the location `x` only, while at the primary every client sees it. -/
theorem stale_tag_on_soa : (∀ op ∈ addressGone.ops (ascii "z."), op.Ok) ∧
    (∃ sent, sendAxfrResponse (ascii "z.") addressGone = some sent ∧
      ArrivesIn addressGoneMessage sent) ∧
    installedTags (handleAxfrEvent addressGoneRequest 4 true [addressGoneMessage]) =
      some [(6, some (ascii "x"))] ∧
    (soaRecord 5).bindLocationTag = none := by
  refine ⟨by decide +kernel, ?_, by decide +kernel, rfl⟩
  have hsome : (sendAxfrResponse (ascii "z.") addressGone).isSome = true := by decide +kernel
  have hall : ∀ sent ∈ sendAxfrResponse (ascii "z.") addressGone, ArrivesIn addressGoneMessage
      sent := by decide +kernel
  obtain ⟨sent, hsent⟩ := isSome_iff_exists.mp hsome
  exact ⟨sent, hsent, hall sent hsent⟩

instance Aligned.decidable {T : Type} (env : XferEnv T) (base : List DnsRecord) :
    (stream : List (SentRr × TakenRr T)) → (zone : List Original) →
      Decidable (Aligned env base stream zone)
  | [], _ => .isTrue trivial
  | p :: rest, zone =>
    @instDecidableAnd _ _ inferInstance
      (Aligned.decidable env base rest (Original.edit env base zone p))

/-- An address of `b.z.` that every client sees. -/
def plainAddress : DnsRecord :=
  { name := ascii "b.z.", classVal := 1, typeCode := 1, ttlValue := 60,
    rdata := [ascii "192.0.2.1"] }

/-- Two differences: the first deletes an address with a tag, the second one without. -/
def addressesGone : ExtTransfer :=
  .incremental (soaRecord 6) []
    [⟨[soaRecord 4, taggedAddress], [soaRecord 5]⟩, ⟨[soaRecord 5, plainAddress], [soaRecord 6]⟩]

def addressesGoneMessage : XferMessage :=
  zoneMessage
    [zoneSoa 6, zoneSoa 4, locState (ascii "x"), zoneAddress 97, zoneSoa 5, zoneSoa 5, locState [],
    zoneAddress 98, zoneSoa 6, zoneSoa 6]

def addressesInUse : List DnsRecord := [soaRecord 4, taggedAddress, plainAddress]

def addressesGoneRequest : XferRequest Unit :=
  { plainRequest with thaw := some (addressesInUse, (), false) }

lemma addressesGone_installed : ∃ records,
    handleAxfrEvent addressesGoneRequest 4 true [addressesGoneMessage] =
      some (.installed records) :=
  installed_of_owners (by decide +kernel)

/-- The marker in front of the first deletion sticks to the SOA of version 5, but that of version 6
takes its place behind another marker, and the zone looks as it does at the primary. -/
theorem extended_transfer_differences : ∃ sent records held,
    sendAxfrResponse (ascii "z.") addressesGone = some sent ∧
      handleAxfrEvent addressesGoneRequest 4 true [addressesGoneMessage] =
        some (.installed records) ∧
      records = addressesGoneRequest.kept held ∧
      ∀ p ∈ (replay addressesGoneRequest.toXferEnv addressesInUse
        (takenStream addressesGoneRequest 4 true [addressesGoneMessage] sent)).zip held,
        p.2 ∈ records → dnsRecordSameVisibility p.1.rr p.2 = true := by
  have hsome : (sendAxfrResponse (ascii "z.") addressesGone).isSome = true := by decide +kernel
  have hall : ∀ sent ∈ sendAxfrResponse (ascii "z.") addressesGone,
      ArrivesIn addressesGoneMessage sent ∧
      Aligned addressesGoneRequest.toXferEnv addressesInUse
        (takenStream addressesGoneRequest 4 true [addressesGoneMessage] sent) [] ∧
      ∀ x ∈ replay addressesGoneRequest.toXferEnv addressesInUse
        (takenStream addressesGoneRequest 4 true [addressesGoneMessage] sent),
          ∀ s ∈ x.sent, s.Carried (ascii "z.") false := by
    decide +kernel
  have hbase : Forall₂ (fun o z => dnsRecordSameVisibility o z = true) addressesInUse
      addressesGoneRequest.inUse :=
    .cons rfl (.cons rfl (.cons rfl .nil))
  obtain ⟨sent, hsent⟩ := isSome_iff_exists.mp hsome
  obtain ⟨harr, halign, hcarried⟩ := hall sent hsent
  obtain ⟨records, h⟩ := addressesGone_installed
  have hread := @xferConsumed_singleton Unit addressesGoneRequest addressesGoneMessage
    (xferStart addressesGoneRequest 4 true)
  obtain ⟨held, hrec, -, hiff⟩ :=
    extended_transfer_iff (ascii "z.") addressesGone sent addressesGoneRequest 4 true
      [addressesGoneMessage] records addressesInUse
      (show ∀ op ∈ addressesGone.ops (ascii "z."), op.Ok by decide +kernel) hsent h
      (by rw [hread]; exact harr.forall₂) hbase halign
  exact ⟨sent, records, held, hsent, h, hrec, hiff.mpr fun p hp _ => hcarried p.1 (of_mem_zip hp).1⟩

end KariDns
