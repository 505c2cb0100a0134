import KariDns.Query.Whole

/-! What a response that is not truncated holds.

Its Answer and Authority sections are those of a response in a packet with room for all. A
referral has the addresses of the name servers in the delegated zone, as far as the engine looks
for them: not under `additional-from-auth no`, not for name servers in RFC 3597 form, and of
linked addresses only the first 32.
-/

namespace KariDns

open Octets DomainName List Option

variable {σ : Type} {S : Sink σ} {r r' : Resp σ}

/-! ### Referrals of a run -/

/-- The run comes to a referral: to the zone cut at owner `id`, met under `name`, of a zone. -/
def RefersAt (q : Query) (e₀ : ZoneEntry) (qname : Text) (e : ZoneEntry) (img : ZoneImage)
    (id : Nat) (name : Text) : Prop :=
  ∃ depth c, depth < 16 ∧ chainAt q (startChain e₀ qname) depth = some c ∧ c.entry = e ∧
    roundKind q depth c = .referral img id name

/-- A name server of a delegation that the client sees, with an address that the client sees: the
name in its RDATA is at or below the cut, and the address is one of that name's owner. -/
def InDomainAddress (e : ZoneEntry) (img : ZoneImage) (id : Nat) (name t : Text)
    (u : ImageRr × Nat) : Prop :=
  (∃ ns ∈ img.ownRrs id, ns.1.type = 2 ∧ (rrValid e.view.withoutEcs ns.1).isSome = true ∧
    rrTarget ns.1 = some t) ∧
    domainNameIsAtOrBelow t name = true ∧ u ∈ img.rrsAt (img.findName t) ∧
      (u.1.type = 1 ∨ u.1.type = 28) ∧
    (rrValid e.view.withoutEcs u.1).isSome = true

instance (e : ZoneEntry) (img : ZoneImage) (id : Nat) (name t : Text) (u : ImageRr × Nat) :
    Decidable (InDomainAddress e img id name t u) :=
  inferInstanceAs (Decidable (_ ∧ _))

/-- The Additional section has every address of every name server in the delegated zone. -/
def Resp.Glued (e : ZoneEntry) (img : ZoneImage) (id : Nat) (name : Text) (r : Resp σ) : Prop :=
  ∀ t u, InDomainAddress e img id name t u →
    ∃ nm ttl, img.names[u.1.nameId]? = some nm ∧ .rr nm u.1 none ttl ∈ r.additional

/-- The engine looks for the address: the policy lets it in, some name server that is not in RFC
3597 form has the same target, and the address is not behind the 32nd of an owner with linked
addresses, unless these are not used (DO). -/
def Reached (q : Query) (e : ZoneEntry) (img : ZoneImage) (id : Nat) (t : Text)
    (u : ImageRr × Nat) : Prop :=
  ∃ t' ∈ nsTargets (img.ownRrs id), img.findName t' = img.findName t ∧ e.policy ≠ .no ∧
    policyAllows e.policy t' e.domain = true ∧
    (q.dnssecOk = true ∨ linkedOwner img t' = none ∨ ∃ i, linkedOwner img t' = some i ∧
      ∃ v ∈ linkedAddresses img i, v.1 = u.1)

section Reach

variable {q : Query} {e : ZoneEntry} {img : ZoneImage} {id : Nat} {name t : Text}
    {u : ImageRr × Nat}

lemma address_served {apex target : Text} {dnssecOk : Bool} {view : ClientView} {rr : ImageRr}
    (ht : rr.type = 1 ∨ rr.type = 28) :
    (addressSpec img apex target dnssecOk view rr.type).serves rr = rrValid view rr := by
  have hserved : rrNotServed rr = false := by
    rcases ht with h | h <;> simp [rrNotServed, isNsec3ChainRr, h, typeLua]
  simp [RrsetSpec.serves, addressSpec, hserved]

/-- An address that the client sees is among those of its owner. -/
lemma mem_zoneAddresses (apex : Text) {target : Text} (dnssecOk : Bool) {view : ClientView}
    (hu : u ∈ img.atName target) (ht : u.1.type = 1 ∨ u.1.type = 28) {ttl : Nat}
    (hv : rrValid view u.1 = some ttl) {nm : ImageName} (hnm : img.names[u.1.nameId]? = some nm) :
    .rr nm u.1 none ttl ∈
      zoneAddresses img apex target (img.findName target) dnssecOk view false := by
  have hs : (addressSpec img apex target dnssecOk view u.1.type).serves u.1 = some ttl :=
    (address_served ht).trans hv
  refine mem_flatMap.mpr ⟨u.1.type, by rcases ht with h | h <;> simp [h], ?_⟩
  simp only [Bool.false_eq_true, if_false]
  refine mem_flatMap.mpr ⟨u, RrsetSpec.mem_records ?_ hu (by rw [hs]; rfl), ?_⟩
  · rintro ⟨h6, -⟩
    have h6 : u.1.type = 6 := h6
    rcases ht with h | h <;>
    · rw [h6] at h
      cases h
  · rw [hs]
    simp [ZoneImage.emit, hnm, addressSpec]

/-- What is looked for is among the addresses of some target. -/
lemma Reached.mem (h : img.Loaded) (hin : InDomainAddress e img id name t u)
    (hreach : Reached q e img id t u) :
    ∃ t' ∈ nsTargets (img.ownRrs id), domainNameIsAtOrBelow t' name = true ∧
      ∃ nm ttl, img.names[u.1.nameId]? = some nm ∧
      .rr nm u.1 none ttl ∈
        glueEmits img t' e.domain e.view e.policy (q.sibling e) q.dnssecOk false := by
  obtain ⟨-, hbelow, hu, htype, hv⟩ := hin
  obtain ⟨t', ht', hfind, hno, hallow, hlink⟩ := hreach
  obtain ⟨hk, hid⟩ := h.rrsAt hu
  obtain ⟨nm, hnm⟩ := h.rrName hk
  obtain ⟨ttl, httl⟩ := isSome_iff_exists.mp hv
  have hsame : domainNamesMatchCi t t' = true := by
    obtain ⟨z, rfl⟩ := h
    obtain ⟨nm₁, h₁, hm₁⟩ := z.isFrozen.findName.mp hid
    obtain ⟨nm₂, h₂, hm₂⟩ := z.isFrozen.findName.mp (hfind.trans hid)
    obtain rfl : nm₁ = nm₂ := some.inj (h₁.symm.trans h₂)
    exact matchCi_trans (matchCi_symm hm₁) hm₂
  refine ⟨t', ht', ?_, nm, ttl, hnm, ?_⟩
  · rw [← atOrBelow_congr hsame (matchCi_refl name)]
    exact hbelow
  have hopen : ¬ (e.policy = .no ∨ ¬ policyAllows e.policy t' e.domain = true) := by
    simp [hno, hallow]
  rw [glueEmits, if_neg hopen]
  have hzone : .rr nm u.1 none ttl ∈
      zoneAddresses img e.domain t' (img.findName t') q.dnssecOk e.view.withoutEcs false :=
    mem_zoneAddresses e.domain q.dnssecOk (by rw [ZoneImage.atName, hfind]; exact hu) htype httl hnm
  rcases hlink with hdo | hnone | ⟨i, hi, v, hmem, hvu⟩
  · rw [if_pos hdo]
    exact mem_append_left _ hzone
  · simp only [hnone, ite_self]
    exact mem_append_left _ hzone
  cases hdo : q.dnssecOk with
  | true =>
    simp only [if_true]
    rw [hdo] at hzone
    exact mem_append_left _ hzone
  | false =>
    simp only [hi, Bool.false_eq_true, if_false]
    exact mem_flatMap.mpr ⟨v, hmem, by simp [hvu, httl, ZoneImage.emit, hnm]⟩

/-- An address in the section was looked for. -/
lemma Reached.of_mem (h : img.Loaded) (hin : InDomainAddress e img id name t u) {t' : Text}
    (ht' : t' ∈ nsTargets (img.ownRrs id)) {nm : ImageName} {ttl : Nat}
    (hnm : img.names[u.1.nameId]? = some nm)
    (hmem : .rr nm u.1 none ttl ∈
      glueEmits img t' e.domain e.view e.policy (q.sibling e) q.dnssecOk true)
    (hq : q.Loaded) : Reached q e img id t u := by
  obtain ⟨-, hbelow, hu, htype, hv⟩ := hin
  obtain ⟨hk, hid⟩ := h.rrsAt hu
  have h46 : u.1.type ≠ 46 := by
    rcases htype with h | h <;>
    · rw [h]
      decide
  -- an address of a zone's owner
  have hzone : ∀ {img' : ZoneImage} {apex : Text} {view : ClientView}, img'.Loaded →
      .rr nm u.1 none ttl ∈ zoneAddresses img' apex t' (img'.findName t') q.dnssecOk view true →
      img'.names[u.1.nameId]? = some nm ∧ img'.findName t' = some u.1.nameId := by
    intro img' apex view h' hmem
    obtain ⟨type, -, hmem⟩ := mem_flatMap.mp hmem
    simp only [if_true] at hmem
    rcases mem_append.mp hmem with hmem | hmem
    · obtain ⟨⟨rr, k⟩, hrec, hmem⟩ := mem_flatMap.mp hmem
      obtain ⟨hrr, -⟩ := RrsetSpec.records_sub _ _ _ _ hrec
      rw [ZoneImage.emit, mem_toList] at hmem
      obtain ⟨nm', hnm', heq⟩ := map_eq_some_iff.mp hmem
      cases heq
      exact ⟨hnm', (h'.rrsAt hrr).2⟩
    split at hmem
    · cases hmem
    · exact absurd (type_of_sigs hmem) h46
  rw [glueEmits] at hmem
  split at hmem
  · cases hmem
  rename_i hopen
  rw [not_or, not_not] at hopen
  have hfound : ∀ hfind : img.findName t' = some u.1.nameId,
      (q.dnssecOk = true ∨ linkedOwner img t' = none ∨ ∃ i, linkedOwner img t' = some i ∧
        ∃ v ∈ linkedAddresses img i, v.1 = u.1) →
      Reached q e img id t u :=
    fun hfind hlink => ⟨t', ht', hfind.trans hid.symm, hopen.1, hopen.2, hlink⟩
  split at hmem
  · -- linked
    rename_i i hown
    split at hown
    · cases hown
    obtain ⟨⟨rr, k⟩, hrr, hmem⟩ := mem_flatMap.mp hmem
    have hrr' := mem_of_mem_filter (mem_of_mem_take hrr)
    dsimp only at hmem
    split at hmem
    · cases hmem
    rw [ZoneImage.emit, mem_toList] at hmem
    obtain ⟨nm', -, heq⟩ := map_eq_some_iff.mp hmem
    cases heq
    have hfind : img.findName t' = some u.1.nameId := by
      rw [(h.ownRr hrr').2]
      exact (filter_eq_some_iff.mp hown).1
    exact hfound hfind (.inr (.inr ⟨i, hown, _, hrr, rfl⟩))
  rename_i hown
  have hlink : q.dnssecOk = true ∨ linkedOwner img t' = none := by
    split at hown
    · rename_i hdo
      exact .inl hdo
    · exact .inr hown
  rcases mem_append.mp hmem with hmem | hmem
  · exact hfound (hzone h hmem).2 (hlink.imp_right .inl)
  -- another zone has addresses only for a name without addresses here
  exfalso
  split at hmem
  · cases hmem
  rename_i hgo
  have hempty : zoneAddresses img e.domain t' (img.findName t') q.dnssecOk e.view.withoutEcs
      false = [] := by
    by_contra hne
    exact hgo (.inl hne)
  obtain ⟨img', himg', hsib⟩ : ∃ img' : ZoneImage, img'.Loaded ∧
      img'.names[u.1.nameId]? = some nm ∧ img'.findName t' = some u.1.nameId := by
    have hload := hq.sibling e t'
    cases hs : q.sibling e t' with
    | none => simp [hs, siblingEmits] at hmem
    | absent => simp [hs, siblingEmits] at hmem
    | zone other image apex permitted view =>
      cases image with
      | none => simp [hs, siblingEmits] at hmem
      | some img' =>
        rw [hs] at hmem hload
        rw [siblingEmits] at hmem
        split at hmem
        · cases hmem
        · exact ⟨img', hload, hzone hload hmem⟩
  -- the owner there has the name of the owner here
  have hfind : img.findName t' = some u.1.nameId := by
    obtain ⟨z, rfl⟩ := h
    obtain ⟨z', rfl⟩ := himg'
    obtain ⟨nm', hnm', hm⟩ := z'.isFrozen.findName.mp hsib.2
    obtain rfl : nm' = nm := some.inj (hnm'.symm.trans hsib.1)
    exact z.isFrozen.findName.mpr ⟨nm', hnm, hm⟩
  obtain ⟨ttl', httl'⟩ := isSome_iff_exists.mp hv
  have := mem_zoneAddresses e.domain q.dnssecOk
    (by rw [ZoneImage.atName, hfind, ← hid]; exact hu) htype httl' hnm
  rw [hempty] at this
  cases this

end Reach

/-! ### The last round -/

section Last

variable {q : Query} {c₀ c : Chain} {depth : Nat}

lemma chainAt_end (hat : chainAt q c₀ depth = some c) (hlast : nextRound q depth c = none) :
    ∀ k, chainAt q c₀ (depth + 1 + k) = none
  | 0 => by
    show (chainAt q c₀ depth).bind (nextRound q depth) = none
    rw [hat]
    exact hlast
  | k + 1 => by
    show (chainAt q c₀ (depth + 1 + k)).bind (nextRound q (depth + 1 + k)) = none
    rw [chainAt_end hat hlast k]
    rfl

/-- A run that ends before its chain does is truncated. -/
lemma resolveStep_early {init : Resp σ} (hc : c.Loaded) (hr : r.rcode = 0)
    (hnext : nextRound q depth c ≠ none) (hstep : resolveStep S q init depth c r = .done r') :
      r'.tc = true := by
  rw [nextRound] at hnext
  cases hk : roundKind q depth c with
  | lost => simp [hk] at hnext
  | hidden => simp [hk] at hnext
  | referral img id name => simp [hk] at hnext
  | answer img =>
    obtain ⟨ok, r₁, hw, hres⟩ := @resolveStep_answer _ _ _ _ _ S init r hc hk
    rw [hres] at hstep
    cases ok with
    | false =>
      cases hstep
      rfl
    | true =>
      rw [hk] at hnext
      dsimp only at hnext
      cases hlast : (roundPlan q c img).last with
      | stop => simp [hlast] at hnext
      | tooLong => simp [hlast] at hnext
      | servfail => simp [hlast] at hnext
      | name c₂ st wc => simp [hlast] at hnext
      | follow c₂ target =>
        obtain ⟨r₂, -, hfol⟩ := follow_eq S q c₂ target r₁ (hw.grew.rcode.trans hr)
        rw [hlast] at hnext
        rw [if_pos rfl, hlast, RoundEnd.step, hfol] at hstep
        obtain ⟨c₃, hn⟩ := ne_none_iff_exists'.mp hnext
        replace hn : nextChain q c₂ target = some c₃ := hn
        rw [hn] at hstep
        cases hstep

/-- A run that is not truncated ends in the round that its chain ends in. -/
lemma resolveName_last {e : ZoneEntry} {qname : Text} (hq : q.Loaded) (he : e.Loaded)
    (hlt : depth < 16) (hat : chainAt q (startChain e qname) depth = some c)
    (hlast : nextRound q depth c = none) (S : Sink σ) (s : σ)
    (htc : (resolveName S q e qname { sink := s }).tc = false) :
    ∃ r, Writes S .answer (chunksBefore q (startChain e qname) depth) true { sink := s } r ∧
      resolveStep S q { sink := s } depth c r = .done (resolveName S q e qname { sink := s }) := by
  have hc₀ : (startChain e qname).Loaded := ⟨he, by simp [startChain]⟩
  obtain ⟨depth', c', r, -, hat', hw, hend⟩ := resolveName_run S hq he qname { sink := s } rfl
  rcases Nat.lt_trichotomy depth' depth with hlt' | rfl | hgt
  · -- the chain goes on behind the round the run ended in
    exfalso
    rcases hend with ⟨hstep, -⟩ | ⟨rfl, -⟩
    · have hnext : nextRound q depth' c' ≠ none := by
        intro hnone
        obtain ⟨k, rfl⟩ := Nat.exists_eq_add_of_lt hlt'
        have := chainAt_end hat' hnone k
        rw [show depth' + 1 + k = depth' + k + 1 by omega, hat] at this
        cases this
      rw [resolveStep_early (chainAt_all hq.entries hc₀ hat') hw.grew.rcode hnext hstep] at htc
      cases htc
    · omega
  · obtain rfl : c' = c := some.inj (hat'.symm.trans hat)
    rcases hend with ⟨hstep, -⟩ | ⟨heq, -⟩
    · exact ⟨r, hw, hstep⟩
    · omega
  exfalso
  obtain ⟨k, rfl⟩ := Nat.exists_eq_add_of_lt hgt
  have := chainAt_end hat hlast k
  rw [show depth + 1 + k = depth + k + 1 by omega, hat'] at this
  cases this

end Last

/-! ### Responses -/

section Responses

variable {q : Query} {e₀ e : ZoneEntry} {img : ZoneImage} {id : Nat} {name qname : Text}

/-- The Additional section of a referral that is not truncated: some of the addresses of its name
servers, and those in the delegated zone that the engine looks for. -/
lemma referral_additional (hq : q.Loaded) (he : e₀.Loaded)
    (href : RefersAt q e₀ qname e img id name) (S : Sink σ) (s : σ)
    (htc : (resolveName S q e₀ qname { sink := s }).tc = false) :
    img.Loaded ∧
    (∀ x ∈ (resolveName S q e₀ qname { sink := s }).additional, ∃ t ∈ nsTargets (img.ownRrs id),
      x ∈ glueEmits img t e.domain e.view e.policy (q.sibling e) q.dnssecOk true) ∧
    ∀ t ∈ nsTargets (img.ownRrs id), domainNameIsAtOrBelow t name = true →
      ∀ x ∈ glueEmits img t e.domain e.view e.policy (q.sibling e) q.dnssecOk false,
        x ∈ (resolveName S q e₀ qname { sink := s }).additional := by
  obtain ⟨depth, c, hlt, hat, rfl, hk⟩ := href
  have hc₀ : (startChain e₀ qname).Loaded := ⟨he, by simp [startChain]⟩
  have hc : c.Loaded := chainAt_all hq.entries hc₀ hat
  have h := hc.1 img (roundKind_image hk).1
  have hlast : nextRound q depth c = none := by rw [nextRound, hk]
  obtain ⟨r, hw, hstep⟩ := resolveName_last hq he hlt hat hlast S s htc
  obtain ⟨ok, r₁, hauth, hres⟩ := @resolveStep_referral _ _ _ _ _ S { sink := s } r hc _ _ hk
  obtain ⟨cut, ds, r₂, hsub, hgrew, hglue, -, hall⟩ :=
    referralGlue_adds S h hq c.entry name (img.ownRrs id) false r₁
  rw [hres] at hstep
  cases ok with
  | false =>
    rw [← Step.done.inj hstep] at htc
    cases htc
  | true =>
    rw [if_pos rfl, hglue] at hstep
    cases cut with
    | true =>
      rw [← Step.done.inj hstep] at htc
      cases htc
    | false =>
      have hadd : (resolveName S q e₀ qname { sink := s }).additional = ds.flatten := by
        rw [← Step.done.inj hstep]
        simp only [Bool.false_eq_true, if_false]
        rw [hgrew.additional, Resp.addAll, hauth.grew.additional, Resp.addAll, hw.grew.additional,
          Resp.addAll]
        rfl
      rw [hadd]
      refine ⟨h, ?_, hall rfl⟩
      intro x hx
      obtain ⟨l, hl, hxl⟩ := mem_flatten.mp hx
      obtain ⟨t, ht, hl⟩ := mem_flatMap.mp (hsub.subset hl)
      refine ⟨t, ht, ?_⟩
      rw [← glueChunks_flatten]
      exact mem_flatten.mpr ⟨l, hl, hxl⟩

lemma Writes.room {sec : Section} {cs : List (List Emit)} {ok : Bool} (hroom : ¬ S.Full)
    (h : Writes S sec cs ok r r') :
    ok = true := by
  cases ok with
  | true => rfl
  | false => exact absurd h.full hroom

lemma resolveStep_room (hone : q.more = []) (hq : q.Loaded) {c : Chain} (hc : c.Loaded)
    (hroom : ¬ S.Full) {init : Resp σ} {depth : Nat} (htc : r.tc = false) (hr : r.rcode = 0)
    (hstep : resolveStep S q init depth c r = .done r') : r'.tc = false := by
  cases hk : roundKind q depth c with
  | lost =>
    rw [resolveStep_lost hk] at hstep
    cases hstep
    exact htc
  | hidden =>
    rw [resolveStep_hidden hk] at hstep
    cases hstep
    exact htc
  | referral img id name =>
    have h := hc.1 img (roundKind_image hk).1
    obtain ⟨ok, r₁, hw, hres⟩ := @resolveStep_referral _ _ _ _ _ S init r hc _ _ hk
    obtain rfl := hw.room hroom
    obtain ⟨cut, ds, r₂, -, hgrew, hglue, hfull, -⟩ :=
      referralGlue_adds S h hq c.entry name (img.ownRrs id) false r₁
    rw [hres, if_pos rfl, hglue] at hstep
    cases hstep
    cases cut with
    | true => exact absurd (hfull rfl) hroom
    | false => exact hgrew.tc.trans (hw.grew.tc.trans htc)
  | answer img =>
    have h := hc.1 img (roundKind_answer hk)
    obtain ⟨ok, r₁, hw, hres⟩ := @resolveStep_answer _ _ _ _ _ S init r hc hk
    obtain rfl := hw.room hroom
    have htc₁ : r₁.tc = false := hw.grew.tc.trans htc
    have hrc : r₁.rcode = 0 := hw.grew.rcode.trans hr
    rw [hres, if_pos rfl] at hstep
    cases hlast : (roundPlan q c img).last with
    | stop =>
      rw [hlast] at hstep
      cases hstep
      exact htc₁
    | tooLong =>
      rw [hlast] at hstep
      cases hstep
      exact htc₁
    | servfail =>
      rw [hlast] at hstep
      cases hstep
      exact htc₁
    | name c₂ st wc =>
      have hchain : (roundPlan q c img).last.chain = some c₂ := by rw [hlast]; rfl
      rw [hlast, RoundEnd.step, answerName_single hone] at hstep
      cases hstep
      obtain ⟨ok, r₂, hw', hres'⟩ :=
        closeAnswer_writes S h ((roundPlan_chain hchain).all hc) q st.typeMatched
        (verdictOf c₂.entry img c₂.qname st st.typeMatched wc) r₁ hrc
      obtain rfl := hw'.room hroom
      obtain ⟨ds, -, hgrew⟩ := addressed_grew S h hq c₂.entry r₂
      rw [hres', if_pos rfl, hgrew.tc, hw'.grew.tc]
      exact htc₁
    | follow c₂ target =>
      obtain ⟨r₂, hw', hfol⟩ := follow_eq S q c₂ target r₁ hrc
      rw [hlast, RoundEnd.step, hfol] at hstep
      cases hn : nextChain q c₂ target with
      | none =>
        rw [hn] at hstep
        cases hstep
        exact hw'.grew.tc.trans htc₁
      | some c₃ =>
        rw [hn] at hstep
        cases hstep

/-- With room nothing is truncated. -/
lemma resolveName_room (hone : q.more = []) (hq : q.Loaded) (he : e₀.Loaded) (qname : Text)
    (hroom : ¬ S.Full) (s : σ) :
    (resolveName S q e₀ qname { sink := s }).tc = false := by
  have hc₀ : (startChain e₀ qname).Loaded := ⟨he, by simp [startChain]⟩
  obtain ⟨depth, c, r, -, hat, hw, ⟨hstep, -⟩ | ⟨-, hout⟩⟩ :=
    resolveName_run S hq he qname { sink := s } rfl
  · exact resolveStep_room hone hq (chainAt_all hq.entries hc₀ hat) hroom hw.grew.tc
      hw.grew.rcode hstep
  rw [hout, outOfRounds]
  split
  · exact hw.grew.tc
  · exact hw.grew.tc

end Responses

/-- A delegation to a name server with two addresses. -/
def fewAddresses : LoadedZone :=
  .ofText
    [("e.", 6, ["n.e.", "a.e.", "1", "3600", "600", "86400", "300"]), ("e.", 2, ["n.e."]),
      ("s.e.", 2, ["n.s.e."]),
      ("n.s.e.", 1, ["10.0.0.1"]), ("n.s.e.", 1, ["10.0.0.2"])]
    [ascii "e"] valid_e (by decide +kernel) (by decide +kernel)

def fewEntry : ZoneEntry :=
  { id := 0, domain := fewAddresses.domain, image := some fewAddresses.img }

/-- A question below the only cut of a zone is referred to it. -/
lemma refersAt_first {q : Query} {e₀ e : ZoneEntry} {img₀ img : ZoneImage} {qname name₀ name : Text}
    {id₀ id : Nat} (himg : e₀.image = some img₀)
    (hcut : findCut q e₀ img₀ qname = some (id₀, name₀)) :
    RefersAt q e₀ qname e img id name ↔ e = e₀ ∧ img = img₀ ∧ id = id₀ ∧ name = name₀ := by
  have hk : roundKind q 0 (startChain e₀ qname) = .referral img₀ id₀ name₀ := by
    simp [roundKind, startChain, himg, hcut]
  constructor
  · rintro ⟨depth, c, -, hat, rfl, hk'⟩
    have hlast : nextRound q 0 (startChain e₀ qname) = none := by rw [nextRound, hk]
    cases depth with
    | zero =>
      cases hat
      rw [hk] at hk'
      cases hk'
      exact ⟨rfl, rfl, rfl, rfl⟩
    | succ k =>
      have := @chainAt_end q (startChain e₀ qname) (startChain e₀ qname) 0 rfl hlast k
      rw [show 0 + 1 + k = k + 1 by omega, hat] at this
      cases this
  · rintro ⟨rfl, rfl, rfl, rfl⟩
    exact ⟨0, startChain e qname, by omega, rfl, rfl, hk⟩

/-- A delegation to a name server with 36 addresses. -/
def manyAddresses : LoadedZone :=
  .ofText
    ([("e.", 6, ["n.e.", "a.e.", "1", "3600", "600", "86400", "300"]), ("e.", 2, ["n.e."]),
      ("s.e.", 2, ["n.s.e."])] ++
      ["0", "1", "2", "3", "4", "5"].flatMap fun a => ["0", "1", "2", "3", "4", "5"].map fun b =>
        ("n.s.e.", 1, ["10.0." ++ a ++ "." ++ b]))
    [ascii "e"] valid_e (by decide +kernel) (by decide +kernel)

def manyEntry : ZoneEntry :=
  { id := 0, domain := manyAddresses.domain, image := some manyAddresses.img }

def soaQuery : Query := { addressQuery with first := 6 }

/-- A question for the SOA comes to no linked address. -/
lemma many_loneRun : soaQuery.LoneRun manyEntry (ascii "e.") := by
  have himg : ∀ e img, soaQuery.Serves manyEntry e → e.image = some img → e = manyEntry ∧
      manyAddresses.img = img := by
    rintro e img (rfl | ⟨t, ht⟩) himg
    · exact ⟨rfl, some.inj himg⟩
    · cases ht
  have hsole : ∀ sec, ∀ x ∈ manyAddresses.img.rrs, x.type ∈ [(5 : UInt16), 6, 39, 47, 50] →
      Sole sec manyEntry manyAddresses.img x := by
    have h : ∀ x ∈ manyAddresses.img.rrs, x.type ∈ [(5 : UInt16), 6, 39, 47, 50] →
        ∀ u ∈ manyAddresses.img.ownRrs x.nameId, u.1.type = x.type → u.1 = x := by decide +kernel
    exact fun _ x hx htype u hu ht _ _ => h x hx htype u hu ht
  have hlone : ∀ sec l, LoneChunk soaQuery manyEntry sec l := by
    intro sec l nm x owner ttl _ htype e img k hserves he _ hk
    obtain ⟨rfl, rfl⟩ := himg e img hserves he
    exact hsole sec x (mem_of_getElem? hk) htype
  have hlast : nextRound soaQuery 0 (startChain manyEntry (ascii "e.")) = none :=
    isNone_iff_eq_none.mp (by decide +kernel)
  intro depth _ c hat
  cases depth with
  | zero =>
    obtain rfl : startChain manyEntry (ascii "e.") = c := some.inj hat
    refine ⟨fun l _ => hlone _ l, fun l _ => hlone _ l, ?_⟩
    rintro img he t ht - - id hid
    rw [← (some.inj he : manyAddresses.img = img)] at hid
    have hnone :
      ∀ t ∈ (roundClose soaQuery (startChain manyEntry (ascii "e.")) 0
        (startChain manyEntry (ascii "e."))).2,
        linkedOwner manyAddresses.img t = none := by decide +kernel
    rw [hnone t ht] at hid
    cases hid
  | succ k =>
    have := @chainAt_end soaQuery _ (startChain manyEntry (ascii "e.")) 0 rfl hlast k
    rw [show 0 + 1 + k = k + 1 by omega, hat] at this
    cases this

/-- An address behind the linked ones is missing. -/
lemma not_glued {q : Query} {e₀ e : ZoneEntry} {img : ZoneImage} {id i : Nat} {qname name t : Text}
    (hq : q.Loaded) (he : e₀.Loaded) (href : RefersAt q e₀ qname e img id name)
    (hdo : q.dnssecOk = false) {s : σ} (htc : (resolveName S q e₀ qname { sink := s }).tc = false)
    (h : ∃ u ∈ (img.ownRrs i).drop 35, InDomainAddress e img id name t u ∧
      ∀ t' ∈ nsTargets (img.ownRrs id),
      linkedOwner img t' = some i ∧ ∀ v ∈ linkedAddresses img i, v.1 ≠ u.1) :
    ¬ (resolveName S q e₀ qname { sink := s }).Glued e img id name := by
  obtain ⟨u, -, hin, hlinked⟩ := h
  intro hglued
  obtain ⟨hload, hsub, -⟩ := referral_additional hq he href S s htc
  obtain ⟨nm, ttl, hnm, hmem⟩ := hglued _ u hin
  obtain ⟨t', ht', hmem⟩ := hsub _ hmem
  obtain ⟨t'', ht'', -, -, -, hdo' | hnone | ⟨i', hi', v, hv, heq⟩⟩ :=
    Reached.of_mem hload hin ht' hnm hmem hq
  · rw [hdo] at hdo'
    cases hdo'
  · rw [(hlinked t'' ht'').1] at hnone
    cases hnone
  rw [(hlinked t'' ht'').1] at hi'
  cases hi'
  exact (hlinked t'' ht'').2 v hv heq

end KariDns
