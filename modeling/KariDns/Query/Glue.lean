import KariDns.Query.Chunks

/-! The addresses in the Additional section.

For a target the engine writes the addresses linked to its owner, those of the zone, or those
of another zone of the view. What does not fit is left out: the section holds some of the
sets it could hold, in their order, and of a target that was finished all addresses.
-/

namespace KariDns

open Octets DomainName List Option

variable {σ : Type}

/-- A part of the engine adds addresses: some of the chunks `cs`, and all of `must` if it
succeeds. -/
def Adds (S : Sink σ) (cs : List (List Emit)) (must : List Emit) (ok : Bool)
    (r r' : Resp σ) : Prop :=
  ∃ ds : List (List Emit), ds.Sublist cs ∧ r.Grew .additional ds.flatten r' ∧
    (ok = true → must.Sublist ds.flatten) ∧ (ok = false → S.Full)

namespace Adds

variable {S : Sink σ} {cs cs' : List (List Emit)} {must must' : List Emit} {ok b : Bool}
    {r r' r'' : Resp σ}

lemma nil (S : Sink σ) (r : Resp σ) : Adds S [] [] true r r :=
  ⟨[], List.Sublist.refl _, .refl _ r, fun _ => List.Sublist.refl _, by simp⟩

lemma seq (h : Adds S cs must true r r') (h' : Adds S cs' must' ok r' r'') :
    Adds S (cs ++ cs') (must ++ must') ok r r'' := by
  obtain ⟨ds, hsub, hgrew, hmust, -⟩ := h
  obtain ⟨ds', hsub', hgrew', hmust', hfull⟩ := h'
  refine ⟨ds ++ ds', hsub.append hsub', ?_, fun hok => ?_, hfull⟩
  · rw [flatten_append]
    exact hgrew.trans hgrew'
  · rw [flatten_append]
    exact (hmust rfl).append (hmust' hok)

lemma stop (h : Adds S cs must false r r') (hsub : cs.Sublist cs') :
    Adds S cs' must' false r r' := by
  obtain ⟨ds, hds, hgrew, -, hfull⟩ := h
  exact ⟨ds, hds.trans hsub, hgrew, by simp, hfull⟩

/-- The flag for the response cache. -/
lemma flagged (h : Adds S cs must ok { r with siblingGlue := b } r') : Adds S cs must ok r r' := by
  obtain ⟨ds, hsub, ⟨ha, hb, hc, hd, he, hf, hg⟩, hrest⟩ := h
  exact ⟨ds, hsub, ⟨ha, hb, hc, hd, he, hf, hg⟩, hrest⟩

end Adds

lemma Writes.adds {S : Sink σ} {cs : List (List Emit)} {must : List Emit} {ok : Bool}
    {r r' : Resp σ} (h : Writes S .additional cs ok r r') (hmust : must.Sublist cs.flatten) :
      Adds S cs must ok r r' := by
  obtain ⟨ds, hsub, hgrew, hok, hfull⟩ := h
  exact ⟨ds, hsub, hgrew, fun h => (hok h).1 ▸ hmust, fun h => (hfull h).1⟩

/-! ### Addresses of a zone -/

/-- The addresses of an owner, each set signed or not. -/
def zoneAddresses (img : ZoneImage) (apex target : Text) (id : Option Nat) (dnssecOk : Bool)
    (view : ClientView) (signed : Bool) : List Emit :=
  [1, 28].flatMap fun type =>
    let spec := addressSpec img apex target dnssecOk view type
    if signed then spec.signed img (img.rrsAt id) else spec.emits img (img.rrsAt id)

def zoneAddressChunks (img : ZoneImage) (apex target : Text) (id : Option Nat) (dnssecOk : Bool)
    (view : ClientView) : List (List Emit) :=
  [1, 28].flatMap fun type =>
    (addressSpec img apex target dnssecOk view type).chunks img (img.rrsAt id)

lemma zoneAddressChunks_flatten (img : ZoneImage) (apex target : Text) (id : Option Nat)
    (dnssecOk : Bool) (view : ClientView) :
      (zoneAddressChunks img apex target id dnssecOk view).flatten =
      zoneAddresses img apex target id dnssecOk view true := by
  simp [zoneAddressChunks, zoneAddresses, RrsetSpec.chunks_flatten]

/-- One set of addresses: written, with or without its signatures, or left out. -/
lemma addressSet_adds {img : ZoneImage} (S : Sink σ) (h : img.Owned) (spec : RrsetSpec)
    (hsec : spec.sec = .additional) (id : Option Nat) (r : Resp σ) :
    Adds S (spec.chunks img (img.rrsAt id)) (spec.emits img (img.rrsAt id))
      (emitRrset S img id spec r).1.isSome r
        (emitRrset S img id spec r).2 ∧
      ∀ w, (emitRrset S img id spec r).1 = some w →
        w = (spec.records img (img.rrsAt id)).length := by
  rcases emitRrset_cases S spec (h id) r with ⟨ok, hw, hn⟩ | ⟨-, hrec, hn, hgrew⟩
  · have hmust : (spec.emits img (img.rrsAt id)).Sublist
        (spec.chunks img (img.rrsAt id)).flatten := by
      rw [RrsetSpec.chunks_flatten]
      exact sublist_append_left _ _
    rw [hsec] at hw
    rw [hn]
    cases ok with
    | true => exact ⟨hw.adds hmust, fun w hw => (some.inj hw).symm⟩
    | false => exact ⟨hw.adds hmust, fun w hw => by cases hw⟩
  · rw [hn]
    refine ⟨⟨_, RrsetSpec.emits_chunk hrec, ?_, fun _ => ?_, by simp⟩,
      fun w hw => (some.inj hw).symm⟩
    · rw [flatten_singleton, ← hsec]
      exact hgrew
    · rw [flatten_singleton]

/-- What `append_additional_from_zone` does. -/
lemma appendAdditionalFromZone_adds {img : ZoneImage} (S : Sink σ) (h : img.Owned)
    (apex target : Text) (id : Option Nat) (dnssecOk : Bool) (view : ClientView) (r : Resp σ) :
    Adds S (zoneAddressChunks img apex target id dnssecOk view)
      (zoneAddresses img apex target id dnssecOk view false)
        (appendAdditionalFromZone S img apex target id dnssecOk view r).1.isSome r
        (appendAdditionalFromZone S img apex target id dnssecOk view r).2 ∧
      ∀ w, (appendAdditionalFromZone S img apex target id dnssecOk view r).1 = some w →
        (w = 0 ↔ zoneAddresses img apex target id dnssecOk view false = []) := by
  have hchunks : zoneAddressChunks img apex target id dnssecOk view =
      (addressSpec img apex target dnssecOk view 1).chunks img (img.rrsAt id) ++
        (addressSpec img apex target dnssecOk view 28).chunks img (img.rrsAt id) := by
    simp [zoneAddressChunks]
  have hplain : zoneAddresses img apex target id dnssecOk view false =
      (addressSpec img apex target dnssecOk view 1).emits img (img.rrsAt id) ++
        (addressSpec img apex target dnssecOk view 28).emits img (img.rrsAt id) := by
    simp [zoneAddresses]
  unfold appendAdditionalFromZone
  split
  · rename_i hid
    subst hid
    have hnone : ∀ type, (addressSpec img apex target dnssecOk view type).chunks img
        (img.rrsAt none) = [] := by
      intro type
      simp [RrsetSpec.chunks, ZoneImage.rrsAt, RrsetSpec.records]
    have hno : zoneAddresses img apex target none dnssecOk view false = [] := by
      simp [zoneAddresses, ZoneImage.rrsAt, RrsetSpec.emits, RrsetSpec.records]
    rw [hchunks, hnone, hnone, hno]
    exact ⟨.nil S r, fun w hw => by simpa using (some.inj hw).symm⟩
  obtain ⟨hadds, hw⟩ := addressSet_adds S h (addressSpec img apex target dnssecOk view 1) rfl id r
  rw [hchunks, hplain]
  rcases hfirst : emitRrset S img id (addressSpec img apex target dnssecOk view 1)
    r with ⟨_ | a, r₁⟩
  · rw [hfirst] at hadds
    exact ⟨hadds.stop (sublist_append_left _ _), by simp⟩
  rw [hfirst] at hadds hw
  obtain ⟨hadds', hw'⟩ :=
    addressSet_adds S h (addressSpec img apex target dnssecOk view 28) rfl id r₁
  dsimp only
  rcases hsecond : emitRrset S img id (addressSpec img apex target dnssecOk view 28)
    r₁ with ⟨_ | b, r₂⟩
  · rw [hsecond] at hadds'
    exact ⟨hadds.seq hadds' |>.stop (List.Sublist.refl _), by simp⟩
  rw [hsecond] at hadds' hw'
  refine ⟨hadds.seq hadds', ?_⟩
  intro w hsum
  rw [← some.inj hsum, append_eq_nil_iff, RrsetSpec.emits_eq_nil (h id),
    RrsetSpec.emits_eq_nil (h id), hw a rfl, hw' b rfl, Nat.add_eq_zero_iff, length_eq_zero_iff,
    length_eq_zero_iff]

/-! ### Addresses of a target -/

/-- The prelinked addresses that the client sees. -/
def linkedEmits (img : ZoneImage) (view : ClientView) (l : List (ImageRr × Nat)) : List Emit :=
  l.flatMap fun v =>
    match rrValid view v.1 with
    | none => []
    | some ttl => img.emit v.1 none ttl

lemma appendLinked_eq {img : ZoneImage} (S : Sink σ) (view : ClientView) :
    ∀ {l : List (ImageRr × Nat)}, img.Holds l → ∀ r : Resp σ,
      appendLinked S img view l r = writeAll S .additional (linkedEmits img view l) r
  | [], _, r => rfl
  | (rr, k) :: l, h, r => by
    have ih := appendLinked_eq S view fun v hv => h v (mem_cons_of_mem _ hv)
    obtain ⟨nm, hnm⟩ := h (rr, k) mem_cons_self
    rw [appendLinked, linkedEmits, flatMap_cons]
    cases rrValid view rr with
    | none => exact ih r
    | some ttl =>
      simp only [ih, Resp.writeRr, ZoneImage.emit, hnm]
      rfl

/-- The addresses from a zone next to this one. -/
def siblingEmits (target : Text) (dnssecOk signed : Bool) : Sibling → List Emit
  | .zone other (some img) apex permitted view =>
    if ¬ other ∨ ¬ permitted ∨ (img.soaAttr ∧ img.visibleSoa view = none) then []
    else zoneAddresses img apex target (img.findName target) dnssecOk view.withoutEcs signed
  | _ => []

def siblingChunks (target : Text) (dnssecOk : Bool) : Sibling → List (List Emit)
  | .zone other (some img) apex permitted view =>
    if ¬ other ∨ ¬ permitted ∨ (img.soaAttr ∧ img.visibleSoa view = none) then []
    else zoneAddressChunks img apex target (img.findName target) dnssecOk view.withoutEcs
  | _ => []

/-- The owner whose linked addresses are taken. -/
def linkedOwner (img : ZoneImage) (target : Text) : Option Nat :=
  (img.findName target).filter fun i => (img.names[i]?).any (·.glue)

/-- The policy lets the zone's own addresses of a target in. -/
def policyAllows (policy : AdditionalAuth) (target apex : Text) : Bool :=
  policy ≠ .inDomain ∨ domainNameIsAtOrBelow target apex

/-- The addresses of a target. -/
def glueEmits (img : ZoneImage) (target apex : Text) (view : ClientView) (policy : AdditionalAuth)
    (sib : Text → Sibling) (dnssecOk signed : Bool) : List Emit :=
  if policy = .no ∨ ¬ policyAllows policy target apex then []
  else
    match (if dnssecOk then none else linkedOwner img target) with
    | some i => linkedEmits img view.withoutEcs (linkedAddresses img i)
    | none =>
      zoneAddresses img apex target (img.findName target) dnssecOk view.withoutEcs signed ++
        if zoneAddresses img apex target (img.findName target) dnssecOk view.withoutEcs false ≠ [] ∨
          policy ≠ .yes then []
        else siblingEmits target dnssecOk signed (sib target)

/-- Linked addresses are written together, others set by set. -/
def glueChunks (img : ZoneImage) (target apex : Text) (view : ClientView) (policy : AdditionalAuth)
    (sib : Text → Sibling) (dnssecOk : Bool) : List (List Emit) :=
  if policy = .no ∨ ¬ policyAllows policy target apex then []
  else
    match (if dnssecOk then none else linkedOwner img target) with
    | some i => [linkedEmits img view.withoutEcs (linkedAddresses img i)]
    | none =>
      zoneAddressChunks img apex target (img.findName target) dnssecOk view.withoutEcs ++
        if zoneAddresses img apex target (img.findName target) dnssecOk view.withoutEcs false ≠ [] ∨
          policy ≠ .yes then []
        else siblingChunks target dnssecOk (sib target)

lemma siblingChunks_flatten (target : Text) (dnssecOk : Bool) (sib : Sibling) :
    (siblingChunks target dnssecOk sib).flatten = siblingEmits target dnssecOk true sib := by
  rcases sib with _ | _ | ⟨other, _ | img, apex, permitted, view⟩
  · rfl
  · rfl
  · rfl
  rw [siblingChunks, siblingEmits]
  split
  · rfl
  · exact zoneAddressChunks_flatten _ _ _ _ _ _

lemma glueChunks_flatten (img : ZoneImage) (target apex : Text) (view : ClientView)
    (policy : AdditionalAuth) (sib : Text → Sibling) (dnssecOk : Bool) :
      (glueChunks img target apex view policy sib dnssecOk).flatten =
      glueEmits img target apex view policy sib dnssecOk true := by
  rw [glueChunks, glueEmits]
  split
  · rfl
  cases (if dnssecOk then none else linkedOwner img target) with
  | some i => simp
  | none =>
    dsimp only
    rw [flatten_append, zoneAddressChunks_flatten]
    split
    · rfl
    · rw [siblingChunks_flatten]

/-- Zones of the view that a loader left. -/
def Sibling.Loaded : Sibling → Prop
  | .zone _ (some img) _ _ _ => img.Loaded
  | _ => True

/-- Every record of a zone next to this one has its owner. -/
def Sibling.Owned : Sibling → Prop
  | .zone _ (some img) _ _ _ => img.Owned
  | _ => True

lemma Sibling.Loaded.owned {sib : Sibling} (h : sib.Loaded) : sib.Owned := by
  rcases sib with _ | _ | ⟨other, _ | img, apex, permitted, view⟩
  · trivial
  · trivial
  · trivial
  · exact ZoneImage.Loaded.holds h

/-- What part 3 of `append_glue_records` does. -/
lemma appendFromSibling_adds (S : Sink σ) (target : Text) (dnssecOk : Bool) {sib : Sibling}
    (h : sib.Owned) (r : Resp σ) :
    Adds S (siblingChunks target dnssecOk sib) (siblingEmits target dnssecOk false sib)
      (appendFromSibling S target dnssecOk sib r).1 r
        (appendFromSibling S target dnssecOk sib r).2 := by
  rcases sib with _ | _ | ⟨other, _ | img, apex, permitted, view⟩
  · exact .nil S r
  · exact (Adds.nil S _).flagged (b := true)
  · have hflag : (if other then { r with siblingGlue := true } else r) =
        { r with siblingGlue := other || r.siblingGlue } := by
      cases other <;> rfl
    rw [appendFromSibling, hflag]
    exact (Adds.nil S _).flagged (b := other || r.siblingGlue)
  have hflag : (if other then { r with siblingGlue := true } else r) =
      { r with siblingGlue := other || r.siblingGlue } := by
    cases other <;> rfl
  rw [appendFromSibling, hflag, siblingChunks, siblingEmits]
  refine Adds.flagged (b := other || r.siblingGlue) ?_
  by_cases hshut : ¬ other ∨ ¬ permitted
  · have hshut' : ¬ other ∨ ¬ permitted ∨ (img.soaAttr ∧ img.visibleSoa view = none) := by tauto
    rw [if_pos hshut, if_pos hshut', if_pos hshut']
    exact .nil S _
  by_cases hsoa : img.soaAttr ∧ img.visibleSoa view = none
  · have hshut' : ¬ other ∨ ¬ permitted ∨ (img.soaAttr ∧ img.visibleSoa view = none) := by tauto
    rw [if_neg hshut, if_pos hsoa, if_pos hshut', if_pos hshut']
    exact .nil S _
  have hopen : ¬ (¬ other ∨ ¬ permitted ∨ (img.soaAttr ∧ img.visibleSoa view = none)) := by tauto
  rw [if_neg hshut, if_neg hsoa, if_neg hopen, if_neg hopen]
  obtain ⟨hadds, -⟩ := appendAdditionalFromZone_adds S h apex target (img.findName target)
    dnssecOk view.withoutEcs { r with siblingGlue := other || r.siblingGlue }
  generalize appendAdditionalFromZone S img apex target
    (img.findName target) dnssecOk view.withoutEcs
    { r with siblingGlue := other || r.siblingGlue } = res at hadds ⊢
  obtain ⟨_ | w, r'⟩ := res <;> exact hadds

/-- What `append_glue_records` does. -/
lemma appendGlueRecords_adds {img : ZoneImage} (S : Sink σ) (h : img.Owned) (target apex : Text)
    (view : ClientView) (policy : AdditionalAuth) {sib : Text → Sibling} (hsib : ∀ t, (sib t).Owned)
    (dnssecOk : Bool) (r : Resp σ) :
    Adds S (glueChunks img target apex view policy sib dnssecOk)
      (glueEmits img target apex view policy sib dnssecOk false)
      (appendGlueRecords S img target apex view policy sib dnssecOk r).1 r
      (appendGlueRecords S img target apex view policy sib dnssecOk r).2 := by
  have hallows : policyAllows policy target apex = true ↔ policy ≠ .inDomain ∨
      domainNameIsAtOrBelow target apex = true := by
    simp [policyAllows]
  unfold appendGlueRecords
  by_cases hno : policy = .no
  · rw [if_pos hno, glueChunks, if_pos (.inl hno), glueEmits, if_pos (.inl hno)]
    exact .nil S r
  rw [if_neg hno]
  by_cases hin : policyAllows policy target apex = true
  swap
  · have hin' := mt hallows.mpr hin
    rw [glueChunks, if_pos (.inr hin), glueEmits, if_pos (.inr hin)]
    simp only [hin', and_false, if_false, not_false_eq_true, if_true]
    exact .nil S r
  have hin' := hallows.mp hin
  have hopen : ¬ (policy = .no ∨ ¬ policyAllows policy target apex = true) := by simp [hno, hin]
  rw [glueChunks, if_neg hopen, glueEmits, if_neg hopen]
  have hlinked :
    (if dnssecOk = false ∧ (policy ≠ .inDomain ∨ domainNameIsAtOrBelow target apex = true) then
      (img.findName target).filter fun i => (img.names[i]?).any (·.glue) else none) =
      if dnssecOk then none else linkedOwner img target := by
    cases dnssecOk <;> simp [hin', linkedOwner]
  simp only [hlinked]
  cases hown : (if dnssecOk then none else linkedOwner img target) with
  | some i =>
    have hholds : img.Holds (linkedAddresses img i) := fun v hv =>
      h (some i) v (mem_of_mem_filter (mem_of_mem_take hv))
    have hw :=
      writeAll_writes S .additional (linkedEmits img view.withoutEcs (linkedAddresses img i)) r
    simp only [appendLinked_eq S view.withoutEcs hholds]
    generalize writeAll S .additional
      (linkedEmits img view.withoutEcs (linkedAddresses img i)) r = res at hw ⊢
    obtain ⟨_ | _, r'⟩ := res
    · exact (hw.restore (by simp)).adds (by simp)
    · exact (hw.regroup (by rw [flatten_singletons, flatten_singleton])).adds (by simp)
  | none =>
    simp only [hin', not_true_eq_false, if_false]
    obtain ⟨hadds, hw⟩ :=
      appendAdditionalFromZone_adds S h apex target (img.findName target) dnssecOk view.withoutEcs r
    rcases happ : appendAdditionalFromZone S img apex target
      (img.findName target) dnssecOk view.withoutEcs r with
      ⟨_ | w, r'⟩
    · rw [happ] at hadds
      exact hadds.stop (sublist_append_left _ _)
    rw [happ] at hadds hw
    replace hw := hw w rfl
    dsimp only
    by_cases hstop : w > 0 ∨ policy ≠ .yes
    · have hstop' : zoneAddresses img apex target
        (img.findName target) dnssecOk view.withoutEcs false ≠ [] ∨
          policy ≠ .yes := by
        refine hstop.imp_left fun hpos hnil => ?_
        rw [hw.mpr hnil] at hpos
        exact Nat.lt_irrefl 0 hpos
      rw [if_pos hstop, if_pos hstop', if_pos hstop', append_nil, append_nil]
      exact hadds
    have hgo :
      ¬ (zoneAddresses img apex target (img.findName target) dnssecOk view.withoutEcs false ≠ [] ∨
        policy ≠ .yes) := by
      rintro (hne | hp)
      · exact hstop (.inl (Nat.pos_of_ne_zero fun h0 => hne (hw.mp h0)))
      · exact hstop (.inr hp)
    rw [if_neg hstop, if_neg hgo, if_neg hgo]
    exact hadds.seq (appendFromSibling_adds S target dnssecOk (hsib target) r')

end KariDns
