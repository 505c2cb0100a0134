import KariDns.Query.Complete

/-! The addresses of a target with DO and without.

With DO the engine writes the A set of the target, then the AAAA set; without DO it writes the
addresses linked to the owner, in the order of the zone. Both give the same records, set by
set, unless the owner has visible addresses behind the 32nd, or has none and another zone of
the view has some.
-/

namespace KariDns

open Octets DomainName List Option

variable {policy : AdditionalAuth} {view : ClientView} {l : List (ImageRr × Nat)} {target : Text}
    {img : ZoneImage}

variable {σ : Type}

/-! ### Visible sets -/

/-- The addresses of an owner. -/
def addressRrs (img : ZoneImage) (id : Option Nat) : List (ImageRr × Nat) :=
  (img.rrsAt id).filter fun v => v.1.type = 1 ∨ v.1.type = 28

/-- The RRset of an owner that a client sees. -/
def visibleRrset (img : ZoneImage) (id : Option Nat) (view : ClientView)
    (type : UInt16) : List Emit :=
  linkedEmits img view ((img.rrsAt id).filter fun v => v.1.type = type)

/-- Both address sets of an owner that a client sees. -/
def visibleAddresses (img : ZoneImage) (id : Option Nat) (view : ClientView) : List Emit :=
  visibleRrset img id view 1 ++ visibleRrset img id view 28

lemma linkedEmits_cons (img : ZoneImage) (view : ClientView) (v : ImageRr × Nat)
    (l : List (ImageRr × Nat)) :
    linkedEmits img view (v :: l) = linkedEmits img view [v] ++ linkedEmits img view l := by
  simp [linkedEmits]

lemma linkedEmits_append (img : ZoneImage) (view : ClientView) (l l' : List (ImageRr × Nat)) :
    linkedEmits img view (l ++ l') = linkedEmits img view l ++ linkedEmits img view l' := by
  simp [linkedEmits]

/-- A visible record of an image is written. -/
lemma linkedEmits_eq_nil (h : img.Holds l) :
    linkedEmits img view l = [] ↔ ∀ v ∈ l, rrValid view v.1 = none := by
  rw [linkedEmits, flatMap_eq_nil_iff]
  refine forall₂_congr fun v hv => ?_
  obtain ⟨nm, hnm⟩ := h v hv
  cases rrValid view v.1 with
  | none => simp
  | some ttl => simp [ZoneImage.emit, hnm]

lemma type_of_linkedEmits {e : Emit} (he : e ∈ linkedEmits img view l) :
    ∃ v ∈ l, e.type = v.1.type := by
  obtain ⟨v, hv, he⟩ := mem_flatMap.mp he
  refine ⟨v, hv, ?_⟩
  cases hvalid : rrValid view v.1 with
  | none => simp [hvalid] at he
  | some ttl =>
    rw [hvalid] at he
    exact type_of_emit he

lemma linkedEmits_filter_type (img : ZoneImage) (view : ClientView) (type : UInt16) :
    ∀ l : List (ImageRr × Nat),
    (linkedEmits img view l).filter (fun e => e.type = type) =
      linkedEmits img view (l.filter fun v => v.1.type = type)
  | [] => rfl
  | v :: l => by
    rw [linkedEmits_cons, filter_append, linkedEmits_filter_type img view type l, filter_cons]
    have hone : ∀ e ∈ linkedEmits img view [v], e.type = v.1.type := by
      intro e he
      obtain ⟨u, hu, htype⟩ := type_of_linkedEmits he
      rwa [mem_singleton.mp hu] at htype
    by_cases ht : v.1.type = type
    · rw [if_pos (by simpa using ht), linkedEmits_cons img view v (List.filter _ l)]
      congr 1
      exact filter_eq_self.mpr fun e he => by simp [hone e he, ht]
    rw [if_neg (by simpa using ht)]
    have hnone : (linkedEmits img view [v]).filter (fun e => e.type = type) = [] :=
      filter_eq_nil_iff.mpr fun e he => by simp [hone e he, ht]
    rw [hnone, nil_append]

/-- An address set as `emit_rrset` writes it. -/
lemma emits_addressSpec (img : ZoneImage) (apex target : Text) (dnssecOk : Bool) (view : ClientView)
    {type : UInt16} (ht : type = 1 ∨ type = 28) : ∀ l : List (ImageRr × Nat),
    (addressSpec img apex target dnssecOk view type).emits img l =
      linkedEmits img view (l.filter fun v => v.1.type = type)
  | [] => rfl
  | v :: l => by
    have ih := emits_addressSpec img apex target dnssecOk view ht l
    have h6 :
        ¬ ((addressSpec img apex target dnssecOk view type).type = 6 ∧ img.soaAttr = true) := by
      rintro ⟨h, -⟩
      rcases ht with ht | ht <;>
      · rw [ht] at h
        cases h
    by_cases htype : v.1.type = type
    · have hserves : (addressSpec img apex target dnssecOk view type).serves v.1 =
          rrValid view v.1 := by
        rw [← htype] at ht ⊢
        exact address_served ht
      rw [filter_cons, if_pos (by simpa using htype), linkedEmits_cons, ← ih, RrsetSpec.emits,
        RrsetSpec.records, hserves, if_neg h6]
      cases hv : rrValid view v.1 with
      | none => simp [linkedEmits, hv, RrsetSpec.emits]
      | some ttl =>
        simp only [isNone_some, Bool.false_eq_true, if_false, flatMap_cons, hserves, hv, getD_some,
          linkedEmits, flatMap_nil, append_nil, RrsetSpec.emits]
        rfl
    have hserves : (addressSpec img apex target dnssecOk view type).serves v.1 = none :=
      if_pos (.inl htype)
    rw [filter_cons, if_neg (by simpa using htype), ← ih, RrsetSpec.emits,
      RrsetSpec.records_cons_none hserves, RrsetSpec.emits]

/-- The addresses of a zone are the two visible sets, DO or not. -/
lemma zoneAddresses_visible (img : ZoneImage) (apex target : Text) (id : Option Nat)
    (dnssecOk : Bool) (view : ClientView) :
      zoneAddresses img apex target id dnssecOk view false = visibleAddresses img id view := by
  simp [zoneAddresses, emits_addressSpec, visibleAddresses, visibleRrset]

lemma addressRrs_perm (l : List (ImageRr × Nat)) :
    ((l.filter fun v => v.1.type = 1 ∨ v.1.type = 28)).Perm
      ((l.filter fun v => v.1.type = 1) ++ l.filter fun v => v.1.type = 28) := by
  induction l with
  | nil => exact .refl _
  | cons v l ih =>
    by_cases h1 : v.1.type = 1
    · simpa [h1] using ih.cons v
    by_cases h28 : v.1.type = 28
    · simpa [h28] using (ih.cons v).trans perm_middle.symm
    · simpa [h1, h28] using ih

lemma linkedEmits_addressRrs (img : ZoneImage) (id : Option Nat) (view : ClientView) :
    (linkedEmits img view (addressRrs img id)).Perm (visibleAddresses img id view) := by
  rw [visibleAddresses, visibleRrset, visibleRrset, ← linkedEmits_append]
  exact (addressRrs_perm (img.rrsAt id)).flatMap_right _

/-! ### The addresses of a target -/

/-- The RRset of a target in a zone next to this one. -/
def siblingRrset (target : Text) (type : UInt16) : Sibling → List Emit
  | .zone _ (some img) _ _ view => visibleRrset img (img.findName target) view.withoutEcs type
  | _ => []

/-- A zone next to this one shows the client no address of a target: it is this zone, or closed to
the client, or all addresses are hidden. -/
def SiblingSilent (target : Text) : Sibling → Prop
  | .zone other (some img) _ permitted view =>
    other = true → permitted = true → ¬ (img.soaAttr = true ∧ img.visibleSoa view = none) →
      ∀ v ∈ addressRrs img (img.findName target), rrValid view.withoutEcs v.1 = none
  | _ => True

/-- The address records that a call added to the Additional section. -/
def addedAddresses (r r' : Resp σ) : List Emit :=
  (r'.additional.drop r.additional.length).filter fun e => e.type = 1 ∨ e.type = 28

/-- Of each address set of this zone, or of the zone next to it, all that the client sees, or
nothing. -/
def WholeSets (img : ZoneImage) (target : Text) (view : ClientView) (sib : Sibling)
    (added : List Emit) : Prop :=
  ∀ type ∈ ([1, 28] : List UInt16),
    (added.filter fun e => e.type = type) = [] ∨
      (added.filter fun e => e.type = type) =
        visibleRrset img (img.findName target) view.withoutEcs type ∨
      (added.filter fun e => e.type = type) = siblingRrset target type sib

lemma siblingEmits_visible (target : Text) (dnssecOk : Bool) (sib : Sibling) :
    siblingEmits target dnssecOk false sib = [] ∨
      siblingEmits target dnssecOk false sib = siblingRrset target 1 sib ++
        siblingRrset target 28 sib := by
  rcases sib with _ | _ | ⟨other, _ | img, apex, permitted, view⟩
  · exact .inl rfl
  · exact .inl rfl
  · exact .inl rfl
  rw [siblingEmits]
  split
  · exact .inl rfl
  · exact .inr (zoneAddresses_visible _ _ _ _ _ _)

lemma visibleAddresses_eq_nil (h : img.Owned) (id : Option Nat) (view : ClientView) :
    visibleAddresses img id view = [] ↔ ∀ v ∈ addressRrs img id, rrValid view v.1 = none := by
  have hholds : img.Holds (addressRrs img id) := fun v hv => h id v (mem_of_mem_filter hv)
  rw [← linkedEmits_eq_nil hholds]
  exact ⟨fun hnil => (hnil ▸ linkedEmits_addressRrs img id view).eq_nil,
    fun hnil => (hnil ▸ linkedEmits_addressRrs img id view).symm.eq_nil⟩

lemma siblingEmits_eq_nil (target : Text) (dnssecOk : Bool) {sib : Sibling} (h : sib.Owned) :
    siblingEmits target dnssecOk false sib = [] ↔ SiblingSilent target sib := by
  rcases sib with _ | _ | ⟨other, _ | img, apex, permitted, view⟩
  · simp [siblingEmits, SiblingSilent]
  · simp [siblingEmits, SiblingSilent]
  · simp [siblingEmits, SiblingSilent]
  rw [siblingEmits, SiblingSilent]
  by_cases hshut : ¬ other ∨ ¬ permitted ∨ (img.soaAttr ∧ img.visibleSoa view = none)
  · rw [if_pos hshut]
    exact ⟨fun _ ho hp hs => absurd hshut (by tauto), fun _ => rfl⟩
  · rw [if_neg hshut, zoneAddresses_visible, visibleAddresses_eq_nil h]
    exact ⟨fun hall _ _ _ => hall, fun hall => hall (by tauto) (by tauto) (by tauto)⟩

/-- What of the addresses does not depend on DO: those of the zone, and those of another one if it
has none. -/
def lookedUp (img : ZoneImage) (target : Text) (view : ClientView) (policy : AdditionalAuth)
    (sib : Sibling) : List Emit :=
  visibleAddresses img (img.findName target) view.withoutEcs ++
    if visibleAddresses img (img.findName target) view.withoutEcs ≠ [] ∨ policy ≠ .yes then []
    else siblingEmits target false false sib

lemma lookedUp_own (sib : Sibling)
    (h : visibleAddresses img (img.findName target) view.withoutEcs ≠ [] ∨ policy ≠ .yes) :
    lookedUp img target view policy sib =
      visibleAddresses img (img.findName target) view.withoutEcs := by
  rw [lookedUp, if_pos h, append_nil]

lemma lookedUp_sibling (sib : Sibling)
    (h : visibleAddresses img (img.findName target) view.withoutEcs = []) :
    lookedUp img target view .yes sib = siblingEmits target false false sib := by
  rw [lookedUp, if_neg (by simp [h]), h, nil_append]

lemma siblingEmits_plain (target : Text) (dnssecOk : Bool) (sib : Sibling) :
    siblingEmits target dnssecOk false sib = siblingEmits target false false sib := by
  rcases sib with _ | _ | ⟨other, _ | img, apex, permitted, view⟩
  · rfl
  · rfl
  · rfl
  · simp only [siblingEmits, zoneAddresses_visible]

lemma glueEmits_plain {apex : Text} {sib : Text → Sibling} (hno : policy ≠ .no)
    (hallow : policyAllows policy target apex = true) (dnssecOk : Bool) :
    glueEmits img target apex view policy sib dnssecOk false =
      match (if dnssecOk then none else linkedOwner img target) with
      | some i => linkedEmits img view.withoutEcs (linkedAddresses img i)
      | none => lookedUp img target view policy (sib target) := by
  have hopen : ¬ (policy = .no ∨ ¬ policyAllows policy target apex = true) := by simp [hno, hallow]
  rw [glueEmits, if_neg hopen, zoneAddresses_visible, siblingEmits_plain]
  rfl

/-- Signatures are no addresses. -/
lemma filter_sigsOf {p : UInt16 → Prop} [DecidablePred p] (hp : ¬ p 46) (img : ZoneImage)
    (owner : Option Text) (covered ttl : Nat) (l : List (ImageRr × Nat)) :
    (sigsOf img owner covered ttl l).filter (fun e => p e.type) = [] := by
  refine filter_eq_nil_iff.mpr fun e he => ?_
  obtain ⟨v, -, he⟩ := mem_flatMap.mp he
  split at he
  · rename_i hsig
    simp [type_of_emit he, hsig.1, hp]
  · cases he

lemma linkedEmits_addresses (h : ∀ v ∈ l, v.1.type = 1 ∨ v.1.type = 28) :
    (linkedEmits img view l).filter (fun e => e.type = 1 ∨ e.type = 28) =
      linkedEmits img view l := by
  refine filter_eq_self.mpr fun e he => ?_
  obtain ⟨v, hv, htype⟩ := type_of_linkedEmits he
  simpa [htype] using h v hv

lemma zoneAddresses_signed (img : ZoneImage) (apex target : Text) (id : Option Nat)
    (dnssecOk : Bool) (view : ClientView) :
    (zoneAddresses img apex target id dnssecOk view true).filter
      (fun e => e.type = 1 ∨ e.type = 28) =
      zoneAddresses img apex target id dnssecOk view false := by
  have hset : ∀ {type : UInt16}, type = 1 ∨ type = 28 →
      ((addressSpec img apex target dnssecOk view type).signed img (img.rrsAt id)).filter
        (fun e => e.type = 1 ∨ e.type = 28) =
        (addressSpec img apex target dnssecOk view type).emits img (img.rrsAt id) := by
    intro type ht
    rw [RrsetSpec.signed, filter_append, emits_addressSpec img apex target dnssecOk view ht,
      linkedEmits_addresses]
    · split
      · simp
      · rw [filter_sigsOf (p := fun t => t = 1 ∨ t = 28) (by decide), append_nil]
    intro v hv
    have hv : v.1.type = type := by simpa using (mem_filter.mp hv).2
    rwa [hv]
  simp only [zoneAddresses, flatMap_cons, flatMap_nil, append_nil, filter_append, if_true,
    Bool.false_eq_true, if_false]
  rw [hset (.inl rfl), hset (.inr rfl)]

lemma siblingEmits_signed (target : Text) (dnssecOk : Bool) (sib : Sibling) :
    (siblingEmits target dnssecOk true sib).filter (fun e => e.type = 1 ∨ e.type = 28) =
      siblingEmits target dnssecOk false sib := by
  rcases sib with _ | _ | ⟨other, _ | img, apex, permitted, view⟩
  · rfl
  · rfl
  · rfl
  rw [siblingEmits, siblingEmits]
  split
  · rfl
  · exact zoneAddresses_signed _ _ _ _ _ _

/-- Signatures aside, the addresses of a target. -/
lemma glueEmits_signed (img : ZoneImage) (target apex : Text) (view : ClientView)
    (policy : AdditionalAuth) (sib : Text → Sibling) (dnssecOk : Bool) :
    (glueEmits img target apex view policy sib dnssecOk true).filter
      (fun e => e.type = 1 ∨ e.type = 28) =
      glueEmits img target apex view policy sib dnssecOk false := by
  rw [glueEmits, glueEmits]
  split
  · rfl
  cases (if dnssecOk then none else linkedOwner img target) with
  | some i =>
    refine linkedEmits_addresses fun v hv => ?_
    simpa using (mem_filter.mp (mem_of_mem_take hv)).2
  | none =>
    rw [filter_append, zoneAddresses_signed]
    congr 1
    split
    · rfl
    · exact siblingEmits_signed _ _ _

/-- A call that finds room adds the addresses of the target. -/
lemma addedAddresses_eq {S : Sink σ} (himg : img.Owned) {apex : Text} {sib : Text → Sibling}
    (hsib : ∀ t, (sib t).Owned) {dnssecOk : Bool} {r : Resp σ}
    (hfit : (appendGlueRecords S img target apex view policy sib dnssecOk r).1 = true) :
    addedAddresses r (appendGlueRecords S img target apex view policy sib dnssecOk r).2 =
      glueEmits img target apex view policy sib dnssecOk false := by
  obtain ⟨ds, hsub, hgrew, hmust, -⟩ :=
    appendGlueRecords_adds S himg target apex view policy hsib dnssecOk r
  have hadded : (appendGlueRecords S img target apex view policy sib dnssecOk r).2.additional.drop
    r.additional.length =
      ds.flatten := by
    rw [hgrew.additional]
    simp [Resp.addAll]
  have hall := glueEmits_signed img target apex view policy sib dnssecOk
  rw [← glueChunks_flatten] at hall
  rw [addedAddresses, hadded]
  -- between the sets without their signatures and the sets with all of them
  have hle := hsub.flatten.filter fun e => e.type = 1 ∨ e.type = 28
  have hge := (hmust hfit).filter fun e => e.type = 1 ∨ e.type = 28
  rw [hall] at hle
  rw [← hall, List.filter_filter] at hge
  simp only [Bool.and_self] at hge
  rw [hall] at hge
  exact hle.antisymm hge

/-! ### Sets as a whole -/

lemma visibleAddresses_filter (img : ZoneImage) (id : Option Nat) (view : ClientView)
    {type : UInt16} (ht : type ∈ ([1, 28] : List UInt16)) :
    (visibleAddresses img id view).filter (fun e => e.type = type) =
      visibleRrset img id view type := by
  have hone : ∀ u : UInt16, (visibleRrset img id view u).filter (fun e => e.type = type) =
      if u = type then visibleRrset img id view type else [] := by
    intro u
    rw [visibleRrset, linkedEmits_filter_type, List.filter_filter]
    split
    · rename_i hu
      simp [hu, visibleRrset]
    rename_i hu
    rw [filter_eq_nil_iff.mpr]
    · rfl
    intro v _
    simp only [Bool.and_eq_true, decide_eq_true_eq]
    rintro ⟨rfl, rfl⟩
    exact hu rfl
  rw [visibleAddresses, filter_append, hone, hone]
  rcases mem_pair.mp ht with rfl | rfl <;> simp

lemma lookedUp_wholeSets (img : ZoneImage) (target : Text) (view : ClientView)
    (policy : AdditionalAuth) (sib : Sibling) :
      WholeSets img target view sib (lookedUp img target view policy sib) := by
  intro type ht
  by_cases hown : visibleAddresses img (img.findName target) view.withoutEcs ≠ [] ∨ policy ≠ .yes
  · rw [lookedUp_own sib hown]
    exact .inr (.inl (visibleAddresses_filter _ _ _ ht))
  obtain ⟨hnil, rfl⟩ : visibleAddresses img (img.findName target) view.withoutEcs = [] ∧
      policy = .yes := by tauto
  rw [lookedUp_sibling sib hnil]
  rcases siblingEmits_visible target false sib with hsib | hsib
  · exact .inl (by rw [hsib]; rfl)
  refine .inr (.inr ?_)
  rw [hsib]
  rcases sib with _ | _ | ⟨other, _ | img', apex, permitted, view'⟩
  · rfl
  · rfl
  · rfl
  · exact visibleAddresses_filter _ _ _ ht

/-- The addresses of a target do not depend on DO, and no address set is there partly. -/
def GlueSame (S : Sink σ) (img : ZoneImage) (target apex : Text) (view : ClientView)
    (policy : AdditionalAuth) (sib : Text → Sibling) (r : Resp σ) : Prop :=
  (addedAddresses r (appendGlueRecords S img target apex view policy sib false r).2).Perm
      (addedAddresses r (appendGlueRecords S img target apex view policy sib true r).2) ∧
    ∀ dnssecOk, WholeSets img target view (sib target)
      (addedAddresses r (appendGlueRecords S img target apex view policy sib dnssecOk r).2)

/-- The linked addresses of a target are all that the client sees: none behind the 32nd is visible,
and if none at all is, then there is none in another zone of the view either. -/
def LinkedAll (img : ZoneImage) (target apex : Text) (view : ClientView) (policy : AdditionalAuth)
    (sib : Text → Sibling) : Prop :=
  policy ≠ .no → policyAllows policy target apex = true → ∀ i, linkedOwner img target = some i →
    (∀ v ∈ (addressRrs img (some i)).drop 32, rrValid view.withoutEcs v.1 = none) ∧
      (policy = .yes → (∀ v ∈ addressRrs img (some i), rrValid view.withoutEcs v.1 = none) →
        SiblingSilent target (sib target))

lemma linkedEmits_split (img : ZoneImage) (view : ClientView) (i : Nat) :
    linkedEmits img view (addressRrs img (some i)) =
      linkedEmits img view (linkedAddresses img i) ++
        linkedEmits img view ((addressRrs img (some i)).drop 32) := by
  rw [← linkedEmits_append]
  exact congrArg _ (take_append_drop 32 _).symm

/-- The linked addresses against those looked up. -/
lemma linked_perm_iff (himg : img.Owned) (view : ClientView) (policy : AdditionalAuth)
    {sib : Sibling} (hsib : sib.Owned) {i : Nat} (hfind : img.findName target = some i) :
    (linkedEmits img view.withoutEcs (linkedAddresses img i)).Perm
      (lookedUp img target view policy sib) ↔
      (∀ v ∈ (addressRrs img (some i)).drop 32, rrValid view.withoutEcs v.1 = none) ∧
        (policy = .yes → (∀ v ∈ addressRrs img (some i), rrValid view.withoutEcs v.1 = none) →
          SiblingSilent target sib) := by
  have hall := linkedEmits_addressRrs img (some i) view.withoutEcs
  have hholds : img.Holds ((addressRrs img (some i)).drop 32) := fun v hv =>
    himg (some i) v (mem_of_mem_filter (mem_of_mem_drop hv))
  rw [← linkedEmits_eq_nil hholds, ← visibleAddresses_eq_nil himg,
    ← siblingEmits_eq_nil target false hsib]
  rw [linkedEmits_split] at hall
  by_cases hown : visibleAddresses img (some i) view.withoutEcs ≠ [] ∨ policy ≠ .yes
  · -- the zone's own addresses are looked up, so only the cap matters
    rw [lookedUp_own sib (hfind ▸ hown), hfind]
    constructor
    · intro hperm
      refine ⟨?_, fun hyes hnil => absurd hnil (by tauto)⟩
      have hlen := (hperm.trans hall.symm).length_eq
      rw [length_append] at hlen
      exact eq_nil_of_length_eq_zero (by omega)
    · rintro ⟨hdrop, -⟩
      rwa [hdrop, append_nil] at hall
  obtain ⟨hnil, rfl⟩ : visibleAddresses img (some i) view.withoutEcs = [] ∧ policy = .yes := by
    tauto
  rw [lookedUp_sibling sib (hfind ▸ hnil)]
  rw [hnil] at hall
  obtain ⟨hlinked, hdrop⟩ := append_eq_nil_iff.mp hall.eq_nil
  rw [hlinked, nil_perm]
  exact ⟨fun hsilent => ⟨hdrop, fun _ _ => hsilent⟩, fun h => h.2 rfl hnil⟩

/-- With no visible address behind the 32nd, the linked ones are whole sets. -/
lemma linked_wholeSets (himg : img.Owned) (sib : Sibling) {i : Nat}
    (hfind : img.findName target = some i)
    (hdrop : ∀ v ∈ (addressRrs img (some i)).drop 32, rrValid view.withoutEcs v.1 = none) :
    WholeSets img target view sib (linkedEmits img view.withoutEcs (linkedAddresses img i)) := by
  have hholds : img.Holds ((addressRrs img (some i)).drop 32) := fun v hv =>
    himg (some i) v (mem_of_mem_filter (mem_of_mem_drop hv))
  have hall := linkedEmits_split img view.withoutEcs i
  rw [(linkedEmits_eq_nil hholds).mpr hdrop, append_nil] at hall
  intro type ht
  refine .inr (.inl ?_)
  rw [← hall, linkedEmits_filter_type, hfind, visibleRrset, addressRrs, List.filter_filter]
  congr 2
  funext v
  rcases mem_pair.mp ht with rfl | rfl <;> simp +contextual

/-- With DO and without DO the same addresses are added, set by set, exactly when the linked
addresses are all that the client sees. -/
theorem appendGlueRecords_same_iff (S : Sink σ) {img : ZoneImage} (himg : img.Owned)
    (target apex : Text) (view : ClientView) (policy : AdditionalAuth) {sib : Text → Sibling}
    (hsib : ∀ t, (sib t).Owned) {r : Resp σ}
    (hfit : ∀ dnssecOk, (appendGlueRecords S img target apex view policy sib dnssecOk r).1 = true) :
    GlueSame S img target apex view policy sib r ↔ LinkedAll img target apex view policy sib := by
  rw [GlueSame, addedAddresses_eq himg hsib (hfit false), addedAddresses_eq himg hsib (hfit true)]
  have hwhole : ∀ dnssecOk, addedAddresses r
    (appendGlueRecords S img target apex view policy sib dnssecOk r).2 =
      glueEmits img target apex view policy sib dnssecOk false :=
        fun d => addedAddresses_eq himg hsib (hfit d)
  simp only [hwhole]
  by_cases hopen : policy ≠ .no ∧ policyAllows policy target apex = true
  swap
  · -- the policy lets no address in
    have hnone : ∀ dnssecOk, glueEmits img target apex view policy sib dnssecOk false = [] := by
      intro d
      rw [glueEmits, if_pos (by tauto)]
    simp only [hnone]
    exact ⟨fun _ hno hallow => absurd ⟨hno, hallow⟩ hopen,
      fun _ => ⟨.refl _, fun _ _ _ => .inl rfl⟩⟩
  obtain ⟨hno, hallow⟩ := hopen
  have hdo : glueEmits img target apex view policy sib true false =
      lookedUp img target view policy (sib target) :=
    glueEmits_plain hno hallow true
  have hplain : glueEmits img target apex view policy sib false false =
      match linkedOwner img target with
      | some i => linkedEmits img view.withoutEcs (linkedAddresses img i)
      | none => lookedUp img target view policy (sib target) :=
    glueEmits_plain hno hallow false
  rw [Bool.forall_bool, hdo, hplain]
  cases hown : linkedOwner img target with
  | none =>
    have hlooked := lookedUp_wholeSets img target view policy (sib target)
    exact ⟨fun _ _ _ i hi => absurd (hown.symm.trans hi) (by simp),
      fun _ => ⟨.refl _, hlooked, hlooked⟩⟩
  | some i =>
    have hfind : img.findName target = some i := (filter_eq_some_iff.mp hown).1
    have hperm := linked_perm_iff himg view policy (hsib target) hfind
    constructor
    · rintro ⟨hsame, -⟩ _ _ j hj
      obtain rfl : i = j := some.inj (hown.symm.trans hj)
      exact hperm.mp hsame
    intro hcond
    have hi := hcond hno hallow i hown
    exact ⟨hperm.mpr hi, linked_wholeSets himg _ hfind hi.1,
      lookedUp_wholeSets img target view policy (sib target)⟩

/-- The name server of a delegation with two addresses: both are added, DO or not. -/
theorem appendGlueRecords_fewSame :
    GlueSame roomySink fewAddresses.img (ascii "n.s.e.") fewAddresses.domain {} .yes
      (fun _ => .none) { sink := () } := by
  have hsib : ∀ t : Text, ((fun _ => .none : Text → Sibling) t).Owned := fun _ => trivial
  refine (appendGlueRecords_same_iff roomySink (zoneImageFreeze_owned fewAddresses.frozen) _ _ _
    _ hsib ?_).mpr ?_
  · decide +kernel
  intro _ _ i hi
  obtain rfl : i = 2 := by
    have : linkedOwner fewAddresses.img (ascii "n.s.e.") = some 2 := by decide +kernel
    exact some.inj (hi.symm.trans this)
  exact ⟨by decide +kernel, fun _ _ => trivial⟩

/-- Of 36 addresses the last four are added with DO only. -/
theorem appendGlueRecords_linkedCut :
    ¬ GlueSame roomySink manyAddresses.img (ascii "n.s.e.") manyAddresses.domain {} .yes
      (fun _ => .none) { sink := () } := by
  rintro ⟨hsame, -⟩
  have hlen := hsame.length_eq
  revert hlen
  decide +kernel

end KariDns
