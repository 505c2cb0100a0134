import KariDns.Query.Writes

/-! The records that proofs of denial are made of.

Every record the engine attaches as a proof is an NSEC or NSEC3 record of the zone; behind it
stand its signatures.
-/

namespace KariDns

open Octets DomainName List Option

variable {e : Emit} {p : ImageN3Params} {l : List (ImageRr × Nat)} {k : Nat} {spec : RrsetSpec}
    {img : ZoneImage}

/-- The type of a record in the packet. -/
def Emit.type : Emit → UInt16
  | .rr _ x _ _ => x.type
  | .synth rec => rec.typeCode

lemma type_of_emit {rr : ImageRr} {owner : Option Text} {ttl : Nat}
    (h : e ∈ img.emit rr owner ttl) :
    e.type = rr.type := by
  rw [ZoneImage.emit, mem_toList] at h
  obtain ⟨nm, -, rfl⟩ := map_eq_some_iff.mp h
  rfl

lemma type_of_sigs {owner : Option Text} {covered ttl : Nat}
    (h : e ∈ sigsOf img owner covered ttl l) :
    e.type = 46 := by
  obtain ⟨v, -, hv⟩ := mem_flatMap.mp h
  split at hv
  · rename_i hsig
    rw [type_of_emit hv, hsig.1]
  · cases hv

lemma RrsetSpec.type_of_serves {rr : ImageRr} (h : (spec.serves rr).isSome = true) :
    rr.type = spec.type := by
  rw [RrsetSpec.serves] at h
  split at h
  · cases h
  rename_i hcond
  by_contra hne
  exact hcond (.inl hne)

lemma RrsetSpec.type_of_emits (h : e ∈ spec.emits img l) : e.type = spec.type := by
  obtain ⟨v, hv, he⟩ := mem_flatMap.mp h
  rw [type_of_emit he, spec.type_of_serves (spec.records_sub img l v hv).2]

lemma RrsetSpec.type_of_signed (h : e ∈ spec.signed img l) : e.type = spec.type ∨ e.type = 46 := by
  rcases mem_append.mp h with h | h
  · exact .inl (spec.type_of_emits h)
  split at h
  · cases h
  · exact .inr (type_of_sigs h)

/-! ### NSEC3 chains -/

lemma mem_groupChains : ∀ {l : List Nsec3Entry} {ch : Nsec3Chain}, ch ∈ groupChains l →
    ∀ x ∈ ch.entries, x ∈ l
  | [], ch, h, _, _ => by cases h
  | y :: l, ch, h, x, hx => by
    have ih := @mem_groupChains l
    rw [groupChains] at h
    split at h
    · rw [mem_singleton.mp h] at hx
      rw [mem_singleton.mp hx]
      exact mem_cons_self
    rename_i c cs hcs
    rw [hcs] at ih
    split at h
    · rcases mem_cons.mp h with rfl | h
      · rcases mem_cons.mp hx with rfl | hx
        · exact mem_cons_self
        · exact mem_cons_of_mem _ (ih mem_cons_self x hx)
      · exact mem_cons_of_mem _ (ih (mem_cons_of_mem _ h) x hx)
    rcases mem_cons.mp h with rfl | h
    · rw [mem_singleton.mp hx]
      exact mem_cons_self
    · exact mem_cons_of_mem _ (ih h x hx)

/-- The entries of a chain are NSEC3 records. -/
lemma LoadedZone.n3Entries_type (z : LoadedZone) (h : k ∈ z.img.n3Entries p) :
    ∃ rr, z.img.rrs[k]? = some rr ∧ rr.type = 50 := by
  rw [ZoneImage.n3Entries] at h
  cases hch : p.chain.bind fun c => z.img.n3chains[c]? with
  | none => simp [hch] at h
  | some ch =>
    rw [hch] at h
    obtain ⟨c, -, hc⟩ := bind_eq_some_iff.mp hch
    obtain ⟨src, hsrc, hfreeze⟩ := mapM_mem z.isFrozen.n3chains (mem_of_getElem? hc)
    rw [freezeN3Chain] at hfreeze
    obtain ⟨entries, hentries, hfreeze⟩ := bind_eq_some_iff.mp hfreeze
    have hkmem : k ∈ entries := by
      obtain ⟨first, -, hfreeze⟩ := bind_eq_some_iff.mp hfreeze
      obtain ⟨rr, -, hfreeze⟩ := bind_eq_some_iff.mp hfreeze
      obtain ⟨salt, -, hfreeze⟩ := bind_eq_some_iff.mp hfreeze
      split at hfreeze
      · cases hfreeze
      · cases hfreeze
        exact h
    obtain ⟨x, hx, hplace⟩ := mapM_mem hentries hkmem
    have hx' := mem_groupChains hsrc x hx
    obtain ⟨⟨i, rec⟩, hlive, hentry⟩ := mem_filterMap.mp ((mem_insertionSort _).mp hx')
    obtain ⟨htype, rfl⟩ : rec.typeCode = 50 ∧ x.place = i := by
      simp only [nsec3IndexEntry] at hentry
      split at hentry
      · cases hentry
      rename_i hcond
      refine ⟨by_contra fun hne => hcond (.inl hne), ?_⟩
      split at hentry
      · split at hentry
        · cases hentry
        · cases hentry
          rfl
      · cases hentry
    -- the record behind the entry
    obtain ⟨⟨s, j⟩, hs, hslot⟩ := mem_filterMap.mp hlive
    have hget : z.arena.records[x.place]? = some s ∧ s.record = rec := by
      dsimp only at hslot
      split at hslot
      · cases hslot
        exact ⟨mem_zipIdx_iff_getElem?.mp hs, rfl⟩
      · cases hslot
    have hrec : (freezePlan z.arena.records).rrRec[k]? = some x.place := by
      obtain ⟨hlt, heq, -⟩ := idxOf?_eq_some_iff.mp hplace
      rw [getElem?_eq_getElem hlt]
      simpa using heq
    obtain ⟨s', rr, nm, hs', hrr, -, -, hfreeze⟩ := z.isFrozen.place hrec
    obtain rfl : s = s' := some.inj (hget.1.symm.trans hs')
    obtain ⟨rdata, -, hrr'⟩ := map_eq_some_iff.mp hfreeze
    exact ⟨rr, hrr, by rw [← hrr', ← htype, ← hget.2]⟩

/-! ### Records of proofs -/

/-- The record at a place of an image is an NSEC or NSEC3 record. -/
def ZoneImage.Denies (img : ZoneImage) (k : Nat) : Prop :=
  ∃ rr, img.rrs[k]? = some rr ∧ (rr.type = 47 ∨ rr.type = 50)

lemma findCoveringNsec_denies {name : Text} (h : findCoveringNsec img name = some k) :
    img.Denies k := by
  rw [findCoveringNsec] at h
  split at h
  · cases h
  have hcover := (filter_eq_some_iff.mp h).2
  rw [nsecCoversName] at hcover
  split at hcover
  · cases hcover
  rename_i rr hrr
  split at hcover
  · cases hcover
  · rename_i htype
    exact ⟨rr, hrr, .inl (by simpa using htype)⟩

lemma findCoveringNsec3_denies {hash : Text} (h : findCoveringNsec3 img p hash = some k) :
    img.Denies k := by
  unfold findCoveringNsec3 at h
  dsimp only at h
  split at h
  · cases h
  split at h
  · cases h
  rename_i k' _
  split at h
  · cases h
  cases hnext : (img.rrs[k']?).bind nsec3Next with
  | none => simp [hnext] at h
  | some next =>
    simp only [hnext] at h
    split at h
    · obtain rfl : k' = k := some.inj h
      obtain ⟨rr, hrr, hn⟩ := bind_eq_some_iff.mp hnext
      refine ⟨rr, hrr, .inr ?_⟩
      rw [nsec3Next] at hn
      split at hn
      · cases hn
      rename_i hcond
      by_contra hne
      exact hcond (.inl hne)
    · cases h

lemma LoadedZone.matching_denies (z : LoadedZone) {hash apex : Text}
    (h : findMatchingNsec3 z.img p hash apex = some k) : z.img.Denies k := by
  have hmem := mem_of_find?_eq_some h
  obtain ⟨rr, hrr, htype⟩ := z.n3Entries_type (mem_of_mem_drop (( takeWhile_prefix _).subset hmem))
  exact ⟨rr, hrr, .inr htype⟩

lemma LoadedZone.nsecAtOwner_denies (z : LoadedZone) {v : ClientView} {id : Nat} :
    ∀ {l : List (ImageRr × Nat)}, (∀ u ∈ l, u ∈ z.img.ownRrs id) → ∀ {k ttl : Nat},
      nsecAtOwner v l = some (k, ttl) → z.img.Denies k
  | [], _, _, _, h => by cases h
  | (rr, k') :: l, hl, k, ttl, h => by
    have ih := fun h' =>
      @LoadedZone.nsecAtOwner_denies z v id l (fun u hu => hl u (mem_cons_of_mem _ hu)) k ttl h'
    rw [nsecAtOwner] at h
    split at h
    · rename_i htype
      split at h
      · cases h
      split at h
      · exact ih h
      · cases h
        exact ⟨rr, (z.isFrozen.ownRr (hl _ mem_cons_self)).1, .inl htype⟩
    · exact ih h

/-- What a denial writes are NSEC or NSEC3 records and signatures. -/
lemma type_of_denials {e : Emit} :
    ∀ {ds : List Denial}, (∀ d ∈ ds, ∀ k, d.rr = some k → d.img.Denies k) →
    ∀ {attached : List (Nat × Nat)}, e ∈ denialEmits ds attached → e.type = 47 ∨
      e.type = 50 ∨ e.type = 46
  | [], _, attached, h => by cases h
  | d :: ds, hds, attached, h => by
    have ih := @type_of_denials e ds fun d' hd' => hds d' (mem_cons_of_mem _ hd')
    rw [denialEmits] at h
    split at h
    · exact ih h
    rename_i k rr hplace
    split at h
    · exact ih h
    rcases mem_append.mp h with h | h
    · obtain ⟨hk, hrr⟩ := Denial.place_rr hplace
      obtain ⟨rr', hrr', htype⟩ := hds d mem_cons_self k hk
      obtain rfl : rr = rr' := some.inj (hrr.symm.trans hrr')
      rcases mem_append.mp h with h | h
      · rw [type_of_emit h]
        exact htype.imp_right .inl
      · exact .inr (.inr (type_of_sigs h))
    · exact ih h

end KariDns
