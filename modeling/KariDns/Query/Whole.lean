import KariDns.Query.Room

/-! RRsets are written whole.

However small the packet, a record in a section has with it every record of its owner, type and
class that the client sees; signatures apart. Aliases, SOA, NSEC and NSEC3 records are written
one by one and linked addresses up to the thirty-second, so this is so where the owners that a
question leads to have no more of them.
-/

namespace KariDns

open Octets DomainName List Option

variable {c : Chain} {rec : DnsRecord} {rr : ImageRr} {id k ttl : Nat} {e : ZoneEntry}
    {img : ZoneImage}

variable {σ : Type} {r r' : Resp σ}

/-- The zones of the client's view: the one the question is for and those searches find. -/
def Query.Serves (q : Query) (e₀ e : ZoneEntry) : Prop := e = e₀ ∨ ∃ t, q.suffixZone t = .entry e

/-- The view that a set in a section is chosen by: ECS counts for answers, and for what the
Authority section holds besides NS and DS. -/
def sectionView (sec : Section) (e : ZoneEntry) (type : UInt16) : ClientView :=
  match sec with
  | .answer => e.view
  | .authority => if type = 2 ∨ type = 43 then e.view.withoutEcs else e.view
  | .additional => e.view.withoutEcs

/-- The set that a record belongs to is in `l`: what the client sees of its owner, type and class;
for addresses made up for an ALIAS, all that were found. The CNAME of a DNAME and the HINFO of a
minimal ANY stand alone. -/
def Emit.Complete (q : Query) (e : ZoneEntry) (img : ZoneImage) (sec : Section)
    (l : List Emit) : Emit → Prop
  | .rr nm x owner _ =>
    img.names[x.nameId]? = some nm ∧ (∃ k : Nat, img.rrs[k]? = some x) ∧
      ∀ u ∈ img.ownRrs x.nameId, u.1.type = x.type → u.1.classVal = x.classVal →
        (rrValid (sectionView sec e x.type) u.1).isSome = true → ∃ ttl, .rr nm u.1 owner ttl ∈ l
  | .synth rec => rec.typeCode = 5 ∨ rec.typeCode = 13 ∨ ∃ key, e.aliasKey = some key ∧
      ∀ x ∈ (aliasResults q key rec.name rec.typeCode (img.rrsAt (img.findName rec.name))).flatten,
        .synth x ∈ l

/-- No RRset but one of signatures is in a section partly. -/
def Whole (q : Query) (e₀ : ZoneEntry) (sec : Section) (l : List Emit) : Prop :=
  ∀ x ∈ l, x.type ≠ 46 → ∃ e img, q.Serves e₀ e ∧ e.image = some img ∧ x.Complete q e img sec l

/-- The client sees no other record of the set of a record. -/
def Sole (sec : Section) (e : ZoneEntry) (img : ZoneImage) (x : ImageRr) : Prop :=
  ∀ u ∈ img.ownRrs x.nameId, u.1.type = x.type → u.1.classVal = x.classVal →
    (rrValid (sectionView sec e x.type) u.1).isSome = true → u.1 = x

/-- A CNAME, SOA, DNAME, NSEC or NSEC3 record that is written by itself is all that the client sees
of its set. -/
def LoneChunk (q : Query) (e₀ : ZoneEntry) (sec : Section) (l : List Emit) : Prop :=
  ∀ nm x owner ttl, l = [.rr nm x owner ttl] → x.type ∈ [(5 : UInt16), 6, 39, 47, 50] →
    ∀ (e : ZoneEntry) (img : ZoneImage) (k : Nat), q.Serves e₀ e → e.image = some img →
      img.names[x.nameId]? = some nm → img.rrs[k]? = some x → Sole sec e img x

/-- Where linked addresses of a target are taken, those among the first 32 of the owner are all that
the client sees of their sets. -/
def LoneTarget (q : Query) (e : ZoneEntry) (img : ZoneImage) (t : Text) : Prop :=
  q.dnssecOk = false → policyAllows e.policy t e.domain = true → ∀ id, linkedOwner img t = some id →
    ∀ v ∈ linkedAddresses img id, (rrValid e.view.withoutEcs v.1).isSome = true →
      ∀ u ∈ img.ownRrs id, u.1.type = v.1.type → u.1.classVal = v.1.classVal →
        (rrValid e.view.withoutEcs u.1).isSome = true → u ∈ linkedAddresses img id

/-! ### Chunks -/

section Chunks

variable {q : Query} {e₀ e : ZoneEntry} {img : ZoneImage} {sec : Section}

lemma Emit.Complete.mono {l l' : List Emit} (h : l ⊆ l') :
    ∀ {x : Emit}, x.Complete q e img sec l → x.Complete q e img sec l'
  | .rr nm x owner ttl, ⟨hnm, hx, hall⟩ => by
    refine ⟨hnm, hx, fun u hu ht hc hv => ?_⟩
    obtain ⟨t, hmem⟩ := hall u hu ht hc hv
    exact ⟨t, h hmem⟩
  | .synth rec, hrec => by
    rcases hrec with hc | hc | ⟨key, hkey, hall⟩
    · exact .inl hc
    · exact .inr (.inl hc)
    · exact .inr (.inr ⟨key, hkey, fun x hx => h (hall x hx)⟩)

lemma Whole.flatten {cs : List (List Emit)} (h : ∀ l ∈ cs, Whole q e₀ sec l) :
    Whole q e₀ sec cs.flatten := by
  intro x hx htype
  obtain ⟨l, hl, hxl⟩ := mem_flatten.mp hx
  obtain ⟨e, img, hserves, himg, hc⟩ := h l hl x hxl htype
  exact ⟨e, img, hserves, himg, hc.mono fun y hy => mem_flatten.mpr ⟨l, hl, hy⟩⟩

lemma Whole.append {l l' : List Emit} (h : Whole q e₀ sec l) (h' : Whole q e₀ sec l') :
    Whole q e₀ sec (l ++ l') := by
  have := @Whole.flatten q e₀ sec [l, l'] (by
    intro x hx
    rcases mem_cons.mp hx with rfl | hx
    · exact h
    · rw [mem_singleton.mp hx]
      exact h')
  simpa using this

lemma sigChunks_whole {owner : Option Text} {covered : Nat} {own : List (ImageRr × Nat)} :
    ∀ l ∈ sigChunks img owner covered ttl own, Whole q e₀ sec l := by
  intro l hl x hx htype
  obtain ⟨y, hy, rfl⟩ := List.mem_map.mp hl
  rw [mem_singleton.mp hx] at htype
  exact absurd (type_of_sigs hy) htype

lemma ZoneImage.Loaded.ownRr (h : img.Loaded) (hrr : (rr, k) ∈ img.ownRrs id) :
    img.rrs[k]? = some rr ∧ rr.nameId = id := by
  obtain ⟨z, rfl⟩ := h
  obtain ⟨hk, hid, -⟩ := z.isFrozen.ownRr hrr
  exact ⟨hk, hid⟩

lemma ZoneImage.Loaded.rrsAt (h : img.Loaded) {id : Option Nat} (hrr : (rr, k) ∈ img.rrsAt id) :
    img.rrs[k]? = some rr ∧ id = some rr.nameId := by
  cases id with
  | none => cases hrr
  | some id =>
    obtain ⟨hk, hid⟩ := h.ownRr hrr
    exact ⟨hk, by rw [hid]⟩

/-- A zone of the client's view as a loader left it. -/
structure Query.InPlay (q : Query) (e₀ e : ZoneEntry) (img : ZoneImage) : Prop where
  loaded : img.Loaded
  serves : q.Serves e₀ e
  image : e.image = some img

/-- A record written by itself, of a type that its owner has once. -/
lemma emit_whole (h : q.InPlay e₀ e img) (hk : img.rrs[k]? = some rr) (owner : Option Text)
    (ttl : Nat) (htype : rr.type ∈ [(5 : UInt16), 6, 39, 47, 50])
    (hone : LoneChunk q e₀ sec (img.emit rr owner ttl)) :
    Whole q e₀ sec (img.emit rr owner ttl) := by
  intro x hx _
  obtain ⟨nm, hnm⟩ := h.loaded.rrName hk
  have hemit : img.emit rr owner ttl = [.rr nm rr owner ttl] := by simp [ZoneImage.emit, hnm]
  rw [hemit] at hx hone ⊢
  obtain rfl := mem_singleton.mp hx
  refine ⟨e, img, h.serves, h.image, hnm, ⟨k, hk⟩, ?_⟩
  intro u hu ht hc hv
  rw [hone nm rr owner ttl rfl htype e img k h.serves h.image hnm hk u hu ht hc hv]
  exact ⟨ttl, mem_singleton.mpr rfl⟩

lemma notServed_congr {x y : ImageRr} (ht : x.type = y.type) (hc : x.classVal = y.classVal)
    (h46 : y.type ≠ 46) :
    rrNotServed x = rrNotServed y := by
  simp [rrNotServed, isNsec3ChainRr, ht, hc, h46]

lemma RrsetSpec.mem_records {spec : RrsetSpec} (hsoa : ¬ (spec.type = 6 ∧ img.soaAttr = true)) :
    ∀ {l : List (ImageRr × Nat)} {v : ImageRr × Nat}, v ∈ l → (spec.serves v.1).isSome = true →
      v ∈ spec.records img l
  | u :: l, v, hv, hs => by
    have ih := @RrsetSpec.mem_records spec hsoa l v
    rw [RrsetSpec.records]
    rcases mem_cons.mp hv with rfl | hv
    · rw [if_neg (by simp [isNone_iff_eq_none, isSome_iff_ne_none.mp hs]), if_neg hsoa]
      exact mem_cons_self
    rw [if_neg hsoa]
    split
    · exact ih hv hs
    · exact mem_cons_of_mem _ (ih hv hs)

/-- A zone with restricted SOA records: the first one the client sees is the only one. -/
lemma RrsetSpec.records_soa {spec : RrsetSpec} (hsoa : spec.type = 6 ∧ img.soaAttr = true) :
    ∀ {l : List (ImageRr × Nat)} {v : ImageRr × Nat}, v ∈ spec.records img l →
      spec.records img l = [v]
  | u :: l, v, hv => by
    rw [RrsetSpec.records] at hv ⊢
    rw [if_pos hsoa] at hv ⊢
    split at hv
    · rename_i hnone
      rw [if_pos hnone]
      exact RrsetSpec.records_soa hsoa hv
    · rename_i hsome
      rw [if_neg hsome, mem_singleton.mp hv]

/-- An RRset written by `emit_rrset`. -/
lemma emits_whole (h : q.InPlay e₀ e img) {spec : RrsetSpec}
    (hview : spec.view = sectionView spec.sec e spec.type) (id : Option Nat)
    (hone : spec.type = 6 → LoneChunk q e₀ spec.sec (spec.emits img (img.rrsAt id))) :
    Whole q e₀ spec.sec (spec.emits img (img.rrsAt id)) := by
  intro x hx h46
  obtain ⟨⟨rr, k⟩, hrec, hmemx⟩ := mem_flatMap.mp hx
  obtain ⟨hmem, hs⟩ := spec.records_sub img _ _ hrec
  obtain ⟨hk, rfl⟩ := h.loaded.rrsAt hmem
  obtain ⟨nm, hnm⟩ := h.loaded.rrName hk
  simp only [ZoneImage.emit, hnm, map_some, toList_some, mem_singleton] at hmemx
  subst hmemx
  have htype : rr.type = spec.type := spec.type_of_serves hs
  have hcond :
      ¬ (rr.type ≠ spec.type ∨ rrNotServed rr = true ∨
        ¬ (spec.qclass = 255 ∨ spec.qclass = rr.classVal)) := by
    intro hcond
    rw [RrsetSpec.serves, if_pos hcond] at hs
    cases hs
  refine ⟨e, img, h.serves, h.image, hnm, ⟨k, hk⟩, ?_⟩
  rintro ⟨u, k'⟩ hu ht hc hv
  dsimp only at ht hc hv ⊢
  obtain ⟨hk', hid⟩ := h.loaded.ownRr hu
  by_cases hsoa : spec.type = 6 ∧ img.soaAttr = true
  · have hsingle : spec.emits img (img.rrsAt (some rr.nameId)) =
        [.rr nm rr spec.owner ((spec.serves rr).getD 0)] := by
      rw [RrsetSpec.emits, RrsetSpec.records_soa hsoa hrec]
      simp [ZoneImage.emit, hnm]
    have h6 : rr.type ∈ [(5 : UInt16), 6, 39, 47, 50] := by rw [htype, hsoa.1]; decide
    have heq : u = rr :=
      hone hsoa.1 _ _ _ _ hsingle h6 e img k h.serves h.image hnm hk (u, k') hu ht hc hv
    rw [heq]
    exact ⟨_, hx⟩
  rw [htype, ← hview] at hv
  have hus : (spec.serves u).isSome = true := by
    rw [RrsetSpec.serves, notServed_congr ht hc h46, ht, hc, if_neg hcond]
    exact hv
  exact ⟨_,
    mem_flatMap.mpr
      ⟨(u, k'), RrsetSpec.mem_records hsoa hu hus, by simp [ZoneImage.emit, hid, hnm]; rfl⟩⟩

/-- An RRset and its signatures. -/
lemma chunks_whole (h : q.InPlay e₀ e img) (spec : RrsetSpec)
    (hview : spec.view = sectionView spec.sec e spec.type) (id : Option Nat) :
    ∀ l ∈ spec.chunks img (img.rrsAt id), (spec.type = 6 → LoneChunk q e₀ spec.sec l) →
      Whole q e₀ spec.sec l := by
  intro l hl hone
  rw [RrsetSpec.chunks] at hl
  split at hl
  · cases hl
  rcases mem_cons.mp hl with rfl | hl
  · exact emits_whole h hview id hone
  split at hl
  · cases hl
  · exact sigChunks_whole l hl

/-! ### Answers -/

lemma scanPlan_cname {spec : ScanSpec} {rr : ImageRr} {ttl : Nat} :
    ∀ {l : List (ImageRr × Nat)} {st : ScanState},
    (scanPlan q e spec l st).cname = some (rr, ttl) → (∃ k, (rr, k) ∈ l) ∧ rr.type = 5 ∧
      rrValid e.view rr = some ttl
  | [], st, h => by cases h
  | (x, k) :: l, st, h => by
    have ih := @scanPlan_cname spec rr ttl l
    have htail : ∀ {st' : ScanState}, (scanPlan q e spec l st').cname = some (rr, ttl) →
        (∃ k', (rr, k') ∈ (x, k) :: l) ∧ rr.type = 5 ∧ rrValid e.view rr = some ttl := by
      intro st' h'
      obtain ⟨⟨k', hk'⟩, hrest⟩ := ih h'
      exact ⟨⟨k', mem_cons_of_mem _ hk'⟩, hrest⟩
    rcases scanPlan_step q e spec x k l st with ⟨-, hp⟩ | ⟨-, htype, -, hv, hp⟩ | ⟨_, -,
      -, -, -, -, hp⟩ |
      ⟨_, -, -, -, -, hp⟩
    · rw [hp] at h
      exact htail h
    · rw [hp] at h
      cases h
      exact ⟨⟨k, mem_cons_self⟩, htype, hv⟩
    · rw [hp] at h
      exact htail h
    · rw [hp] at h
      exact htail h

lemma cname_whole (h : q.InPlay e₀ e img) {id : Option Nat} {owner : Option Text}
    (hmem : (rr, k) ∈ img.rrsAt id) (htype : rr.type = 5) :
    ∀ l ∈ cnameChunks q img id owner rr ttl, LoneChunk q e₀ .answer l → Whole q e₀ .answer l := by
  intro l hl hone
  rcases mem_cons.mp hl with rfl | hl
  · exact emit_whole h (h.loaded.rrsAt hmem).1 owner ttl (by simp [htype]) hone
  split at hl
  · exact sigChunks_whole l hl
  · cases hl

lemma scanChunks_whole (h : q.InPlay e₀ e img) (spec : ScanSpec) (id : Option Nat)
    (owner : Option Text) (st : ScanState) :
      ∀ l ∈ (scanPlan q e spec (img.rrsAt id) st).chunks q e img id owner,
      LoneChunk q e₀ .answer l → Whole q e₀ .answer l := by
  intro l hl hone
  rcases mem_append.mp hl with hl | hl
  · obtain ⟨t, -, hl⟩ := mem_flatMap.mp hl
    exact chunks_whole h (answerSpec q e owner t) rfl id l hl fun _ => hone
  cases hcn : (scanPlan q e spec (img.rrsAt id) st).cname with
  | none => simp [hcn] at hl
  | some v =>
    obtain ⟨rr, ttl⟩ := v
    obtain ⟨⟨k, hk⟩, htype, -⟩ := scanPlan_cname hcn
    simp only [hcn, map_some, getD_some] at hl
    exact cname_whole h hk htype l hl hone

lemma wildcardChunks_whole (h : q.InPlay e₀ e img) (qname : Text) :
    ∀ (parents : List Text), ∀ l ∈ wildcardChunks q e img qname parents,
      LoneChunk q e₀ .answer l → Whole q e₀ .answer l
  | [], l, hl, _ => by cases hl
  | parent :: rest, l, hl, hone => by
    rw [wildcardChunks, wildcardPlan] at hl
    split at hl
    · cases hl
    dsimp only at hl
    split at hl
    · exact scanChunks_whole h _ _ _ _ l hl hone
    split at hl
    · cases hl
    · exact wildcardChunks_whole h qname rest l hl hone

lemma synth_whole (hserves : q.Serves e₀ e) (himg : e.image = some img)
    (htype : rec.typeCode = 5 ∨ rec.typeCode = 13) :
    Whole q e₀ sec [.synth rec] := by
  intro x hx _
  rw [mem_singleton.mp hx]
  exact ⟨e, img, hserves, himg, htype.imp_right .inl⟩

lemma dnameChunks_whole (h : q.InPlay e₀ e img) {parent : Text} (hmem : (rr, k) ∈ img.ownRrs id)
    (htype : rr.type = 39) (target : Text) :
    ∀ l ∈ dnameChunks q img c parent id rr ttl target, LoneChunk q e₀ .answer l →
      Whole q e₀ .answer l := by
  intro l hl hone
  rw [dnameChunks] at hl
  rcases mem_append.mp hl with hl | hl
  · rcases mem_cons.mp hl with rfl | hl
    · exact emit_whole h (h.loaded.ownRr hmem).1 none ttl (by simp [htype]) hone
    split at hl
    · exact sigChunks_whole l hl
    · cases hl
  dsimp only at hl
  split at hl
  · cases hl
  · rw [mem_singleton.mp hl]
    exact synth_whole h.serves h.image (.inl rfl)

/-- The addresses for the ALIAS records of an owner. -/
lemma mem_aliasResults {key : Nat} {owner : Text} {qtype : UInt16} {rrs : List (ImageRr × Nat)} :
    rec ∈ (aliasResults q key owner qtype rrs).flatten ↔
      ∃ v ∈ rrs, v.1.type = typeAlias ∧ v.1.classVal = 1 ∧
        ∃ n, wireNameAt v.1.rdata = some (n, []) ∧
        ∃ t ∈ [(1 : UInt16), 28], (qtype = 255 ∨ qtype = t) ∧
          ∃ ttl addrs, q.aliasLookup key (wire (fold n)) t = some (ttl, addrs) ∧
          rec ∈ aliasRecords owner t (min ttl v.1.ttl) addrs := by
  constructor
  · intro hrec
    obtain ⟨recs, hrecs, hrec⟩ := mem_flatten.mp hrec
    obtain ⟨v, hv, hrecs⟩ := mem_flatMap.mp hrecs
    split at hrecs
    · cases hrecs
    rename_i hal
    obtain ⟨htype, hclass⟩ := not_or.mp hal
    split at hrecs
    · rename_i n hn
      obtain ⟨t, ht, hone⟩ := mem_filterMap.mp hrecs
      split at hone
      · cases hone
      rename_i hq
      obtain ⟨⟨ttl, addrs⟩, hlook, heq⟩ := map_eq_some_iff.mp hone
      rw [← heq] at hrec
      exact ⟨v, hv, by simpa using htype, by simpa using hclass, n, hn, t, ht, by tauto, ttl,
        addrs, hlook, hrec⟩
    · cases hrecs
  rintro ⟨v, hv, htype, hclass, n, hn, t, ht, hq, ttl, addrs, hlook, hrec⟩
  refine mem_flatten.mpr ⟨_, mem_flatMap.mpr ⟨v, hv, ?_⟩, hrec⟩
  rw [if_neg (by simp [htype, hclass]), hn]
  refine mem_filterMap.mpr ⟨t, ht, ?_⟩
  rw [if_neg (by tauto), hlook]
  rfl

/-- The addresses of one type are among those of the question. -/
lemma aliasResults_sub {key : Nat} {owner : Text} {qtype : UInt16} {rrs : List (ImageRr × Nat)}
    (hrec : rec ∈ (aliasResults q key owner qtype rrs).flatten) :
    rec.name = owner ∧ ∀ x ∈ (aliasResults q key owner rec.typeCode rrs).flatten,
      x ∈ (aliasResults q key owner qtype rrs).flatten := by
  obtain ⟨v, hv, htype, hclass, n, hn, t, ht, hq, ttl, addrs, hlook, hrec⟩ :=
    mem_aliasResults.mp hrec
  obtain ⟨addr, -, rfl⟩ := List.mem_map.mp hrec
  refine ⟨rfl, ?_⟩
  intro x hx
  obtain ⟨v', hv', htype', hclass', n', hn', t', ht', hq', hrest⟩ := mem_aliasResults.mp hx
  have heq : t = t' := by
    rcases hq' with h255 | h
    · have hne : t ≠ 255 := by
        rintro rfl
        simp at ht
      exact absurd h255 hne
    · exact h
  exact mem_aliasResults.mpr ⟨v', hv', htype', hclass', n', hn', t', ht', heq ▸ hq, hrest⟩

lemma missingPlan_whole (h : q.InPlay e₀ c.entry img) :
    ∀ l ∈ (missingPlan q c img).answer, LoneChunk q e₀ .answer l → Whole q e₀ .answer l := by
  intro l hl hone
  rw [missingPlan] at hl
  split at hl
  · rename_i parent id rr ttl hd
    obtain ⟨hid, htype, -, k, hmem⟩ := dnameSearch_some hd
    rw [ZoneImage.atName, hid] at hmem
    split at hl
    · exact dnameChunks_whole h hmem htype _ l hl hone
    · cases hl
  split at hl
  · exact wildcardChunks_whole h c.qname _ l hl hone
  · cases hl

lemma roundPlan_whole (h : q.InPlay e₀ c.entry img) :
    ∀ l ∈ (roundPlan q c img).answer, LoneChunk q e₀ .answer l → Whole q e₀ .answer l := by
  intro l hl hone
  rw [roundPlan] at hl
  dsimp only at hl
  split at hl
  · rw [mem_singleton.mp hl]
    exact synth_whole h.serves h.image (.inr rfl)
  rcases mem_append.mp hl with hl | hl
  · exact scanChunks_whole h _ _ _ _ l hl hone
  split at hl
  · cases hl
  rw [expandedPlan] at hl
  split at hl
  · rename_i key hkey
    dsimp only at hl
    rw [mem_singleton.mp hl]
    intro x hx _
    obtain ⟨rec, hrec, rfl⟩ := List.mem_map.mp hx
    obtain ⟨hname, hall⟩ := aliasResults_sub hrec
    have hk : c.entry.aliasKey = some key := by
      obtain ⟨hk, -⟩ := filter_eq_some_iff.mp hkey
      rw [roundAliasKey] at hk
      split at hk
      · exact hk
      · cases hk
    refine ⟨c.entry, img, h.serves, h.image, .inr (.inr ⟨key, hk, ?_⟩)⟩
    rw [hname]
    intro y hy
    exact List.mem_map_of_mem (hall y hy)
  split at hl
  · cases hl
  · exact missingPlan_whole h l hl hone

/-! ### Authority -/

lemma soaChunks_whole (h : q.InPlay e₀ e img) :
    ∀ l ∈ soaChunks q e img, LoneChunk q e₀ .authority l → Whole q e₀ .authority l := by
  intro l hl hone
  rw [soaChunks] at hl
  dsimp only at hl
  split at hl
  · cases hl
  rename_i rr ttl hfind
  obtain ⟨htype, -, k, hmem⟩ := firstVisible_some hfind
  rcases mem_cons.mp hl with rfl | hl
  · exact emit_whole h (h.loaded.rrsAt hmem).1 none _ (by simp [htype]) hone
  split at hl
  · exact sigChunks_whole l hl
  · cases hl

/-- A record of a proof: the only NSEC or NSEC3 record of its owner. -/
lemma denial_whole {d : Denial} (h : q.InPlay e₀ e d.img) (hden : d.img.Denies k)
    (hplace : d.place = some (k, rr)) :
    ∀ l ∈ d.chunks rr, LoneChunk q e₀ .authority l → Whole q e₀ .authority l := by
  intro l hl hone
  obtain ⟨-, hk⟩ := Denial.place_rr hplace
  obtain ⟨rr', hk', htype⟩ := hden
  obtain rfl : rr = rr' := some.inj (hk.symm.trans hk')
  rcases mem_cons.mp hl with rfl | hl
  · exact emit_whole h hk none _ (by rcases htype with h | h <;> simp [h]) hone
  · exact sigChunks_whole l hl

lemma denialChunks_whole : ∀ {ds : List Denial},
    (∀ d ∈ ds, (∀ k, d.rr = some k → d.img.Denies k) ∧ ∃ e, q.InPlay e₀ e d.img) →
    ∀ (attached : List (Nat × Nat)), ∀ l ∈ denialChunks ds attached,
      LoneChunk q e₀ .authority l → Whole q e₀ .authority l
  | [], _, _, l, hl, _ => by cases hl
  | d :: ds, hds, attached, l, hl, hone => by
    have ih := @denialChunks_whole ds fun d' hd' => hds d' (mem_cons_of_mem _ hd')
    obtain ⟨hden, e, h⟩ := hds d mem_cons_self
    rw [denialChunks] at hl
    split at hl
    · exact ih attached l hl hone
    rename_i k rr hplace
    split at hl
    · exact ih attached l hl hone
    rcases mem_append.mp hl with hl | hl
    · exact denial_whole h (hden k (Denial.place_rr hplace).1) hplace l hl hone
    · exact ih _ l hl hone

lemma apexNs_whole (h : q.InPlay e₀ e img) (typeMatched : Bool) :
    ∀ l ∈ apexNsChunks q e img typeMatched, LoneChunk q e₀ .authority l →
      Whole q e₀ .authority l := by
  intro l hl hone
  rw [apexNsChunks] at hl
  split at hl
  · exact chunks_whole h (apexNsSpec q e) rfl _ l hl fun _ => hone
  · cases hl

/-! ### Additional -/

lemma zoneAddress_whole (h : q.InPlay e₀ e img) (apex target : Text) (id : Option Nat)
    (dnssecOk : Bool) :
    ∀ l ∈ zoneAddressChunks img apex target id dnssecOk e.view.withoutEcs, Whole q e₀
      .additional l := by
  intro l hl
  obtain ⟨t, ht, hl⟩ := mem_flatMap.mp hl
  refine chunks_whole h (addressSpec img apex target dnssecOk e.view.withoutEcs t) rfl id l hl ?_
  intro h6
  have h6 : t = 6 := h6
  subst h6
  simp at ht

/-- Linked addresses, if all that the client sees of their sets are linked. -/
lemma linked_whole (h : q.InPlay e₀ e img)
    (hall : ∀ v ∈ linkedAddresses img id, (rrValid e.view.withoutEcs v.1).isSome = true →
      ∀ u ∈ img.ownRrs id, u.1.type = v.1.type → u.1.classVal = v.1.classVal →
        (rrValid e.view.withoutEcs u.1).isSome = true → u ∈ linkedAddresses img id) :
    Whole q e₀ .additional (linkedEmits img e.view.withoutEcs (linkedAddresses img id)) := by
  intro x hx _
  obtain ⟨⟨rr, k⟩, hmem, hx'⟩ := mem_flatMap.mp hx
  obtain ⟨hk, hid⟩ := h.loaded.ownRr (mem_of_mem_filter (mem_of_mem_take hmem))
  obtain ⟨nm, hnm⟩ := h.loaded.rrName hk
  dsimp only at hx'
  cases hv : rrValid e.view.withoutEcs rr with
  | none => simp [hv] at hx'
  | some ttl =>
    simp only [hv, ZoneImage.emit, hnm, map_some, toList_some, mem_singleton] at hx'
    subst hx'
    refine ⟨e, img, h.serves, h.image, hnm, ⟨k, hk⟩, ?_⟩
    rintro ⟨u, k'⟩ hu ht hc hvis
    rw [hid] at hu
    have hmem' := hall _ hmem (by rw [hv]; rfl) _ hu ht hc hvis
    obtain ⟨ttl', httl⟩ := isSome_iff_exists.mp hvis
    have httl' : rrValid e.view.withoutEcs u = some ttl' := httl
    exact ⟨ttl',
      mem_flatMap.mpr
        ⟨(u, k'), hmem', by simp [httl', ZoneImage.emit, (h.loaded.ownRr hu).2, ← hid, hnm]⟩⟩

lemma findZone_serves {t : Text} {type : UInt16} (h : q.findZone t type = .entry e) :
    q.Serves e₀ e :=
  .inr (Query.findZone_entry h)

end Chunks

/-! ### Whole runs -/

section Run

variable {q : Query} {e₀ : ZoneEntry}

/-- Every zone of the view is as a loader left it. -/
def Query.AllLoaded (q : Query) (e₀ : ZoneEntry) : Prop := ∀ e, q.Serves e₀ e → e.Loaded

lemma Query.AllLoaded.inPlay (hall : q.AllLoaded e₀) (hserves : q.Serves e₀ e)
    (himg : e.image = some img) :
    q.InPlay e₀ e img :=
  ⟨hall e hserves img himg, hserves, himg⟩

lemma targetChunks_whole (hall : q.AllLoaded e₀) (hserves : q.Serves e₀ e)
    (himg : e.image = some img) {t : Text} (hone : LoneTarget q e img t) :
      ∀ l ∈ targetChunks q e img t, Whole q e₀ .additional l := by
  intro l hl
  have h := hall.inPlay hserves himg
  rw [targetChunks, glueChunks] at hl
  split at hl
  · cases hl
  rename_i hopen
  rw [not_or, not_not] at hopen
  split at hl
  · rename_i i hown
    split at hown
    · cases hown
    · rename_i hdo
      rw [mem_singleton.mp hl]
      exact linked_whole h (hone (by simpa using hdo) hopen.2 i hown)
  rcases mem_append.mp hl with hl | hl
  · exact zoneAddress_whole h _ _ _ _ l hl
  split at hl
  · cases hl
  rw [Query.sibling] at hl
  cases hz : q.findZone t 0 with
  | none => simp [hz, siblingChunks] at hl
  | absent => simp [hz, siblingChunks] at hl
  | entry s =>
    simp only [hz] at hl
    cases hs : s.image with
    | none => simp [hs, siblingChunks] at hl
    | some img' =>
      rw [hs, siblingChunks] at hl
      split at hl
      · cases hl
      · exact zoneAddress_whole (hall.inPlay (findZone_serves hz) hs) _ _ _ _ l hl

lemma closeChunks_whole (hall : q.AllLoaded e₀) (hc : c.All (q.Serves e₀))
    (himg : c.entry.image = some img) (typeMatched : Bool) (v : Verdict) :
    ∀ l ∈ closeChunks q c img typeMatched v, LoneChunk q e₀ .authority l →
      Whole q e₀ .authority l := by
  intro l hl hone
  have h := hall.inPlay hc.1 himg
  rw [closeChunks] at hl
  rcases mem_append.mp hl with hl | hl
  · split at hl
    · cases hl
    · exact soaChunks_whole h l hl hone
  rcases mem_append.mp hl with hl | hl
  · refine denialChunks_whole ?_ [] l hl hone
    intro d hd
    have hwc : ∀ p, c.firstWc = some p → p.2.Loaded := fun p hp => hall p.2 (hc.2 p hp)
    rcases denials_of h.loaded hwc d hd with hof | ⟨p, img', hp, himg', hof⟩
    · rw [hof.image]
      exact ⟨hof.denies, c.entry, h⟩
    · rw [hof.image]
      exact ⟨hof.denies, p.2, hall.inPlay (hc.2 p hp) himg'⟩
  · exact apexNs_whole h typeMatched l hl hone

lemma referralChunks_whole (hall : q.AllLoaded e₀) (hserves : q.Serves e₀ e)
    (himg : e.image = some img) (id : Nat) (name : Text) :
    ∀ l ∈ referralChunks q e img id name, LoneChunk q e₀ .authority l →
      Whole q e₀ .authority l := by
  intro l hl hone
  have h := hall.inPlay hserves himg
  rcases mem_append.mp hl with hl | hl
  · exact chunks_whole h (referralSpec e 2 .none) rfl _ l hl fun _ => hone
  rw [dsChunks] at hl
  split at hl
  · split at hl
    · refine denialChunks_whole ?_ [] l hl hone
      intro d hd
      have hden := noDsDenials_denies h.loaded d hd
      rw [noDsDenials_img d hd] at hden ⊢
      exact ⟨hden, e, h⟩
    · exact chunks_whole h (referralSpec e 43 .required) rfl _ l hl fun _ => hone
  · cases hl

/-- What stands behind the answer of the last round of a chain: the chunks of the Authority section,
and the targets whose addresses are looked for. -/
def roundClose (q : Query) (c₀ : Chain) (depth : Nat) (c : Chain) : List (List Emit) × List Text :=
  match roundKind q depth c with
  | .referral img id name => (referralChunks q c.entry img id name, nsTargets (img.ownRrs id))
  | .answer img =>
    match (roundPlan q c img).last with
    | .name c' st wc =>
      let close :=
        closeChunks q c' img st.typeMatched (verdictOf c'.entry img c'.qname st st.typeMatched wc)
      (close, if q.mode = .yes then []
        else addressTargets (chunksBefore q c₀ (depth + 1) ++ close).flatten)
    | _ => ([], [])
  | _ => ([], [])

/-- Where the resolution of a name comes to records that are written one by one, or to linked
addresses, these are all that the client sees of their sets. -/
def Query.LoneRun (q : Query) (e₀ : ZoneEntry) (qname : Text) : Prop :=
  ∀ depth < 16, ∀ c, chainAt q (startChain e₀ qname) depth = some c →
    (∀ l ∈ roundChunks q depth c, LoneChunk q e₀ .answer l) ∧
    (∀ l ∈ (roundClose q (startChain e₀ qname) depth c).1, LoneChunk q e₀ .authority l) ∧
    ∀ img, c.entry.image = some img →
      ∀ t ∈ (roundClose q (startChain e₀ qname) depth c).2, LoneTarget q c.entry img t

/-- The sections of a response hold no set partly. -/
def Resp.Whole (q : Query) (e₀ : ZoneEntry) (r : Resp σ) : Prop :=
  KariDns.Whole q e₀ .answer r.answer ∧ KariDns.Whole q e₀ .authority r.authority ∧
    KariDns.Whole q e₀ .additional r.additional

lemma Resp.Whole.grew (h : r.Whole q e₀) {sec : Section} {ds cs : List (List Emit)}
    (hcs : ∀ l ∈ cs, KariDns.Whole q e₀ sec l) (hsub : ds.Sublist cs)
    (hgrew : r.Grew sec ds.flatten r') :
    r'.Whole q e₀ := by
  obtain ⟨ha, hb, hc⟩ := h
  have hds := Whole.flatten fun l hl => hcs l (hsub.subset hl)
  rw [Resp.Whole, hgrew.answer, hgrew.authority, hgrew.additional]
  cases sec with
  | answer => exact ⟨ha.append hds, hb, hc⟩
  | authority => exact ⟨ha, hb.append hds, hc⟩
  | additional => exact ⟨ha, hb, hc.append hds⟩

lemma Resp.Whole.writes (h : r.Whole q e₀) {S : Sink σ} {sec : Section} {cs : List (List Emit)}
    {ok : Bool} (hcs : ∀ l ∈ cs, KariDns.Whole q e₀ sec l) (hw : Writes S sec cs ok r r') :
      r'.Whole q e₀ := by
  obtain ⟨ds, hsub, hgrew, -⟩ := hw
  exact h.grew hcs hsub hgrew

lemma targets_whole (hall : q.AllLoaded e₀) (hserves : q.Serves e₀ e) (himg : e.image = some img)
    {targets : List Text} (hone : ∀ t ∈ targets, LoneTarget q e img t) :
    ∀ l ∈ targets.flatMap (targetChunks q e img), KariDns.Whole q e₀ .additional l := by
  intro l hl
  obtain ⟨t, ht, hl⟩ := mem_flatMap.mp hl
  exact targetChunks_whole hall hserves himg (hone t ht) l hl

lemma closeAnswer_whole (hall : q.AllLoaded e₀) (hq : q.Loaded) (hc : c.All (q.Serves e₀))
    (himg : c.entry.image = some img) (S : Sink σ) (typeMatched : Bool) (v : Verdict)
    (hr : r.rcode = 0)
    (hclose : ∀ l ∈ closeChunks q c img typeMatched v, LoneChunk q e₀ .authority l)
    (htargets : q.mode ≠ .yes →
      ∀ t ∈ r.glue ++ addressTargets (closeChunks q c img typeMatched v).flatten,
      LoneTarget q c.entry img t)
    (hwhole : r.Whole q e₀) : (closeAnswer S q c img typeMatched v r).Whole q e₀ := by
  have h := hall c.entry hc.1 img himg
  have hload : c.Loaded := ⟨hall _ hc.1, fun p hp => hall _ (hc.2 p hp)⟩
  obtain ⟨ok, r', hw, hres⟩ := closeAnswer_writes S h hload q typeMatched v r hr
  have hstart : Resp.Whole q e₀ { r with rcode := if v.found then 0 else 3 } := hwhole
  have hr' :=
    hstart.writes (fun l hl => closeChunks_whole hall hc himg typeMatched v l hl (hclose l hl)) hw
  rw [hres]
  cases ok with
  | false => exact hr'
  | true =>
    rw [if_pos rfl, addressed]
    split
    · rename_i hlook
      obtain ⟨ds, hsub, hgrew⟩ := additionalGlue_grew S h hq c.entry r'.glue r'
      have hone : ∀ t ∈ r'.glue, LoneTarget q c.entry img t :=
        fun t ht => htargets hlook.1 t (hw.targets ht)
      exact hr'.grew (targets_whole hall hc.1 himg hone) hsub hgrew
    · exact hr'

lemma roundChunks_whole (hall : q.AllLoaded e₀) (hc : c.All (q.Serves e₀)) (depth : Nat) :
    ∀ l ∈ roundChunks q depth c, LoneChunk q e₀ .answer l → KariDns.Whole q e₀ .answer l := by
  intro l hl hone
  rw [roundChunks] at hl
  split at hl
  · rename_i img hk
    exact roundPlan_whole (hall.inPlay hc.1 (roundKind_answer hk)) l hl hone
  · cases hl

lemma chunksBefore_whole (hall : q.AllLoaded e₀) {qname : Text} (hlone : q.LoneRun e₀ qname) :
    ∀ depth ≤ 16, ∀ l ∈ chunksBefore q (startChain e₀ qname) depth, KariDns.Whole q e₀ .answer l
  | 0, _, l, hl => by cases hl
  | depth + 1, hle, l, hl => by
    rcases mem_append.mp hl with hl | hl
    · exact chunksBefore_whole hall hlone depth (Nat.le_of_succ_le hle) l hl
    cases hat : chainAt q (startChain e₀ qname) depth with
    | none => simp [hat] at hl
    | some c =>
      simp only [hat, map_some, getD_some] at hl
      have hc : c.All (q.Serves e₀) :=
        chainAt_all (fun _ _ _ h => findZone_serves h) ⟨.inl rfl, by simp [startChain]⟩ hat
      exact roundChunks_whole hall hc depth l hl ((hlone depth hle c hat).1 l hl)

lemma chunksBefore_answer {start : Chain} {depth : Nat} (hat : chainAt q start depth = some c)
    (hk : roundKind q depth c = .answer img) :
    chunksBefore q start (depth + 1) =
      chunksBefore q start depth ++ (roundPlan q c img).answer := by
  simp [chunksBefore, hat, roundChunks, hk]

/-- A round that ends in a referral. -/
lemma referral_whole (hall : q.AllLoaded e₀) (hq : q.Loaded) (hc : c.All (q.Serves e₀))
    {S : Sink σ} {init : Resp σ} {depth id : Nat} {name : Text}
    (hk : roundKind q depth c = .referral img id name)
    (hclose : ∀ l ∈ referralChunks q c.entry img id name, LoneChunk q e₀ .authority l)
    (htargets : ∀ t ∈ nsTargets (img.ownRrs id), LoneTarget q c.entry img t)
    (hwhole : r.Whole q e₀) (hstep : resolveStep S q init depth c r = .done r') :
    r'.Whole q e₀ := by
  have hload : c.Loaded := ⟨hall _ hc.1, fun p hp => hall _ (hc.2 p hp)⟩
  obtain ⟨himg, -⟩ := roundKind_image hk
  obtain ⟨ok, r₁, hw, hres⟩ := @resolveStep_referral _ _ _ _ _ S init r hload _ _ hk
  have hstart : Resp.Whole q e₀ { r with aa := false } := hwhole
  have hr₁ :=
    hstart.writes (fun l hl => referralChunks_whole hall hc.1 himg id name l hl (hclose l hl)) hw
  rw [hres] at hstep
  cases ok with
  | false =>
    cases hstep
    exact hr₁
  | true =>
    obtain ⟨cut, ds, r₂, hsub, hgrew, hglue, -⟩ :=
      referralGlue_adds S (hall c.entry hc.1 img himg) hq c.entry name (img.ownRrs id) false r₁
    have hr₂ := hr₁.grew (targets_whole hall hc.1 himg htargets) hsub hgrew
    rw [if_pos rfl, hglue] at hstep
    cases hstep
    cases cut <;> exact hr₂

/-- The round a run ends in. -/
lemma resolveStep_whole (hone : q.more = []) (hall : q.AllLoaded e₀) (hq : q.Loaded)
    (hc : c.All (q.Serves e₀)) {S : Sink σ} {init : Resp σ} {depth : Nat} {qname : Text}
    (hlone : q.LoneRun e₀ qname) (hlt : depth < 16)
    (hat : chainAt q (startChain e₀ qname) depth = some c)
    (hglue : r.glue ⊆ addressTargets (chunksBefore q (startChain e₀ qname) depth).flatten)
    (hinit : init.Whole q e₀) (hwhole : r.Whole q e₀) (hr : r.rcode = 0)
    (hstep : resolveStep S q init depth c r = .done r') : r'.Whole q e₀ := by
  have hload : c.Loaded := ⟨hall _ hc.1, fun p hp => hall _ (hc.2 p hp)⟩
  obtain ⟨hround, hclose, htargets⟩ := hlone depth hlt c hat
  rw [roundChunks] at hround
  rw [roundClose] at hclose htargets
  cases hk : roundKind q depth c with
  | lost =>
    rw [resolveStep_lost hk] at hstep
    cases hstep
    exact hinit
  | hidden =>
    rw [resolveStep_hidden hk] at hstep
    cases hstep
    exact hwhole
  | referral img id name =>
    rw [hk] at hclose htargets
    exact referral_whole hall hq hc hk hclose (htargets img (roundKind_image hk).1) hwhole hstep
  | answer img =>
    have himg := roundKind_answer hk
    have h := hall.inPlay hc.1 himg
    simp only [hk] at hround hclose htargets
    obtain ⟨ok, r₁, hw, hres⟩ := @resolveStep_answer _ _ _ _ _ S init r hload hk
    have hr₁ := hwhole.writes (fun l hl => roundPlan_whole h l hl (hround l hl)) hw
    rw [hres] at hstep
    cases ok with
    | false =>
      cases hstep
      exact hr₁
    | true =>
      have hrc : r₁.rcode = 0 := hw.grew.rcode.trans hr
      rw [if_pos rfl] at hstep
      cases hlast : (roundPlan q c img).last with
      | stop =>
        rw [hlast] at hstep
        cases hstep
        exact hr₁
      | tooLong =>
        rw [hlast] at hstep
        cases hstep
        exact hr₁
      | servfail =>
        rw [hlast] at hstep
        cases hstep
        exact hinit
      | name c₂ st wc =>
        rw [hlast, RoundEnd.step, answerName_single hone] at hstep
        cases hstep
        have hchain : (roundPlan q c img).last.chain = some c₂ := by rw [hlast]; rfl
        have hext := roundPlan_chain hchain
        have hentry : c₂.entry = c.entry := by
          rcases hext with rfl | rfl
          · rfl
          · rfl
        simp only [hlast] at hclose htargets
        refine closeAnswer_whole hall hq (hext.all hc) (hentry ▸ himg) S _ _ hrc hclose ?_ hr₁
        intro hmode t ht
        rw [hentry]
        refine htargets img himg t ?_
        rw [if_neg hmode, flatten_append, addressTargets_append]
        rcases mem_append.mp ht with ht | ht
        · refine mem_append_left _ ?_
          rw [chunksBefore_answer hat hk, flatten_append, addressTargets_append]
          exact (mem_append.mp (hw.targets ht)).elim (fun h => mem_append_left _ (hglue h))
            (mem_append_right _)
        · exact mem_append_right _ ht
      | follow c₂ target =>
        obtain ⟨r₂, hw', hfol⟩ := follow_eq S q c₂ target r₁ hrc
        rw [hlast, RoundEnd.step, hfol] at hstep
        cases hn : nextChain q c₂ target with
        | none =>
          rw [hn] at hstep
          cases hstep
          exact hr₁.writes (by simp) hw'
        | some c₃ =>
          rw [hn] at hstep
          cases hstep

/-- For every packet, no set is in a section partly. -/
lemma resolveName_whole (hone : q.more = []) (hall : q.AllLoaded e₀) (hq : q.Loaded) {qname : Text}
    (hlone : q.LoneRun e₀ qname) (S : Sink σ) (s : σ) :
    (resolveName S q e₀ qname { sink := s }).Whole q e₀ := by
  have hc₀ : (startChain e₀ qname).All (q.Serves e₀) := ⟨.inl rfl, by simp [startChain]⟩
  have hinit : Resp.Whole q e₀ ({ sink := s } : Resp σ) :=
    ⟨fun x hx => absurd hx not_mem_nil, fun x hx => absurd hx not_mem_nil,
      fun x hx => absurd hx not_mem_nil⟩
  obtain ⟨depth, c, r, hle, hat, hw, hend⟩ :=
    resolveName_run S hq (hall e₀ (.inl rfl)) qname { sink := s } rfl
  have hr := hinit.writes (chunksBefore_whole hall hlone depth hle) hw
  rcases hend with ⟨hstep, hlt⟩ | ⟨-, hout⟩
  · have hc := chainAt_all (fun _ _ _ h => findZone_serves h) hc₀ hat
    exact resolveStep_whole hone hall hq hc hlone hlt hat hw.targets hinit hr hw.grew.rcode hstep
  rw [hout, outOfRounds]
  split
  · exact hr
  · exact hinit

end Run

end KariDns
