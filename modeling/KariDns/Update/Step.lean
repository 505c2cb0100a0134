import KariDns.Name.Tree
import KariDns.Update.Process

/-! What one RR of an UPDATE does to the records, without the hash chains.

A record is found in the array if it is found along the chain of its owner. So each change is
one of a few things done to the array: records are buried, one record takes the place of
another, a record is added at the end. `Revises` says which and when; all invariants of
updates are derived from it.
-/

namespace KariDns

open Octets DomainName ChainTable List Option

variable {rr : DnsRecord} {i offset : Nat} {v v' : Revision} {h : RrHeader} {s : Slot} {name : Text}
  {st : UpdateState}

/-! ### Chains and owners -/

lemma nameBucket_of_caseeq (size : Nat) {a b : Text} (h : strcaseeq a b = true) :
    nameBucket size a = nameBucket size b := by
  have hkey : a.map lower = b.map lower := by simpa [strcaseeq] using h
  rw [nameBucket, nameBucket, calcFnv1aStr, calcFnv1aStr, ← fnv1aText_lower a, hkey,
    fnv1aText_lower]

lemma recIsAt_iff :
    updateRecIsAt s name = true ↔ s.live = true ∧ strcaseeq s.record.name name = true := by
  simp [updateRecIsAt]

/-- A record at a name is on the name's chain. -/
lemma bucket_of_recIsAt (st : Standby) (h : updateRecIsAt s name = true) :
    slotBucket st.size s = some (st.bucket name) := by
  obtain ⟨hlive, hname⟩ := recIsAt_iff.mp h
  rw [slotBucket, if_pos hlive, Standby.bucket, nameBucket_of_caseeq st.size hname]

lemma isRr_at (h : isRr rr s = true) : updateRecIsAt s rr.name = true := by
  simp only [isRr, compareRecords, decide_eq_true_eq] at h
  exact recIsAt_iff.mpr ⟨h.1, h.2.2.1⟩

lemma isAtOfType_at {type : Nat} (h : isAtOfType name type s = true) :
    updateRecIsAt s name = true := by
  simp only [isAtOfType, decide_eq_true_eq] at h
  exact h.1

lemma conflicts_at {type : Nat} (h : conflicts name type s = true) :
    updateRecIsAt s name = true := by
  rw [conflicts, Bool.and_eq_true] at h
  exact h.1

lemma isReplaced_at (h : isReplaced name rr s = true) : updateRecIsAt s name = true := by
  simp only [isReplaced, decide_eq_true_eq] at h
  exact h.1

section Search

variable {st : Standby} {name : Text} {p : Slot → Bool}

lemma Standby.Linked.any_iff (h : st.Linked) (hp : ∀ s, p s = true → updateRecIsAt s name = true) :
    st.table.any (st.bucket name) p = st.table.vals.any p := by
  rw [Bool.eq_iff_iff, Chained.any_iff h fun s hs => bucket_of_recIsAt st (hp s hs),
    List.any_eq_true]

lemma Standby.Linked.find_none (h : st.Linked)
    (hp : ∀ s, p s = true → updateRecIsAt s name = true) :
    st.table.find (st.bucket name) p = none ↔ ∀ s ∈ st.table.vals, p s = false :=
  Chained.find_none h fun s hs => bucket_of_recIsAt st (hp s hs)

end Search

/-! ### Revisions -/

/-- The records of a zone while an UPDATE changes them. -/
structure Revision where
  slots : List Slot
  changed : Bool
  soaReplaced : Bool

def UpdateState.revision (st : UpdateState) : Revision :=
  ⟨st.standby.table.vals, st.changed, st.soaReplaced⟩

/-- Buries the records that satisfy `p`. -/
def buryIf (p : Slot → Bool) (s : Slot) : Slot := if p s then s.bury else s

def Revision.delete (v : Revision) (p : Slot → Bool) : Revision :=
  { v with slots := v.slots.map (buryIf p), changed := v.changed || v.slots.any p }

/-- The records an RR of class ANY deletes. -/
def inDeletedSet (zoneName : Text) (h : RrHeader) (s : Slot) : Bool :=
  isAtOfType h.name h.type s &&
    !(domainNamesMatchCi h.name zoneName && staysAtApex s.record.typeCode.toNat)

def Revision.deleteSet (zoneName : Text) (h : RrHeader) (v : Revision) : Revision :=
  if domainNamesMatchCi h.name zoneName ∧ staysAtApex h.type then v
  else v.delete (inDeletedSet zoneName h)

def Revision.deleteRr (zoneName : Text) (h : RrHeader) (rr : DnsRecord) (v : Revision) : Revision :=
  if h.type = 6 then v
  else if h.type = 2 ∧ domainNamesMatchCi h.name zoneName ∧
    v.slots.countP (isAtOfType h.name 2) ≤ 1 then v
  else v.delete (isRr rr)

/-- The SOA `rr` is newer than `s`, or `rr` is no SOA. -/
def newerSoa (h : RrHeader) (rr : DnsRecord) (s : Slot) : Prop :=
  h.type = 6 → serialIsNewer (updateSoaSerial rr) (updateSoaSerial s.record) = true

/-- What adding `rr` makes of the records. -/
inductive AddsRr (h : RrHeader) (rr : DnsRecord) (new : Slot) (encodable : Bool)
    (v : Revision) : Revision → Prop
  | conflict (hc : v.slots.any (conflicts h.name h.type) = true) : AddsRr h rr new encodable v v
  | noSoa (htype : h.type = 6) (hnone : ∀ s ∈ v.slots, isAtOfType h.name 6 s = false) :
    AddsRr h rr new encodable v v
  | staleSoa (htype : h.type = 6) {s : Slot} (hs : s ∈ v.slots) (hat : isAtOfType h.name 6 s = true)
      (hold : serialIsNewer (updateSoaSerial rr) (updateSoaSerial s.record) = false) :
        AddsRr h rr new encodable v v
  | unencodable (hen : encodable = false) : AddsRr h rr new encodable v v
  | same {s : Slot} (hs : s ∈ v.slots) (hrep : isReplaced h.name rr s = true)
      (hsame : compareRecords s.record rr false = true) : AddsRr h rr new encodable v v
  | replace {k : Nat} {s : Slot} (hc : v.slots.any (conflicts h.name h.type) = false)
    (hen : encodable = true)
      (hk : v.slots[k]? = some s) (hrep : isReplaced h.name rr s = true) (hnew : newerSoa h rr s) :
      AddsRr h rr new encodable v ⟨v.slots.set k new, true, v.soaReplaced || h.type == 6⟩
  | append (hc : v.slots.any (conflicts h.name h.type) = false) (hen : encodable = true)
      (hsoa : h.type ≠ 6) (hnone : ∀ s ∈ v.slots, isReplaced h.name rr s = false) :
      AddsRr h rr new encodable v ⟨v.slots ++ [new], true, v.soaReplaced⟩

/-- The record `rr` was read behind the header `h`. -/
structure ReadRr (alloc : Nat → Bool) (m : Buf) (len : Nat) (h : RrHeader)
    (rr : DnsRecord) : Prop where
  parsed : ∃ next, parseResourceRecord alloc m len h.start = some (rr, next)
  name : rr.name = h.name
  type : rr.typeCode.toNat = h.type

/-- What one update RR makes of the records; `i` is its number. -/
inductive Revises (mem : UpdateMemory) (m : Buf) (len : Nat) (zoneName : Text) (i : Nat)
    (h : RrHeader) (v : Revision) : Revision → Prop
  | deleteSet (hclass : h.class_ = 255) : Revises mem m len zoneName i h v (v.deleteSet zoneName h)
  | deleteRr {rr : DnsRecord} (hclass : h.class_ = 254) (hrr : ReadRr (mem.cache i) m len h rr) :
      Revises mem m len zoneName i h v (v.deleteRr zoneName h rr)
  | add {rr : DnsRecord} {v' : Revision} (hany : h.class_ ≠ 255) (hnone : h.class_ ≠ 254)
      (hrr : ReadRr (mem.cache i) m len h rr)
      (hadds : AddsRr h rr ⟨preparseCache (mem.cache i) rr, true⟩
        (updateRrEncodable (mem.scratch i) rr) v v') :
      Revises mem m len zoneName i h v v'

/-- What the update RRs make of the records, one behind the other; `i` is the number of the
first. -/
inductive RevisesAll (mem : UpdateMemory) (m : Buf) (len : Nat) (zoneName : Text) :
    Nat → List RrHeader → Revision → Revision → Prop
  | nil (i : Nat) (v : Revision) : RevisesAll mem m len zoneName i [] v v
  | cons {i : Nat} {h : RrHeader} {hs : List RrHeader} {v v' v'' : Revision}
      (hstep : Revises mem m len zoneName i h v v')
        (hrest : RevisesAll mem m len zoneName (i + 1) hs v' v'') :
      RevisesAll mem m len zoneName i (h :: hs) v v''

/-! ### What every record satisfies -/

section Invariant

variable {mem : UpdateMemory} {m : Buf} {len : Nat} {zoneName : Text} {P : Slot → Prop}

lemma delete_forall (hbury : ∀ s, P s → P s.bury) (p : Slot → Bool) (h : ∀ s ∈ v.slots, P s) :
    ∀ s ∈ (v.delete p).slots, P s := by
  intro s hs
  obtain ⟨s₀, hs₀, rfl⟩ := List.mem_map.mp hs
  unfold buryIf
  split
  · exact hbury s₀ (h s₀ hs₀)
  · exact h s₀ hs₀

lemma AddsRr.forall {new : Slot} {encodable : Bool} (hadds : AddsRr h rr new encodable v v')
    (hnew : P new) (hv : ∀ s ∈ v.slots, P s) : ∀ s ∈ v'.slots, P s := by
  cases hadds with
  | replace hc hen hk hrep hsoa =>
    intro s hs
    rcases mem_or_eq_of_mem_set hs with hs | rfl
    · exact hv s hs
    · exact hnew
  | append hc hen hsoa hnone =>
    intro s hs
    rcases mem_append.mp hs with hs | hs
    · exact hv s hs
    · rw [mem_singleton.mp hs]
      exact hnew
  | _ => exact hv

/-- What burying keeps and every record that is added satisfies, all records satisfy. -/
lemma Revises.forall (hstep : Revises mem m len zoneName i h v v') (hbury : ∀ s, P s → P s.bury)
    (hnew : h.class_ ≠ 255 → h.class_ ≠ 254 → ∀ rr, ReadRr (mem.cache i) m len h rr →
      P ⟨preparseCache (mem.cache i) rr, true⟩)
    (hv : ∀ s ∈ v.slots, P s) : ∀ s ∈ v'.slots, P s := by
  cases hstep with
  | deleteSet hclass =>
    unfold Revision.deleteSet
    split
    · exact hv
    · exact delete_forall hbury _ hv
  | deleteRr hclass hrr =>
    unfold Revision.deleteRr
    split
    · exact hv
    split
    · exact hv
    · exact delete_forall hbury _ hv
  | add hany hnone hrr hadds => exact hadds.forall (hnew hany hnone _ hrr) hv

lemma RevisesAll.forall {hs : List RrHeader}
    (hrun : RevisesAll mem m len zoneName i hs v v') (hbury : ∀ s, P s → P s.bury)
    (hnew : ∀ h ∈ hs, h.class_ ≠ 255 → h.class_ ≠ 254 → ∀ j rr, ReadRr (mem.cache j) m len h rr →
      P ⟨preparseCache (mem.cache j) rr, true⟩)
    (hv : ∀ s ∈ v.slots, P s) : ∀ s ∈ v'.slots, P s := by
  induction hrun with
  | nil i v => exact hv
  | @cons i h hs v v' v'' hstep _ ih =>
    refine ih (fun k hk => hnew k (by simp [hk])) ?_
    exact hstep.forall hbury (fun hany hnone rr hrr => hnew h (by simp) hany hnone i rr hrr) hv

end Invariant

/-! ### The chained array -/

lemma buried_at {p : Slot → Bool} (hp : ∀ s, p s = true → updateRecIsAt s name = true) (s : Slot) :
    p s.bury = false := by
  by_contra h
  have hlive := (recIsAt_iff.mp (hp s.bury (by simpa using h))).1
  cases hlive

lemma delete_revision (hl : st.standby.Linked) {p : Slot → Bool}
    (hp : ∀ s, p s = true → updateRecIsAt s name = true) :
    (st.delete name p).standby.Linked ∧ (st.delete name p).revision = st.revision.delete p := by
  refine ⟨Chained.sweep (fun s => by simp [slotBucket, Slot.bury]) _ hl, ?_⟩
  have hvals :=
    Chained.sweep_chain hl (fun s hs => bucket_of_recIsAt st.standby (hp s hs)) (buried_at hp)
  have hany := hl.any_iff hp
  simp only [UpdateState.revision, UpdateState.delete, Revision.delete]
  rw [hany]
  exact congrArg (Revision.mk · _ _) hvals

lemma deleteSet_revision (hl : st.standby.Linked) (zoneName : Text) (h : RrHeader) :
    (deleteSet zoneName st h).standby.Linked ∧
      (deleteSet zoneName st h).revision = st.revision.deleteSet zoneName h := by
  unfold KariDns.deleteSet Revision.deleteSet
  dsimp only
  split
  · exact ⟨hl, rfl⟩
  refine delete_revision hl fun s hs => ?_
  rw [Bool.and_eq_true] at hs
  exact isAtOfType_at hs.1

/-- A record is read with the owner and the type of its header. -/
lemma readRr_of_parse {alloc : Nat → Bool} {m : Buf} {len next stop : Nat}
    (hread : updateReadRrHeader m len offset = some (h, next))
    (hparse : parseResourceRecord alloc m len h.start = some (rr, stop)) :
      ReadRr alloc m len h rr := by
  unfold updateReadRrHeader at hread
  split at hread
  · cases hread
  rename_i owner p howner
  split_ifs at hread with hshort hlen
  obtain ⟨rfl, rfl⟩ := Prod.mk.inj (some.inj hread)
  obtain ⟨owner', p', prd, howner', -, -, rfl⟩ := parse_form hparse
  obtain ⟨rfl, rfl⟩ := Prod.mk.inj (some.inj (howner.symm.trans howner'))
  refine ⟨⟨_, hparse⟩, ?_, ?_⟩
  · rw [preparse_keeps DnsRecord.name fun _ _ _ => rfl]
    rfl
  · rw [preparse_keeps DnsRecord.typeCode fun _ _ _ => rfl]
    exact Nat.mod_eq_of_lt (getU16_lt m p)

lemma deleteRr_revision (hl : st.standby.Linked) (zoneName : Text) (hname : rr.name = h.name) :
    (deleteRr zoneName st h rr).standby.Linked ∧
      (deleteRr zoneName st h rr).revision = st.revision.deleteRr zoneName h rr := by
  have hcount : countNs st.standby h.name = st.revision.slots.countP (isAtOfType h.name 2) :=
    Chained.countP_eq hl fun s hs => bucket_of_recIsAt st.standby (isAtOfType_at hs)
  unfold KariDns.deleteRr Revision.deleteRr
  rw [hcount]
  split
  · exact ⟨hl, rfl⟩
  split
  · exact ⟨hl, rfl⟩
  · exact delete_revision hl fun s hs => hname ▸ isRr_at hs

/-- For an SOA, the record that is replaced is the one whose serial was compared. -/
lemma isReplaced_soa (htype : rr.typeCode.toNat = h.type) (h6 : h.type = 6) :
    isReplaced h.name rr = isAtOfType h.name 6 := by
  have hrr : rr.typeCode = 6 := UInt16.toNat_inj.mp (htype.trans h6)
  funext s
  have htypes : s.record.typeCode = 6 ↔ s.record.typeCode.toNat = 6 := UInt16.toNat_inj.symm
  simp [isReplaced, isAtOfType, updateReplaces, hrr, htypes]

lemma addRr_revision {mem : UpdateMemory} {st' : UpdateState} (hl : st.standby.Linked)
    (hname : rr.name = h.name) (htype : rr.typeCode.toNat = h.type)
    (hadd : addRr mem i st h rr = .ok st') :
    st'.standby.Linked ∧ AddsRr h rr ⟨preparseCache (mem.cache i) rr, true⟩
      (updateRrEncodable (mem.scratch i) rr)
      st.revision st'.revision := by
  have hany : st.standby.table.any (st.standby.bucket h.name) (conflicts h.name h.type) =
      st.revision.slots.any (conflicts h.name h.type) := hl.any_iff fun _ => conflicts_at
  have hbucket : slotBucket st.standby.size ⟨preparseCache (mem.cache i) rr, true⟩ =
      some (st.standby.bucket h.name) := by
    rw [slotBucket, if_pos rfl, preparse_keeps DnsRecord.name fun _ _ _ => rfl, hname]
    rfl
  unfold addRr at hadd
  dsimp only at hadd
  rw [hany] at hadd
  split at hadd
  · rename_i hc
    obtain rfl := Except.ok.inj hadd
    exact ⟨hl, .conflict hc⟩
  rename_i hc
  rw [Bool.not_eq_true] at hc
  split at hadd
  · rename_i hstale
    obtain rfl := Except.ok.inj hadd
    refine ⟨hl, ?_⟩
    obtain ⟨h6, hstale⟩ := hstale
    unfold KariDns.staleSoa at hstale
    cases hf : st.standby.table.find (st.standby.bucket h.name) (isAtOfType h.name 6) with
    | none => exact .noSoa h6 ((hl.find_none fun _ => isAtOfType_at).mp hf)
    | some k =>
      obtain ⟨s, hs, hat⟩ := find_some hf
      rw [hf, bind_some, hs] at hstale
      rw [get_eq_vals] at hs
      exact .staleSoa h6 (mem_of_getElem? hs) hat (by simpa using hstale)
  rename_i hfresh
  split at hadd
  · rename_i hen
    obtain rfl := Except.ok.inj hadd
    exact ⟨hl, .unencodable (by simpa using hen)⟩
  rename_i hen
  rw [not_not] at hen
  split at hadd
  · rename_i k hk
    obtain ⟨s, hs, hrep⟩ := find_some hk
    have hsk : st.revision.slots[k]? = some s := get_eq_vals k ▸ hs
    rw [hs] at hadd
    split at hadd
    · rename_i hsame
      obtain rfl := Except.ok.inj hadd
      exact ⟨hl, .same (mem_of_getElem? hsk) hrep (by simpa using hsame)⟩
    obtain rfl := Except.ok.inj hadd
    refine ⟨?_, ?_⟩
    · have hold := bucket_of_recIsAt st.standby (isReplaced_at hrep)
      exact Chained.set hl hs (.inl (hbucket.trans hold.symm))
    have hnew : newerSoa h rr s := by
      intro h6
      by_contra hold
      refine hfresh ⟨h6, ?_⟩
      rw [isReplaced_soa htype h6] at hk
      rw [KariDns.staleSoa, hk, bind_some, hs]
      simpa using hold
    rw [UpdateState.revision, UpdateState.revision]
    dsimp only
    rw [set_vals]
    exact .replace hc hen hsk hrep hnew
  · rename_i hnone
    split at hadd
    · obtain rfl := Except.ok.inj hadd
      have hall := (hl.find_none fun _ => isReplaced_at).mp hnone
      refine ⟨Chained.push hl hbucket, ?_⟩
      have hsoa : h.type ≠ 6 := by
        intro h6
        refine hfresh ⟨h6, ?_⟩
        rw [isReplaced_soa htype h6] at hnone
        rw [KariDns.staleSoa, hnone]
        rfl
      rw [UpdateState.revision, UpdateState.revision]
      dsimp only
      rw [push_vals]
      exact .append hc hen hsoa hall
    · cases hadd

/-! ### Whole updates -/

lemma bind_ok {ε α β : Type} {x : Except ε α} {f : α → Except ε β} {b : β} (h : x >>= f = .ok b) :
    ∃ a, x = .ok a ∧ f a = .ok b := by
  cases x with
  | error e => cases h
  | ok a => exact ⟨a, rfl, h⟩

section Run

variable {mem : UpdateMemory} {m : Buf} {len : Nat} {zoneName : Text}

lemma applyRr_revises {next : Nat} {st' : UpdateState} (hl : st.standby.Linked)
    (hread : updateReadRrHeader m len offset = some (h, next))
    (happly : applyRr mem m len zoneName i st h = .ok st') :
    st'.standby.Linked ∧ Revises mem m len zoneName i h st.revision st'.revision := by
  unfold applyRr at happly
  split at happly
  · rename_i hclass
    obtain rfl := Except.ok.inj happly
    obtain ⟨hl', hrev⟩ := deleteSet_revision hl zoneName h
    exact ⟨hl', hrev ▸ .deleteSet hclass⟩
  rename_i hany
  split at happly
  · cases happly
  rename_i rr stop hparse
  have hrr := readRr_of_parse hread hparse
  split at happly
  · rename_i hclass
    obtain rfl := Except.ok.inj happly
    obtain ⟨hl', hrev⟩ := deleteRr_revision hl zoneName hrr.name
    exact ⟨hl', hrev ▸ .deleteRr hclass hrr⟩
  rename_i hnone
  obtain ⟨hl', hadds⟩ := addRr_revision hl hrr.name hrr.type happly
  exact ⟨hl', .add hany hnone hrr hadds⟩

/-- The RRs of a section, one behind the other. -/
def readSection (m : Buf) (len : Nat) : Nat → Nat → Option (List RrHeader)
  | 0, _ => some []
  | n + 1, offset => do
    let (h, next) ← updateReadRrHeader m len offset
    return h :: (← readSection m len n next)

/-- The offset behind a section. -/
def sectionEnd (m : Buf) (len : Nat) : Nat → Nat → Option Nat
  | 0, offset => some offset
  | n + 1, offset => (updateReadRrHeader m len offset).bind fun (_, next) => sectionEnd m len n next

/-- The RRs of the Update Section. -/
def updateSection (m : Buf) (len : Nat) : Option (List RrHeader) := do
  let (_, p) ← expandWireNameToBuffer m len dnsHeaderSize dnsNameTextSize
  let offset ← sectionEnd m len (getU16 m 6) (p + 4)
  readSection m len (getU16 m 8) offset

lemma applyUpdates_revises : ∀ {n i offset : Nat} {st st' : UpdateState}, st.standby.Linked →
    applyUpdates mem m len zoneName n i offset st = .ok st' →
    ∃ hs, readSection m len n offset = some hs ∧
      RevisesAll mem m len zoneName i hs st.revision st'.revision
  | 0, i, offset, st, st', _, happly => by
    obtain rfl := Except.ok.inj happly
    exact ⟨[], rfl, .nil i _⟩
  | n + 1, i, offset, st, st', hl, happly => by
    unfold applyUpdates at happly
    split at happly
    · cases happly
    rename_i h next hread
    obtain ⟨st₁, hone, hrest⟩ := bind_ok happly
    obtain ⟨hl₁, hstep⟩ := applyRr_revises hl hread hone
    obtain ⟨hs, hsec, hrun⟩ := applyUpdates_revises hl₁ hrest
    refine ⟨h :: hs, ?_, .cons hstep hrun⟩
    simp [readSection, hread, hsec]

/-- The prescan passes over every RR of the section. -/
lemma prescan_all {pol : Option (List UpdateRule)} {signer : Option Text} {st : Standby} :
    ∀ {n offset : Nat} {hs : List RrHeader}, readSection m len n offset = some hs →
    prescan m len zoneName pol signer st n offset = .ok () →
      ∀ h ∈ hs, prescanRr zoneName pol signer st h = .ok ()
  | 0, offset, hs, hsec, _ => by
    obtain rfl := some.inj hsec
    simp
  | n + 1, offset, hs, hsec, hscan => by
    unfold prescan at hscan
    split at hscan
    · cases hscan
    rename_i h next hread
    obtain ⟨_, hone, hrest⟩ := bind_ok hscan
    simp only [readSection, hread, bind_eq_bind, bind_some] at hsec
    obtain ⟨hs', hsec', heq⟩ := bind_eq_some_iff.mp hsec
    obtain rfl := some.inj heq
    have hall := prescan_all hsec' hrest
    simpa using ⟨hone, hall⟩

lemma indexStandby_linked (mem : UpdateMemory) (records : List Slot) :
    (indexStandby mem records).Linked := by
  unfold indexStandby
  split
  · exact (harmonize_onlyTtl _).chained (linkRecords_linked records)
  · exact linkRecords_linked records

/-- Indexing changes TTLs and nothing else. -/
lemma indexStandby_vals (mem : UpdateMemory) (records : List Slot) :
    (indexStandby mem records).table.vals.map Slot.noTtl = records.map Slot.noTtl := by
  unfold indexStandby
  split
  · rw [(harmonize_onlyTtl _).vals, linkRecords_vals]
  · rw [linkRecords_vals]

/-- The records an UPDATE starts from. -/
def indexedRecords (mem : UpdateMemory) (records : List Slot) : List Slot :=
  (indexStandby mem records).table.vals

lemma checkZoneSection_ok (h : checkZoneSection m len zoneName = .ok offset) :
    ∃ zname p, expandWireNameToBuffer m len dnsHeaderSize dnsNameTextSize = some (zname, p) ∧
      offset = p + 4 := by
  unfold checkZoneSection at h
  split at h
  · cases h
  rename_i zname p hname
  split_ifs at h
  exact ⟨zname, p, hname, (Except.ok.inj h).symm⟩

lemma readPrerequisites_end {st : Standby} : ∀ {n offset stop : Nat} {starts : List Nat},
    readPrerequisites m len zoneName st n offset = .ok (starts, stop) →
      sectionEnd m len n offset = some stop
  | 0, offset, stop, starts, h => by
    obtain ⟨-, rfl⟩ := Prod.mk.inj (Except.ok.inj h)
    rfl
  | n + 1, offset, stop, starts, h => by
    unfold readPrerequisites at h
    split at h
    · cases h
    rename_i hd next hread
    obtain ⟨valued, -, h⟩ := bind_ok h
    obtain ⟨⟨starts', stop'⟩, hrest, h⟩ := bind_ok h
    obtain ⟨-, rfl⟩ := Prod.mk.inj (Except.ok.inj h)
    rw [sectionEnd, hread, bind_some]
    exact readPrerequisites_end hrest

lemma checkPrerequisites_end {st : Standby} {n stop : Nat}
    (h : checkPrerequisites mem m len zoneName st n offset = .ok stop) :
      sectionEnd m len n offset = some stop := by
  unfold checkPrerequisites at h
  obtain ⟨⟨starts, stop'⟩, hread, h⟩ := bind_ok h
  dsimp only at h
  split_ifs at h
  split at h
  · cases h
  split_ifs at h
  obtain rfl := Except.ok.inj h
  exact readPrerequisites_end hread

/-- An UPDATE that is accepted: all its RRs pass the prescan, and then change the records. -/
lemma process_ok {records out : List Slot} {pol : Option (List UpdateRule)} {signer : Option Text}
    {res : UpdateResult}
    (hproc : processUpdateSectionsPolicy mem m len zoneName records pol signer = .ok (res, out)) :
    ∃ hs v, updateSection m len = some hs ∧
      (∀ h ∈ hs, prescanRr zoneName pol signer (indexStandby mem records) h = .ok ()) ∧
      RevisesAll mem m len zoneName 0 hs ⟨indexedRecords mem records, false, false⟩ v ∧
      res.changed = v.changed ∧ res.soaReplaced = v.soaReplaced ∧
        out = v.slots.filter (·.live) := by
  unfold processUpdateSectionsPolicy at hproc
  split at hproc
  · cases hproc
  split at hproc
  · cases hproc
  split at hproc
  · cases hproc
  obtain ⟨offset, hzone, hproc⟩ := bind_ok hproc
  split at hproc
  · cases hproc
  obtain ⟨offset', hprereq, hproc⟩ := bind_ok hproc
  obtain ⟨_, hscan, hproc⟩ := bind_ok hproc
  obtain ⟨done, happly, hdone⟩ := bind_ok hproc
  obtain ⟨hs, hsec, hrun⟩ := applyUpdates_revises (indexStandby_linked mem records) happly
  obtain ⟨rfl, rfl⟩ := Prod.mk.inj (Except.ok.inj hdone)
  have hupdate : updateSection m len = some hs := by
    obtain ⟨zname, p, hname, rfl⟩ := checkZoneSection_ok hzone
    simp [updateSection, hname, checkPrerequisites_end hprereq, hsec]
  exact ⟨hs, done.revision, hupdate, prescan_all hsec hscan, hrun, rfl, rfl, rfl⟩

end Run

end KariDns
