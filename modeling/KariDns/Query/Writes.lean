import KariDns.Query.Resolve
import KariDns.Query.Loaded

/-! What each part of the engine writes.

For every packet, a part of the engine appends the beginning of a list of records that depends
on the zone and the query only, and all of it when it succeeds. A packet that takes every
record gets the whole list.
-/

namespace KariDns

open Octets DomainName List Option

variable {rr : ImageRr} {img : ZoneImage}

variable {σ : Type}

/-! ### Records more in a section -/

/-- The response with the records `es` behind those of a section. -/
def Resp.addAll (r : Resp σ) (sec : Section) (es : List Emit) : Resp σ :=
  match sec with
  | .answer => { r with answer := r.answer ++ es }
  | .authority => { r with authority := r.authority ++ es }
  | .additional => { r with additional := r.additional ++ es }

variable (S : Sink σ) (spec : RrsetSpec) (r : Resp σ) (sec : Section) (e : Emit)
  (es : List Emit) (s : σ) (g : List Text) (es' : List Emit)

@[simp] lemma Resp.addAll_nil : r.addAll sec [] = r := by
  cases sec <;> simp [Resp.addAll]

@[simp] lemma Resp.addAll_sink : (r.addAll sec es).sink = r.sink := by
  cases sec <;> rfl

@[simp] lemma Resp.addAll_glue : (r.addAll sec es).glue = r.glue := by
  cases sec <;> rfl

@[simp] lemma Resp.addAll_tc : (r.addAll sec es).tc = r.tc := by
  cases sec <;> rfl

@[simp] lemma Resp.addAll_rcode : (r.addAll sec es).rcode = r.rcode := by
  cases sec <;> rfl

@[simp] lemma Resp.addAll_aa : (r.addAll sec es).aa = r.aa := by
  cases sec <;> rfl

/-! ### RRsets -/

/-- Records whose owners are in the image. -/
def ZoneImage.Holds (img : ZoneImage) (l : List (ImageRr × Nat)) : Prop :=
  ∀ v ∈ l, ∃ nm, img.names[v.1.nameId]? = some nm

/-- Every record of the image has its owner. -/
def ZoneImage.Owned (img : ZoneImage) : Prop := ∀ id, img.Holds (img.rrsAt id)

lemma zoneImageFreeze_owned {a : ZoneArena} {apex : Option Text}
    (h : zoneImageFreeze a apex = some img) :
    img.Owned := by
  obtain ⟨ix, hfrozen⟩ := frozen_of_freeze h
  rintro (_ | id) ⟨rr, k⟩ hv
  · cases hv
  · obtain ⟨-, hid, nm, -, hnm, -⟩ := hfrozen.ownRr hv
    exact ⟨nm, hid ▸ hnm⟩

/-- A record of an image for the packet. -/
def ZoneImage.emit (img : ZoneImage) (rr : ImageRr) (owner : Option Text) (ttl : Nat) : List Emit :=
  ((img.names[rr.nameId]?).map fun nm => Emit.rr nm rr owner ttl).toList

/-- The signatures of an owner over a type. -/
def sigsOf (img : ZoneImage) (owner : Option Text) (covered overrideTtl : Nat)
    (l : List (ImageRr × Nat)) : List Emit :=
  l.flatMap fun v =>
    if v.1.type = 46 ∧ rrsigCovered v.1 = some covered then
      img.emit v.1 owner (ttlWithOverride v.1.ttl overrideTtl)
    else []

/-- The records of an RRset; a zone with restricted SOA records gives one. -/
def RrsetSpec.records (spec : RrsetSpec) (img : ZoneImage) :
    List (ImageRr × Nat) → List (ImageRr × Nat)
  | [] => []
  | v :: l =>
    if (spec.serves v.1).isNone then spec.records img l
    else if spec.type = 6 ∧ img.soaAttr then [v]
    else v :: spec.records img l

def RrsetSpec.emits (spec : RrsetSpec) (img : ZoneImage) (l : List (ImageRr × Nat)) : List Emit :=
  (spec.records img l).flatMap fun v => img.emit v.1 spec.owner ((spec.serves v.1).getD 0)

lemma RrsetSpec.records_sub (spec : RrsetSpec) (img : ZoneImage) : ∀ (l : List (ImageRr × Nat)),
    ∀ v ∈ spec.records img l, v ∈ l ∧ (spec.serves v.1).isSome = true
  | [], v, hv => by cases hv
  | u :: l, v, hv => by
    have ih := spec.records_sub img l
    rw [RrsetSpec.records] at hv
    split at hv
    · obtain ⟨hmem, hs⟩ := ih v hv
      exact ⟨mem_cons_of_mem _ hmem, hs⟩
    rename_i hserves
    have hu : (spec.serves u.1).isSome = true := by simpa [isSome_iff_ne_none] using hserves
    split at hv
    · rw [mem_singleton.mp hv]
      exact ⟨mem_cons_self, hu⟩
    rcases mem_cons.mp hv with rfl | hv
    · exact ⟨mem_cons_self, hu⟩
    · obtain ⟨hmem, hs⟩ := ih v hv
      exact ⟨mem_cons_of_mem _ hmem, hs⟩

lemma RrsetSpec.records_eq_nil {spec : RrsetSpec} {img : ZoneImage} : ∀ {l : List (ImageRr × Nat)},
    spec.records img l = [] ↔ ∀ v ∈ l, spec.serves v.1 = none
  | [] => by simp [RrsetSpec.records]
  | u :: l => by
    have ih := @RrsetSpec.records_eq_nil spec img l
    rw [RrsetSpec.records]
    cases hu : spec.serves u.1 with
    | none => simp [ih, hu]
    | some ttl =>
      simp only [isNone_some, Bool.false_eq_true, if_false]
      split <;> simp [hu]

lemma RrsetSpec.emits_eq_nil {spec : RrsetSpec} {l : List (ImageRr × Nat)} (h : img.Holds l) :
    spec.emits img l = [] ↔ spec.records img l = [] := by
  constructor
  · intro hnil
    rw [RrsetSpec.emits, flatMap_eq_nil_iff] at hnil
    rw [eq_nil_iff_forall_not_mem]
    intro v hv
    obtain ⟨nm, hnm⟩ := h v (spec.records_sub img l v hv).1
    have := hnil v hv
    simp [ZoneImage.emit, hnm] at this
  · intro hnil
    simp [RrsetSpec.emits, hnil]

/-- The records of an RRset with their signatures. -/
def RrsetSpec.signed (spec : RrsetSpec) (img : ZoneImage) (l : List (ImageRr × Nat)) : List Emit :=
  spec.emits img l ++
    if spec.records img l = [] ∨ spec.mode = .none ∨ spec.type = 46 then []
    else sigsOf img spec.owner spec.type.toNat 0xFFFFFFFF l

lemma RrsetSpec.records_cons_none {spec : RrsetSpec} {v : ImageRr × Nat} {l : List (ImageRr × Nat)}
    (h : spec.serves v.1 = none) : spec.records img (v :: l) = spec.records img l := by
  simp [RrsetSpec.records, h]

/-- An RRset without records changes nothing. -/
lemma emitLoop_none (S : Sink σ) (spec : RrsetSpec) :
    ∀ {l : List (ImageRr × Nat)}, (∀ v ∈ l, spec.serves v.1 = none) → ∀ (n : Nat) (r : Resp σ),
      emitLoop S img spec l n r = (some n, r)
  | [], _, n, r => rfl
  | (rr, k) :: l, h, n, r => by
    rw [emitLoop, h (rr, k) mem_cons_self]
    exact emitLoop_none S spec (fun v hv => h v (mem_cons_of_mem _ hv)) n r

lemma emitRrset_none {id : Option Nat} (h : ∀ v ∈ img.rrsAt id, spec.serves v.1 = none)
    (r : Resp σ) :
    emitRrset S img id spec r = (some 0, r) := by
  rw [emitRrset, emitLoop_none S spec h]
  simp

/-! ### Denial -/

/-- The record of a proof and its owner. -/
def Denial.place (d : Denial) : Option (Nat × ImageRr) :=
  d.rr.bind fun k => (d.img.rrs[k]?).map (k, ·)

/-- A record of a proof with its signatures. -/
def Denial.emits (d : Denial) (rr : ImageRr) : List Emit :=
  d.img.emit rr none (d.ttl.getD rr.ttl) ++
    sigsOf d.img none rr.type.toNat 0xFFFFFFFF (d.img.rrsAt (some rr.nameId))

/-- What was attached before, with one record more. -/
def attachedWith (attached : List (Nat × Nat)) (p : Nat × Nat) : List (Nat × Nat) :=
  if attached.length < 8 then attached ++ [p] else attached

/-- The records of a proof, each once. -/
def denialEmits : List Denial → List (Nat × Nat) → List Emit
  | [], _ => []
  | d :: rest, attached =>
    match d.place with
    | none => denialEmits rest attached
    | some (k, rr) =>
      if (d.zone, k) ∈ attached then denialEmits rest attached
      else d.emits rr ++ denialEmits rest (attachedWith attached (d.zone, k))

/-- The image of a zone that a loader left. -/
def ZoneImage.Loaded (img : ZoneImage) : Prop := ∃ z : LoadedZone, z.img = img

lemma ZoneImage.Loaded.holds (h : img.Loaded) : img.Owned := by
  obtain ⟨z, rfl⟩ := h
  exact zoneImageFreeze_owned z.frozen

lemma ZoneImage.Loaded.rrName (h : img.Loaded) {k : Nat} (hrr : img.rrs[k]? = some rr) :
    ∃ nm, img.names[rr.nameId]? = some nm := by
  obtain ⟨z, rfl⟩ := h
  obtain ⟨nm, -, -, hnm, -⟩ := z.isFrozen.rrName hrr
  exact ⟨nm, hnm⟩

lemma Denial.place_rr {d : Denial} {k : Nat} (h : d.place = some (k, rr)) :
    d.rr = some k ∧ d.img.rrs[k]? = some rr := by
  obtain ⟨k', hk, h⟩ := bind_eq_some_iff.mp h
  obtain ⟨rr', hrr, h⟩ := map_eq_some_iff.mp h
  cases h
  exact ⟨hk, hrr⟩


end KariDns
