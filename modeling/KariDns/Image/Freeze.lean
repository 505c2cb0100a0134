import KariDns.Lib.ProbeTable
import KariDns.Zone.Validate
import KariDns.Image.Tables

/-! The zone image and how it is made (`zone_image_freeze`).

The image holds what the serving side reads of a zone: one entry for each owner, the records
of an owner side by side with RDATA as octets, a hash table over the owners, the owners in
canonical order, the NSEC and NSEC3 indexes, the glue targets and the tables of the zone.
Strings stand where the C image has offsets into its strings area.
-/

namespace KariDns

open Octets DomainName List Option

/-! ### The image -/

/-- `zone_image_name_t`: the owner as its first record spells it, its records, its flags. -/
structure ImageName where
  text : Text
  wire : Option Name
  hash : UInt32
  firstRr : Nat
  count : Nat
  wildcard : Bool
  cut : Bool
  dname : Bool
  apex : Bool
  nsec : Bool
  glue : Bool
  isAlias : Bool
  deriving DecidableEq

/-- `zone_image_ext_t`; `alt` is the record's own spelling of the owner where it differs. -/
structure ImageExt where
  ttd : Int
  countdown : Bool
  loc : UInt8 × UInt8
  ecsTag : Option Text
  locTag : Option Text
  alt : Option (Text × Option Name)
  deriving DecidableEq

/-- `zone_image_rr_t`. -/
structure ImageRr where
  nameId : Nat
  type : UInt16
  classVal : Nat
  ttl : Nat
  rdata : List UInt8
  raw : Bool
  noNameWire : Bool
  ext : Option ImageExt
  deriving DecidableEq

/-- `zone_image_n3chain_t` with its entries. -/
structure ImageN3Chain where
  algorithm : Nat
  iterations : Nat
  salt : List UInt8
  entries : List Nat
  deriving DecidableEq

/-- The parameters of the NSEC3 chain in use. -/
structure ImageN3Params where
  paramRr : Nat
  chain : Option Nat
  algorithm : Nat
  iterations : Nat
  salt : List UInt8
  deriving DecidableEq

/-- `zone_image_t`. -/
structure ZoneImage where
  names : List ImageName
  rrs : List ImageRr
  canon : List Nat
  nsec : List Nat
  n3chains : List ImageN3Chain
  n3 : Option ImageN3Params
  glue : List Nat
  hashSize : Nat
  perm : Option (List Nat)
  apexName : Option Nat
  isTinydns : Bool
  zattr : List UInt8
  deriving DecidableEq

variable (img : ZoneImage) (records : List Slot) (p : FreezePlan) (rrs : List ImageRr)

/-- `ZONE_IMAGE_F_WILDCARD` and its like: some owner has the flag. -/
def ZoneImage.hasWild : Bool := img.names.any (·.wildcard)

def ZoneImage.hasDname : Bool := img.names.any (·.dname)

def ZoneImage.hasCut : Bool := img.names.any (·.cut)

/-! ### Owners -/

/-- `tmp_name_t`. -/
structure TmpName where
  text : Text
  hash : UInt32
  firstRec : Nat
  deriving DecidableEq

/-- The table over the owners found so far. -/
def tmpTable (size : Nat) (names : List TmpName) : Nat → Option (TmpName × Nat) :=
  ProbeTable.build size (fun v => v.1.hash.toNat) names.zipIdx

/-- `tmp_find`. -/
def tmpFind (size : Nat) (names : List TmpName) (t : Text) : Option Nat :=
  (ProbeTable.find size (tmpTable size names) (dnsNameHashCi t).toNat fun v =>
    v.1.hash = dnsNameHashCi t ∧ domainNamesMatchCi v.1.text t).map (·.2)

/-- Step 1: one id for each owner in order of appearance, and the id of every record; `i` is the
place of the first record given. -/
def nameOwners (size : Nat) : List Slot → Nat → List TmpName → List TmpName × List (Option Nat)
  | [], _, names => (names, [])
  | s :: rest, i, names =>
    if s.live then
      match tmpFind size names s.record.name with
      | some id =>
        let r := nameOwners size rest (i + 1) names
        (r.1, some id :: r.2)
      | none =>
        let r := nameOwners size rest (i + 1)
          (names ++ [⟨s.record.name, dnsNameHashCi s.record.name, i⟩])
        (r.1, some names.length :: r.2)
    else
      let r := nameOwners size rest (i + 1) names
      (r.1, none :: r.2)

/-- The places of the records of owner `id`. -/
def recordsOf (recName : List (Option Nat)) (id : Nat) : List Nat :=
  (recName.zipIdx.filter fun v => v.1 = some id).map (·.2)

/-- Step 2, `rr_rec`: owners in order of appearance, file order within an owner. -/
def placeRrs (nNames : Nat) (recName : List (Option Nat)) : List Nat :=
  (List.range nNames).flatMap (recordsOf recName)

/-- `rec_owner_wire`. -/
def recOwnerWire (rec : DnsRecord) : Option Name :=
  match rec.nameWire with
  | some n => some n
  | none => readName rec.name

/-! ### Records -/

/-- The record is seen only by some clients or at some times. -/
def DnsRecord.restricted (rec : DnsRecord) : Bool :=
  rec.tinydnsTtd ≠ 0 ∨ rec.tinydnsTtlCountdown ∨ rec.tinydnsLoc ≠ (0, 0) ∨
    rec.ecsSubnetTag.isSome ∨ rec.bindLocationTag.isSome

/-- The extras of a record whose owner's entry has spelling `text` and wire form `wire`. -/
def freezeExt (text : Text) (wire : Option Name) (rec : DnsRecord) : Option ImageExt :=
  let alt := rec.name ≠ text ∨ recOwnerWire rec ≠ wire
  if alt ∨ rec.restricted then
    some
      { ttd := rec.tinydnsTtd
        countdown := rec.tinydnsTtlCountdown
        loc := rec.tinydnsLoc
        ecsTag := rec.ecsSubnetTag
        locTag := rec.bindLocationTag
        alt := if alt then some (rec.name, recOwnerWire rec) else none }
  else none

/-- Step 4 for one record of owner `id`. -/
def freezeRr (id : Nat) (text : Text) (wire : Option Name) (rec : DnsRecord) : Option ImageRr :=
  (captureRdata rec).map fun rdata =>
    { nameId := id
      type := rec.typeCode
      classVal := recClass rec
      ttl := recTtl rec
      rdata := rdata
      raw := rec.generic.isSome ∨ rec.classVal = classKaridnsExt
      noNameWire := rec.nameWire.isNone
      ext := freezeExt text wire rec }

/-- What steps 1 and 2 decide: owners, the owner of every record, the order of the records. -/
structure FreezePlan where
  tmp : List TmpName
  recName : List (Option Nat)
  rrRec : List Nat

def tmpTableSize (n : Nat) : Nat := nextPow2 (n * 2 + 2) 64 8

def freezePlan : FreezePlan :=
  let owners := nameOwners (tmpTableSize records.length) records 0 []
  ⟨owners.1, owners.2, placeRrs owners.1.length owners.2⟩

/-- `rec_rr`: the image's number of the record at a place. -/
def FreezePlan.recRr (i : Nat) : Option Nat := p.rrRec.idxOf? i

/-- The number of records of an owner. -/
def FreezePlan.count (id : Nat) : Nat := (recordsOf p.recName id).length

/-- The image's number of the first record of an owner. -/
def FreezePlan.firstRr (id : Nat) : Nat := (placeRrs id p.recName).length

def FreezePlan.find (nRecords : Nat) (t : Text) : Option Nat :=
  tmpFind (tmpTableSize nRecords) p.tmp t

/-- Step 4: the records in image order. -/
def freezeRrs : Option (List ImageRr) :=
  p.rrRec.mapM fun i => do
    let slot ← records[i]?
    let id ← (p.recName[i]?).join
    let owner ← p.tmp[id]?
    let first ← records[owner.firstRec]?
    freezeRr id owner.text (recOwnerWire first.record) slot.record

/-! ### Names, glue and indexes -/

/-- The records of an owner that has `count` of them from `first` on. -/
def rrRange (first count : Nat) : List ImageRr := (rrs.drop first).take count

/-- The name an NS, MX or SRV record points to, from its text. -/
def glueTarget (rec : DnsRecord) : Option Text :=
  let target :=
    if rec.typeCode = 2 ∧ rec.rdata.length ≥ 1 then some (rec.rd 0)
    else if rec.typeCode = 15 ∧ rec.rdata.length ≥ 2 then some (rec.rd 1)
    else if rec.typeCode = 33 ∧ rec.rdata.length ≥ 4 then some (rec.rd 3)
    else none
  target.filter (· ≠ [])

/-- The state of step 9: distinct targets so far, owners met, owners flagged, owners listed. -/
structure GlueState where
  targets : List Text := []
  seen : List Nat := []
  flagged : List Nat := []
  listed : List Nat := []

/-- `IMG_MAX_PRELINK_TARGETS`. -/
def maxPrelinkTargets : Nat := 256

/-- One record of step 9. -/
def glueStep (find : Text → Option Nat) (hasAddr : Nat → Bool) (st : GlueState)
    (rec : DnsRecord) : GlueState :=
  match glueTarget rec with
  | none => st
  | some t =>
    let inPrelink := !(st.targets.any fun u => domainNamesMatchCi u t) &&
      st.targets.length < maxPrelinkTargets
    let st := if inPrelink then { st with targets := st.targets ++ [t] } else st
    match find t with
    | none => st
    | some id =>
      let st := if hasAddr id ∧ inPrelink then { st with flagged := st.flagged ++ [id] } else st
      if id ∈ st.seen then st
      else
        { st with
          seen := st.seen ++ [id]
          listed := if hasAddr id then st.listed ++ [id] else st.listed }

/-- Step 9. -/
def glueTargets : GlueState :=
  let hasAddr := fun id =>
    (rrRange rrs (p.firstRr id) (p.count id)).any fun rr => rr.type = 1 ∨ rr.type = 28
  ((liveRecords records).map (·.2)).foldl (glueStep (p.find records.length) hasAddr) {}

/-- Steps 3 and 5: the entry of one owner. -/
def freezeName (apexId : Option Nat) (flagged : List Nat) (owner : TmpName)
    (id : Nat) : ImageName :=
  let own := rrRange rrs (p.firstRr id) (p.count id)
  { text := owner.text
    wire := (records[owner.firstRec]?).bind fun s => recOwnerWire s.record
    hash := owner.hash
    firstRr := p.firstRr id
    count := p.count id
    wildcard := owner.text.take 2 = ascii "*."
    cut := apexId ≠ some id ∧ own.any fun rr => rr.type = 2
    dname := own.any fun rr => rr.type = 39
    apex := apexId = some id
    nsec := own.any fun rr => rr.type = 47
    glue := id ∈ flagged
    isAlias := own.any fun rr => rr.type = typeAlias ∧ rr.classVal = 1 }

/-- Step 8 for one chain: the salt comes from the RDATA of its first record. -/
def freezeN3Chain (ch : Nsec3Chain) : Option ImageN3Chain := do
  let entries ← ch.entries.mapM fun e => p.recRr e.place
  let first ← entries.head?
  let rr ← rrs[first]?
  let saltLen ← rr.rdata[4]?
  if saltLen.toNat + 5 > rr.rdata.length then none
  else return ⟨ch.algorithm, ch.iterations, (rr.rdata.drop 5).take saltLen.toNat, entries⟩

/-- Step 8: the parameters in use. -/
def freezeN3Params (nChains : Nat) (n3 : Option Nsec3Params) : Option (Option ImageN3Params) :=
  match n3 with
  | none => some none
  | some a => do
    let rr ← p.recRr a.param
    if a.chain.any (· ≥ nChains) then none
    else return some ⟨rr, a.chain, a.algorithm, a.iterations, a.salt⟩

/-- Step 10: slots of the hash table, load factor at most three quarters. -/
def hashSizeFor (nNames : Nat) : Nat → Nat → Nat
  | 0, size => size
  | fuel + 1, size => if size * 3 < nNames * 4 then hashSizeFor nNames fuel (size * 2) else size

/-- The order of the records in the file, where the image's order differs from it. -/
def freezePerm : Option (List Nat) :=
  let file := (liveRecords records).map (·.1)
  if file = p.rrRec then none else some (file.filterMap p.recRr)

/-! ### Size -/

def round8 (n : Nat) : Nat := (n + 7) / 8 * 8

def wireSize (w : Option Name) : Nat := (w.map fun n => (wire n).length).getD 0

def textSize (t : Option Text) : Nat := (t.map fun s => s.length + 1).getD 0

/-- Octets of the strings area. -/
def stringsSize : Nat :=
  8 + (img.names.map fun n => n.text.length + 1 + wireSize n.wire).sum +
    (img.rrs.map fun rr =>
      rr.rdata.length +
        match rr.ext with
        | none => 0
        | some e =>
          textSize e.ecsTag + textSize e.locTag +
            textSize (e.alt.map (·.1)) + wireSize (e.alt.bind (·.2))).sum +
    (img.n3chains.map fun ch => ch.salt.length).sum + (img.n3.map fun p => p.salt.length).getD 0

/-- `total_size`: header, arrays and strings, each rounded up to eight octets. -/
def imageSize : Nat :=
  128 + round8 (24 * img.names.length) + round8 (24 * img.rrs.length) +
    round8 (32 * (img.rrs.filter fun rr => rr.ext.isSome).length) +
      round8 (16 * img.n3chains.length) +
    round8 (4 * img.hashSize) + round8 (4 * img.canon.length) + round8 (4 * img.nsec.length) +
    round8 (4 * (img.n3chains.map fun ch => ch.entries.length).sum) + round8 (4 * img.glue.length) +
    round8 (4 * (img.perm.map List.length).getD 0) + round8 img.zattr.length +
    round8 (stringsSize img)

/-! ### Freezing -/

/-- The limits on counts, checked before anything is built. -/
def freezeCountsOk : Bool :=
  records.length < 0x7FFFFFFF ∧ ∀ id < p.tmp.length, p.count id ≤ 0x00FFFFFF

/-- `zone_image_freeze`; `none` is a null pointer. -/
def zoneImageFreeze (a : ZoneArena) (apex : Option Text) : Option ZoneImage := do
  let ix ← a.index
  let p := freezePlan a.records
  if (validateZonePdnsTypes (some ix) a.records).isSome ∨ ¬ freezeCountsOk a.records p then none
  else
    let rrs ← freezeRrs a.records p
    let canon ← ix.sortedUniqueNames.mapM (p.find a.records.length)
    if canon = [] ∧ p.tmp ≠ [] then none
    else
      let nsec ← ix.nsecRecords.mapM p.recRr
      let n3chains ← ix.nsec3Chains.mapM (freezeN3Chain p rrs)
      let n3 ← freezeN3Params p n3chains.length ix.nsec3Active
      let apexId := apex.bind (p.find a.records.length)
      let glue := glueTargets a.records p rrs
      let img : ZoneImage :=
        { names := p.tmp.zipIdx.map fun (owner, id) =>
            freezeName a.records p rrs apexId glue.flagged owner id
          rrs := rrs
          canon := canon
          nsec := nsec
          n3chains := n3chains
          n3 := n3
          glue := glue.listed
          hashSize := hashSizeFor p.tmp.length 64 4
          perm := freezePerm a.records p
          apexName := apexId
          isTinydns := a.isTinydns
          zattr := buildZattr a.tables }
      if imageSize img > 0xFFFFF000 then none else some img

/-- Everything that holds of an accepted arena and its image. -/
structure Frozen (a : ZoneArena) (apex : Option Text) (ix : ZoneIndex)
    (img : ZoneImage) : Prop where
  index : a.index = some ix
  valid : validateZonePdnsTypes (some ix) a.records = none
  counts : freezeCountsOk a.records (freezePlan a.records) = true
  rrs : freezeRrs a.records (freezePlan a.records) = some img.rrs
  names : img.names = (freezePlan a.records).tmp.zipIdx.map fun (owner, id) =>
    freezeName a.records (freezePlan a.records) img.rrs img.apexName
      (glueTargets a.records (freezePlan a.records) img.rrs).flagged owner id
  canon : ix.sortedUniqueNames.mapM ((freezePlan a.records).find a.records.length) = some img.canon
  canonEmpty : img.canon = [] → (freezePlan a.records).tmp = []
  nsec : ix.nsecRecords.mapM (freezePlan a.records).recRr = some img.nsec
  n3chains : ix.nsec3Chains.mapM (freezeN3Chain (freezePlan a.records) img.rrs) = some img.n3chains
  n3 : freezeN3Params (freezePlan a.records) img.n3chains.length ix.nsec3Active = some img.n3
  glue : img.glue = (glueTargets a.records (freezePlan a.records) img.rrs).listed
  hashSize : img.hashSize = hashSizeFor (freezePlan a.records).tmp.length 64 4
  perm : img.perm = freezePerm a.records (freezePlan a.records)
  apexName : img.apexName = apex.bind ((freezePlan a.records).find a.records.length)
  isTinydns : img.isTinydns = a.isTinydns
  zattr : img.zattr = buildZattr a.tables
  size : imageSize img ≤ 0xFFFFF000

lemma frozen_of_freeze {a : ZoneArena} {apex : Option Text} {img : ZoneImage}
    (h : zoneImageFreeze a apex = some img) :
    ∃ ix, Frozen a apex ix img := by
  unfold zoneImageFreeze at h
  obtain ⟨ix, hix, h⟩ := bind_eq_some_iff.mp h
  dsimp only at h
  split at h
  · cases h
  rename_i hchecks
  obtain ⟨hvalid, hcounts⟩ := not_or.mp hchecks
  obtain ⟨rrs, hrrs, h⟩ := bind_eq_some_iff.mp h
  obtain ⟨canon, hcanon, h⟩ := bind_eq_some_iff.mp h
  split at h
  · cases h
  rename_i hempty
  obtain ⟨nsec, hnsec, h⟩ := bind_eq_some_iff.mp h
  obtain ⟨n3chains, hchains, h⟩ := bind_eq_some_iff.mp h
  obtain ⟨n3, hn3, h⟩ := bind_eq_some_iff.mp h
  split at h
  · cases h
  rename_i hsize
  obtain rfl := some.inj h
  exact ⟨ix,
    { index := hix
      valid := by simpa using hvalid
      counts := by simpa using hcounts
      rrs := hrrs
      names := rfl
      canon := hcanon
      canonEmpty := by simpa using hempty
      nsec := hnsec
      n3chains := hchains
      n3 := hn3
      glue := rfl
      hashSize := rfl
      perm := rfl
      apexName := rfl
      isTinydns := rfl
      zattr := rfl
      size := by omega }⟩

/-! ### Where a record goes -/

lemma tmpFind_lt {size : Nat} {names : List TmpName} {t : Text} {id : Nat}
    (h : tmpFind size names t = some id) :
    id < names.length := by
  obtain ⟨v, hv, rfl⟩ := map_eq_some_iff.mp h
  obtain ⟨-, s, hs⟩ := ProbeTable.walk_some hv
  have hmem := ProbeTable.mem_of_build hs
  obtain ⟨-, hlt, -⟩ := mem_zipIdx hmem
  omega

/-- Every live record has an owner, and only owners that were found before stay behind. -/
lemma nameOwners_spec {size : Nat} : ∀ (recs : List Slot) (i : Nat) (names : List TmpName),
    names.length ≤ (nameOwners size recs i names).1.length ∧
      ∀ (j : Nat) (s : Slot), recs[j]? = some s → s.live = true →
        ∃ id, (nameOwners size recs i names).2[j]? = some (some id) ∧
          id < (nameOwners size recs i names).1.length
  | [], i, names => ⟨Nat.le_refl _, by simp⟩
  | slot :: rest, i, names => by
    -- one record with its id in front of what is said about the others
    have hstep : ∀ (names' : List TmpName) (o : Option Nat), names.length ≤ names'.length →
        (slot.live = true → ∃ id, o = some id ∧ id < names'.length) →
        names.length ≤ (nameOwners size rest (i + 1) names').1.length ∧
          ∀ (j : Nat) (s : Slot), (slot :: rest)[j]? = some s → s.live = true →
            ∃ id, (o :: (nameOwners size rest (i + 1) names').2)[j]? = some (some id) ∧
              id < (nameOwners size rest (i + 1) names').1.length := by
      intro names' o hle ho
      obtain ⟨hgrow, hrest⟩ := nameOwners_spec rest (i + 1) names'
      refine ⟨Nat.le_trans hle hgrow, fun j s hj hlive => ?_⟩
      cases j with
      | zero =>
        obtain rfl : slot = s := by simpa using hj
        obtain ⟨id, rfl, hid⟩ := ho hlive
        exact ⟨id, rfl, Nat.lt_of_lt_of_le hid hgrow⟩
      | succ j => exact hrest j s (by simpa using hj) hlive
    rw [nameOwners]
    split
    · split
      · rename_i id hid
        exact hstep names (some id) (Nat.le_refl _) fun _ => ⟨id, rfl, tmpFind_lt hid⟩
      · exact hstep _ (some names.length) (by simp) fun _ => ⟨names.length, rfl, by simp⟩
    · rename_i hdead
      exact hstep names none (Nat.le_refl _) fun h => absurd h hdead

lemma mem_recordsOf {recName : List (Option Nat)} {id i : Nat} :
    i ∈ recordsOf recName id ↔ recName[i]? = some (some id) := by
  simp [recordsOf, mem_zipIdx_iff_getElem?]

lemma mem_placeRrs {n : Nat} {recName : List (Option Nat)} {i : Nat} :
    i ∈ placeRrs n recName ↔ ∃ id < n, recName[i]? = some (some id) := by
  simp [placeRrs, mem_recordsOf]

/-- Every live record gets a place in the image. -/
lemma recRr_isSome {records : List Slot} {i : Nat} {s : Slot} (hs : records[i]? = some s)
    (hlive : s.live = true) :
    ∃ k, (freezePlan records).recRr i = some k ∧ (freezePlan records).rrRec[k]? = some i := by
  obtain ⟨id, hid, hlt⟩ :=
    (@nameOwners_spec (tmpTableSize records.length) records 0 []).2 i s hs hlive
  have hmem : i ∈ (freezePlan records).rrRec := mem_placeRrs.mpr ⟨id, hlt, hid⟩
  obtain ⟨k, hk⟩ := isSome_iff_exists.mp (isSome_idxOf?.mpr hmem)
  refine ⟨k, hk, ?_⟩
  obtain ⟨hlt', heq, -⟩ := idxOf?_eq_some_iff.mp hk
  rw [getElem?_eq_getElem hlt']
  simpa using heq

lemma mapM_length {α β : Type} {f : α → Option β} : ∀ {l : List α} {l' : List β},
    l.mapM f = some l' → l.length = l'.length
  | [], l', h => by
    obtain rfl : [] = l' := some.inj h
    rfl
  | x :: l, l', h => by
    rw [mapM_cons] at h
    obtain ⟨y, -, h⟩ := bind_eq_some_iff.mp h
    obtain ⟨ys, hys, h⟩ := bind_eq_some_iff.mp h
    obtain rfl := some.inj h
    simp [mapM_length hys]

/-- The members of a list that a partial function maps. -/
lemma mapM_getElem? {α β : Type} {f : α → Option β} :
    ∀ {l : List α} {l' : List β} {k : Nat} {a : α},
    l.mapM f = some l' → l[k]? = some a → ∃ b, l'[k]? = some b ∧ f a = some b
  | [], _, _, _, _, ha => by simp at ha
  | x :: l, l', k, a, h, ha => by
    rw [mapM_cons] at h
    obtain ⟨y, hy, h⟩ := bind_eq_some_iff.mp h
    obtain ⟨ys, hys, h⟩ := bind_eq_some_iff.mp h
    obtain rfl := some.inj h
    cases k with
    | zero =>
      obtain rfl : x = a := by simpa using ha
      exact ⟨y, rfl, hy⟩
    | succ k =>
      have ha : l[k]? = some a := by simpa using ha
      simpa using mapM_getElem? hys ha

lemma mapM_mem {α β : Type} {f : α → Option β} {l : List α} {l' : List β} (h : l.mapM f = some l')
    {b : β} (hb : b ∈ l') : ∃ a ∈ l, f a = some b := by
  obtain ⟨k, hk⟩ := mem_iff_getElem?.mp hb
  have hlt : k < l.length := by
    rw [mapM_length h]
    exact (List.getElem?_eq_some_iff.mp hk).1
  obtain ⟨b', hb', hf⟩ := mapM_getElem? h (getElem?_eq_getElem hlt)
  rw [hk] at hb'
  cases hb'
  exact ⟨_, getElem_mem hlt, hf⟩

/-- The image's record at place `k` of the plan is the frozen form of the record it names, at the
owner the plan gives it. -/
lemma Frozen.place {a : ZoneArena} {apex : Option Text} {ix : ZoneIndex} {img : ZoneImage}
    (h : Frozen a apex ix img) {k i : Nat} (hplace : (freezePlan a.records).rrRec[k]? = some i) :
    ∃ s rr nm, a.records[i]? = some s ∧ img.rrs[k]? = some rr ∧
      (freezePlan a.records).recName[i]? = some (some rr.nameId) ∧ img.names[rr.nameId]? = some nm ∧
      freezeRr rr.nameId nm.text nm.wire s.record = some rr := by
  obtain ⟨rr, hrr, hone⟩ := mapM_getElem? h.rrs hplace
  obtain ⟨slot, hslot, hone⟩ := bind_eq_some_iff.mp hone
  obtain ⟨id, hid, hone⟩ := bind_eq_some_iff.mp hone
  obtain ⟨owner, howner, hone⟩ := bind_eq_some_iff.mp hone
  obtain ⟨first, hfirst, hone⟩ := bind_eq_some_iff.mp hone
  obtain rfl : rr.nameId = id := by
    obtain ⟨rdata, -, rfl⟩ := map_eq_some_iff.mp hone
    rfl
  refine ⟨slot, rr, freezeName a.records (freezePlan a.records) img.rrs img.apexName
    (glueTargets a.records (freezePlan a.records) img.rrs).flagged owner rr.nameId, hslot, hrr,
      join_eq_some_iff.mp hid, ?_, ?_⟩
  · simp [h.names, howner]
  · simpa [freezeName, hfirst] using hone

end KariDns
