import KariDns.Lib.ChainTable
import KariDns.Zone.Compare

/-! The TTLs of a zone (`harmonize_rrset_ttls`).

The records of an RRset get the lowest TTL among them (RFC 2181 5.2), a signature gets that of
the set it covers (RFC 4035 2.2), and the text of the TTL is brought into line. The records
are found along the hash chains of the builder. Nothing but TTLs changes.
-/

namespace KariDns

open Octets DomainName ChainTable List

/-! ### The chains of a builder -/

/-- The bucket of an owner in a table of `size` chains. -/
def nameBucket (size : Nat) (name : Text) : Nat := (calcFnv1aStr name).toNat % size

/-- The bucket of a record; a deleted one has none. -/
def slotBucket (size : Nat) (s : Slot) : Option Nat :=
  if s.live then some (nameBucket size s.record.name) else none

/-- The builder with its hash chains. -/
structure Standby where
  size : Nat
  table : Table Slot

/-- The chains are those of the owners. -/
def Standby.Linked (st : Standby) : Prop := Chained (slotBucket st.size) st.table

/-- The hash chains of `build_zone_index`. -/
def linkRecords (records : List Slot) : Standby :=
  let size := nextPow2 (records.length * 2) 64 8
  ⟨size, build (slotBucket size) records⟩

variable (records : List Slot) (size : Nat) (st : Table Slot × List Nat) (ttl : UInt32)
    (t : Table Slot) (i : Nat)

lemma linkRecords_linked : (linkRecords records).Linked := chained_build _ _

lemma linkRecords_vals : (linkRecords records).table.vals = records := build_vals _ _

/-! ### Harmonising -/

def Slot.withTtl (s : Slot) (ttl : UInt32) : Slot :=
  { s with record := { s.record with ttlValue := ttl } }

/-- Writes the TTL of the record in cell `k`. -/
def setTtl (ttl : UInt32) (t : Table Slot) (k : Nat) : Table Slot :=
  match t.get k with
  | none => t
  | some s => t.set k (s.withTtl ttl)

/-- A record of the RRset of `a` that the same clients see. -/
def sameRrset (a b : Slot) : Bool :=
  b.live ∧ b.record.typeCode = a.record.typeCode ∧ strcaseeq b.record.name a.record.name ∧
    dnsRecordSameVisibility b.record a.record

/-- The lowest TTL among `low` and those of the given cells. -/
def lowestTtl (t : Table Slot) (low : UInt32) (ks : List Nat) : UInt32 :=
  ks.foldl (fun low k => match t.get k with | some s => min s.record.ttlValue low | none => low) low

/-- Phase 1 for one record; `done` are the cells that were handled before. -/
def harmonizeSet (size : Nat) (st : Table Slot × List Nat) (i : Nat) : Table Slot × List Nat :=
  match st.1.get i with
  | none => st
  | some s =>
    if i ∈ st.2 ∨ ¬ s.live ∨ s.record.typeCode = 46 then st
    else
      let others := (st.1.chain (nameBucket size s.record.name)).filter fun j =>
        j ≠ i ∧ (st.1.get j).any (sameRrset s)
      let low := lowestTtl st.1 s.record.ttlValue others
      let todo := i :: others.filter (· ∉ st.2)
      (todo.foldl (setTtl low) st.1, todo ++ st.2)

/-- The type a signature covers, 0 when it cannot be told. -/
def coveredType (rec : DnsRecord) : Nat :=
  match rec.cache with
  | .rrsig typeCovered _ _ _ _ _ _ _ _ => typeCovered
  | _ => if rec.rdata.length ≥ 1 then getTypeCode (rec.rd 0) else 0

/-- Phase 2 for one record. -/
def alignSignature (size : Nat) (t : Table Slot) (i : Nat) : Table Slot :=
  match t.get i with
  | none => t
  | some s =>
    let covered := coveredType s.record
    if ¬ s.live ∨ s.record.typeCode ≠ 46 ∨ covered = 0 then t
    else
      match t.find (nameBucket size s.record.name) fun r =>
          r.live ∧ r.record.typeCode.toNat = covered ∧ strcaseeq r.record.name s.record.name with
      | none => t
      | some j =>
        match t.get j with
        | none => t
        | some r => setTtl r.record.ttlValue t i

/-- The text of the TTL for one record. -/
def printTtl (t : Table Slot) (i : Nat) : Table Slot :=
  match t.get i with
  | none => t
  | some s =>
    if s.live then
      t.set i { s with record := { s.record with ttl := decimal s.record.ttlValue.toNat } } else t

/-- `harmonize_rrset_ttls`. -/
def harmonizeRrsetTtls (st : Standby) : Standby :=
  let places := List.range st.table.cells.length
  let sets := (places.foldl (harmonizeSet st.size) (st.table, [])).1
  let signed := places.foldl (alignSignature st.size) sets
  ⟨st.size, places.foldl printTtl signed⟩

/-! ### What stays -/

/-- A record without its TTL. -/
def DnsRecord.noTtl (rec : DnsRecord) : DnsRecord := { rec with ttl := [], ttlValue := 0 }

def Slot.noTtl (s : Slot) : Slot := { s with record := s.record.noTtl }

lemma slotBucket_noTtl (s : Slot) : slotBucket size s = slotBucket size s.noTtl := rfl

/-- The chains are as they were and so is everything but TTLs. -/
structure OnlyTtl (size : Nat) (t t' : Table Slot) : Prop where
  chained : Chained (slotBucket size) t → Chained (slotBucket size) t'
  vals : t'.vals.map Slot.noTtl = t.vals.map Slot.noTtl

lemma OnlyTtl.refl : OnlyTtl size t t := ⟨id, rfl⟩

lemma OnlyTtl.trans {size : Nat} {t t' t'' : Table Slot} (h : OnlyTtl size t t')
    (h' : OnlyTtl size t' t'') :
    OnlyTtl size t t'' :=
  ⟨fun hc => h'.chained (h.chained hc), h'.vals.trans h.vals⟩

lemma OnlyTtl.foldl {β : Type} {size : Nat} {f : Table Slot → β → Table Slot}
    (hf : ∀ t b, OnlyTtl size t (f t b)) :
    ∀ (bs : List β) (t : Table Slot), OnlyTtl size t (bs.foldl f t)
  | [], t => .refl size t
  | b :: bs, t => (hf t b).trans (OnlyTtl.foldl hf bs (f t b))

/-- A record overwritten by itself with another TTL. -/
lemma onlyTtl_set {t : Table Slot} {k : Nat} {s s' : Slot} (hs : t.get k = some s)
    (h : s'.noTtl = s.noTtl) :
    OnlyTtl size t (t.set k s') := by
  refine ⟨fun hc => hc.set hs (.inl ?_), ?_⟩
  · rw [slotBucket_noTtl size s', slotBucket_noTtl size s, h]
  rw [set_vals, map_set, h]
  rw [get_eq_vals] at hs
  refine ext_getElem? fun i => ?_
  rw [getElem?_set]
  split
  · rename_i hki
    subst hki
    simp only [length_map, getElem?_map, hs, Option.map_some]
    rw [if_pos (List.getElem?_eq_some_iff.mp hs).1]
  · rfl

lemma onlyTtl_setTtl (k : Nat) : OnlyTtl size t (setTtl ttl t k) := by
  unfold setTtl
  cases hs : t.get k with
  | none => exact .refl size t
  | some s => exact onlyTtl_set size hs rfl

lemma onlyTtl_harmonizeSet : OnlyTtl size st.1 (harmonizeSet size st i).1 := by
  unfold harmonizeSet
  split
  · exact .refl size st.1
  split
  · exact .refl size st.1
  · exact .foldl (onlyTtl_setTtl size _) _ _

lemma onlyTtl_alignSignature : OnlyTtl size t (alignSignature size t i) := by
  unfold alignSignature
  split
  · exact .refl size t
  dsimp only
  split
  · exact .refl size t
  split
  · exact .refl size t
  split
  · exact .refl size t
  · exact onlyTtl_setTtl size _ t i

lemma onlyTtl_printTtl : OnlyTtl size t (printTtl t i) := by
  unfold printTtl
  cases hs : t.get i with
  | none => exact .refl size t
  | some s =>
    dsimp only
    split
    · exact onlyTtl_set size hs rfl
    · exact .refl size t

lemma onlyTtl_sets (size : Nat) : ∀ (ks : List Nat) (st : Table Slot × List Nat),
    OnlyTtl size st.1 (ks.foldl (harmonizeSet size) st).1
  | [], st => .refl size st.1
  | k :: ks, st => (onlyTtl_harmonizeSet size st k).trans (onlyTtl_sets size ks _)

/-- Harmonising changes TTLs and nothing else. -/
lemma harmonize_onlyTtl (st : Standby) : OnlyTtl st.size st.table (harmonizeRrsetTtls st).table :=
  ((onlyTtl_sets st.size _ (st.table, [])).trans
    (.foldl (onlyTtl_alignSignature st.size) _ _)).trans
    (.foldl (onlyTtl_printTtl st.size) _ _)

end KariDns
