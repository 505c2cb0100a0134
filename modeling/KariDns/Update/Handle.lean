import KariDns.Image.Thaw
import KariDns.Update.Step
import KariDns.Zone.Limits

/-! From a dynamic update to the published zone (`handle_dynamic_update`).

The update is made in a builder thawed from the published image. If it changed something, TTLs
are brought under the limit of the zone, the zone gets a new serial unless the update brought
one, and the builder is indexed, measured against the limits of the zone and frozen. The image
that comes out is published; whatever goes wrong before leaves the old one.
-/

namespace KariDns

open Octets DomainName ChainTable List Option

variable {m : Buf} {out records : List Slot} {len : Nat} {signer : Option Text} {zoneName : Text}
    {env : UpdateEnv}

/-! ### Serials -/

/-- `serial_gt` (RFC 1982). -/
def serialGt (a b : Nat) : Bool := (a < b ∧ b - a > 0x80000000) ∨ (b < a ∧ a - b < 0x80000000)

/-- `serial-update-method`. -/
inductive SerialMethod
  | increment | unixtime | date
  deriving DecidableEq

/-- The clock: seconds, and year, month and day of the local date. -/
structure Clock where
  now : Int
  date : Option (Int × Int × Int)

/-- The serial the clock asks for, 0 for none. -/
def Clock.serial (clock : Clock) : SerialMethod → Nat
  | .increment => 0
  | .unixtime => (clock.now % 2 ^ 32).toNat
  | .date =>
    match clock.date with
    | none => 0
    | some (year, month, day) => ((year * 10000 + month * 100 + day) * 100 % 2 ^ 32).toNat

/-- `update_next_serial`; 0 is skipped. -/
def updateNextSerial (serial : Nat) (method : SerialMethod) (clock : Clock) : Nat :=
  let next := if (serial + 1) % 2 ^ 32 = 0 then 1 else (serial + 1) % 2 ^ 32
  let cand := clock.serial method
  if cand ≠ 0 ∧ serialGt cand serial then cand else next

/-- An SOA at the apex whose serial can be read. -/
def isApexSoa (zoneName : Text) (rec : DnsRecord) : Bool :=
  rec.typeCode = 6 ∧ domainNamesMatchCi rec.name zoneName ∧ rec.rdata.length ≥ 3

/-- `soa_write_serial` with memory for the text. -/
def soaWriteSerial (alloc : Nat → Bool) (serial : Nat) (s : Slot) : Slot :=
  { s with
    record := preparseCache alloc
      { s.record with rdata := s.record.rdata.set 2 (decimal serial), cache := .empty } }

/-- Which allocations succeed when the serial of the record in a place is written. -/
structure SerialMemory where
  text : Nat → Bool
  cache : Nat → Nat → Bool

/-- The loop of `bump_soa_serial_method` from place `i` on; `serial` is 0 until the first SOA. -/
def bumpSoas (mem : SerialMemory) (zoneName : Text) (method : SerialMethod) (clock : Clock) :
    Nat → Nat → List Slot → Option (Nat × List Slot)
  | _, serial, [] => some (serial, [])
  | i, serial, s :: rest =>
    if isApexSoa zoneName s.record then
      let serial :=
        if serial = 0 then updateNextSerial (strtoul32 (s.record.rd 2)) method clock else serial
      if mem.text i then
        (bumpSoas mem zoneName method clock (i + 1) serial rest).map fun (serial', rest') =>
          (serial', soaWriteSerial (mem.cache i) serial s :: rest')
      else none
    else (bumpSoas mem zoneName method clock (i + 1) serial rest).map fun (serial', rest') =>
      (serial', s :: rest')

/-- `bump_soa_serial_method`: `none` when there is no SOA or no memory. -/
def bumpSoaSerialMethod (mem : SerialMemory) (zoneName : Text) (method : SerialMethod)
    (clock : Clock) (records : List Slot) : Option (Nat × List Slot) :=
  (bumpSoas mem zoneName method clock 0 0 records).filter (·.1 ≠ 0)

/-- `soa_serial_in_arena`. -/
def soaSerialInArena (zoneName : Text) (records : List Slot) : Nat :=
  match records.find? fun s => isApexSoa zoneName s.record with
  | none => 0
  | some s => strtoul32 (s.record.rd 2)

/-! ### Publishing -/

/-- What an UPDATE of a zone depends on besides the message: the state of the zone's entry, its
configuration, the clock and which allocations succeed. -/
structure UpdateEnv where
  evicted : Bool
  transferring : Bool
  policy : Option (List UpdateRule)
  method : SerialMethod
  limits : ZoneLimits
  clock : Clock
  thaw : Nat → Nat → Bool
  mem : UpdateMemory
  serial : SerialMemory
  scratch : Bool
  reindex : UpdateMemory
  measure : Bool
  version : Bool

/-- `max-zone-ttl`. -/
def clampTtl (maxZoneTtl : Nat) (s : Slot) : Slot :=
  if maxZoneTtl ≠ 0 ∧ s.record.ttlValue.toNat > maxZoneTtl then
    s.withTtl (UInt32.ofNat maxZoneTtl) else s

/-- `zone_arena_drop_unencodable`; without memory to find out, nothing is dropped. -/
def dropUnencodable (scratch : Bool) (records : List Slot) : List Slot :=
  if scratch then records.filter fun s => (dnsRecordCanonicalRdata s.record).isSome else records

/-- The serial of the updated zone, and the zone with it (RFC 2136 3.6). -/
def serialAfter (env : UpdateEnv) (zoneName : Text) (soaReplaced : Bool) (records : List Slot) :
    Option (Nat × List Slot) :=
  if soaReplaced then some (soaSerialInArena zoneName records, records)
  else bumpSoaSerialMethod env.serial zoneName env.method env.clock records

/-- The updated records as they are published. -/
def finishUpdate (env : UpdateEnv) (zoneName : Text) (soaReplaced : Bool) (records : List Slot) :
    Except Rcode (Nat × List Slot) :=
  match serialAfter env zoneName soaReplaced (records.map (clampTtl env.limits.maxZoneTtl)) with
  | none => .error .servfail
  | some (serial, bumped) =>
    let kept := dropUnencodable env.scratch bumped
    if ¬ env.reindex.index then .error .servfail
    else
      let st := indexStandby env.reindex kept
      if ¬ env.measure ∨ ¬ zoneArenaCheckLimits env.limits st then .error .servfail
      else .ok (serial, st.table.vals)

/-- The records of the builder after the UPDATE, with the serial; `none` if nothing changed. -/
def updateRecords (env : UpdateEnv) (zoneName : Text) (signer : Option Text) (m : Buf) (len : Nat)
    (records : List Slot) : Except Rcode (Option (Nat × List Slot)) :=
  match processUpdateSectionsPolicy env.mem m len zoneName records env.policy signer with
  | .error e => .error e.rcode
  | .ok (res, out) =>
    if ¬ res.changed then .ok none
    else (finishUpdate env zoneName res.soaReplaced out).map some

/-! ### What the published records satisfy -/

lemma clampTtl_noTtl (maxZoneTtl : Nat) (s : Slot) : (clampTtl maxZoneTtl s).noTtl = s.noTtl := by
  unfold clampTtl
  split <;> rfl

lemma mem_dropUnencodable {scratch : Bool} {s : Slot} (h : s ∈ dropUnencodable scratch records) :
    s ∈ records := by
  unfold dropUnencodable at h
  split at h
  · exact (mem_filter.mp h).1
  · exact h

/-- The steps to the published records: TTLs, serial, what cannot be written is dropped, index. -/
lemma finishUpdate_ok {soaReplaced : Bool} {serial : Nat}
    (h : finishUpdate env zoneName soaReplaced records = .ok (serial, out)) :
    ∃ bumped, serialAfter env zoneName soaReplaced (records.map (clampTtl env.limits.maxZoneTtl)) =
      some (serial, bumped) ∧
      out = indexedRecords env.reindex (dropUnencodable env.scratch bumped) := by
  unfold finishUpdate at h
  split at h
  · cases h
  rename_i serial' bumped hafter
  dsimp only at h
  split_ifs at h
  obtain ⟨rfl, rfl⟩ := Prod.mk.inj (Except.ok.inj h)
  exact ⟨bumped, hafter, rfl⟩

lemma updateRecords_ok {serial : Nat}
    (h : updateRecords env zoneName signer m len records = .ok (some (serial, out))) :
    ∃ res updated, processUpdateSectionsPolicy env.mem m len zoneName records env.policy signer =
      .ok (res, updated) ∧
      res.changed = true ∧
        finishUpdate env zoneName res.soaReplaced updated = .ok (serial, out) := by
  unfold updateRecords at h
  split at h
  · cases h
  rename_i res updated hproc
  split_ifs at h with hchanged
  · cases hf : finishUpdate env zoneName res.soaReplaced updated with
    | error e =>
      rw [hf] at h
      cases h
    | ok pair =>
      rw [hf] at h
      obtain rfl := some.inj (Except.ok.inj h)
      exact ⟨res, updated, hproc, hchanged, hf⟩
  · cases h

/-- What every step of an UPDATE keeps. -/
structure UpdateInvariant (zoneName : Text) (P : DnsRecord → Prop) : Prop where
  ttl : ∀ {rec rec' : DnsRecord}, rec'.noTtl = rec.noTtl → P rec → P rec'
  added : ∀ {alloc : Nat → Bool} {m : Buf} {len offset next : Nat} {rr : DnsRecord},
    domainNameIsAtOrBelow rr.name zoneName = true →
      parseResourceRecord alloc m len offset = some (rr, next) →
      P (preparseCache alloc rr)
  soa : ∀ {s : Slot} (alloc : Nat → Bool) (serial : Nat), isApexSoa zoneName s.record =
    true → P s.record →
    P (soaWriteSerial alloc serial s).record

section Invariant

variable {P : DnsRecord → Prop} (hP : UpdateInvariant zoneName P)

include hP

lemma UpdateInvariant.indexed (mem : UpdateMemory) (h : ∀ s ∈ records, P s.record) :
    ∀ s ∈ indexedRecords mem records, P s.record := by
  intro s hs
  have hmem : s.noTtl ∈ records.map Slot.noTtl := by
    rw [← indexStandby_vals mem records]
    exact List.mem_map_of_mem hs
  obtain ⟨s₀, hs₀, heq⟩ := List.mem_map.mp hmem
  exact hP.ttl (congrArg Slot.record heq).symm (h s₀ hs₀)

lemma UpdateInvariant.process {mem : UpdateMemory} {pol : Option (List UpdateRule)}
    {res : UpdateResult}
    (hproc : processUpdateSectionsPolicy mem m len zoneName records pol signer = .ok (res, out))
    (h : ∀ s ∈ records, P s.record) : ∀ s ∈ out, P s.record := by
  obtain ⟨hs, v, -, hscan, hrun, -, -, rfl⟩ := process_ok hproc
  have hall := hrun.forall (P := fun s => P s.record) (fun _ hs => hs) (fun k hk _ _ j rr hrr => by
      obtain ⟨next, hparse⟩ := hrr.parsed
      -- the prescan lets no RR pass that is not of the zone
      have hin : domainNameIsAtOrBelow k.name zoneName = true := by
        by_contra hout
        have hpass := hscan k hk
        rw [prescanRr, if_pos hout] at hpass
        cases hpass
      exact hP.added (hrr.name ▸ hin) hparse)
    (hP.indexed mem h)
  exact fun s hs => hall s (mem_filter.mp hs).1

lemma UpdateInvariant.bumpSoas {mem : SerialMemory} {method : SerialMethod} {clock : Clock} :
    ∀ {records out : List Slot} {i serial serial' : Nat}, (∀ s ∈ records, P s.record) →
      bumpSoas mem zoneName method clock i serial records = some (serial', out) →
        ∀ s ∈ out, P s.record
  | [], out, i, serial, serial', _, hbump => by
    obtain ⟨-, rfl⟩ := Prod.mk.inj (some.inj hbump)
    simp
  | s :: rest, out, i, serial, serial', h, hbump => by
    rw [forall_mem_cons] at h
    unfold KariDns.bumpSoas at hbump
    dsimp only at hbump
    split at hbump
    · rename_i hsoa
      split at hbump
      · obtain ⟨⟨serial₁, out₁⟩, hrec, hpair⟩ := map_eq_some_iff.mp hbump
        obtain ⟨-, rfl⟩ := Prod.mk.inj hpair
        exact forall_mem_cons.mpr ⟨hP.soa _ _ hsoa h.1, UpdateInvariant.bumpSoas h.2 hrec⟩
      · cases hbump
    obtain ⟨⟨serial₁, out₁⟩, hrec, hpair⟩ := map_eq_some_iff.mp hbump
    obtain ⟨-, rfl⟩ := Prod.mk.inj hpair
    exact forall_mem_cons.mpr ⟨h.1, UpdateInvariant.bumpSoas h.2 hrec⟩

/-- The run rule: what every step keeps, the published records satisfy. -/
lemma UpdateInvariant.updateRecords {serial : Nat} (h : ∀ s ∈ records, P s.record)
    (hupdate : updateRecords env zoneName signer m len records = .ok (some (serial, out))) :
      ∀ s ∈ out, P s.record := by
  obtain ⟨res, updated, hproc, -, hfinish⟩ := updateRecords_ok hupdate
  obtain ⟨bumped, hafter, rfl⟩ := finishUpdate_ok hfinish
  have hclamped : ∀ s ∈ updated.map (clampTtl env.limits.maxZoneTtl), P s.record := by
    intro s hs
    obtain ⟨s₀, hs₀, rfl⟩ := List.mem_map.mp hs
    exact hP.ttl (congrArg Slot.record (clampTtl_noTtl _ s₀)) (hP.process hproc h s₀ hs₀)
  refine hP.indexed _ fun s hs => ?_
  unfold serialAfter at hafter
  split at hafter
  · obtain ⟨-, rfl⟩ := Prod.mk.inj (some.inj hafter)
    exact hclamped s (mem_dropUnencodable hs)
  · exact hP.bumpSoas hclamped (filter_eq_some_iff.mp hafter).1 s (mem_dropUnencodable hs)

end Invariant

/-! ### Names in wire form -/

lemma wiresOk_noTtl {rec rec' : DnsRecord} (h : rec'.noTtl = rec.noTtl) (hok : rec.WiresOk) :
    rec'.WiresOk := by
  have hwire : rec'.nameWire = rec.nameWire := (DnsRecord.mk.inj h).2.2.2.2.2.2.2.2.2.2.2.2.2.1
  have hcache : rec'.cache = rec.cache := (DnsRecord.mk.inj h).2.2.2.2.2.2.2.2.2.2.2.2.2.2
  exact ⟨hwire ▸ hok.owner, hcache ▸ hok.names, hcache ▸ hok.numbers⟩

/-- Preparsing over a record that tells the truth leaves one that does. -/
lemma truthful_again {rec : DnsRecord} (h : rec.Truthful) (alloc : Nat → Bool) :
    (preparseCache alloc rec).Truthful := by
  by_cases hlen : rec.rdata.length = 0
  · rw [preparseCache, if_pos hlen]
    exact h
  refine ⟨?_, cacheOk_preparse alloc hlen⟩
  rw [preparseCache, if_neg hlen]
  exact fun n hn => allocated_eq_some hn

lemma soaWriteSerial_wires (alloc : Nat → Bool) (serial : Nat) {s : Slot}
    (hsoa : isApexSoa zoneName s.record = true) :
    (soaWriteSerial alloc serial s).record.WiresOk := by
  simp only [isApexSoa, decide_eq_true_eq] at hsoa
  have hlen :
      ({ s.record with rdata := s.record.rdata.set 2 (decimal serial), cache := .empty } :
        DnsRecord).rdata.length ≠ 0 := by
    simp
    intro hnil
    simp [hnil] at hsoa
  refine DnsRecord.Truthful.wiresOk ⟨?_, cacheOk_preparse alloc hlen⟩
  rw [soaWriteSerial]
  dsimp only
  rw [preparseCache, if_neg hlen]
  exact fun n hn => allocated_eq_some hn

lemma updateRecords_wires {serial : Nat} (h : ∀ s ∈ records, s.record.WiresOk)
    (hupdate : updateRecords env zoneName signer m len records = .ok (some (serial, out))) :
    ∀ s ∈ out, s.record.WiresOk := by
  have hinv : UpdateInvariant zoneName DnsRecord.WiresOk :=
    ⟨wiresOk_noTtl, fun _ hparse => (truthful_again (parse_truthful hparse).1 _).wiresOk,
      fun alloc serial hsoa _ => soaWriteSerial_wires alloc serial hsoa⟩
  exact hinv.updateRecords h hupdate

/-! ### The published zone -/

/-- The builder with other records, indexed. -/
def ZoneArena.withRecords (a : ZoneArena) (records : List Slot)
    (h : ∀ s ∈ records, s.record.WiresOk) : ZoneArena :=
  { a with records := records, index := some (buildZoneIndex records), wires := h }

/-- `handle_dynamic_update`: the RCODE of an UPDATE that fails, else the zone that is published with
its serial, `none` if the old one stays. -/
def handleDynamicUpdate (env : UpdateEnv) (zoneName : Text) (img : ZoneImage) (signer : Option Text)
    (m : Buf) (len : Nat) : Except Rcode (Option (Nat × ZoneImage)) :=
  if env.evicted ∨ env.transferring then .error .servfail
  else
    match zoneImageThaw env.thaw img with
    | none => .error .servfail
    | some a =>
      match hupdate : updateRecords env zoneName signer m len a.records with
      | .error rcode => .error rcode
      | .ok none => .ok none
      | .ok (some (serial, records)) =>
        match zoneImageFreeze (a.withRecords records (updateRecords_wires a.wires hupdate))
          (some zoneName) with
        | none => .error .servfail
        | some next => if env.version then .ok (some (serial, next)) else .error .servfail

/-- The zone after an UPDATE. -/
def publishedZone (img : ZoneImage) : Except Rcode (Option (Nat × ZoneImage)) → ZoneImage
  | .ok (some (_, next)) => next
  | _ => img

end KariDns
