import KariDns.Name.Canonical
import KariDns.Zone.Ttl
import Mathlib.Data.List.Dedup

/-! The limits of a zone (`zone_arena_check_limits`).

The records of a name are found along the hash chain of the name when its first record is visited,
and their types are sorted and counted run by run.
-/

namespace KariDns

open Octets DomainName ChainTable List

/-- `zone_limits_t`; 0 is no limit. -/
structure ZoneLimits where
  maxRecords : Nat := 0
  maxPerType : Nat := 0
  maxTypesPerName : Nat := 0
  maxZoneTtl : Nat := 0

/-- The types of the records of `name` along a chain, `none` when one of them stands before `i`. -/
def nameTypes (t : Table Slot) (i : Nat) (name : Text) : List Nat → Option (List Nat)
  | [] => some []
  | j :: js =>
    match t.get j with
    | none => nameTypes t i name js
    | some o =>
      if ¬ o.live ∨ ¬ domainNamesMatchCi o.record.name name then nameTypes t i name js
      else if j < i then none
      else (nameTypes t i name js).map (o.record.typeCode.toNat :: ·)

/-- Runs of one type and their lengths. -/
def typeRuns : List Nat → List (Nat × Nat)
  | [] => []
  | t :: ts =>
    match typeRuns ts with
    | [] => [(t, 1)]
    | (u, n) :: rs => if t = u then (u, n + 1) :: rs else (t, 1) :: (u, n) :: rs

/-- The checks of the types of one name. -/
def typesWithin (lim : ZoneLimits) (types : List Nat) : Bool :=
  let runs := typeRuns (types.insertionSort (· ≤ ·))
  (lim.maxPerType = 0 ∨ ∀ r ∈ runs, r.2 ≤ lim.maxPerType) ∧
    (lim.maxTypesPerName = 0 ∨ runs.length ≤ lim.maxTypesPerName)

/-- The check of the record in place `i`. -/
def recordWithin (st : Standby) (lim : ZoneLimits) (i : Nat) : Bool :=
  (st.table.get i).all fun r => !r.live ||
    (nameTypes st.table i r.record.name (st.table.chain (nameBucket st.size r.record.name))).all
      (typesWithin lim)

/-- `zone_arena_check_limits`: true for the return value 0; the text of the error is left out. -/
def zoneArenaCheckLimits (lim : ZoneLimits) (st : Standby) : Bool :=
  (lim.maxRecords = 0 ∨ st.table.vals.length ≤ lim.maxRecords) ∧
    (lim.maxZoneTtl = 0 ∨ ∀ s ∈ st.table.vals, s.record.ttlValue.toNat ≤ lim.maxZoneTtl) ∧
    (lim.maxPerType = 0 ∧ lim.maxTypesPerName = 0 ∨
      ∀ i < st.table.vals.length, recordWithin st lim i)

/-! ### Runs of types -/

/-- Sorted types have one run for every type, as long as there are records of it. -/
lemma typeRuns_eq :
    ∀ {l : List Nat}, l.Pairwise (· ≤ ·) → typeRuns l = l.dedup.map fun t => (t, l.count t)
  | [], _ => rfl
  | t :: ts, h => by
    obtain ⟨hle, hts⟩ := pairwise_cons.mp h
    have hrest : ∀ {ds : List Nat}, t ∉ ds →
        (ds.map fun x => (x, (t :: ts).count x)) = ds.map fun x => (x, ts.count x) :=
      fun hne => map_congr_left fun x hx => by
        rw [count_cons_of_ne (ne_of_mem_of_not_mem hx hne).symm]
    rw [typeRuns, typeRuns_eq hts]
    by_cases ht : t ∈ ts
    · -- the first run is that of `t`
      obtain ⟨u, ds, hds⟩ := exists_cons_of_ne_nil (ne_nil_of_mem (mem_dedup.mpr ht))
      have hsorted := hts.sublist (dedup_sublist ts)
      have hnodup := nodup_dedup ts
      rw [hds] at hsorted hnodup
      have hu : u ∈ ts := mem_dedup.mp (hds ▸ mem_cons_self)
      obtain rfl : t = u := by
        rcases mem_cons.mp (hds ▸ mem_dedup.mpr ht) with rfl | hmem
        · rfl
        · exact le_antisymm (hle u hu) ((pairwise_cons.mp hsorted).1 t hmem)
      rw [dedup_cons_of_mem ht, hds, map_cons, map_cons, hrest (nodup_cons.mp hnodup).1,
        count_cons_self]
      simp
    · rw [dedup_cons_of_notMem ht, map_cons, hrest (mt mem_dedup.mp ht), count_cons_self,
        count_eq_zero_of_not_mem ht]
      cases hds : ts.dedup with
      | nil => rfl
      | cons u ds =>
        have hne : t ≠ u := fun h => ht (mem_dedup.mp (h ▸ hds ▸ mem_cons_self))
        simp [hne]

/-- Every type is within its limit and the types are within theirs. -/
lemma typesWithin_iff {lim : ZoneLimits} {types : List Nat} : typesWithin lim types = true ↔
    (lim.maxPerType ≠ 0 → ∀ type, types.count type ≤ lim.maxPerType) ∧
      (lim.maxTypesPerName ≠ 0 → types.dedup.length ≤ lim.maxTypesPerName) := by
  have hperm := perm_insertionSort (· ≤ ·) types
  have hper : (∀ t ∈ types, types.count t ≤ lim.maxPerType) ↔
      ∀ type, types.count type ≤ lim.maxPerType := by
    refine ⟨fun h type => ?_, fun h t _ => h t⟩
    by_cases hmem : type ∈ types
    · exact h type hmem
    · rw [count_eq_zero_of_not_mem hmem]
      exact Nat.zero_le _
  rw [typesWithin, typeRuns_eq (pairwise_insertionSort (· ≤ ·) types)]
  simp [hperm.count_eq, hperm.mem_iff, hperm.dedup.length_eq, hper, or_iff_not_imp_left]

/-! ### The records of a name -/

/-- A record of an owner, the case of letters ignored. -/
def ofOwner (owner : Text) (s : Slot) : Bool := s.live && strcaseeq s.record.name owner

/-- The types of the records of an owner. -/
def ownerTypes (records : List Slot) (owner : Text) : List Nat :=
  (records.filter (ofOwner owner)).map fun s => s.record.typeCode.toNat

/-- The limits, said of the records. -/
structure WithinLimits (records : List Slot) (lim : ZoneLimits) : Prop where
  few : lim.maxRecords ≠ 0 → records.length ≤ lim.maxRecords
  ttl : lim.maxZoneTtl ≠ 0 → ∀ s ∈ records, s.record.ttlValue.toNat ≤ lim.maxZoneTtl
  perType : lim.maxPerType ≠ 0 →
    ∀ owner type, (ownerTypes records owner).count type ≤ lim.maxPerType
  types : lim.maxTypesPerName ≠ 0 → ∀ owner, (ownerTypes records owner).dedup.length ≤
    lim.maxTypesPerName

/-! ### Names and buckets -/

lemma nextPow2_dvd (n : Nat) : ∀ fuel p : Nat, 8 ∣ p → 8 ∣ nextPow2 n fuel p
  | 0, _, h => h
  | fuel + 1, p, h => by
    rw [nextPow2]
    split
    · exact nextPow2_dvd n fuel _ (h.mul_right 2)
    · exact h

/-- A final dot moves a name to another bucket. -/
lemma fnv1aText_dot {size : Nat} (h8 : 8 ∣ size) (t : Text) :
    (fnv1aText (t ++ [46])).toNat % size ≠ (fnv1aText t).toNat % size := by
  intro h
  have hdot : fnv1aText (t ++ [46]) = (fnv1aText t ^^^ 46) * 16777619 := by simp [fnv1aText, lower]
  have hmod := congrArg (· % 8) h
  simp only [Nat.mod_mod_of_dvd _ h8] at hmod
  have hxor : ((fnv1aText t).toNat ^^^ 46) % 8 = ((fnv1aText t).toNat % 8) ^^^ 6 :=
    Nat.xor_mod_two_pow (n := 3)
  rw [hdot, UInt32.toNat_mul, UInt32.toNat_xor, Nat.mod_mod_of_dvd _ (by decide),
    Nat.mul_mod] at hmod
  simp only [UInt32.reduceToNat, hxor] at hmod
  have hmove : ∀ r < 8, (r ^^^ 6) * (16777619 % 8) % 8 ≠ r := by decide
  exact hmove _ (Nat.mod_lt _ (by decide)) hmod

/-- The names of one bucket that match differ in the case of letters only. -/
lemma strcaseeq_of_match {size : Nat} {a b : Text} (h8 : 8 ∣ size)
    (hb : nameBucket size a = nameBucket size b) (hm : domainNamesMatchCi a b = true) :
      strcaseeq a b = true := by
  have hkey : ∀ t : Text, t.map lower = nameKey t ∨ t.map lower = nameKey t ++ [46] := by
    intro t
    rw [nameKey, dnsNameLenNoRoot]
    split
    · rename_i hdot
      obtain ⟨s, rfl⟩ := getLast?_eq_some_iff.mp hdot.1
      exact .inr (by simp [lower])
    · rw [take_length]
      exact .inl rfl
  have hbucket : ∀ t : Text, nameBucket size t = (fnv1aText (t.map lower)).toNat % size :=
    fun t => by
    rw [fnv1aText_lower]
    rfl
  rw [strcaseeq, beq_iff_eq]
  rw [hbucket, hbucket] at hb
  have hsame := matchCi_iff.mp hm
  rcases hkey a with ha | ha <;> rcases hkey b with hb' | hb' <;> rw [ha, hb', hsame] at hb ⊢
  · exact absurd hb.symm (fnv1aText_dot h8 _)
  · exact absurd hb (fnv1aText_dot h8 _)

lemma ofOwner_bucket {size : Nat} {name : Text} {s : Slot} (h : ofOwner name s = true) :
    slotBucket size s = some (nameBucket size name) := by
  obtain ⟨hlive, heq⟩ := Bool.and_eq_true_iff.mp h
  rw [slotBucket, if_pos hlive, nameBucket, nameBucket, calcFnv1aStr, calcFnv1aStr,
    ← fnv1aText_lower, eq_of_beq heq, fnv1aText_lower]

variable {records : List Slot} {lim : ZoneLimits}

lemma linkRecords_get (k : Nat) : (linkRecords records).table.get k = records[k]? := by
  rw [get_eq_vals, linkRecords_vals]

/-- Along the chain of a name a record is skipped exactly when it is of another owner. -/
lemma skipped_iff {name : Text} {j : Nat} {o : Slot} (hj : records[j]? = some o)
    (hmem : j ∈ (linkRecords records).table.chain (nameBucket (linkRecords records).size name)) :
    (¬ o.live ∨ ¬ domainNamesMatchCi o.record.name name) ↔ ¬ ofOwner name o = true := by
  have hb := chain_build hmem
  rw [hj, Option.bind_some, slotBucket] at hb
  split at hb
  · rename_i hlive
    have hm : domainNamesMatchCi o.record.name name = true ↔ strcaseeq o.record.name name = true :=
      ⟨strcaseeq_of_match (nextPow2_dvd _ _ _ (by decide)) (Option.some.inj hb),
        fun h => by rw [domainNamesMatchCi, h, Bool.true_or]⟩
    rw [ofOwner, hlive, Bool.true_and, hm]
    simp
  · cases hb

/-- The records of a name along its chain, when none of them stands before `i`. -/
lemma nameTypes_eq {name : Text} {i : Nat} : ∀ js : List Nat,
    js ⊆ (linkRecords records).table.chain (nameBucket (linkRecords records).size name) →
    nameTypes (linkRecords records).table i name js = if ∃ j ∈ js, j < i ∧
      records[j]?.any (ofOwner name) then none
      else some ((js.filterMap fun j => records[j]?.filter (ofOwner name)).map fun s =>
        s.record.typeCode.toNat)
  | [], _ => by simp [nameTypes]
  | j :: js, hsub => by
    obtain ⟨hmem, hsub⟩ := cons_subset.mp hsub
    rw [nameTypes, nameTypes_eq js hsub, linkRecords_get]
    cases hj : records[j]? with
    | none => simp [hj]
    | some o =>
      dsimp only
      rw [if_congr (skipped_iff hj hmem) rfl rfl]
      by_cases ho : ofOwner name o = true
      · by_cases hlt : j < i
        · simp [hj, ho, hlt]
        · simp only [hlt, ho, not_true, if_false, mem_cons, exists_eq_or_imp, false_and, false_or,
            filterMap_cons, hj, Option.filter, if_true]
          split <;> rfl
      · simp [hj, ho]

/-- The check of one record, said of its owner. -/
lemma recordWithin_iff {i : Nat} {r : Slot} (hr : records[i]? = some r) (hlive : r.live = true) :
    recordWithin (linkRecords records) lim i = true ↔
      (∃ j < i, records[j]?.any (ofOwner r.record.name)) ∨
      typesWithin lim (ownerTypes records r.record.name) = true := by
  have hl := linkRecords_linked records
  have hbefore :
    (∃ j ∈ (linkRecords records).table.chain (nameBucket (linkRecords records).size r.record.name),
      j < i ∧ records[j]?.any (ofOwner r.record.name)) ↔
        ∃ j < i, records[j]?.any (ofOwner r.record.name) := by
    constructor
    · rintro ⟨j, -, hlt, hj⟩
      exact ⟨j, hlt, hj⟩
    · rintro ⟨j, hlt, hj⟩
      obtain ⟨s, hs, ho⟩ := Option.any_eq_true _ _ |>.mp hj
      exact ⟨j, hl.complete j s _ (linkRecords_get j ▸ hs) (ofOwner_bucket ho), hlt, hj⟩
  have htypes := (hl.filterMap_perm (p := ofOwner r.record.name) fun s h => ofOwner_bucket h).map
    fun s => s.record.typeCode.toNat
  simp only [linkRecords_get, linkRecords_vals] at htypes
  rw [recordWithin, linkRecords_get, hr, Option.all_some, hlive, Bool.not_true, Bool.false_or,
    nameTypes_eq _ (Subset.refl _), if_congr hbefore rfl rfl]
  split
  · exact iff_of_true rfl (.inl ‹_›)
  · rw [or_iff_right ‹_›, Option.all_some, typesWithin_iff, typesWithin_iff, htypes.dedup.length_eq]
    simp only [htypes.count_eq]
    rfl

/-- The records are checked name by name: the check of the first record of a name is that of the
name. -/
lemma records_within : (∀ i < records.length, recordWithin (linkRecords records) lim i = true) ↔
    ∀ owner, typesWithin lim (ownerTypes records owner) = true := by
  constructor
  · intro h owner
    by_cases hex : ∃ i : Nat, records[i]?.any (ofOwner owner) = true
    · obtain ⟨r, hr, ho⟩ := Option.any_eq_true _ _ |>.mp (Nat.find_spec hex)
      obtain ⟨hlive, heq⟩ := Bool.and_eq_true_iff.mp ho
      have hsame : ofOwner r.record.name = ofOwner owner := by
        funext s
        rw [ofOwner, ofOwner, strcaseeq, strcaseeq, eq_of_beq heq]
      rcases (recordWithin_iff hr hlive).mp
        (h _ (List.getElem?_eq_some_iff.mp hr).1) with ⟨j, hlt, hj⟩ | hw
      · exact absurd (hsame ▸ hj) (Nat.find_min hex hlt)
      · rwa [ownerTypes, hsame] at hw
    · have hnone : records.filter (ofOwner owner) = [] := by
        refine filter_eq_nil_iff.mpr fun s hs ho => ?_
        obtain ⟨i, hi⟩ := mem_iff_getElem?.mp hs
        exact hex ⟨i, by rwa [hi]⟩
      rw [ownerTypes, hnone, typesWithin_iff]
      simp
  · intro h i hi
    have hr := getElem?_eq_getElem hi
    by_cases hlive : records[i].live = true
    · exact (recordWithin_iff hr hlive).mpr (.inr (h _))
    · simp [recordWithin, linkRecords_get, hr, hlive]

/-- The check of a zone succeeds exactly when the zone is within its limits. -/
theorem zoneArenaCheckLimits_iff (records : List Slot) (lim : ZoneLimits) :
    zoneArenaCheckLimits lim (linkRecords records) = true ↔ WithinLimits records lim := by
  rw [zoneArenaCheckLimits, linkRecords_vals, decide_eq_true_eq, records_within]
  simp only [typesWithin_iff, or_iff_not_imp_left]
  constructor
  · rintro ⟨hfew, httl, howners⟩
    exact ⟨hfew, httl, fun hne owner => (howners (fun h => hne h.1) owner).1 hne,
      fun hne owner => (howners (fun h => hne h.2) owner).2 hne⟩
  · rintro ⟨hfew, httl, hper, htypes⟩
    exact ⟨hfew, httl, fun _ owner => ⟨fun hne => hper hne owner, fun hne => htypes hne owner⟩⟩

end KariDns
