import KariDns.Update.Handle

/-! Updates and `update-policy`.

Permission is checked once, before anything changes, against the zone as it was. That is
enough: records of an owner and type the signer may not change are the same before and after
every RR of the update, so a later deletion of a whole name finds none it was not checked for.
-/

namespace KariDns

open Octets DomainName ChainTable List

variable {a b : Text}

/-- The records of an owner and a type. -/
def rrsOf (name : Text) (type : Nat) (s : Slot) : Bool :=
  s.live ∧ strcaseeq s.record.name name ∧ s.record.typeCode.toNat = type

/-- The policy lets the signer make the change the RR `h` asks for; deleting a name changes every
type it has in the zone. -/
def Grants (pol : List UpdateRule) (signer : Option Text) (zone : List Slot)
    (h : RrHeader) : Prop :=
  if h.class_ = 255 ∧ h.type = 255 then
    ∀ s ∈ zone, updateRecIsAt s h.name = true →
      updatePolicyAllows pol signer h.name s.record.typeCode.toNat = true
  else updatePolicyAllows pol signer h.name h.type = true

/-! ### Rules and letter case -/

lemma matchCi_of_caseeq (h : strcaseeq a b = true) : domainNamesMatchCi a b = true := by
  rw [domainNamesMatchCi, h, Bool.true_or]

lemma matchCi_congr_left (h : domainNamesMatchCi a b = true) (c : Text) :
    domainNamesMatchCi a c = domainNamesMatchCi b c := by
  rw [Bool.eq_iff_iff, matchCi_iff, matchCi_iff, matchCi_iff.mp h]

lemma updProperBelow_congr (h : domainNamesMatchCi a b = true) (c : Text) :
    updProperBelow a c = updProperBelow b c := by
  rw [updProperBelow, updProperBelow, atOrBelow_congr h (matchCi_refl c), matchCi_congr_left h]

lemma covers_congr (h : domainNamesMatchCi a b = true) (r : UpdateRule) (signer : Text)
    (type : Nat) :
    r.covers signer a type = r.covers signer b type := by
  unfold UpdateRule.covers
  dsimp only
  cases r.mtype <;> dsimp only <;>
    simp only [matchCi_congr_left h, updProperBelow_congr h, atOrBelow_congr h (matchCi_refl _)]

/-- The letter case of the owner does not matter to the policy. -/
lemma policyAllows_congr (h : strcaseeq a b = true) (pol : List UpdateRule) (signer : Option Text)
    (type : Nat) :
    updatePolicyAllows pol signer a type = updatePolicyAllows pol signer b type := by
  unfold updatePolicyAllows
  simp only [covers_congr (matchCi_of_caseeq h)]

/-! ### The prescan -/

section Prescan

variable {zoneName : Text} {pol : List UpdateRule} {signer : Option Text}
    {st : Standby} {h : RrHeader}

lemma deniedType_none {name : Text} (hl : st.Linked)
    (hnone : deniedType pol signer st name = none) :
    ∀ s ∈ st.table.vals, updateRecIsAt s name = true →
      updatePolicyAllows pol signer name s.record.typeCode.toNat = true := by
  have hany : st.table.any (st.bucket name)
      (fun s => updateRecIsAt s name &&
        !updatePolicyAllows pol signer name s.record.typeCode.toNat) = false := by
    rw [deniedType, findSome?_eq_none_iff] at hnone
    rw [Table.any, any_eq_false]
    intro k hk
    have hk := hnone k hk
    cases hs : st.table.get k with
    | none => simp
    | some s =>
      rw [hs, Option.bind_some] at hk
      simpa using hk
  rw [hl.any_iff fun s hs => (Bool.and_eq_true _ _ ▸ hs).1, any_eq_false] at hany
  intro s hs hat
  have hnot := hany s hs
  rw [hat] at hnot
  simpa using hnot

/-- An RR that passes the prescan is one of the three kinds and is granted. -/
lemma prescan_grants (hl : st.Linked) (hscan : prescanRr zoneName (some pol) signer st h = .ok ()) :
    Grants pol signer st.table.vals h := by
  unfold prescanRr at hscan
  split_ifs at hscan
  unfold checkPolicy at hscan
  dsimp only at hscan
  unfold Grants
  split at hscan
  · rename_i hboth
    rw [if_pos hboth]
    split at hscan
    · cases hscan
    · rename_i hnone
      exact deniedType_none hl hnone
  rename_i hboth
  rw [if_neg hboth]
  split_ifs at hscan with hallow
  exact hallow

end Prescan

/-! ### What an update leaves alone -/

section Untouched

variable {q : Slot → Bool}

lemma filter_bury {p : Slot → Bool} (hbury : ∀ s, q (Slot.bury s) = false) : ∀ {l : List Slot},
    (∀ s ∈ l, q s = true → p s = false) → (l.map (buryIf p)).filter q = l.filter q
  | [], _ => rfl
  | s :: rest, h => by
    have hrest := filter_bury hbury fun r (hr : r ∈ rest) => h r (by simp [hr])
    rw [map_cons, filter_cons, filter_cons, hrest]
    unfold buryIf
    by_cases hp : p s = true
    · have hq : q s = false := by
        by_contra hq
        rw [h s (by simp) (by simpa using hq)] at hp
        cases hp
      rw [if_pos hp, hbury, hq, if_neg Bool.false_ne_true, if_neg Bool.false_ne_true]
    · rw [if_neg hp]

lemma filter_set_of_not {l : List Slot} {k : Nat} {s new : Slot} (hs : l[k]? = some s)
    (hold : q s = false) (hnew : q new = false) : (l.set k new).filter q = l.filter q := by
  induction l generalizing k with
  | nil => rfl
  | cons r rest ih =>
    cases k with
    | zero =>
      obtain rfl : r = s := by simpa using hs
      simp [hold, hnew]
    | succ k =>
      rw [set_cons_succ, filter_cons, filter_cons, ih (by simpa using hs)]

end Untouched

section Run

variable {mem : UpdateMemory} {m : Buf} {len : Nat} {zoneName : Text} {pol : List UpdateRule}
  {signer : Option Text} {zone : List Slot} {name : Text} {type : Nat}

lemma rrsOf_bury (name : Text) (type : Nat) (s : Slot) : rrsOf name type s.bury = false := by
  simp [rrsOf, Slot.bury]

/-- No record of an owner and type that is denied is where a granted change of `h.type` is made. -/
lemma rrsOf_granted {h : RrHeader} {s : Slot}
    (hdeny : updatePolicyAllows pol signer name type = false)
    (hgrant : updatePolicyAllows pol signer h.name h.type = true)
    (hname : strcaseeq s.record.name h.name = true) (htype : s.record.typeCode.toNat = h.type) :
      rrsOf name type s = false := by
  by_contra hrr
  simp only [rrsOf, Bool.not_eq_false, decide_eq_true_eq] at hrr
  obtain ⟨-, hat, hty⟩ := hrr
  rw [← policyAllows_congr hname, policyAllows_congr hat, ← htype, hty, hdeny] at hgrant
  cases hgrant

lemma strcaseeq_refl (a : Text) : strcaseeq a a = true := beq_self_eq_true _

/-- One RR of an update leaves the records alone whose owner and type the policy denies. -/
lemma Revises.untouched {i : Nat} {h : RrHeader} {v v' : Revision}
    (hstep : Revises mem m len zoneName i h v v') (hgrants : Grants pol signer zone h)
    (hdeny : updatePolicyAllows pol signer name type = false)
    (hsame : v.slots.filter (rrsOf name type) = zone.filter (rrsOf name type)) :
    v'.slots.filter (rrsOf name type) = v.slots.filter (rrsOf name type) := by
  have hbury := rrsOf_bury name type
  have hone : ¬ (h.class_ = 255 ∧ h.type = 255) →
      updatePolicyAllows pol signer h.name h.type = true := by
    intro hboth
    rwa [Grants, if_neg hboth] at hgrants
  cases hstep with
  | deleteSet hclass =>
    unfold Revision.deleteSet
    split
    · rfl
    refine filter_bury hbury fun s hs hq => ?_
    by_contra hdel
    rw [Bool.not_eq_false, inDeletedSet, Bool.and_eq_true] at hdel
    have hat := recIsAt_iff.mp (isAtOfType_at hdel.1)
    by_cases hall : h.type = 255
    · -- the name was checked for the types it has in the zone, and this record is one of them
      rw [Grants, if_pos ⟨hclass, hall⟩] at hgrants
      have hzone : s ∈ zone.filter (rrsOf name type) := hsame ▸ mem_filter.mpr ⟨hs, hq⟩
      have hgrant := hgrants s (mem_filter.mp hzone).1 (isAtOfType_at hdel.1)
      simp only [rrsOf, decide_eq_true_eq] at hq
      rw [← policyAllows_congr hat.2, policyAllows_congr hq.2.1, hq.2.2, hdeny] at hgrant
      cases hgrant
    have htype : s.record.typeCode.toNat = h.type := by
      have := hdel.1
      simp only [isAtOfType, decide_eq_true_eq] at this
      exact this.2.resolve_left hall
    rw [rrsOf_granted hdeny (hone fun hboth => hall hboth.2) hat.2 htype] at hq
    cases hq
  | @deleteRr rr hclass hrr =>
    unfold Revision.deleteRr
    split
    · rfl
    split
    · rfl
    refine filter_bury hbury fun s hs hq => ?_
    by_contra hdel
    rw [Bool.not_eq_false] at hdel
    have hat := recIsAt_iff.mp (isRr_at hdel)
    simp only [isRr, compareRecords, decide_eq_true_eq] at hdel
    have htype : s.record.typeCode.toNat = h.type := hdel.2.1 ▸ hrr.type
    rw [rrsOf_granted hdeny (hone fun hboth => by omega) (hrr.name ▸ hat.2) htype] at hq
    cases hq
  | @add rr _ hany hnone hrr hadds =>
    have hgrant := hone fun hboth => hany hboth.1
    have hnew : rrsOf name type ⟨preparseCache (mem.cache i) rr, true⟩ = false := by
      refine rrsOf_granted hdeny hgrant ?_ ?_
      · rw [preparse_keeps DnsRecord.name fun _ _ _ => rfl, hrr.name]
        exact strcaseeq_refl _
      · rw [preparse_keeps DnsRecord.typeCode fun _ _ _ => rfl, hrr.type]
    cases hadds with
    | @replace k s hc hen hk hrep hsoa =>
      have hat := recIsAt_iff.mp (isReplaced_at hrep)
      simp only [isReplaced, decide_eq_true_eq] at hrep
      exact filter_set_of_not hk (rrsOf_granted hdeny hgrant hat.2 (hrep.2.1 ▸ hrr.type)) hnew
    | append hc hen hsoa hall => simp [hnew]
    | _ => rfl

lemma RevisesAll.untouched {i : Nat} {hs : List RrHeader} {v v' : Revision}
    (hrun : RevisesAll mem m len zoneName i hs v v') (hgrants : ∀ h ∈ hs, Grants pol signer zone h)
    (hdeny : updatePolicyAllows pol signer name type = false)
    (hsame : v.slots.filter (rrsOf name type) = zone.filter (rrsOf name type)) :
    v'.slots.filter (rrsOf name type) = zone.filter (rrsOf name type) := by
  induction hrun with
  | nil i v => exact hsame
  | @cons i h hs v v' v'' hstep _ ih =>
    have hone := hstep.untouched (hgrants h (by simp)) hdeny hsame
    exact ih (fun k hk => hgrants k (by simp [hk])) (hone.trans hsame)

end Run

/-! ### Accepted updates -/

/-- An accepted update has granted RRs only. -/
lemma process_grants {mem : UpdateMemory} {m : Buf} {len : Nat} {zoneName : Text}
    {records out : List Slot} {pol : List UpdateRule} {signer : Option Text} {res : UpdateResult}
    (hproc : processUpdateSectionsPolicy mem m len zoneName records
      (some pol) signer = .ok
    (res, out)) :
    ∃ hs v, updateSection m len = some hs ∧
      (∀ h ∈ hs, Grants pol signer (indexedRecords mem records) h) ∧
      RevisesAll mem m len zoneName 0 hs ⟨indexedRecords mem records, false, false⟩ v ∧
      out = v.slots.filter (·.live) := by
  obtain ⟨hs, v, hsec, hscan, hrun, -, -, hout⟩ := process_ok hproc
  exact ⟨hs, v, hsec,
    fun h hh => prescan_grants (indexStandby_linked mem records) (hscan h hh), hrun, hout⟩

/-- Whom the policy grants a change does not depend on TTLs. -/
lemma grants_indexed {mem : UpdateMemory} {records : List Slot} {pol : List UpdateRule}
    {signer : Option Text} {h : RrHeader}
    (hgrants : Grants pol signer (indexedRecords mem records) h) : Grants pol signer records h := by
  unfold Grants at hgrants ⊢
  split
  · rename_i hboth
    rw [if_pos hboth] at hgrants
    intro s hs hat
    have hmem : s.noTtl ∈ (indexedRecords mem records).map Slot.noTtl := by
      rw [indexedRecords, indexStandby_vals]
      exact mem_map_of_mem hs
    obtain ⟨s', hs', heq⟩ := mem_map.mp hmem
    have hrec : s'.record.noTtl = s.record.noTtl := congrArg Slot.record heq
    have hname : s'.record.name = s.record.name := (DnsRecord.mk.inj hrec).1
    have htype : s'.record.typeCode = s.record.typeCode := (DnsRecord.mk.inj hrec).2.2.2.2.1
    have hlive : s'.noTtl.live = s.noTtl.live := by rw [heq]
    have hgrant :=
      hgrants s' hs' (by rw [updateRecIsAt, hname, show s'.live = s.live from hlive]; exact hat)
    rwa [htype] at hgrant
  · rename_i hboth
    rwa [if_neg hboth] at hgrants

/-- An accepted update changes nothing but records of owners and types that the policy grants: all
others are there as before, in number and order. And if the published zone is not the one it was,
then the policy grants every RR of the message. -/
theorem update_within_policy (pol : List UpdateRule) (signer : Option Text) (zoneName : Text)
    (m : Buf) (len : Nat) :
    (∀ mem records res out, processUpdateSectionsPolicy mem m len zoneName records
      (some pol) signer = .ok (res, out) →
        (indexedRecords mem records).map Slot.noTtl = records.map Slot.noTtl ∧
          ∀ name type, out.filter (rrsOf name type) ≠
            (indexedRecords mem records).filter (rrsOf name type) →
            updatePolicyAllows pol signer name type = true) ∧
      ∀ env img, env.policy = some pol →
        publishedZone img (handleDynamicUpdate env zoneName img signer m len) ≠ img →
        ∃ a hs, zoneImageThaw env.thaw img = some a ∧ updateSection m len = some hs ∧
          ∀ h ∈ hs, Grants pol signer a.records h := by
  refine ⟨fun mem records res out hproc => ⟨indexStandby_vals mem records, fun name type hne => ?_⟩,
    ?_⟩
  · obtain ⟨hs, v, -, hgrants, hrun, rfl⟩ := process_grants hproc
    by_contra hdeny
    refine hne ?_
    have hsame := hrun.untouched hgrants (by simpa using hdeny) rfl
    rw [← hsame, filter_filter]
    refine filter_congr fun s _ => ?_
    simp only [rrsOf]
    cases s.live <;> simp
  intro env img hpol hne
  unfold handleDynamicUpdate at hne
  split at hne
  · exact absurd rfl hne
  split at hne
  · exact absurd rfl hne
  rename_i a hthaw
  split at hne
  · exact absurd rfl hne
  · exact absurd rfl hne
  rename_i serial records hupdate
  obtain ⟨res, updated, hproc, -, -⟩ := updateRecords_ok hupdate
  rw [hpol] at hproc
  obtain ⟨hs, v, hsec, hgrants, -, -⟩ := process_grants hproc
  exact ⟨a, hs, hthaw, hsec, fun h hh => grants_indexed (hgrants h hh)⟩

/-- Memory for everything. -/
def ampleMemory : UpdateMemory := ⟨true, true, true, fun _ => true, fun _ _ => true, fun _ => true⟩

/-- Zone `z.` with addresses at `c.z.` and `a.z.`. -/
def hostZone : List Slot :=
  [textRecord "z." 6 ["z.", "z.", "3", "9", "9", "9", "9"], textRecord "c.z." 1 ["192.0.2.1"],
    textRecord "a.z." 1 ["192.0.2.1"]].map fun rec => ⟨rec, true⟩

/-- An UPDATE of zone `z.` that deletes the addresses of `c.z.` and adds one at `b.z.`. -/
def moveAddress : List UInt8 :=
  [0, 0, 0x28, 0, 0, 1, 0, 0, 0, 2, 0, 0, 1, 122, 0, 0, 6, 0, 1,
    1, 99, 0xC0, 12, 0, 1, 0, 255, 0, 0, 0, 0, 0, 0,
    1, 98, 0xC0, 12, 0, 1, 0, 1, 0, 0, 0, 60, 0, 4, 192, 0, 2, 1]

/-- The signer `k.` may change the addresses of zone `z.`. -/
def addressPolicy : List UpdateRule := [⟨true, .subdomain, false, ascii "k.", ascii "z.", [1]⟩]

lemma ok_of_mem_toOption {ε α : Type} {x : Except ε α} {a : α}
    (h : a ∈ x.toOption) : x = .ok a := by
  cases x with
  | error e => cases h
  | ok b =>
    cases h
    rfl

/-- Both owners whose addresses change are within the policy. -/
theorem update_within_policy_address :
    ∃ res out, processUpdateSectionsPolicy ampleMemory (blit (fun _ => 0) 0 moveAddress)
      moveAddress.length
        (ascii "z.") hostZone (some addressPolicy) (some (ascii "k.")) = .ok (res, out) ∧
      out.map (·.record.name) = [ascii "z.", ascii "a.z.", ascii "b.z."] ∧
      ∀ name ∈ [ascii "c.z.", ascii "b.z."], updatePolicyAllows addressPolicy
        (some (ascii "k.")) name 1 = true := by
  have hmoved :
    ∃ p ∈ (processUpdateSectionsPolicy ampleMemory (blit (fun _ => 0) 0 moveAddress)
      moveAddress.length
      (ascii "z.") hostZone (some addressPolicy) (some (ascii "k."))).toOption,
        p.2.map (·.record.name) = [ascii "z.", ascii "a.z.", ascii "b.z."] ∧
          ∀ name ∈ [ascii "c.z.", ascii "b.z."], (p.2.filter (rrsOf name 1)).length ≠
            ((indexedRecords ampleMemory hostZone).filter (rrsOf name 1)).length := by
              decide +kernel
  obtain ⟨p, hp, hnames, hdiffer⟩ := hmoved
  have hproc := ok_of_mem_toOption hp
  refine ⟨p.1, p.2, hproc, hnames, fun name hname => ?_⟩
  exact ((update_within_policy _ _ _ _ _).1 _ _ p.1 p.2 hproc).2 name 1 fun heq =>
    hdiffer name hname (congrArg length heq)

end KariDns
