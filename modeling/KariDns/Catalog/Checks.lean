import KariDns.Catalog.Rules

/-! What `catalog_process_membership` makes of a catalog.

The texts it builds for the names it looks up are followed back to the names, so that each of its
checks becomes a statement about the records of the zone.
-/

namespace KariDns

open Octets DomainName List Option

variable {n : MemberNode} {r : Text × ImageRr}

namespace CatalogZone

variable (z : CatalogZone)

/-! ### Records of the file -/

lemma file_owner (h : r ∈ z.img.fileRrs) : ∃ n, Valid n ∧ r.1 = nameText n ∧ Below n z.apex := by
  obtain ⟨rr, hrr, rfl⟩ := List.mem_map.mp h
  obtain ⟨k, hk⟩ := mem_iff_getElem?.mp (z.isFrozen.file_perm.mem_iff.mp hrr)
  obtain ⟨nm, -, -, hnm, -⟩ := z.isFrozen.rrName hk
  obtain ⟨s, hs, hlive, htext⟩ := z.name_record hnm
  obtain ⟨n, hn, hname, hbelow⟩ := z.owners s hs hlive
  refine ⟨n, hn, ?_, hbelow⟩
  rw [ZoneImage.nameText, hnm, ← hname, ← htext]
  rfl

lemma apex_valid : Valid z.apex := z.domain_denotes.valid

/-- What is found under a text are the records of the name it spells. -/
lemma rrsOf_named {m : Name} {t : Text} (hm : ∀ l ∈ m, LabelOk l) (ht : nameKey t = stem (fold m))
    (type : UInt16) :
    (z.img.rrsOf t type).Perm (recordsAt z.img m type) := by
  refine (z.isFrozen.rrsOf_perm t type).trans (List.Perm.of_eq ?_)
  rw [recordsAt]
  congr 1
  refine filter_congr fun r hr => ?_
  obtain ⟨n, hn, htext, -⟩ := z.file_owner hr
  have hiff := matchCi_key hn hm ht
  rw [htext, readName_nameText hn, any_some]
  congr 1
  rw [Bool.eq_iff_iff, hiff, decide_eq_true_eq]

/-- Nothing is found under a text that spells no owner. -/
lemma rrsOf_unnamed {t : Text} (ht : ∀ n, Valid n → Below n z.apex → nameKey t ≠ stem (fold n))
    (type : UInt16) :
    z.img.rrsOf t type = [] := by
  have hperm := z.isFrozen.rrsOf_perm t type
  rw [filter_eq_nil_iff.mpr] at hperm
  · exact hperm.eq_nil
  intro r hr hmatch
  obtain ⟨n, hn, htext, hbelow⟩ := z.file_owner hr
  rw [Bool.and_eq_true, htext, matchCi_iff, (denotes_nameText hn).key] at hmatch
  exact ht n hn hbelow hmatch.1.symm

/-! ### The version -/

/-- The text looked up for the version, when all of the name fits. -/
lemma version_key (hroot : z.apex ≠ []) (hfits : (nameText z.apex).length ≤ 248) :
    nameKey (printed 256 (ascii "version." ++ nameText z.apex)) =
      stem (fold (versionLabel :: z.apex)) := by
  rw [nameText_of_ne hroot] at hfits ⊢
  rw [← labelsText_version]
  refine nameKey_printed (by simp) (forall_mem_cons.mpr ⟨labelOk_version, z.apex_valid.labels⟩) ?_
  rw [labelsText_version, length_append, show (ascii "version.").length = 8 from rfl]
  omega

/-- With the root as catalog the text has an empty label. -/
lemma version_root (hroot : z.apex = []) (n : Name) (hn : Valid n) :
    nameKey (printed 256 (ascii "version." ++ nameText z.apex)) ≠ stem (fold n) := by
  intro hkey
  have htake := take_lenNoRoot_stem (fold_ok hn.labels)
  rw [← hkey, hroot] at htake
  exact absurd htake (by decide)

/-- A text that repeats its first eight octets. -/
lemma repeats {x w : Text} (hw : w.length = 8) {k : Nat} (h : x = w ++ x.take k) :
    ∀ i < k + 8, x[i]? = w[i % 8]? := by
  intro i
  induction i using Nat.strong_induction_on with
  | h i ih =>
    intro hi
    by_cases hlt : i < 8
    · rw [h, getElem?_append_left (by omega), Nat.mod_eq_of_lt hlt]
    rw [h, getElem?_append_right (by omega), getElem?_take_of_lt (by omega), hw,
      ih (i - 8) (by omega) (by omega)]
    congr 1
    omega

/-- What is compared of a text: all of it, or all but its final dot. -/
lemma nameKey_cases (t : Text) : nameKey t = t.map lower ∨ nameKey t ++ [46] = t.map lower := by
  rw [nameKey]
  unfold dnsNameLenNoRoot
  split
  · rename_i hdot
    obtain ⟨s, rfl⟩ := getLast?_eq_some_iff.mp hdot.1
    exact .inr (by simp [show lower 46 = 46 from rfl])
  · exact .inl (by simp)

/-- A name that is cut off spells no owner of the zone: one below the catalog would be longer, and
the catalog itself would repeat `version.` up to its last octet, which is not a dot then. -/
lemma version_cut (hroot : z.apex ≠ []) (hlong : 248 < (nameText z.apex).length) (n : Name)
    (hbelow : Below n z.apex) :
    nameKey (printed 256 (ascii "version." ++ nameText z.apex)) ≠ stem (fold n) := by
  intro hkey
  have hshort := z.short
  rw [nameText_of_ne hroot] at hkey hlong hshort
  obtain ⟨k, hk⟩ := hbelow
  have hlen : (labelsText (fold z.apex)).length = (labelsText z.apex).length := by
    rw [← labelsText_lower, length_map]
  have hne : fold n ≠ [] := by
    rw [← hk]
    simpa [fold] using fun _ => hroot
  generalize ht : printed 256 (ascii "version." ++ labelsText z.apex) = t at hkey
  have htlower : t.map lower = ascii "version." ++ (labelsText (fold z.apex)).take 247 := by
    rw [← ht, printed, take_append, map_append, ← labelsText_lower, ← map_take]
    rfl
  have htlen : (t.map lower).length = 255 := by
    rw [htlower, length_append, length_take, show (ascii "version.").length = 8 from rfl]
    omega
  -- the text of the owner is what was looked up, with a final dot
  have htext : labelsText (fold n) = nameKey t ++ [46] := by rw [labelsText_eq_stem hne, hkey]
  have hstart : ∀ i < 8, (labelsText (fold n))[i]? = (ascii "version.")[i]? := by
    intro i hi
    have hw : (t.map lower)[i]? = (ascii "version.")[i]? := by
      rw [htlower, getElem?_append_left hi]
    rcases nameKey_cases t with h | h
    · rw [htext, h, getElem?_append_left (by omega), hw]
    · rw [htext, h, hw]
  have hbound : 255 ≤ (labelsText (fold n)).length ∧ (labelsText (fold n)).length ≤ 256 := by
    rw [htext, length_append, length_singleton]
    rcases nameKey_cases t with h | h
    · rw [h]
      omega
    have := congrArg List.length h
    rw [length_append, length_singleton] at this
    omega
  rcases k with _ | ⟨l, k⟩
  · rw [nil_append] at hk
    have hfull : labelsText (fold n) = t.map lower := by
      rcases nameKey_cases t with h | h
      · have := congrArg List.length htext
        rw [h, length_append, length_singleton, ← hk] at this
        omega
      · rw [htext, h]
    rw [← hk] at hfull
    have hlast :=
      repeats (show (ascii "version.").length = 8 from rfl) (hfull.trans htlower) 254 (by omega)
    rw [labelsText_eq_stem (hk ▸ hne), getElem?_append_right,
      show 254 - (stem (fold z.apex)).length = 0 from ?_] at hlast
    · exact absurd hlast (by decide)
    all_goals
      have := congrArg List.length (labelsText_eq_stem (hk ▸ hne : fold z.apex ≠ []))
      rw [length_append, length_singleton, hfull, htlen] at this
      omega
  -- the first label ends inside of `version`
  have hcut : labelsText (fold n) = labelText l ++ 46 ::
      (labelsText k ++ labelsText (fold z.apex)) := by
    rw [← hk, cons_append, labelsText_cons, labelsText_append]
    simp
  have hsize := congrArg List.length hcut
  rw [length_append, length_cons, length_append] at hsize
  have hdot := hstart (labelText l).length (by omega)
  rw [hcut, getElem?_append_right (by omega), Nat.sub_self, getElem?_cons_zero] at hdot
  have hno : ∀ i < 7, (ascii "version.")[i]? ≠ some 46 := by decide
  exact hno _ (by omega) hdot.symm

/-- `found_version`. -/
lemma versionFound_iff :
    catalogVersionFound z.img (nameText z.apex) = true ↔
      z.apex ≠ [] ∧ (nameText z.apex).length ≤ 248 ∧
    ∃ rr ∈ recordsAt z.img (versionLabel :: z.apex) 16, catalogTxtFirst 8 rr =
      some (ascii "2") := by
  by_cases hroot : z.apex = []
  · rw [catalogVersionFound, z.rrsOf_unnamed fun n hn _ => z.version_root hroot n hn]
    simp [hroot]
  by_cases hfits : (nameText z.apex).length ≤ 248
  · have hperm := z.rrsOf_named (forall_mem_cons.mpr ⟨labelOk_version, z.apex_valid.labels⟩)
      (z.version_key hroot hfits) 16
    rw [catalogVersionFound, List.any_eq_true]
    simp only [hroot, hfits, hperm.mem_iff, decide_eq_true_eq, ne_eq, not_false_eq_true, true_and]
  · rw [catalogVersionFound,
      z.rrsOf_unnamed fun n _ hbelow => z.version_cut hroot (by omega) n hbelow]
    simp [hfits]

/-! ### Member nodes -/

/-- What is compared with the end of an owner. -/
lemma suffix_printed (hroot : z.apex ≠ []) (hfits : (nameText z.apex).length ≤ 248) :
    printed 256 (ascii ".zones." ++ nameText z.apex) = ascii ".zones." ++ labelsText z.apex := by
  rw [nameText_of_ne hroot] at hfits ⊢
  refine take_of_length_le ?_
  rw [length_append, show (ascii ".zones.").length = 7 from rfl]
  omega

/-- The records that pass for a member node are the member nodes. -/
lemma memberNode_label (hr : r ∈ z.img.fileRrs) (hptr : r.2.type = 12) :
    memberLabel (ascii ".zones." ++ labelsText z.apex) r.1 = (memberNode z.apex r).map fun n =>
      labelText n.label := by
  obtain ⟨n, hn, htext, -⟩ := z.file_owner hr
  refine Option.ext fun front => ?_
  rw [htext, memberLabel_iff hn z.apex_valid.labels, memberNode, if_neg (by simpa using hptr),
    htext, readName_nameText hn]
  constructor
  · rintro ⟨l, above, rfl, hfold, rfl⟩
    simp [hfold]
  intro h
  obtain ⟨node, hnode, rfl⟩ := map_eq_some_iff.mp h
  rcases n with _ | ⟨l, above⟩
  · cases hnode
  dsimp only at hnode
  split at hnode
  · rename_i hfold
    obtain rfl := some.inj hnode
    exact ⟨l, above, rfl, hfold, rfl⟩
  · cases hnode

lemma memberNode_spec (h : memberNode z.apex r = some n) :
    r.2.type = 12 ∧ readName r.1 = some n.owner ∧ fold n.above = fold (zonesLabel :: z.apex) ∧
      n.rr = r.2 := by
  rw [memberNode] at h
  split at h
  · cases h
  rename_i hptr
  split at h
  · rename_i hread
    split at h
    · rename_i hfold
      obtain rfl := some.inj h
      exact ⟨by simpa using hptr, hread, hfold, rfl⟩
    · cases h
  · cases h

lemma member_spec (h : n ∈ memberNodes z.img z.apex) :
    Valid n.owner ∧ fold n.owner = fold (n.label :: zonesLabel :: z.apex) := by
  obtain ⟨r, -, hnode⟩ := mem_filterMap.mp h
  obtain ⟨-, hread, hfold, -⟩ := z.memberNode_spec hnode
  refine ⟨readName_valid hread, ?_⟩
  exact congrArg (n.label.map lower :: ·) hfold

/-- `norm_target` of a member, if there is one. -/
lemma normalize_member (n : MemberNode) :
    n.member.bind (normalizeDomainFqdnLocal 256) = n.member.filter fun t => t.length ≤ 255 := by
  cases hm : n.member with
  | none => rfl
  | some t =>
    obtain ⟨m, -, rfl⟩ := rrTarget_name hm
    rw [bind_some, normalizeDomainFqdnLocal, dotted_nameText, filter_some]
    by_cases hlen : (nameText m).length ≤ 255
    · rw [if_neg (by omega), if_pos (by simpa using hlen)]
    · rw [if_pos (by omega), if_neg (by simpa using hlen)]

/-- What the first loop takes from a member node. -/
def taken (n : MemberNode) : Text × Text := (labelText n.label, n.member.getD [])

variable (v : CatalogView)

lemma candidate_eq (hr : r ∈ z.img.fileRrs) :
    catalogCandidate v (ascii ".zones." ++ labelsText z.apex) r =
      ((memberNode z.apex r).filter (·.eligible v)).map taken := by
  by_cases hptr : r.2.type = 12
  · rw [catalogCandidate, if_neg (by simpa using hptr), z.memberNode_label hr hptr]
    cases hnode : memberNode z.apex r with
    | none => rfl
    | some n =>
      obtain ⟨-, hread, -, hrr⟩ := z.memberNode_spec hnode
      have hlabel : (labelText n.label).length < 256 := by
        have hle := labelText_length_le n.label
        have hok := (readName_valid hread).head.2
        omega
      have hnorm := normalize_member n
      rw [MemberNode.member, hrr] at hnorm
      have hassoc :
        ((rrTarget r.2).bind fun target => (normalizeDomainFqdnLocal 256 target).bind fun member =>
          if v.configured member ∨ (labelText n.label).length ≥ 256 then none
          else some (labelText n.label, member)) =
          ((rrTarget r.2).filter fun t => t.length ≤ 255).bind fun member =>
            if v.configured member ∨ (labelText n.label).length ≥ 256 then none
            else some (labelText n.label, member) := by
        rw [← hnorm, bind_assoc]
      refine hassoc.trans ?_
      rw [filter_some, MemberNode.eligible, MemberNode.unconfigured, MemberNode.member, hrr]
      cases ht : rrTarget r.2 with
      | none => simp
      | some t =>
        by_cases hlen : t.length ≤ 255 <;> by_cases hconf : v.configured t = true <;>
          simp [hlen, hconf, hlabel, taken, MemberNode.member, hrr, ht, filter_some]
  · rw [catalogCandidate, if_pos hptr, memberNode, if_pos hptr]
    rfl

/-- `new_desired`, before the properties of the members are added. -/
lemma desired_eq :
    z.img.fileRrs.filterMap (catalogCandidate v (ascii ".zones." ++ labelsText z.apex)) =
    ((memberNodes z.img z.apex).filter (·.eligible v)).map taken := by
  rw [memberNodes, filter_filterMap, map_filterMap]
  exact filterMap_congr fun r hr => z.candidate_eq v hr

/-- How many PTR records a member node has. -/
lemma ptrs_count (h : n ∈ memberNodes z.img z.apex) :
    (recordsAt z.img n.owner 12).length =
      ((memberNodes z.img z.apex).map fun m => fold m.owner).count (fold n.owner) := by
  obtain ⟨-, hown⟩ := z.member_spec h
  rw [recordsAt, length_map, ← countP_eq_length_filter, memberNodes, map_filterMap, List.count,
    countP_filterMap]
  refine countP_congr fun r hr => ?_
  obtain ⟨m, hm, htext, -⟩ := z.file_owner hr
  rw [memberNode, htext, readName_nameText hm]
  by_cases hptr : r.2.type = 12
  · rcases m with _ | ⟨l, above⟩
    · simp [hptr, MemberNode.owner, fold]
    have hfold : fold (l :: above) = fold n.owner → fold above = fold (zonesLabel :: z.apex) := by
      rw [hown]
      exact fun heq => (List.cons.inj heq).2
    by_cases habove : fold above = fold (zonesLabel :: z.apex)
    · simp [hptr, habove, MemberNode.owner]
    rw [any_some, decide_eq_false (mt hfold habove)]
    simp only [hptr, habove]
    simp
  · simp [hptr]

/-- The first check: a member node with more than one PTR record. -/
lemma onePtr_iff : (z.img.fileRrs.any fun r => r.2.type = 12 &&
      (memberLabel (ascii ".zones." ++ labelsText z.apex) r.1).isSome &&
        decide ((z.img.rrsOf r.1 12).length > 1)) = false ↔
    (memberNodes z.img z.apex).Pairwise fun a b => fold a.owner ≠ fold b.owner := by
  rw [← pairwise_map (R := (· ≠ ·)), ← nodup_iff_pairwise_ne, nodup_iff_count_le_one,
    List.any_eq_false]
  have hcount : ∀ r ∈ z.img.fileRrs, ∀ n, memberNode z.apex r = some n →
      (z.img.rrsOf r.1 12).length =
        ((memberNodes z.img z.apex).map fun m => fold m.owner).count (fold n.owner) := by
    intro r hr n hnode
    obtain ⟨-, hread, -, -⟩ := z.memberNode_spec hnode
    obtain ⟨m, hm, htext, -⟩ := z.file_owner hr
    obtain rfl : m = n.owner := by
      rw [htext, readName_nameText hm] at hread
      exact some.inj hread
    rw [← z.ptrs_count (mem_filterMap.mpr ⟨r, hr, hnode⟩)]
    exact (z.rrsOf_named hm.labels (htext ▸ (denotes_nameText hm).key) 12).length_eq
  constructor
  · intro h k
    by_contra hk
    have hmem := count_pos_iff.mp (Nat.zero_lt_of_lt (Nat.lt_of_not_le hk))
    obtain ⟨n, hn, rfl⟩ := List.mem_map.mp hmem
    obtain ⟨r, hr, hnode⟩ := mem_filterMap.mp hn
    obtain ⟨hptr, -, -, -⟩ := z.memberNode_spec hnode
    refine h r hr ?_
    rw [z.memberNode_label hr hptr, hnode, hcount r hr n hnode]
    simp [hptr]
    omega
  intro h r hr hbad
  rw [Bool.and_eq_true, Bool.and_eq_true, decide_eq_true_eq, decide_eq_true_eq] at hbad
  obtain ⟨⟨hptr, hlabel⟩, hmany⟩ := hbad
  rw [z.memberNode_label hr hptr] at hlabel
  cases hnode : memberNode z.apex r with
  | none => simp [hnode] at hlabel
  | some n =>
    rw [hcount r hr n hnode] at hmany
    exact absurd (h (fold n.owner)) (by omega)

/-- The second check: two members with one name. -/
lemma oneNode_iff :
    (((memberNodes z.img z.apex).filter (·.eligible v)).map taken).Pairwise
      (fun a b => strcaseeq a.2 b.2 = false) ↔
      ((memberNodes z.img z.apex).filter (·.eligible v)).Pairwise fun a b => ¬ SameMember a b := by
  have hmember : ∀ n ∈ (memberNodes z.img z.apex).filter (·.eligible v), ∃ m, Valid m ∧
      n.member = some (nameText m) := by
    intro n hn
    have helig := (mem_filter.mp hn).2
    rw [MemberNode.eligible, MemberNode.unconfigured, Bool.and_eq_true] at helig
    obtain ⟨t, ht, -⟩ := (Option.any_eq_true _ _).mp helig.1
    obtain ⟨m, hm, rfl⟩ := rrTarget_name ht
    exact ⟨m, hm, ht⟩
  rw [pairwise_map]
  refine List.Pairwise.iff_of_mem fun {a b} ha hb => ?_
  obtain ⟨m, hm, ham⟩ := hmember a ha
  obtain ⟨k, hk, hbm⟩ := hmember b hb
  simp [taken, SameMember, ham, hbm, strcaseeq_nameText hm hk]

/-! ### Properties of a member -/

/-- What is kept as the `coo` target of a node. -/
def keptCoo (n : MemberNode) : Text :=
  match recordsAt z.img (cooLabel :: n.owner) 12 with
  | [rr] => catalogCooText (rrTarget rr)
  | _ => []

lemma coo_perm (hroot : z.apex ≠ []) (hfits : (nameText z.apex).length ≤ 248)
    (h : n ∈ memberNodes z.img z.apex) :
    (z.img.rrsOf
      (printed 512 (ascii "coo." ++ (taken n).1 ++ ascii ".zones." ++ nameText z.apex)) 12).Perm
      (recordsAt z.img (cooLabel :: n.owner) 12) := by
  obtain ⟨hvalid, hown⟩ := z.member_spec h
  have htext : ascii "coo." ++ (taken n).1 ++ ascii ".zones." ++ nameText z.apex =
      labelsText (cooLabel :: n.label :: zonesLabel :: z.apex) := by
    rw [labelsText_coo, labelsText_cons, labelsText_zones, nameText_of_ne hroot]
    simp [taken, show ascii ".zones." = 46 :: ascii "zones." from rfl]
  have hok : ∀ l ∈ cooLabel :: n.label :: zonesLabel :: z.apex, LabelOk l := by
    simp only [forall_mem_cons]
    exact ⟨labelOk_coo, hvalid.head, labelOk_zones, z.apex_valid.labels⟩
  have hlen : (labelsText (cooLabel :: n.label :: zonesLabel :: z.apex)).length ≤ 512 := by
    have hle := labelText_length_le n.label
    have hlabel := hvalid.head.2
    rw [nameText_of_ne hroot] at hfits
    rw [labelsText_coo, labelsText_cons, labelsText_zones]
    simp only [length_append, length_singleton, show (ascii "coo.").length = 4 from rfl,
      show (ascii "zones.").length = 6 from rfl]
    omega
  rw [htext]
  refine z.rrsOf_named ?_ ((nameKey_printed (by simp) hok hlen).trans ?_) 12
  · exact forall_mem_cons.mpr ⟨labelOk_coo, hvalid.labels⟩
  · exact congrArg (fun k => stem (cooLabel.map lower :: k)) hown.symm

/-- A member is kept with at most one `coo` record. -/
lemma catalogMember_spec (hroot : z.apex ≠ []) (hfits : (nameText z.apex).length ≤ 248)
    (h : n ∈ memberNodes z.img z.apex) :
    catalogMember z.img (nameText z.apex) (taken n) =
      if (recordsAt z.img (cooLabel :: n.owner) 12).length ≤ 1 then
        some ⟨(taken n).1, (taken n).2,
          catalogGroups z.img (nameText z.apex) (taken n).1, z.keptCoo n⟩
      else none := by
  have hperm := z.coo_perm hroot hfits h
  rw [catalogMember, keptCoo]
  split
  · rename_i hnil
    rw [hnil] at hperm
    rw [hperm.symm.eq_nil]
    rfl
  · rename_i rr hone
    rw [hone] at hperm
    rw [hperm.symm.eq_singleton]
    rfl
  rename_i hnil hone
  rw [if_neg]
  rw [← hperm.length_eq]
  intro hle
  generalize z.img.rrsOf _ 12 = l at *
  rcases l with _ | ⟨x, _ | ⟨y, l⟩⟩
  · exact hnil rfl
  · exact hone x rfl
  · simp at hle

/-! ### The list of members -/

/-- What is handed on of a member node. -/
def memberEntry (n : MemberNode) : CatalogMemberId :=
  ⟨(taken n).1, (taken n).2, catalogGroups z.img (nameText z.apex) (taken n).1, z.keptCoo n⟩

lemma mapM_guarded {α β : Type} {f : α → Option β} {p : α → Prop} [DecidablePred p] {g : α → β}
    {l : List α} (hf : ∀ a ∈ l, f a = if p a then some (g a) else none) {l' : List β} :
    l.mapM f = some l' ↔ (∀ a ∈ l, p a) ∧ l' = l.map g := by
  induction l generalizing l' with
  | nil => simp [eq_comm]
  | cons a l ih =>
    have hrest : ∀ {l' : List β}, l.mapM f = some l' ↔ (∀ b ∈ l, p b) ∧ l' = l.map g :=
      ih fun b hb => hf b (mem_cons_of_mem a hb)
    rw [mapM_cons, hf a mem_cons_self, forall_mem_cons, map_cons]
    by_cases hp : p a
    · simp only [hp, true_and, bind_eq_bind, bind_eq_some_iff, hrest]
      simp [eq_comm]
    · simp [hp]

/-- A list is handed on exactly if the checks pass. -/
lemma processMembership_iff {members : List CatalogMemberId} :
    catalogProcessMembership z.img v (nameText z.apex) = some members ↔
      CatalogPasses z.img v z.apex ∧
        members = ((memberNodes z.img z.apex).filter (·.eligible v)).map z.memberEntry := by
  rw [catalogProcessMembership]
  by_cases hversion : catalogVersionFound z.img (nameText z.apex) = true
  · obtain ⟨hroot, hfits, hfound⟩ := z.versionFound_iff.mp hversion
    rw [if_neg (not_not.mpr hversion)]
    dsimp only
    rw [z.suffix_printed hroot hfits, z.desired_eq v]
    by_cases hptr : (memberNodes z.img z.apex).Pairwise fun a b => fold a.owner ≠ fold b.owner
    · rw [if_neg (by rw [z.onePtr_iff.mpr hptr]; simp)]
      by_cases hnode : ((memberNodes z.img z.apex).filter (·.eligible v)).Pairwise fun a b =>
        ¬ SameMember a b
      · have hmember : ∀ n ∈ (memberNodes z.img z.apex).filter (·.eligible v),
            (catalogMember z.img (nameText z.apex) ∘ taken) n =
              if (recordsAt z.img (cooLabel :: n.owner) 12).length ≤ 1 then
                some (z.memberEntry n) else none :=
          fun n hn => z.catalogMember_spec hroot hfits (mem_filter.mp hn).1
        rw [if_neg (not_not.mpr ((z.oneNode_iff v).mpr hnode)), mapM_map, mapM_guarded hmember]
        constructor
        · rintro ⟨hcoo, rfl⟩
          exact ⟨⟨hroot, hfits, hfound, hptr, hnode,
            fun n hn helig => hcoo n (mem_filter.mpr ⟨hn, helig⟩)⟩, rfl⟩
        rintro ⟨hpasses, rfl⟩
        refine ⟨fun n hn => ?_, rfl⟩
        obtain ⟨hmem, helig⟩ := mem_filter.mp hn
        exact hpasses.oneCoo n hmem helig
      · rw [if_pos (mt (z.oneNode_iff v).mp hnode)]
        exact ⟨fun h => (some_ne_none _ h.symm).elim, fun h => absurd h.1.oneNode hnode⟩
    · rw [if_pos (by rw [← Bool.not_eq_false]; exact mt z.onePtr_iff.mp hptr)]
      exact ⟨fun h => (some_ne_none _ h.symm).elim, fun h => absurd h.1.onePtr hptr⟩
  · rw [if_pos hversion]
    refine ⟨fun h => (some_ne_none _ h.symm).elim, fun h => absurd ?_ hversion⟩
    exact z.versionFound_iff.mpr ⟨h.1.notRoot, h.1.fits, h.1.version⟩

lemma keptCoo_short (n : MemberNode) : (z.keptCoo n).length ≤ 255 := by
  rw [keptCoo]
  split
  · exact catalogCooText_length _
  · exact Nat.zero_le _

lemma keptCoo_eq (h : (cooTarget z.img n).length ≤ 255) : z.keptCoo n = cooTarget z.img n := by
  rw [cooTarget] at h ⊢
  rw [keptCoo]
  generalize recordsAt z.img (cooLabel :: n.owner) 12 = l at h ⊢
  rcases l with _ | ⟨rr, _ | ⟨rr', l⟩⟩
  · rfl
  · exact catalogCooText_eq.mpr h
  · rfl

/-- The members handed on from a tidy catalog are its members. -/
lemma members_eq {v : CatalogView} (h : CatalogTidy z.img v z.apex) :
    (((memberNodes z.img z.apex).filter (·.eligible v)).map z.memberEntry).map
      (fun m => (m.uniqueId, m.domain, m.cooTarget)) = catalogMembers z.img v z.apex := by
  have hsame : (memberNodes z.img z.apex).filter (·.eligible v) =
      (memberNodes z.img z.apex).filter (·.unconfigured v) := by
    refine filter_congr fun n hn => ?_
    rw [MemberNode.eligible]
    cases hconf : n.unconfigured v with
    | false => rfl
    | true => simpa using (h.fit n hn hconf).1
  rw [hsame, catalogMembers, List.map_map]
  refine map_congr_left fun n hn => ?_
  obtain ⟨hmem, hconf⟩ := mem_filter.mp hn
  simp [memberEntry, taken, z.keptCoo_eq (h.fit n hmem hconf).2]

end CatalogZone

/-- What `catalog_process_membership` hands on is from a catalog that is not broken, and has all its
members that are not configured, exactly when a catalog that passes the checks is tidy. -/
theorem catalog_membership_iff (z : CatalogZone) (v : CatalogView) :
    (∀ members, catalogProcessMembership z.img v (nameText z.apex) = some members →
      CatalogOk z.img z.apex ∧
        ∀ x, x ∈ members.map (fun m => (m.uniqueId, m.domain, m.cooTarget)) ↔
          x ∈ catalogMembers z.img v z.apex) ↔
      (CatalogPasses z.img v z.apex → CatalogTidy z.img v z.apex) := by
  constructor
  · intro h hpasses
    obtain ⟨hok, hmembers⟩ := h _ ((z.processMembership_iff v).mpr ⟨hpasses, rfl⟩)
    refine hok.tidy fun n hn hconf => ?_
    -- the node is among those handed on, whose names are short
    have hmem := (hmembers _).mpr (List.mem_map.mpr ⟨n, mem_filter.mpr ⟨hn, hconf⟩, rfl⟩)
    rw [List.map_map] at hmem
    obtain ⟨m, hm, heq⟩ := List.mem_map.mp hmem
    obtain ⟨-, hmember, hcoo⟩ : labelText m.label = labelText n.label ∧
      m.member.getD [] = n.member.getD [] ∧
        z.keptCoo m = cooTarget z.img n := by
      simpa [CatalogZone.memberEntry, CatalogZone.taken] using heq
    have helig := (mem_filter.mp hm).2
    rw [MemberNode.eligible, Bool.and_eq_true, decide_eq_true_eq] at helig
    exact ⟨hmember ▸ helig.2, hcoo ▸ z.keptCoo_short m⟩
  intro h members hrun
  obtain ⟨hpasses, rfl⟩ := (z.processMembership_iff v).mp hrun
  have htidy := h hpasses
  refine ⟨htidy.ok hpasses, fun x => ?_⟩
  rw [z.members_eq htidy]

/-- A catalog with two versions. -/
def twoVersions : CatalogZone where
  toLoadedZone := LoadedZone.ofText
    [("cat.", 6, ["ns.cat.", "h.cat.", "1", "2", "3", "4", "5"]), ("version.cat.", 16, ["1"]),
      ("version.cat.", 16, ["2"])]
    [ascii "cat"] (by decide +kernel) (by decide +kernel) (by decide +kernel)
  short := by decide

/-- The list of members of a catalog with two versions is handed on. -/
theorem catalog_two_versions : catalogProcessMembership twoVersions.img ⟨{}, []⟩
    (nameText twoVersions.apex) = some [] ∧
      ¬ CatalogOk twoVersions.img twoVersions.apex := by
  refine ⟨by decide +kernel, fun h => ?_⟩
  obtain ⟨rr, hone, -⟩ := h.version
  have htwo : (recordsAt twoVersions.img (versionLabel :: twoVersions.apex) 16).length = 2 := by
    decide +kernel
  rw [hone] at htwo
  cases htwo

end KariDns
