import KariDns.Catalog.Membership
import KariDns.Query.Loaded

/-! When the members of a catalog zone are taken from it (RFC 9432).

A catalog that is broken in the sense of RFC 9432 5.1 is to change nothing, and from one that is not
every member is taken that is not configured. The checks of `catalog_process_membership` see less
than that: any version record that starts with the string `2` is enough, members that are configured
are left out before members are compared, and a name of more than 255 characters is lost.
-/

namespace KariDns

open Octets DomainName List Option

/-! ### The catalog and its rules -/

/-- A catalog zone that is loaded; the name of a zone has at most 255 characters. -/
structure CatalogZone extends LoadedZone where
  short : (nameText apex).length ≤ 255

def versionLabel : Label := ascii "version"

def zonesLabel : Label := ascii "zones"

def cooLabel : Label := ascii "coo"

/-- A PTR record one label below `zones.<catalog>`. -/
structure MemberNode where
  label : Label
  above : Name
  rr : ImageRr

variable (img : ZoneImage) (v : CatalogView) (catalog : Name) (n : MemberNode)

def MemberNode.owner : Name := n.label :: n.above

/-- The zone the node names. -/
def MemberNode.member : Option Text := rrTarget n.rr

def memberNode (r : Text × ImageRr) : Option MemberNode :=
  if r.2.type ≠ 12 then none
  else
    match readName r.1 with
    | some (label :: above) => if fold above = fold (zonesLabel :: catalog) then
      some ⟨label, above, r.2⟩ else none
    | _ => none

/-- The member nodes of an image, one for each PTR record. -/
def memberNodes : List MemberNode := img.fileRrs.filterMap (memberNode catalog)

/-- The records of a name and a type. -/
def recordsAt (n : Name) (type : UInt16) : List ImageRr :=
  (img.fileRrs.filter fun r => (readName r.1).any (fun m => fold m = fold n) &&
    decide (r.2.type = type)).map (·.2)

/-- Two nodes name one zone. -/
def SameMember (a b : MemberNode) : Prop :=
  ∃ s t, a.member = some s ∧ b.member = some t ∧ domainNamesMatchCi s t = true

/-- A catalog that is not broken (RFC 9432 5.1). -/
structure CatalogOk (img : ZoneImage) (catalog : Name) : Prop where
  version : ∃ rr, recordsAt img (versionLabel :: catalog) 16 = [rr] ∧ rr.rdata = [1, 50]
  onePtr : (memberNodes img catalog).Pairwise fun a b => fold a.owner ≠ fold b.owner
  oneNode : (memberNodes img catalog).Pairwise fun a b => ¬ SameMember a b
  oneCoo : ∀ n ∈ memberNodes img catalog, (recordsAt img (cooLabel :: n.owner) 12).length ≤ 1

/-- The member is a zone that is not configured. -/
def MemberNode.unconfigured : Bool := n.member.any fun t => !v.configured t

/-- The `coo` target of a node, empty without one. -/
def cooTarget : Text :=
  match recordsAt img (cooLabel :: n.owner) 12 with
  | [rr] => (rrTarget rr).getD []
  | _ => []

/-- The label, the member and the `coo` target of every member node whose member is not
configured. -/
def catalogMembers : List (Text × Text × Text) :=
  ((memberNodes img catalog).filter (·.unconfigured v)).map fun n =>
    (labelText n.label, n.member.getD [], cooTarget img n)

/-! ### What the checks see -/

/-- A member that is not configured and whose name is not too long. -/
def MemberNode.eligible : Bool :=
  n.unconfigured v && decide ((n.member.getD []).length ≤ 255)

/-- What the checks of `catalog_process_membership` ask for. -/
structure CatalogPasses (img : ZoneImage) (v : CatalogView) (catalog : Name) : Prop where
  notRoot : catalog ≠ []
  fits : (nameText catalog).length ≤ 248
  version : ∃ rr ∈ recordsAt img (versionLabel :: catalog) 16,
    catalogTxtFirst 8 rr = some (ascii "2")
  onePtr : (memberNodes img catalog).Pairwise fun a b => fold a.owner ≠ fold b.owner
  oneNode : ((memberNodes img catalog).filter (·.eligible v)).Pairwise fun a b => ¬ SameMember a b
  oneCoo : ∀ n ∈ memberNodes img catalog, n.eligible v = true →
    (recordsAt img (cooLabel :: n.owner) 12).length ≤ 1

/-- What the checks do not see is right too: there is at most one version record, of one
character-string without a zero octet; a configured member, or one whose name is too long, is not
named twice and has at most one `coo` record; and the names that are handed on are not too long. -/
structure CatalogTidy (img : ZoneImage) (v : CatalogView) (catalog : Name) : Prop where
  oneVersion : (recordsAt img (versionLabel :: catalog) 16).length ≤ 1
  oneString : ∀ rr ∈ recordsAt img (versionLabel :: catalog) 16,
    ∃ s : Text, rr.rdata = UInt8.ofNat s.length :: s ∧ s.length ≤ 255 ∧ 0 ∉ s
  oneNode : (memberNodes img catalog).Pairwise fun a b =>
    SameMember a b → a.eligible v = true ∧ b.eligible v = true
  oneCoo : ∀ n ∈ memberNodes img catalog, n.eligible v = false →
    (recordsAt img (cooLabel :: n.owner) 12).length ≤ 1
  fit : ∀ n ∈ memberNodes img catalog, n.unconfigured v = true →
    (n.member.getD []).length ≤ 255 ∧ (cooTarget img n).length ≤ 255

section Tidy

variable {img v catalog}

/-- A version that passes is right if it is the only one and one string. -/
lemma CatalogTidy.version (h : CatalogTidy img v catalog) (hp : CatalogPasses img v catalog) :
    ∃ rr, recordsAt img (versionLabel :: catalog) 16 = [rr] ∧ rr.rdata = [1, 50] := by
  obtain ⟨rr, hrr, hfirst⟩ := hp.version
  have hone := h.oneVersion
  obtain ⟨s, hs, hlen, hzero⟩ := h.oneString rr hrr
  have hall : s.takeWhile (· ≠ 0) = s := takeWhile_eq_self_iff.mpr fun c hc => by
    simpa using ne_of_mem_of_not_mem hc hzero
  have hn : (UInt8.ofNat s.length).toNat = s.length := Nat.mod_eq_of_lt (by omega)
  rw [catalogTxtFirst, hs] at hfirst
  dsimp only at hfirst
  rw [hn, take_length, hall] at hfirst
  obtain ⟨-, hval⟩ := ite_none_left_eq_some.mp hfirst
  obtain rfl := some.inj hval
  generalize recordsAt img (versionLabel :: catalog) 16 = l at hone hrr ⊢
  obtain ⟨x, rfl⟩ := length_eq_one_iff.mp (Nat.le_antisymm hone (length_pos_of_mem hrr))
  obtain rfl := mem_singleton.mp hrr
  exact ⟨rr, rfl, hs⟩

/-- A catalog that passes the checks is not broken if the rest is right too. -/
lemma CatalogTidy.ok (h : CatalogTidy img v catalog) (hp : CatalogPasses img v catalog) :
    CatalogOk img catalog := by
  refine ⟨h.version hp, hp.onePtr, ?_, fun n hn => ?_⟩
  · have heligible := hp.oneNode
    rw [pairwise_filter] at heligible
    refine h.oneNode.imp₂ (fun a b hboth hne hsame => ?_) heligible
    exact hne (hboth hsame).1 (hboth hsame).2 hsame
  · cases helig : n.eligible v with
    | false => exact h.oneCoo n hn helig
    | true => exact hp.oneCoo n hn helig

/-- A catalog that is not broken, and has no name that is too long, is tidy. -/
lemma CatalogOk.tidy (h : CatalogOk img catalog)
    (hfit : ∀ n ∈ memberNodes img catalog, n.unconfigured v = true →
      (n.member.getD []).length ≤ 255 ∧ (cooTarget img n).length ≤ 255) :
    CatalogTidy img v catalog := by
  obtain ⟨rr, hone, hrd⟩ := h.version
  refine ⟨by rw [hone]; rfl, fun x hx => ⟨[50], ?_, by decide, by decide⟩, ?_,
    fun n hn _ => h.oneCoo n hn, hfit⟩
  · rw [hone, mem_singleton] at hx
    rw [hx, hrd]
    rfl
  · exact h.oneNode.imp fun hne hsame => absurd hsame hne

end Tidy

/-! ### Names in texts -/

lemma labelOk_version : LabelOk versionLabel := by decide

lemma labelOk_zones : LabelOk zonesLabel := by decide

lemma labelOk_coo : LabelOk cooLabel := by decide

lemma labelsText_version (n : Name) :
    labelsText (versionLabel :: n) = ascii "version." ++ labelsText n := by
  rw [labelsText_cons]
  rfl

lemma labelsText_zones (n : Name) :
    labelsText (zonesLabel :: n) = ascii "zones." ++ labelsText n := by
  rw [labelsText_cons]
  rfl

lemma labelsText_coo (n : Name) : labelsText (cooLabel :: n) = ascii "coo." ++ labelsText n := by
  rw [labelsText_cons]
  rfl

/-- A name printed into a buffer that lacks at most the room for its final dot is still that
name. -/
lemma nameKey_printed {m : Name} (hm : m ≠ []) (hl : ∀ l ∈ m, LabelOk l) {cap : Nat}
    (hcap : (labelsText m).length ≤ cap) :
      nameKey (printed cap (labelsText m)) = stem (fold m) := by
  unfold printed
  rcases Nat.lt_or_eq_of_le hcap with hlt | heq
  · rw [take_of_length_le (by omega), nameKey, ← nameText_of_ne hm, take_lenNoRoot_nameText,
      stem_lower]
  · rw [← heq, ← dropLast_eq_take, ← stem, nameKey, take_lenNoRoot_stem hl, stem_lower]

/-- Which owner a text finds. -/
lemma matchCi_key {n m : Name} {t : Text} (hn : Valid n) (hm : ∀ l ∈ m, LabelOk l)
    (ht : nameKey t = stem (fold m)) :
    domainNamesMatchCi (nameText n) t = true ↔ fold n = fold m := by
  rw [matchCi_iff, (denotes_nameText hn).key, ht]
  exact ⟨fun h => stem_inj (fold_ok hn.labels) (fold_ok hm) h, fun h => congrArg stem h⟩

/-- The text in front of `.zones.<catalog>` is one label exactly for a name one label below it. -/
lemma memberLabel_iff {n d : Name} (hn : Valid n) (hd : ∀ l ∈ d, LabelOk l) {front : Text} :
    memberLabel (ascii ".zones." ++ labelsText d) (nameText n) = some front ↔
      ∃ l above, n = l :: above ∧ fold above = fold (zonesLabel :: d) ∧ front = labelText l := by
  have hsuffix : ascii ".zones." ++ labelsText d = 46 :: labelsText (zonesLabel :: d) := by
    rw [labelsText_zones]
    rfl
  rw [hsuffix]
  constructor
  · intro h
    rw [memberLabel] at h
    split at h
    · rename_i hcond
      obtain ⟨hlen, htail, hsingle⟩ := hcond
      obtain rfl := some.inj h
      rw [catalogPrefixIsSingleLabel, Bool.and_eq_true, Bool.and_eq_true, Bool.not_eq_true',
        decide_eq_true_eq, isNone_iff_eq_none] at hsingle
      obtain ⟨⟨hne, hesc⟩, hno⟩ := hsingle
      generalize hfront : (nameText n).take
        ((nameText n).length - (46 :: labelsText (zonesLabel :: d)).length) = front at *
      -- the rest starts with a dot
      obtain ⟨r, hr, hlower⟩ : ∃ r, (nameText n).drop
        ((nameText n).length - (46 :: labelsText (zonesLabel :: d)).length) = 46 :: r ∧
          r.map lower = (labelsText (zonesLabel :: d)).map lower := by
        rw [strcaseeq, beq_iff_eq] at htail
        obtain ⟨c, r, hcr, hc, hr⟩ := map_eq_cons_iff.mp (htail.trans (map_cons ..))
        exact ⟨r, by rw [hcr, (lower_dot c).mp (hc.trans (by decide))], hr⟩
      have htext : nameText n = front ++ 46 :: r := by
        rw [← hr, ← hfront, take_append_drop]
      have hnne : n ≠ [] := by
        rintro rfl
        have hshort : (nameText []).length = 1 := rfl
        rw [htext, length_append, length_cons] at hshort
        have hpos := length_pos_of_ne_nil hne
        omega
      rw [nameText_of_ne hnne] at htext
      obtain ⟨l, above, rfl⟩ := exists_cons_of_ne_nil hnne
      rw [labelsText_cons, append_assoc, singleton_append] at htext
      obtain ⟨hlabel, habove⟩ :=
        NoDot.first_dot (afterDot_none labelText_single) (escaped_label escaped_nil l)
        (afterDot_none hno) hesc htext
      have hz : ∀ k ∈ zonesLabel :: d, LabelOk k := forall_mem_cons.mpr ⟨labelOk_zones, hd⟩
      refine ⟨l, above, rfl,
        labelsText_inj (fold_ok fun k hk => hn.labels k (mem_cons_of_mem _ hk)) (fold_ok hz) ?_,
        hlabel.symm⟩
      rw [← labelsText_lower, habove, hlower, labelsText_lower]
    · cases h
  · rintro ⟨l, above, rfl, hfold, rfl⟩
    have htext : nameText (l :: above) = labelText l ++ 46 :: labelsText above := by
      rw [nameText_of_ne (by simp), labelsText_cons]
      simp
    have hlower : (labelsText above).map lower = (labelsText (zonesLabel :: d)).map lower := by
      rw [labelsText_lower, hfold, labelsText_lower]
    have hlen : (labelsText above).length = (labelsText (zonesLabel :: d)).length := by
      rw [← length_map (f := lower), hlower, length_map]
    have hcut : (nameText (l :: above)).length - (46 :: labelsText (zonesLabel :: d)).length =
        (labelText l).length := by
      rw [htext]
      simp [hlen]
    have hne := labelText_ne_nil hn.head.1
    have hpos := length_pos_of_ne_nil hne
    rw [memberLabel]
    rw [hcut, htext, take_left, drop_left, if_pos]
    refine ⟨by simp [hlen]; omega, ?_, ?_⟩
    · simp [strcaseeq, hlower]
    · have hesc : dnsCharIsEscaped (labelText l) = false := by
        simpa using escaped_label escaped_nil l
      simp [catalogPrefixIsSingleLabel, hne, hesc, labelText_single]

lemma dotted_nameText (m : Name) : dotted (nameText m) = nameText m := by
  have hlen : dnsNameLenNoRoot (nameText m) ≠ (nameText m).length := by
    intro heq
    have htake := @take_lenNoRoot_nameText m
    rw [heq, take_length] at htake
    by_cases hm : m = []
    · subst hm
      cases htake
    · rw [nameText_of_ne hm, labelsText_eq_stem hm] at htake
      simp at htake
  exact if_neg fun h => hlen h.2

/-- The name of a PTR record is the text of a name. -/
lemma rrTarget_name {rr : ImageRr} {t : Text} (h : rrTarget rr = some t) :
    ∃ m, Valid m ∧ t = nameText m := by
  rw [rrTarget] at h
  split at h
  · cases h
  split at h
  · cases h
  obtain ⟨⟨s, e⟩, hs, rfl⟩ := map_eq_some_iff.mp h
  obtain ⟨m, hm, -, ht⟩ := expandWireNameToBuffer_sound hs
  exact ⟨m, hm, ht⟩

lemma strcaseeq_nameText {m n : Name} (hm : Valid m) (hn : Valid n) :
    strcaseeq (nameText m) (nameText n) = domainNamesMatchCi (nameText m) (nameText n) := by
  rw [Bool.eq_iff_iff, strcaseeq_nameText_iff hm hn,
    (denotes_nameText hm).match_iff (denotes_nameText hn)]

lemma catalogCooText_length (t : Option Text) : (catalogCooText t).length ≤ 255 := by
  rw [catalogCooText, normalizeDomainFqdnLocal]
  split
  · simp
  · rw [getD_some]
    omega

/-- What is kept of a `coo` target: all of it, or something else. -/
lemma catalogCooText_eq {rr : ImageRr} :
    catalogCooText (rrTarget rr) = (rrTarget rr).getD [] ↔
      ((rrTarget rr).getD []).length ≤ 255 := by
  constructor
  · intro h
    rw [← h]
    exact catalogCooText_length _
  intro hlen
  have hprinted : printed 256 ((rrTarget rr).getD []) = (rrTarget rr).getD [] :=
    take_of_length_le hlen
  have hdotted : dotted ((rrTarget rr).getD []) = (rrTarget rr).getD [] := by
    cases ht : rrTarget rr with
    | none => rfl
    | some t =>
      obtain ⟨m, -, rfl⟩ := rrTarget_name ht
      exact dotted_nameText m
  rw [catalogCooText, hprinted, normalizeDomainFqdnLocal, hdotted, if_neg (by omega)]
  rfl

end KariDns
