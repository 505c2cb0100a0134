import KariDns.Libc.Print
import KariDns.Server.QueryAcl

/-! Lists of addresses in the configuration (`dns_tsig_acl.c`).

A list is kept as the texts that were written and as entries parsed from them. `check_acl` reads the
texts again for each client, `check_acl_bin` uses the entries. Both let the first entry decide whose
prefix holds the client's address.
-/

namespace KariDns

open Octets DomainName BitPrefix List Option

variable {client s t : Text} {a : Addr}

/-- What stands behind the `!` of an entry that denies. -/
def aclTarget (rule : Text) : Text := if rule.head? = some 33 then rule.tail else rule

/-- `check_acl`, null pointers in the list included. -/
def checkAcl (client : Text) : List (Option Text) → Bool
  | [] => false
  | none :: rules => checkAcl client rules
  | some rule :: rules =>
    if matchCidr client (aclTarget rule) then rule.head? ≠ some 33 else checkAcl client rules

/-- `acl_list_parse`. -/
def aclListParse (rules : List (Option Text)) : List (List UInt8) := rules.map aclEntry

/-- The loop of `check_acl_bin` over the octets of the entries. -/
def checkEntries (a : Addr) : List (List UInt8) → Bool
  | [] => false
  | e :: rest =>
    let cidr := Cidr.ofOctets (e.take cidrEntrySize)
    if !cidr.valid then checkEntries a rest
    else if cidrEntryMatch cidr a.family a.octets then e.getD cidrEntrySize 0 = 0
    else checkEntries a rest

/-- `check_acl_bin`. -/
def checkAclBin (client : Text) (parsed : List (List UInt8)) : Bool :=
  match addrOfIp client with
  | none => false
  | some a => checkEntries a parsed

/-! ### Entries -/

/-- The text is `any`, or a prefix that the address has. -/
def EntryHolds (s : Text) (a : Addr) : Prop :=
  (s = ascii "any" ∨ s = ascii "any;") ∨
    ∃ p, entryPrefix s = some p ∧ p.family = a.family ∧ Agree p.plen a.octets p.octets

lemma mem_splitOn {c x : UInt8} (hx : x ≠ c) : ∀ {t : Text}, x ∈ t → ∃ p ∈ splitOn c t, x ∈ p
  | d :: t, h => by
    rw [splitOn]
    rcases mem_cons.mp h with rfl | h
    · rw [if_neg hx]
      split <;> exact ⟨_, mem_cons_self, mem_cons_self⟩
    obtain ⟨p, hp, hxp⟩ := mem_splitOn hx h
    split
    · exact ⟨p, mem_cons_of_mem _ hp, hxp⟩
    split
    · rename_i hnil
      rw [hnil] at hp
      cases hp
    · rename_i q ps heq
      rw [heq] at hp
      rcases mem_cons.mp hp with rfl | hp
      · exact ⟨_, mem_cons_self, mem_cons_of_mem _ hxp⟩
      · exact ⟨p, mem_cons_of_mem _ hp, hxp⟩

/-- No text is an address of both families. -/
lemma inetPton6_of_quad {q : List UInt8} (h : inetPton4 t = some q) : inetPton6 t = none := by
  have hquad := h
  unfold inetPton4 at h
  split at h
  · rename_i p₁ p₂ p₃ p₄ hsplit
    simp only [bind_eq_bind, bind_eq_some_iff] at h
    obtain ⟨x₁, h₁, x₂, h₂, x₃, h₃, x₄, h₄, hq⟩ := h
    have hdigits : ∀ {p x}, dottedOctet p = some x → 58 ∉ p := by
      intro p x hp hmem
      unfold dottedOctet at hp
      split at hp
      · cases hp
      rename_i hok
      simp only [not_or, not_not, List.all_eq_true] at hok
      exact absurd (hok.2.1 58 hmem) (by decide)
    have hcolon : 58 ∉ t := by
      intro hmem
      obtain ⟨p, hp, hxp⟩ := mem_splitOn (c := 46) (by decide) hmem
      rw [hsplit] at hp
      simp only [mem_cons, not_mem_nil, or_false] at hp
      rcases hp with rfl | rfl | rfl | rfl
      exacts [hdigits h₁ hxp, hdigits h₂ hxp, hdigits h₃ hxp, hdigits h₄ hxp]
    have hne : t ≠ [] := by
      rintro rfl
      cases hsplit
    have hdouble := splitDoubleColon_append [] hcolon hne
    rw [append_nil] at hdouble
    rw [inetPton6, hdouble, groupsOf, if_neg hne, splitOn_none hcolon, hexGroups, hquad,
      ← some.inj hq]
    cases hexGroup t <;> rfl
  · cases h

/-- `match_cidr` takes a length up to 128 before it knows the family. -/
lemma matchCidr_eq (hany : ¬ (s = ascii "any" ∨ s = ascii "any;")) : matchCidr client s =
    match inetPton4 client, inetPton4 (splitAt 47 (s.take 255)).1, inetPton6 client,
      inetPton6 (splitAt 47 (s.take 255)).1 with
    | some a, some b, _, _ => (entryPlen 32 (splitAt 47 (s.take 255)).2).any (maskedEq 4 · a b)
    | _, _, some a, some b => (entryPlen 128 (splitAt 47 (s.take 255)).2).any (maskedEq 16 · a b)
    | _, _, _, _ => false := by
  simp only [matchCidr, hany, if_false]
  generalize splitAt 47 (s.take 255) = st
  obtain ⟨addr, _ | t⟩ := st
  · simp only [getD_none, gt_iff_lt, lt_self_iff_false, if_false, inetMask_eq (Nat.le_refl 32)]
    rfl
  dsimp only [entryPlen]
  rcases scanNumber t with _ | number
  · dsimp only
    split <;> rfl
  rcases strtol t with ⟨v, _ | ⟨c, rest⟩⟩
  · dsimp only
    by_cases hv : v < 0 ∨ v > 128
    · rw [if_pos hv, if_neg (show ¬ (0 ≤ v ∧ v ≤ (32 : Nat)) by omega),
        if_neg (show ¬ (0 ≤ v ∧ v ≤ (128 : Nat)) by omega)]
      dsimp only
      split <;> rfl
    rw [if_neg hv, if_pos (show 0 ≤ v ∧ v ≤ (128 : Nat) by omega)]
    dsimp only [getD_some, any_some]
    by_cases h32 : v.toNat > 32
    · rw [if_neg (show ¬ (0 ≤ v ∧ v ≤ (32 : Nat)) by omega)]
      simp only [h32, if_true]
      rfl
    · rw [if_pos (show 0 ≤ v ∧ v ≤ (32 : Nat) by omega)]
      simp only [h32, if_false, inetMask_eq (not_lt.mp h32)]
      rfl
  · dsimp only
    split <;> rfl

lemma matchCidr_iff (ha : addrOfIp client = some a) :
    matchCidr client s = true ↔ EntryHolds s a := by
  by_cases hany : s = ascii "any" ∨ s = ascii "any;"
  · simp [matchCidr, EntryHolds, hany]
  have hbits : ∀ {p}, entryPrefix s = some p →
      (Agree p.plen a.octets p.octets ↔
        maskedEq (afWidth p.family) p.plen a.octets p.octets = true) := by
    intro p hp
    rw [agree_iff_masked (entryPrefix_ok hp).2]
    simp [maskedEq]
  have hholds : EntryHolds s a ↔ ∃ p, entryPrefix s = some p ∧ p.family = a.family ∧
      maskedEq (afWidth p.family) p.plen a.octets p.octets = true := by
    rw [EntryHolds, or_iff_right hany]
    exact exists_congr fun p => and_congr_right fun hp => and_congr_right fun _ => hbits hp
  rw [hholds, matchCidr_eq hany, entryPrefix]
  dsimp only
  unfold addrOfIp at ha
  cases h4 : inetPton4 client with
  | some q =>
    rw [h4] at ha
    obtain rfl := some.inj ha
    rw [inetPton6_of_quad h4]
    cases inetPton4 (splitAt 47 (s.take 255)).1 with
    | some b => simp [Option.any_eq_true, afWidth]
    | none => cases inetPton6 (splitAt 47 (s.take 255)).1 <;> simp
  | none =>
    rw [h4] at ha
    obtain ⟨q, h6, rfl⟩ := map_eq_some_iff.mp ha
    rw [h6]
    cases h4' : inetPton4 (splitAt 47 (s.take 255)).1 with
    | some b =>
      rw [inetPton6_of_quad h4']
      simp
    | none => cases inetPton6 (splitAt 47 (s.take 255)).1 <;> simp [Option.any_eq_true, afWidth]

/-- The octets of an entry know the same addresses. -/
lemma cidrEntryParse_match_iff :
    cidrEntryMatch (Cidr.ofOctets (cidrEntryParse s)) a.family a.octets = true ↔
      EntryHolds s a := by
  by_cases hany : s = ascii "any" ∨ s = ascii "any;"
  · rw [EntryHolds, or_iff_left_of_imp fun _ => hany, iff_true_right hany]
    rcases hany with rfl | rfl <;> rfl
  have hwell := cidrEntryParse_wellFormed s
  rw [EntryHolds, or_iff_right hany]
  rw [cidrEntryParse_eq hany] at hwell ⊢
  cases hp : entryPrefix s with
  | none => simp [Cidr.ofOctets_cidrOctets, cidrEntryMatch]
  | some p =>
    obtain ⟨hfam, hle⟩ := entryPrefix_ok hp
    have hplen : p.plen ≤ 128 := by
      rcases hfam with h | h <;> rw [h] at hle <;> exact hle.trans (by decide)
    have hfam' : p.family < 256 := by rcases hfam with h | h <;> rw [h] <;> decide
    rw [hp] at hwell
    dsimp only at hwell ⊢
    rw [Cidr.ofOctets_cidrOctets hfam' (by omega)] at hwell ⊢
    have hpad : Agree p.plen a.octets ((p.octets ++ List.replicate 16 0).take 16) ↔
        Agree p.plen a.octets p.octets :=
      forall_congr' fun i => forall_congr' fun hi => by
        rw [bit_eq_of_getD (padded_getD (show i / 8 < 16 by omega))]
    by_cases heq : p.family = a.family
    · have := cidrEntryMatch_iff hwell rfl rfl a.octets
      dsimp only at this
      simp only [heq] at this ⊢
      rw [this, hpad]
      simp [heq]
    · simp [cidrEntryMatch, heq]

lemma aclEntry_octets (rule : Text) : (aclEntry (some rule)).take cidrEntrySize = cidrEntryParse
    (aclTarget rule) ∧
    ((aclEntry (some rule)).getD cidrEntrySize 0 = 0 ↔ rule.head? ≠ some 33) := by
  have hlen : ∀ s, (cidrEntryParse s).length = cidrEntrySize := by
    intro s
    by_cases hany : s = ascii "any" ∨ s = ascii "any;"
    · rcases hany with rfl | rfl <;> rfl
    · rw [cidrEntryParse_eq hany]
      split <;> simp [cidrOctets, le32, cidrEntrySize]
  rw [aclEntry, aclTarget]
  split
  all_goals
    rename_i hdeny
    rw [take_left' (hlen _), getD_eq_getElem?_getD, getElem?_append_right (hlen _).le, hlen]
    simp [hdeny]

/-! ### Lists -/

/-- The first entry whose prefix holds the address allows it; an entry with `!` denies. -/
def FirstAllows (a : Addr) : List (Option Text) → Prop
  | [] => False
  | none :: rules => FirstAllows a rules
  | some rule :: rules =>
    (EntryHolds (aclTarget rule) a ∧ rule.head? ≠ some 33) ∨
      (¬ EntryHolds (aclTarget rule) a ∧ FirstAllows a rules)

lemma checkEntries_iff : ∀ rules : List (Option Text), checkEntries a (aclListParse rules) = true ↔
    FirstAllows a rules
  | [] => by simp [aclListParse, checkEntries, FirstAllows]
  | none :: rules => by
    rw [FirstAllows, ← checkEntries_iff rules]
    rfl
  | some rule :: rules => by
    obtain ⟨hcidr, hdeny⟩ := aclEntry_octets rule
    have hmatch := @cidrEntryParse_match_iff (aclTarget rule) a
    rw [FirstAllows, ← checkEntries_iff rules, ← hmatch, ← hdeny, aclListParse, map_cons,
      checkEntries, hcidr]
    -- an entry that is not valid matches no address
    cases hvalid : (Cidr.ofOctets (cidrEntryParse (aclTarget rule))).valid with
    | false => simp [cidrEntryMatch, hvalid, aclListParse]
    | true =>
      by_cases hm : cidrEntryMatch (Cidr.ofOctets (cidrEntryParse (aclTarget rule))) a.family
        a.octets = true <;>
        simp [hm, aclListParse]

lemma checkAcl_iff (ha : addrOfIp client = some a) : ∀ rules, checkAcl client rules = true ↔
    FirstAllows a rules
  | [] => by simp [checkAcl, FirstAllows]
  | none :: rules => checkAcl_iff ha rules
  | some rule :: rules => by
    rw [FirstAllows, ← checkAcl_iff ha rules, ← matchCidr_iff ha, checkAcl]
    split <;> simp_all

/-- The texts and the entries parsed from them let in the same clients. -/
theorem checkAcl_first (rules : List (Option Text)) (client : Text) (a : Addr)
    (ha : addrOfIp client = some a) :
    (checkAcl client rules = true ↔ FirstAllows a rules) ∧
      (checkAclBin client (aclListParse rules) = true ↔ FirstAllows a rules) := by
  refine ⟨checkAcl_iff ha rules, ?_⟩
  rw [checkAclBin, ha]
  exact checkEntries_iff rules

theorem checkAcl_first_denied : addrOfIp (ascii "10.0.0.1") = some ⟨afInet, [10, 0, 0, 1]⟩ ∧
    ¬ FirstAllows ⟨afInet, [10, 0, 0, 1]⟩ [some (ascii "!10.0.0.0/30"), some (ascii "any")] := by
  have haddr : addrOfIp (ascii "10.0.0.1") = some ⟨afInet, [10, 0, 0, 1]⟩ := by decide +kernel
  refine ⟨haddr, fun h => ?_⟩
  have hallowed := (checkAcl_first _ _ _ haddr).1.mpr h
  exact absurd hallowed (by decide +kernel)

end KariDns
