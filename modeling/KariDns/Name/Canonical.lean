import KariDns.Name.Match
import KariDns.Wire.Expand
import Mathlib.Data.List.Lex

/-! What the comparisons of `Name/Match` say about names.

Two texts match exactly when their keys agree: the text without a final dot, in lower case.
For texts in the form the server keeps, with or without the final dot, matching is equality
of names but for case, and the text behind the first dot is the parent.
-/

namespace KariDns

open Octets DomainName List

variable {m n : Name} {a b s t : Text}

/-! ### Keys -/

/-- What `domain_names_match_ci` and `dns_name_hash_ci` look at. -/
def nameKey (t : Text) : Text := (t.take (dnsNameLenNoRoot t)).map lower

lemma lower_dot : ∀ c : UInt8, lower c = 46 ↔ c = 46 := by decide +kernel

lemma lower_backslash : ∀ c : UInt8, lower c = 92 ↔ c = 92 := by decide +kernel

lemma escaped_lower (s : Text) : dnsCharIsEscaped (s.map lower) = dnsCharIsEscaped s := by
  have hrun : ∀ l : Text, ((l.map lower).takeWhile (· == 92)).length =
      (l.takeWhile (· == 92)).length := by
    intro l
    induction l with
    | nil => rfl
    | cons c l ih =>
      have hc : (lower c == 92) = (c == 92) := by
        rw [Bool.eq_iff_iff, beq_iff_eq, beq_iff_eq]
        exact lower_backslash c
      rw [map_cons, takeWhile_cons, takeWhile_cons, hc]
      split
      · rw [length_cons, length_cons, ih]
      · rfl
  unfold dnsCharIsEscaped
  rw [← map_reverse, hrun]

lemma lenNoRoot_lower (t : Text) : dnsNameLenNoRoot (t.map lower) = dnsNameLenNoRoot t := by
  have hlast : (t.map lower).getLast? = some 46 ↔ t.getLast? = some 46 := by
    rw [getLast?_map]
    cases t.getLast? with
    | none => simp
    | some c => simpa using lower_dot c
  unfold dnsNameLenNoRoot
  rw [← map_dropLast, escaped_lower, length_map]
  simp only [hlast]

lemma lenNoRoot_le (t : Text) : dnsNameLenNoRoot t ≤ t.length := by
  unfold dnsNameLenNoRoot
  split <;> omega

lemma nameKey_length (t : Text) : (nameKey t).length = dnsNameLenNoRoot t := by
  have hle := lenNoRoot_le t
  simp [nameKey, hle]

/-- Two texts match exactly when their keys agree. -/
lemma matchCi_iff : domainNamesMatchCi a b = true ↔ nameKey a = nameKey b := by
  have hkeys : nameKey a = nameKey b ↔ dnsNameLenNoRoot a = dnsNameLenNoRoot b ∧
      strncaseeq a b (dnsNameLenNoRoot a) = true := by
    constructor
    · intro h
      have hlen : dnsNameLenNoRoot a = dnsNameLenNoRoot b := by
        rw [← nameKey_length, h, nameKey_length]
      refine ⟨hlen, ?_⟩
      rw [strncaseeq, beq_iff_eq]
      exact h.trans (by rw [nameKey, hlen])
    rintro ⟨hlen, heq⟩
    rw [strncaseeq, beq_iff_eq] at heq
    exact heq.trans (by rw [nameKey, hlen])
  rw [domainNamesMatchCi, Bool.or_eq_true, Bool.and_eq_true, beq_iff_eq, ← hkeys, strcaseeq,
    beq_iff_eq]
  constructor
  · rintro (heq | heq)
    · have hlen : dnsNameLenNoRoot a = dnsNameLenNoRoot b := by
        rw [← lenNoRoot_lower a, heq, lenNoRoot_lower]
      rw [nameKey, nameKey, map_take, map_take, heq, hlen]
    · exact heq
  · exact .inr

lemma matchCi_refl (a : Text) : domainNamesMatchCi a a = true := matchCi_iff.mpr rfl

lemma matchCi_symm (h : domainNamesMatchCi a b = true) : domainNamesMatchCi b a = true :=
  matchCi_iff.mpr (matchCi_iff.mp h).symm

lemma matchCi_trans {c : Text} (h : domainNamesMatchCi a b = true)
    (h' : domainNamesMatchCi b c = true) :
    domainNamesMatchCi a c = true :=
  matchCi_iff.mpr ((matchCi_iff.mp h).trans (matchCi_iff.mp h'))

lemma fnv1aText_lower (t : Text) : fnv1aText (t.map lower) = fnv1aText t := by
  unfold fnv1aText
  rw [foldl_map]
  simp only [lower_lower]

/-- The hash looks at the key only. -/
lemma hashCi_eq (t : Text) : dnsNameHashCi t = fnv1aText (nameKey t) := by
  rw [nameKey, fnv1aText_lower]
  rfl

lemma hashCi_of_match (h : domainNamesMatchCi a b = true) : dnsNameHashCi a = dnsNameHashCi b := by
  rw [hashCi_eq, hashCi_eq, matchCi_iff.mp h]

/-! ### Unescaped dots -/

/-- A run of backslashes at the end. -/
lemma escaped_append (s : Text) {c : UInt8} (h : c ≠ 92) : dnsCharIsEscaped (s ++ [c]) = false := by
  simp [dnsCharIsEscaped, h]

lemma escaped_backslash (s : Text) : dnsCharIsEscaped (s ++ [92]) = !dnsCharIsEscaped s := by
  have hodd : ∀ n : Nat, ((n + 1) % 2 == 1) = !(n % 2 == 1) := by
    intro n
    rcases Nat.mod_two_eq_zero_or_one n with h | h <;> simp [h, Nat.add_mod]
  simp only [dnsCharIsEscaped, reverse_append, reverse_singleton, singleton_append, takeWhile_cons,
    beq_self_eq_true, if_true, length_cons]
  exact hodd _

lemma escape_digit_ne : ∀ c : UInt8, 48 + c % 10 ≠ 92 ∧ 48 + c / 10 % 10 ≠ 92 ∧ 48 + c % 10 ≠ 46 ∧
    48 + c / 10 % 10 ≠ 46 := by
  decide +kernel

lemma escaped_octet (h : dnsCharIsEscaped s = false) (c : UInt8) :
    dnsCharIsEscaped (s ++ octetText c) = false := by
  unfold octetText
  split_ifs with h1 h2
  · rw [show s ++ [92, c] = (s ++ [92]) ++ [c] by simp]
    rcases h1 with rfl | rfl
    · exact escaped_append _ (by decide)
    · rw [escaped_backslash, escaped_backslash, h]
      rfl
  · rw [show s ++ [92, 48 + c / 100, 48 + c / 10 % 10, 48 + c % 10] =
      (s ++ [92, 48 + c / 100, 48 + c / 10 % 10]) ++ [48 + c % 10] by simp]
    exact escaped_append _ (escape_digit_ne c).1
  · exact escaped_append _ (not_or.mp h1).2

lemma escaped_label (h : dnsCharIsEscaped s = false) (l : Label) :
    dnsCharIsEscaped (s ++ labelText l) = false := by
  induction l generalizing s with
  | nil => simpa [labelText] using h
  | cons c l ih =>
    have hstep := ih (escaped_octet h c)
    rw [append_assoc] at hstep
    exact hstep

lemma escaped_nil : dnsCharIsEscaped [] = false := rfl

lemma labelsText_snoc (n : Name) (l : Label) :
    labelsText (n ++ [l]) = labelsText n ++ labelText l ++ [46] := by
  simp [labelsText]

lemma escaped_labels (n : Name) : dnsCharIsEscaped (labelsText n) = false := by
  rcases eq_nil_or_concat n with rfl | ⟨n, l, rfl⟩
  · rfl
  · rw [concat_eq_append, labelsText_snoc]
    exact escaped_append _ (by decide)

/-! ### Texts that denote names -/

/-- The text of a name without the final dot. -/
def stem (n : Name) : Text := (labelsText n).dropLast

/-- A text in the form the server keeps, with or without the final dot. -/
structure Denotes (t : Text) (n : Name) : Prop where
  valid : Valid n
  text : t = nameText n ∨ t = stem n

lemma denotes_nameText (h : Valid n) : Denotes (nameText n) n := ⟨h, .inl rfl⟩

lemma stem_snoc (n : Name) (l : Label) : stem (n ++ [l]) = labelsText n ++ labelText l := by
  rw [stem, labelsText_snoc, dropLast_concat]

lemma labelsText_eq_stem (h : n ≠ []) : labelsText n = stem n ++ [46] := by
  rcases eq_nil_or_concat n with rfl | ⟨n, l, rfl⟩
  · exact absurd rfl h
  · rw [concat_eq_append, labelsText_snoc, stem_snoc]

lemma nameText_of_ne (h : n ≠ []) : nameText n = labelsText n := if_neg h

lemma octetText_lower : ∀ c : UInt8, octetText (lower c) = (octetText c).map lower := by
  decide +kernel

lemma labelsText_lower (n : Name) : (labelsText n).map lower = labelsText (fold n) := by
  have hlabel : ∀ l : Label, (labelText l).map lower = labelText (l.map lower) := by
    intro l
    simp only [labelText, map_flatMap, flatMap_map, octetText_lower]
  have hdot : lower 46 = 46 := by decide
  simp only [labelsText, fold, map_flatMap, flatMap_map, map_append, hlabel, map_cons, map_nil,
    hdot]

lemma stem_lower (n : Name) : (stem n).map lower = stem (fold n) := by
  rw [stem, map_dropLast, labelsText_lower, stem]

/-- Spellings of one name differ in letter case only. -/
lemma nameText_lower (h : Same m n) : (nameText m).map lower = (nameText n).map lower := by
  have hfold : m.map (List.map lower) = n.map (List.map lower) := h
  have hnil : m = [] ↔ n = [] := by
    rw [← map_eq_nil_iff (f := List.map lower), hfold, map_eq_nil_iff]
  by_cases hm : m = []
  · rw [hm, hnil.mp hm]
  · rw [nameText_of_ne hm, nameText_of_ne (mt hnil.mpr hm), labelsText_lower, labelsText_lower, h]

lemma octetText_ne_nil (c : UInt8) : octetText c ≠ [] := by
  unfold octetText
  split_ifs <;> simp

lemma labelText_ne_nil {l : Label} (h : l ≠ []) : labelText l ≠ [] := by
  rcases l with _ | ⟨c, l⟩
  · exact absurd rfl h
  · simp [labelText, octetText_ne_nil]

lemma stem_ne_nil (h : n ≠ []) (hl : ∀ l ∈ n, LabelOk l) : stem n ≠ [] := by
  rcases eq_nil_or_concat n with rfl | ⟨n, l, rfl⟩
  · exact absurd rfl h
  rw [concat_eq_append, stem_snoc]
  have := labelText_ne_nil (hl l (by simp)).1
  simp [this]

lemma stem_inj (hm : ∀ l ∈ m, LabelOk l) (hn : ∀ l ∈ n, LabelOk l)
    (h : stem m = stem n) : m = n := by
  have hparse : ∀ {k : Name}, (∀ l ∈ k, LabelOk l) → k ≠ [] →
      parseName (stem k ++ [46]) = some k := by
    intro k hk hne
    rw [← labelsText_eq_stem hne]
    exact parseName_flatMap hk
  by_cases hm0 : m = []
  · by_cases hn0 : n = []
    · rw [hm0, hn0]
    · rw [hm0] at h
      exact absurd h.symm (stem_ne_nil hn0 hn)
  by_cases hn0 : n = []
  · rw [hn0] at h
    exact absurd h (stem_ne_nil hm0 hm)
  · have := (hparse hm hm0).symm.trans
      ((congrArg (fun t => parseName (t ++ [46])) h).trans (hparse hn hn0))
    exact Option.some.inj this

/-- A dot at the end of a label is behind a backslash. -/
lemma escaped_last (h : dnsCharIsEscaped s = false) {c : UInt8}
    (hc : (s ++ octetText c).getLast? = some 46) :
    dnsCharIsEscaped (s ++ octetText c).dropLast = true := by
  have hlast : ∀ c : UInt8, c ≠ 46 → (octetText c).getLast? ≠ some 46 := by decide +kernel
  have hc : c = 46 := by
    by_contra hne
    rw [getLast?_append_of_ne_nil _ (octetText_ne_nil c)] at hc
    exact hlast c hne hc
  subst hc
  rw [show s ++ octetText 46 = (s ++ [92]) ++ [46] by simp [octetText], dropLast_concat,
    escaped_backslash, h]
  rfl

lemma take_lenNoRoot_stem (hl : ∀ l ∈ n, LabelOk l) :
    (stem n).take (dnsNameLenNoRoot (stem n)) = stem n := by
  rcases eq_nil_or_concat n with rfl | ⟨n, l, rfl⟩
  · rfl
  rw [concat_eq_append] at hl ⊢
  rw [stem_snoc]
  rcases eq_nil_or_concat l with rfl | ⟨l, c, rfl⟩
  · exact absurd rfl (hl [] (by simp)).1
  have hend : labelsText n ++ labelText (l.concat c) = (labelsText n ++ labelText l) ++
      octetText c := by
    simp [labelText]
  rw [hend]
  have hesc := escaped_label (escaped_labels n) l
  rw [dnsNameLenNoRoot, if_neg, take_length]
  rintro ⟨hdot, hnot⟩
  exact hnot (escaped_last hesc hdot)

lemma take_lenNoRoot_nameText {n : Name} :
    (nameText n).take (dnsNameLenNoRoot (nameText n)) = stem n := by
  rcases eq_nil_or_concat n with rfl | ⟨n, l, rfl⟩
  · rfl
  rw [concat_eq_append, nameText_of_ne (by simp), labelsText_snoc, stem_snoc]
  have hesc := escaped_label (escaped_labels n) l
  rw [dnsNameLenNoRoot, if_pos]
  · rw [length_append, length_singleton, Nat.add_sub_cancel]
    exact take_left
  · rw [dropLast_concat]
    exact ⟨by simp, by simp [hesc]⟩

lemma Denotes.take (h : Denotes t n) : t.take (dnsNameLenNoRoot t) = stem n := by
  rcases h.text with rfl | rfl
  · exact take_lenNoRoot_nameText
  · exact take_lenNoRoot_stem h.valid.labels

lemma Denotes.key (h : Denotes t n) : nameKey t = stem (fold n) := by
  rw [nameKey, h.take, stem_lower]

/-- Texts match exactly when they denote one name. -/
lemma Denotes.match_iff (hs : Denotes s m) (ht : Denotes t n) :
    domainNamesMatchCi s t = true ↔ Same m n := by
  rw [matchCi_iff, hs.key, ht.key]
  constructor
  · intro h
    have hfold : ∀ {k : Name}, Valid k → Valid (fold k) := fun hk => Valid.of_same (same_fold _) hk
    exact stem_inj (hfold hs.valid).labels (hfold ht.valid).labels h
  · intro h
    exact congrArg stem h

/-! ### Parents -/

lemma afterDot_octet (c : UInt8) (t : Text) : afterDot (octetText c ++ t) = afterDot t := by
  have hplain : ∀ {d : UInt8} (u : Text), d ≠ 92 → d ≠ 46 → afterDot (d :: u) = afterDot u := by
    intro d u h1 h2
    cases u with
    | nil => simp [afterDot, h2]
    | cons e u => simp [afterDot, h1, h2]
  unfold octetText
  split_ifs with h1 h2
  · simp [afterDot]
  · obtain ⟨h3, h4, h5, h6⟩ := escape_digit_ne c
    rw [show [92, 48 + c / 100, 48 + c / 10 % 10, 48 + c % 10] ++ t =
      92 :: (48 + c / 100) :: (48 + c / 10 % 10) :: (48 + c % 10) :: t by simp]
    rw [afterDot, if_pos rfl, hplain _ h4 h6, hplain _ h3 h5]
  · rw [not_or] at h1
    exact hplain t h1.2 h1.1

lemma afterDot_label (l : Label) (t : Text) : afterDot (labelText l ++ t) = afterDot t := by
  induction l with
  | nil => rfl
  | cons c l ih =>
    rw [labelText, flatMap_cons, append_assoc, afterDot_octet]
    exact ih

lemma afterDot_dot (t : Text) : afterDot (46 :: t) = some t := by
  cases t with
  | nil => rfl
  | cons d t => simp [afterDot]

lemma afterDot_labels (l : Label) (n : Name) :
    afterDot (labelsText (l :: n)) = some (labelsText n) := by
  rw [show labelsText (l :: n) = labelText l ++ 46 :: labelsText n by simp [labelsText],
    afterDot_label, afterDot_dot]

/-- The names above a name, the root left out. -/
def parents : Name → List Name
  | [] => []
  | _ :: n => if n = [] then [] else n :: parents n

lemma ne_nil_of_mem_parents {p : Name} (h : p ∈ parents n) : p ≠ [] := by
  induction n with
  | nil => cases h
  | cons l n ih =>
    rw [parents] at h
    split at h
    · cases h
    rename_i hne
    rcases mem_cons.mp h with rfl | h
    · exact hne
    · exact ih h

lemma mem_parents {p : Name} : p ∈ parents n ↔ p ≠ [] ∧ ∃ k, k ≠ [] ∧ n = k ++ p := by
  induction n with
  | nil =>
    simp only [parents, not_mem_nil, false_iff, not_and]
    rintro - ⟨k, hk, h⟩
    exact hk (append_eq_nil_iff.mp h.symm).1
  | cons l n ih =>
    constructor
    · intro h
      refine ⟨ne_nil_of_mem_parents h, ?_⟩
      rw [parents] at h
      split at h
      · cases h
      rcases mem_cons.mp h with rfl | h
      · exact ⟨[l], by simp, rfl⟩
      · obtain ⟨-, k, -, rfl⟩ := ih.mp h
        exact ⟨l :: k, by simp, rfl⟩
    rintro ⟨hp, k, hk, h⟩
    rcases k with _ | ⟨l', k⟩
    · exact absurd rfl hk
    obtain ⟨-, h⟩ := List.cons.inj h
    rw [parents, if_neg]
    · rcases k with _ | ⟨l'', k⟩
      · exact mem_cons.mpr (.inl h.symm)
      · exact mem_cons_of_mem _ (ih.mpr ⟨hp, l'' :: k, by simp, h⟩)
    · rintro rfl
      exact hp (append_eq_nil_iff.mp h.symm).2

lemma ancestors_nameText (hl : ∀ l ∈ n, LabelOk l) :
    ancestors (nameText n) = (parents n).map nameText := by
  have hlabels : ∀ {fuel : Nat} {n : Name}, n.length ≤ fuel →
      (∀ l ∈ n, LabelOk l) → ancestorsFrom fuel (labelsText n) = (parents n).map nameText := by
    intro fuel
    induction fuel with
    | zero =>
      intro n h _
      obtain rfl := eq_nil_of_length_eq_zero (Nat.le_zero.mp h)
      rfl
    | succ fuel ih =>
      intro n h hl
      rcases n with _ | ⟨l, n⟩
      · rfl
      rw [ancestorsFrom, afterDot_labels, parents]
      by_cases hn : n = []
      · subst hn
        rfl
      have htext : labelsText n ≠ [] := by
        rw [labelsText_eq_stem hn]
        simp
      rw [if_neg hn]
      have hrest := ih (n := n) (by simpa using h) fun k hk => hl k (mem_cons_of_mem _ hk)
      split
      · rename_i heq
        cases heq
      · rename_i heq
        exact absurd (Option.some.inj heq) htext
      rename_i parent _ heq
      obtain rfl := Option.some.inj heq
      rw [hrest, map_cons, nameText_of_ne hn]
  have hlen : ∀ n : Name, n.length ≤ (labelsText n).length := by
    intro n
    induction n with
    | nil => simp
    | cons l n ih =>
      simp only [labelsText, flatMap_cons, length_append, length_cons, length_nil] at ih ⊢
      omega
  by_cases hn : n = []
  · subst hn
    rfl
  · rw [ancestors, nameText_of_ne hn]
    exact hlabels (hlen n) hl

end KariDns
