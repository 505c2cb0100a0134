import KariDns.Name.Tree
import Mathlib.Data.List.TakeWhile

/-! Canonical order (RFC 4034 6.1).

`compare_canonical_name` orders names by their labels from the root down, so that the names
below a name stand side by side, right behind it.
-/

namespace KariDns

open Octets DomainName List

variable {m n : Name} {s t : Text} {α : Type}

/-! ### The order of labels and of names -/

def labelKey (l : Label) : List Nat := l.map fun c => (lower c).toNat

/-- What names are ordered by. -/
def orderKey (n : Name) : List (List Nat) := n.reverse.map labelKey

lemma compareLabel_spec (a b : Label) :
    (compareLabel a b = .lt ↔ labelKey a < labelKey b) ∧
      (compareLabel a b = .eq ↔ labelKey a = labelKey b) := by
  fun_induction compareLabel a b with
  | case1 => simp [labelKey]
  | case2 b bs => simp [labelKey]
  | case3 a as => simp [labelKey]
  | case4 a as b bs ih =>
    simp only [labelKey, map_cons, cons_lt_cons_iff, List.cons.injEq] at ih ⊢
    simp [Ordering.then_eq_lt, Ordering.then_eq_eq, Nat.compare_eq_lt, ih]

lemma compareLabels_spec (m n : List Label) :
    (compareLabels m n = .lt ↔ m.map labelKey < n.map labelKey) ∧
      (compareLabels m n = .eq ↔ m.map labelKey = n.map labelKey) := by
  fun_induction compareLabels m n with
  | case1 => simp
  | case2 b bs => simp
  | case3 a as => simp
  | case4 a as b bs ih =>
    simp [Ordering.then_eq_lt, Ordering.then_eq_eq, cons_lt_cons_iff, compareLabel_spec, ih]

/-- The octets of the labels as numbers, which no two names share. -/
def nameOctets (n : Name) : List (List Nat) := n.map (List.map UInt8.toNat)

lemma nameOctets_injective : Function.Injective nameOctets :=
  map_injective_iff.mpr (map_injective_iff.mpr fun _ _ => UInt8.toNat_inj.mp)

lemma orderKey_eq (n : Name) : orderKey n = (nameOctets (fold n)).reverse := by
  simp [orderKey, nameOctets, fold, labelKey, Function.comp_def]

lemma orderKey_inj : orderKey m = orderKey n ↔ Same m n := by
  rw [orderKey_eq, orderKey_eq, reverse_inj, nameOctets_injective.eq_iff, Same]

lemma below_iff_key : Below m n ↔ orderKey n <+: orderKey m := by
  rw [orderKey_eq, orderKey_eq, reverse_prefix, Below]
  constructor
  · exact fun h => h.map _
  rintro ⟨k, hk⟩
  obtain ⟨k', n', hm, -, hn⟩ := map_eq_append_iff.mp hk.symm
  rw [hm, nameOctets_injective hn]
  exact suffix_append k' _

lemma cons_le_cons [LinearOrder α] {a b : α} {p y : List α} :
    a :: p ≤ b :: y ↔ a < b ∨ a = b ∧ p ≤ y := by
  rw [← not_lt, cons_lt_cons_iff, not_or, not_and, not_lt, not_lt]
  constructor
  · rintro ⟨hab, htail⟩
    rcases lt_or_eq_of_le hab with h | h
    · exact .inl h
    · exact .inr ⟨h, htail h.symm⟩
  rintro (h | ⟨rfl, h⟩)
  · exact ⟨le_of_lt h, fun heq => absurd heq (ne_of_gt h)⟩
  · exact ⟨le_refl a, fun _ => h⟩

/-- Between a list and one it begins there are only lists it begins. -/
lemma begins_of_between [LinearOrder α] : ∀ {p x y : List α}, p <+: x → p ≤ y → y ≤ x → p <+: y
  | [], _, y, _, _, _ => nil_prefix
  | a :: p, x, y, hx, hpy, hyx => by
    obtain ⟨s, rfl⟩ := hx
    rcases y with _ | ⟨b, y⟩
    · exact absurd (nil_lt_cons a p) (not_lt.mpr hpy)
    rcases cons_le_cons.mp hpy with h | ⟨rfl, hp⟩ <;> rcases cons_le_cons.mp hyx with h' | ⟨h', hy⟩
    · exact absurd h (lt_asymm h')
    · exact absurd h (h' ▸ lt_irrefl b)
    · exact absurd h' (lt_irrefl a)
    · exact cons_prefix_cons.mpr ⟨rfl, begins_of_between (prefix_append p s) hp hy⟩

lemma begins_le [LinearOrder α] : ∀ {p x : List α}, p <+: x → p ≤ x
  | [], x, _ => by
    rcases x with _ | ⟨a, x⟩
    · exact le_refl _
    · exact le_of_lt (nil_lt_cons a x)
  | a :: p, x, h => by
    obtain ⟨s, rfl⟩ := h
    exact cons_le_cons.mpr (.inr ⟨rfl, begins_le (prefix_append p s)⟩)

/-- The names below a name stand side by side. -/
lemma below_of_between {k : Name} (hm : Below m n) (hn : orderKey n ≤ orderKey k)
    (hk : orderKey k ≤ orderKey m) :
    Below k n :=
  below_iff_key.mpr (begins_of_between (below_iff_key.mp hm) hn hk)

lemma key_le_of_below (h : Below m n) : orderKey n ≤ orderKey m :=
  begins_le (below_iff_key.mp h)

/-! ### Comparing texts -/

/-- The text of a label without backslashes is the label. -/
lemma labelText_plain : ∀ {l : Label}, 92 ∉ labelText l → labelText l = l ∧ 46 ∉ l
  | [], _ => ⟨rfl, by simp⟩
  | c :: l, h => by
    have hoctet : ∀ c : UInt8, 92 ∉ octetText c → octetText c = [c] ∧ c ≠ 46 := by decide +kernel
    rw [labelText, flatMap_cons, mem_append, not_or] at h
    obtain ⟨hc, hdot⟩ := hoctet c h.1
    obtain ⟨hl, hrest⟩ := labelText_plain h.2
    refine ⟨?_, by simp [hrest, Ne.symm hdot]⟩
    rw [labelText, flatMap_cons, hc]
    exact congrArg (c :: ·) hl

/-- Without backslashes the labels of a text are what stands between the dots. -/
lemma splitOn_stem : ∀ {n : Name}, n ≠ [] → 92 ∉ stem n → splitOn 46 (stem n) = n
  | [], h, _ => absurd rfl h
  | [l], _, hplain => by
    have hstem : stem [l] = labelText l := by simpa [labelsText] using stem_snoc [] l
    rw [hstem] at hplain ⊢
    obtain ⟨heq, hdot⟩ := labelText_plain hplain
    rw [heq, splitOn_none hdot]
  | l :: k :: n, _, hplain => by
    have hstem : stem (l :: k :: n) = labelText l ++ 46 :: stem (k :: n) := by
      have := stem_append (m := [l]) (n := k :: n) (by simp)
      simpa [labelsText] using this
    rw [hstem] at hplain ⊢
    simp only [mem_append, mem_cons, not_or] at hplain
    obtain ⟨heq, hdot⟩ := labelText_plain hplain.1
    rw [heq, splitOn_append _ hdot, splitOn_stem (by simp) hplain.2.2]

lemma strchr_isNone {c : UInt8} : (strchr c t).isNone = true ↔ c ∉ t := by
  have hdrop : (strchr c t).isNone = true ↔ t.dropWhile (· != c) = [] := by
    unfold strchr
    split <;> simp_all
  rw [hdrop, dropWhile_eq_nil_iff]
  constructor
  · intro h hc
    simpa using h c hc
  rintro h d hd
  simp only [bne_iff_ne]
  rintro rfl
  exact h hd

/-- A text without backslashes and without its final dot does not end in a dot. -/
lemma stem_last (hl : ∀ l ∈ n, LabelOk l) (hplain : 92 ∉ stem n) : (stem n).getLast? ≠ some 46 := by
  rcases eq_nil_or_concat n with rfl | ⟨k, l, rfl⟩
  · simp [stem, labelsText]
  rw [concat_eq_append] at hl hplain ⊢
  rw [stem_snoc, mem_append, not_or] at hplain
  obtain ⟨heq, hdot⟩ := labelText_plain hplain.2
  rw [stem_snoc, heq, getLast?_append_of_ne_nil _ (hl l (by simp)).1]
  exact fun h => hdot (mem_of_getLast? h)

lemma Denotes.plainLabels (h : Denotes t n) (hplain : 92 ∉ t) : plainLabels t = n.reverse := by
  rcases eq_or_ne n [] with rfl | hne
  · rcases h.text with rfl | rfl <;> rfl
  have hsplit : ∀ s : Text, (if s.getLast? = some 46 then s.dropLast else s) =
    stem n → 92 ∉ stem n →
      KariDns.plainLabels s = n.reverse := by
    intro s hs hp
    unfold KariDns.plainLabels
    simp only [hs, splitOn_stem hne hp]
    rcases n with _ | ⟨_ | ⟨c, l⟩, n⟩
    · rfl
    · exact absurd rfl (h.ok [] (by simp)).1
    · rfl
  rcases h.text with rfl | rfl
  · rw [nameText_of_ne hne, labelsText_eq_stem hne] at hplain ⊢
    exact hsplit _ (by simp) fun hp => hplain (mem_append_left _ hp)
  · exact hsplit _ (if_neg (stem_last h.ok hplain)) hplain

/-- A name without its final dot is read as with it. -/
lemma parseName_stem (hl : ∀ l ∈ n, LabelOk l) : parseName (stem n) = some n := by
  induction n with
  | nil => rfl
  | cons l n ih =>
    have hlabel := hl l mem_cons_self
    rcases eq_or_ne n [] with rfl | hne
    · have hstem : stem [l] = labelText l ++ [] := by simpa [labelsText] using stem_snoc [] l
      rw [hstem, parseName_eq, parseLabel_labelText l [] [] (by simpa using hlabel.2)]
      simp [parseLabel, keepLabel, hlabel.1]
    have hstem : stem (l :: n) = labelText l ++ 46 :: stem n := by
      simpa [labelsText] using stem_append (m := [l]) hne
    rw [hstem, parseName_labelText hlabel, ih fun k hk => hl k (mem_cons_of_mem _ hk)]
    rfl

lemma Denotes.read (h : Denotes t n) : readName t = some n := by
  rcases h.text with rfl | rfl
  · exact readName_nameText h.valid
  · rw [readName, parseName_stem h.ok, Option.filter_some, if_pos (by simpa using h.valid.short)]

section

variable (hs : Denotes s m) (ht : Denotes t n)

include hs ht

lemma Denotes.compare_eq : compareCanonicalName s t = compareLabels m.reverse n.reverse := by
  rw [compareCanonicalName, hs.read, ht.read]
  split_ifs with hplain
  · rw [Bool.and_eq_true, strchr_isNone, strchr_isNone] at hplain
    rw [hs.plainLabels hplain.1, ht.plainLabels hplain.2]
  · rfl

lemma Denotes.compare_lt : compareCanonicalName s t = .lt ↔ orderKey m < orderKey n := by
  rw [hs.compare_eq ht, (compareLabels_spec _ _).1, orderKey, orderKey]

lemma Denotes.compare_same : compareCanonicalName s t = .eq ↔ Same m n := by
  rw [hs.compare_eq ht, (compareLabels_spec _ _).2, ← orderKey_inj, orderKey, orderKey]

lemma Denotes.compare_le : compareCanonicalName s t ≠ .gt ↔ orderKey m ≤ orderKey n := by
  have hlt := hs.compare_lt ht
  have heq := (hs.compare_same ht).trans orderKey_inj.symm
  rw [le_iff_lt_or_eq, ← hlt, ← heq]
  cases compareCanonicalName s t <;> simp

lemma Denotes.compare_gt : compareCanonicalName s t = .gt ↔ orderKey n < orderKey m := by
  rw [← not_le, ← hs.compare_le ht, not_not]

end

/-- A name and a text for it, in the form the server keeps, with or without the final dot. -/
structure SpelledName where
  name : Name
  text : Text
  denotes : Denotes text name

/-- The texts of a name. -/
def SpelledName.of (n : Name) (h : Valid n) (dot : Bool) : SpelledName :=
  ⟨n, if dot then nameText n else stem n, h, by cases dot <;> simp⟩

/-- The order of RFC 4034 6.1 on texts: both ways to compare agree with the order of the labels,
names that are equal but for case stand in one place, and the names below a name are all there is
from it to any of them. -/
theorem compareCanonicalName_order (a b c : SpelledName) :
    (compareCanonicalName a.text b.text = .lt ↔ orderKey a.name < orderKey b.name) ∧
      (compareCanonicalName a.text b.text = .gt ↔ orderKey b.name < orderKey a.name) ∧
      (92 ∉ a.text → 92 ∉ b.text →
        compareLabels (plainLabels a.text) (plainLabels b.text) =
          compareLabels a.name.reverse b.name.reverse) ∧
      (compareCanonicalName a.text b.text = .eq ↔ Same a.name b.name) ∧
      compareCanonicalName b.text a.text = (compareCanonicalName a.text b.text).swap ∧
      (compareCanonicalName a.text b.text ≠ .gt → compareCanonicalName b.text c.text ≠ .gt →
        compareCanonicalName a.text c.text ≠ .gt) ∧
      (Below c.name a.name → compareCanonicalName a.text c.text ≠ .gt ∧
        (compareCanonicalName a.text b.text ≠ .gt → compareCanonicalName b.text c.text ≠ .gt →
          Below b.name a.name)) := by
  refine ⟨a.denotes.compare_lt b.denotes, a.denotes.compare_gt b.denotes, ?_,
    a.denotes.compare_same b.denotes, ?_, ?_, ?_⟩
  · intro ha hb
    rw [a.denotes.plainLabels ha, b.denotes.plainLabels hb]
  · rcases lt_trichotomy (orderKey a.name) (orderKey b.name) with h | h | h
    · rw [(a.denotes.compare_lt b.denotes).mpr h, (b.denotes.compare_gt a.denotes).mpr h,
        Ordering.swap]
    · rw [(a.denotes.compare_same b.denotes).mpr (orderKey_inj.mp h),
        (b.denotes.compare_same a.denotes).mpr (orderKey_inj.mp h.symm), Ordering.swap]
    · rw [(a.denotes.compare_gt b.denotes).mpr h, (b.denotes.compare_lt a.denotes).mpr h,
        Ordering.swap]
  · rw [a.denotes.compare_le b.denotes, b.denotes.compare_le c.denotes,
      a.denotes.compare_le c.denotes]
    exact le_trans
  intro hbelow
  rw [a.denotes.compare_le b.denotes, b.denotes.compare_le c.denotes,
    a.denotes.compare_le c.denotes]
  exact ⟨key_le_of_below hbelow, fun hab hbc => below_of_between hbelow hab hbc⟩

/-- `\000.E` stands before `\..e.`, and `x.\..E` behind that. -/
theorem compareCanonicalName_escaped :
    compareCanonicalName (ascii "\\000.E") (ascii "\\..e.") = .lt ∧
      compareCanonicalName (ascii "\\..e.") (ascii "x.\\..E") ≠ .gt := by
  let zero : SpelledName := .of [[0], ascii "E"] (by decide) false
  let dot : SpelledName := .of [[46], ascii "e"] (by decide) true
  let under : SpelledName := .of [ascii "x", [46], ascii "E"] (by decide) false
  obtain ⟨hlt, -⟩ := compareCanonicalName_order zero dot under
  obtain ⟨-, -, -, -, -, -, hbelow⟩ := compareCanonicalName_order dot zero under
  exact ⟨hlt.mpr (by decide), (hbelow ⟨[ascii "x"], by decide⟩).1⟩

/-! ### Texts as names -/

/-- The text is a name as the server spells it. -/
def IsName (t : Text) : Prop := ∃ n, Denotes t n

end KariDns
