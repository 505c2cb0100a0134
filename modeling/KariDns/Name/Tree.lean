import KariDns.Name.Canonical

/-! The name tree in the texts of names.

A text is cut at its dots that no backslash protects. `domainNameIsAtOrBelow` asks whether one key
is a suffix of the other behind such a cut, and for names this is the order of the name tree.
-/

namespace KariDns

open Octets DomainName List

variable {m n : Name} {k p s t : Text}

/-! ### Cuts -/

lemma escaped_behind (h : dnsCharIsEscaped s = false) (a : Text) :
    dnsCharIsEscaped (s ++ a) = dnsCharIsEscaped a := by
  induction a using List.reverseRecOn with
  | nil => rw [append_nil, h, escaped_nil]
  | append_singleton a c ih =>
    rw [← append_assoc]
    by_cases hc : c = 92
    · subst hc
      rw [escaped_backslash, escaped_backslash, ih]
    · rw [escaped_append _ hc, escaped_append _ hc]

/-- The dot that ends a label is not part of what is behind it. -/
lemma escaped_behind_dot (s t : Text) : dnsCharIsEscaped (s ++ 46 :: t) = dnsCharIsEscaped t := by
  rw [← singleton_append, ← append_assoc]
  exact escaped_behind (escaped_append s (by decide)) t

/-- A backslash and the octet behind it leave the text behind them as it is. -/
lemma escaped_pair (d : UInt8) (t : Text) :
    dnsCharIsEscaped (92 :: d :: t) = dnsCharIsEscaped t := by
  refine escaped_behind (s := [92, d]) ?_ t
  by_cases hd : d = 92
  · rw [hd]
    rfl
  · exact escaped_append [92] hd

lemma escaped_cons {c : UInt8} (h : c ≠ 92) (t : Text) :
    dnsCharIsEscaped (c :: t) = dnsCharIsEscaped t :=
  escaped_behind (escaped_append [] h) t

/-- Every dot of the text is escaped. -/
def NoDot (t : Text) : Prop := ∀ a b, t = a ++ 46 :: b → dnsCharIsEscaped a = true

lemma NoDot.take (h : NoDot t) (k : Nat) : NoDot (t.take k) := by
  intro a b hab
  refine h a (b ++ t.drop k) ?_
  calc t = t.take k ++ t.drop k := (take_append_drop k t).symm
    _ = a ++ 46 :: (b ++ t.drop k) := by rw [hab, append_assoc, cons_append]

lemma NoDot.pair (h : NoDot t) (d : UInt8) : NoDot (92 :: d :: t) := by
  intro a b hab
  match a with
  | [] => simp at hab
  | [x] =>
    obtain ⟨rfl, -⟩ := List.cons.inj hab
    rfl
  | x :: y :: a =>
    simp only [cons_append, List.cons.injEq] at hab
    obtain ⟨rfl, rfl, hab⟩ := hab
    rw [escaped_pair]
    exact h a b hab

lemma NoDot.cons (h : NoDot t) {c : UInt8} (hback : c ≠ 92) (hdot : c ≠ 46) : NoDot (c :: t) := by
  intro a b hab
  match a with
  | [] => exact absurd (List.cons.inj hab).1 hdot
  | x :: a =>
    simp only [cons_append, List.cons.injEq] at hab
    obtain ⟨rfl, hab⟩ := hab
    rw [escaped_cons hback]
    exact h a b hab

lemma noDot_nil : NoDot [] := by
  intro a b hab
  simp at hab

/-- `afterDot` finds the first unescaped dot. -/
lemma afterDot_some : ∀ {t r : Text}, afterDot t = some r → ∃ p, t = p ++ 46 :: r ∧
    dnsCharIsEscaped p = false ∧ NoDot p
  | [], r, h => by cases h
  | [c], r, h => by
    unfold afterDot at h
    split_ifs at h with hc
    obtain rfl := Option.some.inj h
    exact ⟨[], by rw [hc]; rfl, rfl, noDot_nil⟩
  | c :: d :: rest, r, h => by
    unfold afterDot at h
    split_ifs at h with hback hdot
    · obtain ⟨p, rfl, hp, hno⟩ := afterDot_some h
      subst hback
      exact ⟨92 :: d :: p, rfl, (escaped_pair d p).trans hp, hno.pair d⟩
    · obtain rfl := Option.some.inj h
      exact ⟨[], by rw [hdot]; rfl, rfl, noDot_nil⟩
    · obtain ⟨p, heq, hp, hno⟩ := afterDot_some h
      exact ⟨c :: p, by rw [heq]; rfl, (escaped_cons hback p).trans hp, hno.cons hback hdot⟩

lemma afterDot_none : ∀ {t : Text}, afterDot t = none → NoDot t
  | [], _ => noDot_nil
  | [c], h => by
    unfold afterDot at h
    split_ifs at h with hc
    intro a b hab
    cases a with
    | nil => exact absurd (List.cons.inj hab).1 hc
    | cons x a => simp at hab
  | c :: d :: rest, h => by
    unfold afterDot at h
    split_ifs at h with hback hdot
    · subst hback
      exact (afterDot_none h).pair d
    · exact (afterDot_none h).cons hback hdot

/-- A text has one first unescaped dot. -/
lemma NoDot.first_dot {q : Text} (hno : NoDot p) (hp : dnsCharIsEscaped p = false) (hno' : NoDot q)
    (hq : dnsCharIsEscaped q = false) (h : p ++ 46 :: s = q ++ 46 :: t) : p = q ∧ s = t := by
  rcases append_eq_append_iff.mp h with ⟨c, rfl, hc⟩ | ⟨c, rfl, hc⟩
  all_goals
    cases c with
    | nil => simpa [eq_comm] using hc
    | cons x c =>
      obtain rfl := (List.cons.inj hc).1
      first
      | rw [hno' p c rfl] at hp; cases hp
      | rw [hno q c rfl] at hq; cases hq

/-- Nothing, or text up to and with an unescaped dot. -/
def CutsAt (p : Text) : Prop := p = [] ∨ ∃ a, p = a ++ [46] ∧ dnsCharIsEscaped a = false

/-- A suffix of the key, cut only at unescaped dots; the root is a suffix of every key. -/
def CutSuffix (key s : Text) : Prop := s = [] ∨ ∃ p, key = p ++ s ∧ CutsAt p

lemma CutsAt.unescaped (h : CutsAt p) : dnsCharIsEscaped p = false := by
  rcases h with rfl | ⟨a, rfl, -⟩
  · rfl
  · exact escaped_append a (by decide)

lemma cutSuffix_length (h : CutSuffix k s) : s.length ≤ k.length := by
  rcases h with rfl | ⟨p, rfl, -⟩
  · exact Nat.zero_le _
  · simp

lemma CutSuffix.eq_of_length (h : CutSuffix k s) (hlen : k.length ≤ s.length) : s = k := by
  rcases h with rfl | ⟨p, rfl, -⟩
  · exact (length_eq_zero_iff.mp (Nat.le_zero.mp hlen)).symm
  · rw [length_append] at hlen
    rw [length_eq_zero_iff.mp (show p.length = 0 by omega), nil_append]

/-- Of two names above one name the shorter is above the longer. -/
lemma CutSuffix.nested {s' : Text} (h : CutSuffix k s) (h' : CutSuffix k s')
    (hlen : s'.length ≤ s.length) :
    CutSuffix s s' := by
  rcases h with rfl | ⟨p, hk, hp⟩
  · exact .inl (length_eq_zero_iff.mp (Nat.le_zero.mp hlen))
  rcases h' with rfl | ⟨p', hk', hp'⟩
  · exact .inl rfl
  obtain ⟨c, rfl, rfl⟩ : ∃ c, p' = p ++ c ∧ s = c ++ s' := by
    rcases append_eq_append_iff.mp (hk.symm.trans hk') with ⟨c, hc, hs⟩ | ⟨c, rfl, rfl⟩
    · exact ⟨c, hc, hs⟩
    · simp only [length_append] at hlen
      exact ⟨[], by simp [length_eq_zero_iff.mp (show c.length = 0 by omega)]⟩
  refine .inr ⟨c, rfl, ?_⟩
  rcases eq_nil_or_concat c with rfl | ⟨d, x, rfl⟩
  · exact .inl rfl
  rw [concat_eq_append] at hp' ⊢
  rcases hp' with hnil | ⟨a, ha, hesc⟩
  · simp at hnil
  rw [← append_assoc] at ha
  obtain ⟨rfl, hx⟩ := append_inj' ha rfl
  obtain rfl := (List.cons.inj hx).1
  exact .inr ⟨d, rfl, (escaped_behind hp.unescaped d).symm.trans hesc⟩

/-- The only name that is not the root above a single label is the label. -/
lemma NoDot.cutSuffix (h : NoDot k) (hcut : CutSuffix k s) (hs : s ≠ []) : s = k := by
  rcases hcut with rfl | ⟨p, rfl, rfl | ⟨a, rfl, hesc⟩⟩
  · exact absurd rfl hs
  · rfl
  have := h a s (by simp)
  rw [hesc] at this
  cases this

/-- The names above a name: itself, and those above the part behind its first label. -/
lemma cutSuffix_label (hno : NoDot p) (hp : dnsCharIsEscaped p = false) (hs : s ≠ []) :
    CutSuffix (p ++ 46 :: k) s ↔ s = p ++ 46 :: k ∨ CutSuffix k s := by
  have hcuts : CutsAt (p ++ [46]) := .inr ⟨p, rfl, hp⟩
  constructor
  · intro h
    by_cases hlen : s.length ≤ k.length
    · have hk : CutSuffix (p ++ 46 :: k) k := .inr ⟨p ++ [46], by simp, hcuts⟩
      exact .inr (hk.nested h hlen)
    left
    rcases h with rfl | ⟨q, hq, rfl | ⟨a, rfl, hesc⟩⟩
    · exact absurd rfl hs
    · exact hq.symm
    -- a cut inside the first label would be an unescaped dot of it
    rw [append_assoc, singleton_append] at hq
    rcases append_eq_append_iff.mp hq with ⟨c, rfl, hc⟩ | ⟨c, rfl, hc⟩
    · have := congrArg List.length hc
      simp only [length_append, length_cons] at this
      omega
    cases c with
    | nil => exact absurd (Nat.le_of_eq (congrArg List.length (List.cons.inj hc).2)) hlen
    | cons x c =>
      obtain rfl := (List.cons.inj hc).1
      rw [hno a c rfl] at hesc
      cases hesc
  · rintro (rfl | rfl | ⟨q, rfl, hq⟩)
    · exact .inr ⟨[], rfl, .inl rfl⟩
    · exact absurd rfl hs
    refine .inr ⟨p ++ 46 :: q, by simp, .inr ?_⟩
    rcases hq with rfl | ⟨a, rfl, ha⟩
    · exact ⟨p, rfl, hp⟩
    · exact ⟨p ++ 46 :: a, by simp, (escaped_behind_dot p a).trans ha⟩

lemma cutsAt_lower : CutsAt (p.map lower) ↔ CutsAt p := by
  constructor
  · rintro (h | ⟨a, h, ha⟩)
    · exact .inl (map_eq_nil_iff.mp h)
    obtain ⟨c, d, rfl, rfl, hd⟩ := map_eq_append_iff.mp h
    obtain ⟨x, rfl, hx⟩ := map_eq_singleton_iff.mp hd
    exact .inr ⟨c, by rw [(lower_dot x).mp hx], by rwa [escaped_lower] at ha⟩
  · rintro (rfl | ⟨a, rfl, ha⟩)
    · exact .inl rfl
    · exact .inr ⟨a.map lower, by simp [show lower 46 = 46 by decide], by rwa [escaped_lower]⟩

/-- `domain_name_is_at_or_below` looks at the keys only. -/
lemma atOrBelow_iff_cut (a b : Text) : domainNameIsAtOrBelow a b = true ↔ CutSuffix (nameKey a)
    (nameKey b) := by
  obtain ⟨A, rest, ha, hA⟩ : ∃ A rest, a = A ++ rest ∧ A = a.take (dnsNameLenNoRoot a) :=
    ⟨_, _, (take_append_drop _ a).symm, rfl⟩
  have hlen : dnsNameLenNoRoot a = A.length := by
    rw [hA, length_take, Nat.min_eq_left (lenNoRoot_le a)]
  generalize hB : b.take (dnsNameLenNoRoot b) = B
  have hlen' : dnsNameLenNoRoot b = B.length := by
    rw [← hB, length_take, Nat.min_eq_left (lenNoRoot_le b)]
  rw [nameKey, nameKey, hB, ← hA, domainNameIsAtOrBelow]
  rw [hlen'] at hB
  simp only [hlen, hlen', strncaseeq, hB, beq_iff_eq]
  by_cases h0 : B = []
  · simp [h0, CutSuffix]
  rw [if_neg (mt length_eq_zero_iff.mp h0)]
  by_cases hlt : A.length < B.length
  · rw [if_pos (.inl hlt)]
    refine ⟨fun h => absurd h Bool.false_ne_true, fun h => ?_⟩
    have := cutSuffix_length h
    simp only [length_map] at this
    omega
  -- the end of the name that is as long as the apex, and what stands before it
  obtain ⟨c, d, rfl, hd⟩ : ∃ c d, A = c ++ d ∧ d.length = B.length :=
    ⟨A.take (A.length - B.length),
      A.drop (A.length - B.length), by simp, by rw [length_drop]; omega⟩
  have hcut : CutSuffix ((c ++ d).map lower) (B.map lower) ↔
      d.map lower = B.map lower ∧ CutsAt c := by
    constructor
    · rintro (h | ⟨p, h, hp⟩)
      · exact absurd (map_eq_nil_iff.mp h) h0
      rw [map_append] at h
      obtain ⟨rfl, hB'⟩ := append_inj' h (by simpa using hd)
      exact ⟨hB', cutsAt_lower.mp hp⟩
    · rintro ⟨h, hc⟩
      exact .inr ⟨c.map lower, by rw [map_append, h], cutsAt_lower.mpr hc⟩
  have hc : (c ++ d).length - B.length = c.length := by rw [length_append]; omega
  have hend : (a.drop c.length).take B.length = d := by
    rw [ha, append_assoc, drop_left, ← hd, take_left]
  rw [hcut, hc, hend]
  by_cases hmatch : d.map lower = B.map lower
  · rw [if_neg (not_or.mpr ⟨hlt, not_not.mpr hmatch⟩)]
    rcases eq_nil_or_concat c with rfl | ⟨q, x, rfl⟩
    · simp [hd, hmatch, CutsAt]
    · rw [if_neg (by simp; omega)]
      simp [ha, hmatch, CutsAt]
  · rw [if_pos (.inr hmatch)]
    simp [hmatch]

lemma atOrBelow_congr {a a' b b' : Text} (h : domainNamesMatchCi a a' = true)
    (h' : domainNamesMatchCi b b' = true) :
    domainNameIsAtOrBelow a b = domainNameIsAtOrBelow a' b' := by
  rw [Bool.eq_iff_iff, atOrBelow_iff_cut, atOrBelow_iff_cut, matchCi_iff.mp h, matchCi_iff.mp h']

/-! ### The name tree -/

/-- `m` is `n` or a name below it, ASCII case aside. -/
def Below (m n : Name) : Prop := fold n <:+ fold m

lemma labelText_single {l : Label} : afterDot (labelText l) = none := by
  have := afterDot_label l []
  rwa [append_nil] at this

/-- Dots that are not escaped stand between labels. -/
lemma cutSuffix_labels (hs : s ≠ []) :
    CutSuffix (labelsText m) s ↔ ∃ n, n <:+ m ∧ s = labelsText n := by
  induction m with
  | nil => simp [CutSuffix, labelsText, hs]
  | cons l m ih =>
    have hcons : labelsText (l :: m) = labelText l ++ 46 :: labelsText m := by simp [labelsText]
    rw [hcons, cutSuffix_label (afterDot_none labelText_single) (escaped_label escaped_nil l) hs,
      ih, ← hcons]
    constructor
    · rintro (rfl | ⟨n, hn, rfl⟩)
      · exact ⟨l :: m, suffix_refl _, rfl⟩
      · exact ⟨n, hn.trans (suffix_cons l m), rfl⟩
    · rintro ⟨n, hn, rfl⟩
      rcases suffix_cons_iff.mp hn with rfl | hn
      · exact .inl rfl
      · exact .inr ⟨n, hn, rfl⟩

lemma labelsText_append (m n : Name) : labelsText (m ++ n) = labelsText m ++ labelsText n := by
  simp [labelsText]

lemma stem_append (h : n ≠ []) : stem (m ++ n) = labelsText m ++ stem n := by
  have hne : labelsText n ≠ [] := by
    rw [labelsText_eq_stem h]
    simp
  rw [stem, labelsText_append, dropLast_append_of_ne_nil hne, stem]

lemma labelsText_inj (hm : ∀ l ∈ m, LabelOk l) (hn : ∀ l ∈ n, LabelOk l)
    (h : labelsText m = labelsText n) : m = n := by
  have hparse := parseName_flatMap hm
  rw [← labelsText, h] at hparse
  exact Option.some.inj (hparse.symm.trans (parseName_flatMap hn))

/-- A name is at or below another exactly if its text is the other's, or has it behind an
unescaped dot. -/
lemma suffix_iff_cut (hm : ∀ l ∈ m, LabelOk l) (hn : ∀ l ∈ n, LabelOk l) :
    n <:+ m ↔ CutSuffix (stem m) (stem n) := by
  by_cases hne : n = []
  · subst hne
    exact ⟨fun _ => .inl rfl, fun _ => nil_suffix⟩
  have hstem := stem_ne_nil hne hn
  by_cases hmne : m = []
  · subst hmne
    simp [hne, CutSuffix, hstem, show stem [] = [] from rfl]
  have hdot : CutSuffix (stem m) (stem n) ↔ CutSuffix (labelsText m) (labelsText n) := by
    simp [CutSuffix, labelsText_eq_stem hmne, labelsText_eq_stem hne, hstem, ← append_assoc]
  rw [hdot, cutSuffix_labels (by simp [labelsText_eq_stem hne])]
  constructor
  · exact fun h => ⟨n, h, rfl⟩
  · rintro ⟨k, hk, heq⟩
    rwa [labelsText_inj hn (fun l hl => hm l (hk.subset hl)) heq]

lemma Denotes.ok (h : Denotes t n) : ∀ l ∈ n, LabelOk l := h.valid.1

lemma fold_ok (h : ∀ l ∈ n, LabelOk l) : ∀ l ∈ fold n, LabelOk l := by
  intro l hl
  obtain ⟨k, hk, rfl⟩ := mem_map.mp hl
  have := h k hk
  exact ⟨by simpa using this.1, by simpa using this.2⟩

/-- `domain_name_is_at_or_below` is the order of the name tree. -/
lemma Denotes.below_iff (hs : Denotes s m) (ht : Denotes t n) :
    domainNameIsAtOrBelow s t = true ↔ Below m n := by
  rw [atOrBelow_iff_cut, hs.key, ht.key, Below, suffix_iff_cut (fold_ok hs.ok) (fold_ok ht.ok)]

end KariDns
