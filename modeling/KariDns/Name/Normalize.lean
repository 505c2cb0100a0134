import KariDns.Name.Order

/-! The form in which the server keeps a name (`dns_name_normalize`).

A text that is accepted denotes a name, and the result is the server's own text of that name, with
a final dot exactly when the text had one. The form of a name is its own form.
-/

namespace KariDns

open Octets DomainName List Option

variable {l : Label} {done n : Name} {cap : Nat} {t : Text}

/-- The loop of `dns_name_normalize`: `out` is what was written and `wireLen` the length of the
name in wire form so far. -/
def normalizeLoop (cap : Nat) : Nat → Text → Nat → Text → Option Text
  | 0, _, _, _ => none
  | fuel + 1, out, wireLen, t =>
    match parseLabel [] t with
    | none => none
    | some (l, next) =>
      if l = [] ∨ wireLen + l.length + 1 > 255 then none
      else if out ≠ [] ∧ out.length + 1 ≥ cap then none
      else
        let out := if out = [] then [] else out ++ [46]
        match dnsLabelToText (cap - out.length - 1) 0 l with
        | none => none
        | some txt =>
          match next with
          | none => some (out ++ txt)
          | some [] => if (out ++ txt).length + 1 ≥ cap then none else some (out ++ txt ++ [46])
          | some rest => normalizeLoop cap fuel (out ++ txt) (wireLen + l.length + 1) rest

/-- `dns_name_normalize` into a buffer of `cap` octets. -/
def dnsNameNormalize (cap : Nat) (t : Text) : Option Text :=
  if cap < 2 then none
  else if t = [] ∨ t = [46] then some t
  else normalizeLoop cap t.length [] 1 t

/-! ### Dots behind a backslash -/

/-- The text ends in a dot that no backslash protects. -/
def EndsInDot (t : Text) : Prop := t.getLast? = some 46 ∧ dnsCharIsEscaped t.dropLast = false

lemma EndsInDot.tail {c : UInt8} (hc : c ≠ 92) (ht : t ≠ []) (h : EndsInDot (c :: t)) :
    EndsInDot t := by
  obtain ⟨hlast, hesc⟩ := h
  rw [getLast?_cons_of_ne_nil ht] at hlast
  rw [dropLast_cons_of_ne_nil ht, escaped_cons hc] at hesc
  exact ⟨hlast, hesc⟩

lemma EndsInDot.tail_pair {d : UInt8} (ht : t ≠ []) (h : EndsInDot (92 :: d :: t)) :
    EndsInDot t := by
  obtain ⟨hlast, hesc⟩ := h
  rw [getLast?_cons_cons, getLast?_cons_of_ne_nil ht] at hlast
  rw [dropLast_cons_of_ne_nil (by simp), dropLast_cons_of_ne_nil ht, escaped_pair] at hesc
  exact ⟨hlast, hesc⟩

/-- A label that reaches the end of the text has no dot there. -/
lemma parseLabel_end {acc : Label} (h : parseLabel acc t = some (l, none)) : ¬ EndsInDot t := by
  fun_induction parseLabel acc t with
  | case1 acc => exact fun hd => by cases hd.1
  | case2 => cases h
  | case3 => cases h
  | case4 => cases h
  | case5 acc d e f tail hdig hle hroom ih =>
    intro hd
    simp only [Bool.and_eq_true] at hdig
    have hne : ∀ c : UInt8, isDigit c = true → c ≠ 92 ∧ c ≠ 46 := by decide +kernel
    by_cases htail : tail = []
    · subst htail
      have := (hne f hdig.2).2
      exact absurd hd.1 (by simpa using this)
    have h1 := EndsInDot.tail_pair (by simp) hd
    have h2 := EndsInDot.tail (hne e hdig.1.2).1 (by simp) h1
    exact ih h (EndsInDot.tail (hne f hdig.2).1 htail h2)
  | case6 => cases h
  | case7 acc d e f tail hdig hroom ih => exact fun hd => ih h (EndsInDot.tail_pair (by simp) hd)
  | case8 => cases h
  | case9 acc d tail hshape hroom ih =>
    intro hd
    by_cases htail : tail = []
    · subst htail
      have hesc := hd.2
      rw [show ([92, d] : Text).dropLast = [92] from rfl] at hesc
      exact absurd hesc (by decide)
    · exact ih h (EndsInDot.tail_pair htail hd)
  | case10 => cases h
  | case11 => cases h
  | case12 acc c rest hc hdot hroom ih =>
    intro hd
    by_cases hrest : rest = []
    · subst hrest
      exact hdot (by simpa using hd.1)
    · exact ih h (EndsInDot.tail hc hrest hd)

/-- A label that ends at a dot leaves what is behind it. -/
lemma parseLabel_behind {acc : Label} {rest : Text} (h : parseLabel acc t = some (l, some rest)) :
    ∃ pre, t = pre ++ 46 :: rest := by
  fun_induction parseLabel acc t with
  | case5 acc d e f tail hdig hle hroom ih =>
    obtain ⟨pre, rfl⟩ := ih h
    exact ⟨92 :: d :: e :: f :: pre, rfl⟩
  | case7 acc d e f tail hdig hroom ih =>
    obtain ⟨pre, hpre⟩ := ih h
    exact ⟨92 :: d :: pre, by rw [hpre]; rfl⟩
  | case9 acc d tail hshape hroom ih =>
    obtain ⟨pre, rfl⟩ := ih h
    exact ⟨92 :: d :: pre, rfl⟩
  | case10 acc rest' hc =>
    simp only [some.injEq, Prod.mk.injEq] at h
    exact ⟨[], by rw [h.2]; rfl⟩
  | case12 acc c rest' hc hdot hroom ih =>
    obtain ⟨pre, rfl⟩ := ih h
    exact ⟨c :: pre, rfl⟩
  | _ => cases h

lemma EndsInDot.behind {s : Text} (ht : t ≠ []) (h : EndsInDot (s ++ 46 :: t)) : EndsInDot t := by
  obtain ⟨hlast, hesc⟩ := h
  have htail : (46 :: t).getLast? = t.getLast? := getLast?_cons_of_ne_nil ht
  rw [getLast?_append_of_ne_nil _ (by simp), htail] at hlast
  rw [dropLast_append_of_ne_nil (by simp), dropLast_cons_of_ne_nil ht, escaped_behind_dot] at hesc
  exact ⟨hlast, hesc⟩

/-! ### Normal form -/

/-- The labels of a name that is being read, and the length of its wire form. -/
lemma wire_length_append (m n : Name) :
    (wire (m ++ n)).length + 1 = (wire m).length + (wire n).length := by
  induction m with
  | nil => simp [Nat.add_comm]
  | cons l m ih =>
    rw [cons_append, wire_length_cons, wire_length_cons]
    omega

/-- What is written behind the labels `done`: their text, a dot between, and the next label. -/
lemma stem_concat (hdone : ∀ l ∈ done, LabelOk l) (l : Label) :
    (if stem done = [] then [] else stem done ++ [46]) ++ labelText l = stem (done ++ [l]) := by
  rw [stem_snoc]
  by_cases h : done = []
  · subst h
    rfl
  · rw [if_neg (stem_ne_nil h hdone), ← labelsText_eq_stem h]

/-- What the loop returns. -/
lemma normalizeLoop_sound {cap : Nat} :
    ∀ {fuel : Nat} {done : Name} {t res : Text}, (∀ l ∈ done, LabelOk l) →
    normalizeLoop cap fuel (stem done) (wire done).length t = some res →
    ∃ more, (∀ l ∈ more, LabelOk l) ∧ more ≠ [] ∧ (wire (done ++ more)).length ≤ 255 ∧
      parseName t = some more ∧
      (EndsInDot t → res = labelsText (done ++ more)) ∧
        (res = labelsText (done ++ more) ∨ res = stem (done ++ more))
  | fuel + 1, done, t, res, hdone, h => by
    rw [normalizeLoop] at h
    cases hlabel : parseLabel [] t with
    | none =>
      rw [hlabel] at h
      cases h
    | some p =>
      obtain ⟨l, next⟩ := p
      rw [hlabel] at h
      dsimp only at h
      split at h
      · cases h
      rename_i hl
      rw [not_or] at hl
      split at h
      · cases h
      have hok : LabelOk l := ⟨hl.1, parseLabel_length_le (by simp) hlabel⟩
      have hone : ∀ k ∈ done ++ [l], LabelOk k := by
        intro k hk
        rcases mem_append.mp hk with hk | hk
        · exact hdone k hk
        · rwa [mem_singleton.mp hk]
      have hwire : (wire (done ++ [l])).length = (wire done).length + l.length + 1 := by
        have := wire_length_append done [l]
        rw [wire_length_cons, wire_nil, length_singleton] at this
        omega
      split at h
      · cases h
      rename_i txt htxt
      obtain rfl := dnsLabelToText_some htxt
      rw [stem_concat hdone] at h
      cases next with
      | none =>
        obtain rfl := some.inj h
        refine ⟨[l], by simpa using hok, by simp, by omega, ?_,
          fun hd => absurd hd (parseLabel_end hlabel), .inr rfl⟩
        rw [parseName_eq, hlabel]
        simp [keepLabel, hok.1]
      | some rest =>
        obtain ⟨pre, hpre⟩ := parseLabel_behind hlabel
        cases rest with
        | nil =>
          dsimp only at h
          split at h
          · cases h
          have hres : res = labelsText (done ++ [l]) := by
            rw [← some.inj h, labelsText_eq_stem (by simp)]
          refine ⟨[l], by simpa using hok, by simp, by omega, ?_, fun _ => hres, .inl hres⟩
          rw [parseName_eq, hlabel]
          simp [keepLabel, hok.1, parseName_nil]
        | cons c rest =>
          dsimp only at h
          rw [← hwire] at h
          obtain ⟨more, hmore, hne, hshort, hparse, hdot, hres⟩ := normalizeLoop_sound hone h
          rw [append_assoc, singleton_append] at hshort hdot hres
          refine ⟨l :: more, ?_, by simp, hshort, ?_, ?_, hres⟩
          · intro k hk
            rcases mem_cons.mp hk with rfl | hk
            · exact hok
            · exact hmore k hk
          · rw [parseName_eq, hlabel]
            simp [keepLabel, hok.1, hparse]
          · intro hd
            exact hdot (EndsInDot.behind (by simp) (hpre ▸ hd))

/-- One turn of the loop over a label that the name has room for. -/
lemma normalizeLoop_step {fuel : Nat} {next : Option Text} (hdone : ∀ k ∈ done, LabelOk k)
    (hok : LabelOk l) (hshort : (wire (done ++ [l])).length ≤ 255)
    (hcap : (stem (done ++ [l])).length < cap) :
    parseLabel [] t = some (l, next) →
      normalizeLoop cap (fuel + 1) (stem done) (wire done).length t =
      match next with
      | none => some (stem (done ++ [l]))
      | some [] => if (stem (done ++ [l])).length + 1 ≥ cap then none
        else some (stem (done ++ [l]) ++ [46])
      | some rest =>
        normalizeLoop cap fuel (stem (done ++ [l])) (wire (done ++ [l])).length rest := by
  intro hlabel
  have hwire : (wire (done ++ [l])).length = (wire done).length + l.length + 1 := by
    have := wire_length_append done [l]
    rw [wire_length_cons, wire_nil, length_singleton] at this
    omega
  have hconcat := stem_concat hdone l
  have hlen := congrArg List.length hconcat
  rw [length_append] at hlen
  have hroom : ¬ (stem done ≠ [] ∧ (stem done).length + 1 ≥ cap) := by
    rintro ⟨hne, hge⟩
    rw [if_neg hne, length_append, length_singleton] at hlen
    omega
  rw [normalizeLoop, hlabel]
  dsimp only
  rw [if_neg (by rw [not_or]; exact ⟨hok.1, by omega⟩), if_neg hroom,
    dnsLabelToText_eq _ _ _ (Nat.zero_le _), if_pos (by omega)]
  dsimp only
  rw [hconcat, hwire]

/-- The labels before and behind one of a name that is not too long. -/
lemma valid_split {more : Name} (h : Valid (done ++ l :: more)) :
    (∀ k ∈ done, LabelOk k) ∧ LabelOk l ∧ (wire (done ++ [l])).length ≤ 255 := by
  refine ⟨fun k hk => h.labels k (mem_append_left _ hk), h.labels l (by simp), ?_⟩
  have h1 := h.short
  have h2 := wire_length_append (done ++ [l]) more
  have h3 := wire_length_pos more
  rw [show done ++ l :: more = done ++ [l] ++ more by simp] at h1
  omega

/-- The text of a name goes through unchanged, with the final dot or without it. -/
lemma normalizeLoop_stem {cap : Nat} {last : Text} (hlast : last = [46] ∨ last = []) :
    ∀ {fuel : Nat} {done more : Name},
    Valid (done ++ more) → more ≠ [] → more.length ≤ fuel →
      (stem (done ++ more) ++ last).length < cap →
    normalizeLoop cap fuel (stem done) (wire done).length (stem more ++ last) =
      some (stem (done ++ more) ++ last)
  | 0, _, [], _, hne, _, _ => absurd rfl hne
  | fuel + 1, done, [l], hvalid, _, _, hcap => by
    obtain ⟨hdone, hok, hshort⟩ := valid_split hvalid
    have hstem : stem [l] = labelText l := by simpa [labelsText] using stem_snoc [] l
    have hlabel := parseLabel_labelText l [] last (by simpa using hok.2)
    have hlen : (stem (done ++ [l])).length < cap := by
      rw [length_append] at hcap
      omega
    rw [nil_append, ← hstem] at hlabel
    rcases hlast with rfl | rfl
    · rw [parseLabel_dot] at hlabel
      rw [length_append, length_singleton] at hcap
      rw [normalizeLoop_step hdone hok hshort hlen hlabel]
      exact if_neg (by omega)
    · rw [normalizeLoop_step hdone hok hshort hlen hlabel, append_nil]
  | fuel + 1, done, l :: k :: more, hvalid, _, hfuel, hcap => by
    obtain ⟨hdone, hok, hshort⟩ := valid_split hvalid
    have happend : done ++ l :: k :: more = done ++ [l] ++ k :: more := by simp
    have hstem : stem (l :: k :: more) = labelText l ++ 46 :: stem (k :: more) := by
      simpa [labelsText] using stem_append (m := [l]) (n := k :: more) (by simp)
    have hlabel : parseLabel [] (stem (l :: k :: more) ++ last) =
        some (l, some (stem (k :: more) ++ last)) := by
      rw [hstem, append_assoc, parseLabel_labelText l [] _ (by simpa using hok.2), nil_append,
        cons_append, parseLabel_dot]
    have hlen : (stem (done ++ [l])).length < cap := by
      have heq : stem (done ++ l :: k :: more) = labelsText (done ++ [l]) ++ stem (k :: more) := by
        rw [happend, stem_append (by simp)]
      rw [labelsText_eq_stem (show done ++ [l] ≠ [] by simp)] at heq
      rw [heq] at hcap
      simp only [length_append, length_singleton] at hcap
      omega
    have hne : stem (k :: more) ≠ [] := stem_ne_nil (by simp) fun j hj => hvalid.labels j (by
      simp only [mem_append, mem_cons] at hj ⊢
      exact .inr (.inr hj))
    obtain ⟨c, rest, hrest⟩ := exists_cons_of_ne_nil hne
    have hnext :=
      @normalizeLoop_stem cap last hlast fuel (done ++ [l]) (k :: more) (happend ▸ hvalid) (by simp)
      (by simpa using hfuel) (happend ▸ hcap)
    rw [normalizeLoop_step hdone hok hshort hlen hlabel]
    rw [hrest] at hnext ⊢
    dsimp only [cons_append] at hnext ⊢
    rw [hnext, happend]

/-- What the loop returns fits in the buffer with the final NUL. -/
lemma normalizeLoop_length : ∀ {fuel wireLen : Nat} {out t res : Text},
    normalizeLoop cap fuel out wireLen t = some res → res.length < cap
  | fuel + 1, wireLen, out, t, res, h => by
    rw [normalizeLoop] at h
    cases hlabel : parseLabel [] t with
    | none =>
      rw [hlabel] at h
      cases h
    | some p =>
      obtain ⟨l, next⟩ := p
      rw [hlabel] at h
      dsimp only at h
      split at h
      · cases h
      rename_i hl
      rw [not_or] at hl
      split at h
      · cases h
      generalize hout : (if out = [] then [] else out ++ [46]) = out' at h
      rw [dnsLabelToText_eq _ _ _ (Nat.zero_le _)] at h
      split at h
      · cases h
      rename_i txt htxt
      have hpos := length_pos_iff.mpr (labelText_ne_nil hl.1)
      split at htxt
      · obtain rfl := some.inj htxt
        rename_i hroom
        cases next with
        | none =>
          obtain rfl := some.inj h
          rw [length_append]
          omega
        | some rest =>
          cases rest with
          | nil =>
            dsimp only at h
            split at h
            · cases h
            obtain rfl := some.inj h
            rw [length_append, length_singleton]
            omega
          | cons c rest => exact normalizeLoop_length h
      · cases htxt

lemma labelsText_ne_dot (h : ∀ l ∈ n, LabelOk l) : labelsText n ≠ [46] := by
  cases n with
  | nil => simp [labelsText]
  | cons l n =>
    rw [labelsText_cons]
    intro heq
    have hlen := congrArg List.length heq
    have := length_pos_iff.mpr (labelText_ne_nil (h l mem_cons_self).1)
    simp only [length_append, length_singleton] at hlen
    omega

/-- Every label has a character and a dot. -/
lemma labels_le_text (h : ∀ l ∈ n, LabelOk l) : 2 * n.length ≤ (labelsText n).length := by
  induction n with
  | nil => simp
  | cons l n ih =>
    have hpos := length_pos_iff.mpr (labelText_ne_nil (h l mem_cons_self).1)
    have hrest := ih fun k hk => h k (mem_cons_of_mem _ hk)
    rw [labelsText_cons, length_cons, length_append, length_append, length_singleton]
    omega

/-- What is accepted denotes a name. -/
lemma dnsNameNormalize_sound {res : Text} (hdot : t ≠ [46]) (hnil : t ≠ [])
    (h : dnsNameNormalize cap t = some res) :
    ∃ n, Valid n ∧ n ≠ [] ∧ parseName t = some n ∧ (EndsInDot t → res = labelsText n) ∧
      (res = labelsText n ∨ res = stem n) := by
  rw [dnsNameNormalize] at h
  split at h
  · cases h
  rw [if_neg (by rw [not_or]; exact ⟨hnil, hdot⟩)] at h
  obtain ⟨n, hlabels, hne, hshort, hparse, hres⟩ :=
    @normalizeLoop_sound cap t.length [] t res (by simp) h
  exact ⟨n, ⟨hlabels, hshort⟩, hne, hparse, hres⟩

/-! ### Text and wire form -/

/-- What is accepted is left alone when it is normalized again, and stands for the same name. -/
lemma dnsNameNormalize_again {res : Text} (h : dnsNameNormalize cap t = some res) :
    dnsNameNormalize cap res = some res ∧ ∃ n, Valid n ∧ readName t = some n ∧
      readName res = some n := by
  by_cases hshort : t = [] ∨ t = [46]
  · have hcap : ¬ cap < 2 := by
      intro hlt
      rw [dnsNameNormalize, if_pos hlt] at h
      cases h
    rw [dnsNameNormalize, if_neg hcap, if_pos hshort] at h
    obtain rfl := some.inj h
    rw [dnsNameNormalize, if_neg hcap, if_pos hshort]
    refine ⟨rfl, [], Valid.nil, ?_⟩
    rcases hshort with rfl | rfl <;> exact ⟨rfl, rfl⟩
  obtain ⟨hnil, hdot⟩ := not_or.mp hshort
  obtain ⟨n, hvalid, hne, hparse, -, hres⟩ := dnsNameNormalize_sound hdot hnil h
  have hread : readName t = some n := by
    rw [readName, hparse, filter_some, if_pos (by simpa using hvalid.short)]
  rw [dnsNameNormalize] at h
  split at h
  · cases h
  rename_i hcap
  have hlen := normalizeLoop_length h
  have hcount : n.length ≤ (stem n).length := by
    have hlabels := labels_le_text hvalid.labels
    rw [labelsText_eq_stem hne, length_append, length_singleton] at hlabels
    omega
  rw [dnsNameNormalize, if_neg hcap]
  rcases hres with rfl | rfl
  · have hlong : ¬ (labelsText n = [] ∨ labelsText n = [46]) := by
      rw [not_or, labelsText_eq_stem hne]
      exact ⟨by simp, labelsText_eq_stem hne ▸ labelsText_ne_dot hvalid.labels⟩
    have hfuel : n.length ≤ (labelsText n).length := by
      rw [labelsText_eq_stem hne, length_append]
      omega
    have hloop := @normalizeLoop_stem cap [46] (.inl rfl) _ [] n hvalid hne hfuel
    rw [nil_append, ← labelsText_eq_stem hne] at hloop
    rw [if_neg hlong]
    refine ⟨hloop hlen, n, hvalid, hread, ?_⟩
    rw [← nameText_of_ne hne]
    exact readName_nameText hvalid
  have hlong : ¬ (stem n = [] ∨ stem n = [46]) := by
    rw [not_or]
    refine ⟨stem_ne_nil hne hvalid.labels, fun heq => ?_⟩
    have htake := take_lenNoRoot_stem hvalid.labels
    rw [heq] at htake
    exact absurd htake (by decide)
  have hloop := @normalizeLoop_stem cap [] (.inr rfl) _ [] n hvalid hne hcount
  rw [nil_append, append_nil] at hloop
  rw [if_neg hlong]
  refine ⟨hloop hlen, n, hvalid, hread, ?_⟩
  exact (⟨hvalid, .inr rfl⟩ : Denotes (stem n) n).read

lemma writeUncompressedNameExt_read {maxLen : Nat} {w : Out} (h : readName t = some n)
    (hfit : w.offset + (wire n).length ≤ maxLen) :
      writeUncompressedNameExt maxLen t w = (true, w.put (wire n)) := by
  have hout := @writeUncompressedNameExt_outcome maxLen t w (by omega)
  rw [h, map_some] at hout
  exact (outcome_fits hfit).mp hout

lemma strcaseeq_nameText_iff {a b : Name} (ha : Valid a) (hb : Valid b) :
    strcaseeq (nameText a) (nameText b) = true ↔ Same a b := by
  constructor
  · intro h
    exact ((denotes_nameText ha).match_iff (denotes_nameText hb)).mp
      (by rw [domainNamesMatchCi, h, Bool.true_or])
  intro h
  rw [strcaseeq, beq_iff_eq]
  exact nameText_lower h

/-- What the decoder accepts is the text of the name spelled there. -/
lemma expandWireNameToBuffer_spelled {m : Buf} {len bufSize p e : Nat}
    (h : expandWireNameToBuffer m len p bufSize = some (t, e)) (hn : Spells m len p n e) :
    Valid n ∧ t = nameText n := by
  obtain ⟨k, hvalid, hk, rfl⟩ := expandWireNameToBuffer_sound h
  obtain ⟨rfl, -⟩ := spells_unique hk hn
  exact ⟨hvalid, rfl⟩

/-- The texts the server keeps stand for names without loss. A name of at most 255 octets is
decoded, and whatever is decoded, pointers or not, is encoded to the octets of the name that is
spelled there. On such texts `strcasecmp`, the suffix test and the hash see what the names say. A
text that is accepted from outside is brought into this form without changing the name. -/
theorem nameText_faithful :
    (∀ (n : Name) (m : Buf) (p len : Nat), Valid n → Holds m p (wire n) →
      p + (wire n).length ≤ len →
      Spells m len p n (p + (wire n).length) ∧
        ∃ t, expandWireNameToBuffer m len p dnsNameTextSize = some (t, p + (wire n).length)) ∧
      (∀ (n : Name) (m : Buf) (p len e : Nat) (t : Text),
        expandWireNameToBuffer m len p dnsNameTextSize = some (t, e) → Spells m len p n e →
        ∀ (maxLen : Nat) (w : Out), w.offset + (wire n).length ≤ maxLen →
          writeUncompressedNameExt maxLen t w = (true, w.put (wire n))) ∧
      (∀ (a b : Name) (m m' : Buf) (p q len len' e f : Nat) (s t : Text),
        expandWireNameToBuffer m len p dnsNameTextSize = some (s, e) → Spells m len p a e →
        expandWireNameToBuffer m' len' q dnsNameTextSize = some (t, f) → Spells m' len' q b f →
        (strcaseeq s t = true ↔ Same a b) ∧ (domainNameIsAtOrBelow s t = true ↔ Below a b) ∧
          (Same a b → dnsNameHashCi s = dnsNameHashCi t)) ∧
      ∀ (cap : Nat) (t res : Text), dnsNameNormalize cap t = some res →
        dnsNameNormalize cap res = some res ∧ ∃ n, Valid n ∧
          ∀ (maxLen : Nat) (w : Out), w.offset + (wire n).length ≤ maxLen →
            writeUncompressedNameExt maxLen t w = (true, w.put (wire n)) ∧
              writeUncompressedNameExt maxLen res w = (true, w.put (wire n)) := by
  refine ⟨?_, ?_, ?_, ?_⟩
  · intro n m p len hn hw hlen
    have hin : ∀ i, p ≤ i → i < p + (wire n).length → i < len := fun i _ hi => by omega
    have hreads := reads_wire (S := (· < len)) len hn.labels hw hin
    exact ⟨hreads.spells fun _ hi => hi, nameText n,
      expandWireNameToBuffer_reads (fun _ hi => hi) hreads hn (Nat.le_refl _)⟩
  · intro n m p len e t ht hn maxLen w hfit
    obtain ⟨hvalid, rfl⟩ := expandWireNameToBuffer_spelled ht hn
    exact writeUncompressedNameExt_read (readName_nameText hvalid) hfit
  · intro a b m m' p q len len' e f s t hs ha ht hb
    obtain ⟨hva, rfl⟩ := expandWireNameToBuffer_spelled hs ha
    obtain ⟨hvb, rfl⟩ := expandWireNameToBuffer_spelled ht hb
    have hda := denotes_nameText hva
    have hdb := denotes_nameText hvb
    exact ⟨strcaseeq_nameText_iff hva hvb, hda.below_iff hdb,
      fun hsame => hashCi_of_match ((hda.match_iff hdb).mpr hsame)⟩
  intro cap t res h
  obtain ⟨hagain, n, hvalid, ht, hres⟩ := dnsNameNormalize_again h
  exact ⟨hagain, n, hvalid, fun maxLen w hfit =>
    ⟨writeUncompressedNameExt_read ht hfit, writeUncompressedNameExt_read hres hfit⟩⟩

end KariDns
