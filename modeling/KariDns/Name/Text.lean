import KariDns.Lib.CompressedName

/-! Presentation form of names.

A C string is the list of its octets without the final NUL. `parseLabel` reads one label of
a name as it is typed (RFC 1035 5.1 escapes), `dnsLabelToText` writes one label in the form
the server keeps names in, and `parseName` reads a whole name. The server's own form reads
back as the name it was written from.
-/

namespace KariDns

open Octets DomainName List

variable {acc l : Label} {t : Text}

abbrev Text := List UInt8

-- named once, so that every test for membership rests on the same proof
instance textLawful : LawfulBEq Text := inferInstance

instance placeLawful : LawfulBEq (Nat × Nat) := inferInstance

/-- The octets of an ASCII string constant. -/
def ascii (s : String) : Text := s.toList.map Char.toUInt8

def isDigit (c : UInt8) : Bool := 48 ≤ c && c ≤ 57

/-- Three decimal digits as a number. -/
def threeDigits (a b c : UInt8) : Nat :=
  (a.toNat - 48) * 100 + (b.toNat - 48) * 10 + (c.toNat - 48)

/-- `parse_label`: the label at the front of a name and, when a `.` ended it, the text
behind that dot. `none` is the return value -1. -/
def parseLabel : Label → Text → Option (Label × Option Text)
  | acc, [] => some (acc, none)
  | acc, c :: rest =>
    if c = 92 then
      match rest with
      | [] => none
      | d :: e :: f :: tail =>
        if isDigit d && isDigit e && isDigit f then
          if threeDigits d e f > 255 then none
          else if acc.length ≥ 63 then none
          else parseLabel (acc ++ [UInt8.ofNat (threeDigits d e f)]) tail
        else if acc.length ≥ 63 then none
        else parseLabel (acc ++ [d]) (e :: f :: tail)
      | d :: tail => if acc.length ≥ 63 then none else parseLabel (acc ++ [d]) tail
    else if c = 46 then some (acc, some rest)
    else if acc.length ≥ 63 then none
    else parseLabel (acc ++ [c]) rest

/-- A label of length zero is skipped wherever labels are collected. -/
def keepLabel (l : Label) (n : Name) : Name := if l = [] then n else l :: n

/-- The loop `while (p) { len = parse_label(p, label, &next_p); ... p = next_p; }`. -/
def parseLabels : Nat → Text → Option Name
  | 0, _ => none
  | fuel + 1, t =>
    match parseLabel [] t with
    | none => none
    | some (l, none) => some (keepLabel l [])
    | some (l, some rest) => (parseLabels fuel rest).map (keepLabel l)

/-- The labels of a name in text form. -/
def parseName (t : Text) : Option Name := parseLabels (t.length + 1) t

/-- One octet of a label in presentation form (RFC 4343 2.1). -/
def octetText (c : UInt8) : Text :=
  if c = 46 ∨ c = 92 then [92, c]
  else if c < 0x21 ∨ c ≥ 0x7F then [92, 48 + c / 100, 48 + c / 10 % 10, 48 + c % 10]
  else [c]

/-- `dns_label_to_text`: `none` when the `cap` octets of room do not suffice. -/
def dnsLabelToText (cap : Nat) : Nat → Label → Option Text
  | _, [] => some []
  | w, c :: l =>
    if w + (octetText c).length > cap then none
    else (dnsLabelToText cap (w + (octetText c).length) l).map (octetText c ++ ·)

/-- The presentation form of a label. -/
def labelText (l : Label) : Text := l.flatMap octetText

/-- The presentation form of a name: every label followed by a dot, the root a lone dot. -/
def nameText (n : Name) : Text := if n = [] then [46] else n.flatMap fun l => labelText l ++ [46]

/-! ### Labels -/

lemma dnsLabelToText_eq (cap : Nat) : ∀ (l : Label) (w : Nat), w ≤ cap →
    dnsLabelToText cap w l = if w + (labelText l).length ≤ cap then some (labelText l) else none
  | [], w, hw => by simp [dnsLabelToText, labelText, hw]
  | c :: l, w, _ => by
    have hlen : (labelText (c :: l)).length = (octetText c).length + (labelText l).length := by
      simp [labelText]
    unfold dnsLabelToText
    split
    · rw [if_neg (by omega)]
    rw [dnsLabelToText_eq cap l _ (by omega), hlen, Nat.add_assoc]
    split
    · simp [labelText]
    · rfl

lemma octetText_length_le (c : UInt8) : (octetText c).length ≤ 4 := by
  unfold octetText
  split_ifs <;> simp

lemma labelText_length_le : ∀ l : Label, (labelText l).length ≤ 4 * l.length
  | [] => by simp [labelText]
  | c :: l => by
    have h1 := octetText_length_le c
    have h2 := labelText_length_le l
    simp only [labelText, flatMap_cons, length_append, length_cons] at *
    omega

/-- The digits of an escape are digits and stand for the octet. -/
lemma escape_digits : ∀ c : UInt8,
    (isDigit (48 + c / 100) && isDigit (48 + c / 10 % 10) && isDigit (48 + c % 10)) = true ∧
    threeDigits (48 + c / 100) (48 + c / 10 % 10) (48 + c % 10) = c.toNat := by
  decide +kernel

lemma not_digit_dot : isDigit 46 = false := by decide

lemma not_digit_backslash : isDigit 92 = false := by decide

lemma parseLabel_plain {c : UInt8} (h : c ≠ 92) (h' : c ≠ 46) :
    parseLabel acc (c :: t) = if acc.length ≥ 63 then none else parseLabel (acc ++ [c]) t := by
  rw [parseLabel.eq_def]
  simp [h, h']

lemma parseLabel_dot (acc : Label) (t : Text) : parseLabel acc (46 :: t) = some (acc, some t) := by
  rw [parseLabel.eq_def]
  simp

/-- Reading one octet back from its presentation form. -/
lemma parseLabel_octetText (c : UInt8) (acc : Label) (t : Text) (h : acc.length < 63) :
    parseLabel acc (octetText c ++ t) = parseLabel (acc ++ [c]) t := by
  have hroom : ¬ acc.length ≥ 63 := by omega
  unfold octetText
  split_ifs with h1 h2
  · -- a dot or a backslash stands behind a backslash, whatever follows it
    have hd : isDigit c = false := by
      rcases h1 with rfl | rfl
      · exact not_digit_dot
      · exact not_digit_backslash
    rcases t with _ | ⟨e, _ | ⟨f, tail⟩⟩ <;> simp [parseLabel, hd, hroom]
  · obtain ⟨hdig, hval⟩ := escape_digits c
    have hle : ¬ c.toNat > 255 := by have := c.toNat_lt; omega
    simp only [cons_append, nil_append, parseLabel, if_true, hdig, hval, hle, hroom, if_false,
      UInt8.ofNat_toNat]
  · rw [not_or] at h1
    rw [singleton_append, parseLabel_plain h1.2 h1.1, if_neg hroom]

lemma parseLabel_labelText : ∀ (l acc : Label) (t : Text), acc.length + l.length ≤ 63 →
    parseLabel acc (labelText l ++ t) = parseLabel (acc ++ l) t
  | [], acc, t, _ => by simp [labelText]
  | c :: l, acc, t, h => by
    simp only [length_cons] at h
    rw [show labelText (c :: l) ++ t = octetText c ++ (labelText l ++ t) by simp [labelText],
      parseLabel_octetText c acc _ (by omega),
      parseLabel_labelText l (acc ++ [c]) t (by simp; omega)]
    simp

/-- What `parse_label` leaves to read is shorter than what it was given. -/
lemma parseLabel_rest_lt {rest : Text} (h : parseLabel acc t = some (l, some rest)) :
    rest.length < t.length := by
  fun_induction parseLabel acc t <;> simp_all <;> omega

/-- Every label that `parse_label` returns fits in 63 octets. -/
lemma parseLabel_length_le {r : Option Text} (hacc : acc.length ≤ 63)
    (h : parseLabel acc t = some (l, r)) :
    l.length ≤ 63 := by
  fun_induction parseLabel acc t <;> grind

/-! ### Names -/

lemma parseLabels_fuel : ∀ {f g : Nat} {t : Text}, t.length < f → t.length < g →
    parseLabels f t = parseLabels g t
  | f + 1, g + 1, t, hf, hg => by
    unfold parseLabels
    match h : parseLabel [] t with
    | none => rfl
    | some (l, none) => rfl
    | some (l, some rest) =>
      have hlt := parseLabel_rest_lt h
      simp only [parseLabels_fuel (show rest.length < f by omega) (show rest.length < g by omega)]

/-- The loop over the labels, one turn at a time. -/
lemma parseName_eq (t : Text) : parseName t =
    match parseLabel [] t with
    | none => none
    | some (l, none) => some (keepLabel l [])
    | some (l, some rest) => (parseName rest).map (keepLabel l) := by
  conv_lhs => unfold parseName parseLabels
  match h : parseLabel [] t with
  | none => rfl
  | some (l, none) => rfl
  | some (l, some rest) =>
    have hlt := parseLabel_rest_lt h
    simp only [parseName, parseLabels_fuel hlt (Nat.lt_succ_self rest.length)]

lemma labelOk_of_keepLabel {n : Name} (hl : l.length ≤ 63) (hn : ∀ k ∈ n, LabelOk k) :
    ∀ k ∈ keepLabel l n, LabelOk k := by
  unfold keepLabel
  split
  · exact hn
  rename_i hne
  intro k hk
  rcases mem_cons.mp hk with rfl | hk
  · exact ⟨hne, hl⟩
  · exact hn k hk

lemma parseLabels_labelOk : ∀ {f : Nat} {t : Text} {n : Name}, parseLabels f t = some n →
    ∀ l ∈ n, LabelOk l
  | f + 1, t, n, h => by
    unfold parseLabels at h
    match hp : parseLabel [] t with
    | none => simp [hp] at h
    | some (l, none) =>
      simp only [hp, Option.some.injEq] at h
      subst h
      exact labelOk_of_keepLabel (parseLabel_length_le (by simp) hp) (by simp)
    | some (l, some rest) =>
      simp only [hp, Option.map_eq_some_iff] at h
      obtain ⟨n', hn', rfl⟩ := h
      exact labelOk_of_keepLabel (parseLabel_length_le (by simp) hp) (parseLabels_labelOk hn')

lemma parseName_labelOk {n : Name} (h : parseName t = some n) : ∀ l ∈ n, LabelOk l :=
  parseLabels_labelOk h

lemma parseName_nil : parseName [] = some [] := rfl

lemma parseName_labelText (hl : LabelOk l) (t : Text) :
    parseName (labelText l ++ 46 :: t) = (parseName t).map (l :: ·) := by
  have hlen : ([] : Label).length + l.length ≤ 63 := by simpa using hl.2
  have hkeep : keepLabel l = (l :: ·) := funext fun _ => if_neg hl.1
  rw [parseName_eq, parseLabel_labelText l [] _ hlen, parseLabel_dot, nil_append]
  simp only [hkeep]

lemma parseName_flatMap : ∀ {n : Name}, (∀ l ∈ n, LabelOk l) →
    parseName (n.flatMap fun l => labelText l ++ [46]) = some n
  | [], _ => parseName_nil
  | l :: n, h => by
    rw [flatMap_cons, append_assoc, singleton_append, parseName_labelText (h l mem_cons_self),
      parseName_flatMap fun k hk => h k (mem_cons_of_mem _ hk)]
    rfl

/-- The server's own text of a name reads back as that name. -/
lemma parseName_nameText {n : Name} (h : ∀ l ∈ n, LabelOk l) : parseName (nameText n) = some n := by
  unfold nameText
  split
  · rename_i hnil
    subst hnil
    rfl
  · exact parseName_flatMap h

end KariDns
