import KariDns.Libc.Print

/-! TTLs in text form (`parse_ttl_value`, `parse_ttl_strict`).

Both functions read numbers with the letters of their units and add them up in 64 bits. The first
one gives the sum up to the greatest TTL, the second one refuses what is above its limit; no sum
wraps around.
-/

namespace KariDns

open Octets DomainName List

variable {ds rest s : Text} {n : Nat}

/-! ### What a text says -/

/-- The text of numbers that each have a unit, with the sum in seconds. -/
inductive UnitTerms : Text → Nat → Prop
  | nil : UnitTerms [] 0
  | cons {ds rest s : Text} {u : UInt8} {n m v w : Nat} (hn : IsNumber ds n)
    (hu : ttlUnit u = some m)
    (hrest : UnitTerms rest v) (hs : s = ds ++ u :: rest) (hw : w = n * m + v) : UnitTerms s w

lemma ttlUnit_letter : ∀ u : UInt8, ∀ m ∈ ttlUnit u, isDigit u = false ∧ 0 < m ∧ m ≤ 604800 := by
  decide +kernel

lemma le_appendDigits : ∀ (ds : Text) (n : Nat), n ≤ appendDigits n ds
  | [], n => n.le_refl
  | c :: ds, n => le_trans (by omega) (le_appendDigits ds (n * 10 + (c.toNat - 48)))

/-! ### `parse_ttl_value` -/

lemma ttlLoop_last (h : IsNumber ds n) (fuel total : Nat) :
    ttlLoop (fuel + 1) total ds = ttlLoop fuel (ttlAdd total (min n (2 ^ 64 - 1)) 1) [] := by
  have hnum : scanNumber (ds ++ []) = _ := h.scan (by simp)
  have hread : strtoull (ds ++ []) = _ := h.strtoull (by simp)
  rw [append_nil] at hnum hread
  obtain ⟨c, t, rfl⟩ := exists_cons_of_ne_nil h.ne_nil
  rw [ttlLoop, hnum, hread]

/-- The loop reads a number and goes on behind its unit. -/
lemma ttlLoop_unit {u : UInt8} {m : Nat} (h : IsNumber ds n) (hu : ttlUnit u = some m)
    (fuel total : Nat) :
    ttlLoop (fuel + 1) total (ds ++ u :: rest) =
      ttlLoop fuel (ttlAdd total (min n (2 ^ 64 - 1)) m) rest := by
  have hletter : ∀ c ∈ (u :: rest).head?, isDigit c = false := by
    simpa using (ttlUnit_letter u m hu).1
  have hnum := h.scan hletter
  have hread := h.strtoull hletter
  obtain ⟨c, t, rfl⟩ := exists_cons_of_ne_nil h.ne_nil
  rw [cons_append] at hnum hread ⊢
  rw [ttlLoop, hnum, hread]
  dsimp only
  rw [hu]

/-- One number more: no sum wraps around, and it is exact as long as it is a TTL. -/
lemma ttlAdd_min (total n k : Nat) {m : Nat} (hm : 0 < m) :
    min (ttlAdd total (min n (2 ^ 64 - 1)) m + k) 2147483647 =
      min (total + n * m + k) 2147483647 := by
  have hdiv : 2147483647 / m ≤ 2147483647 := Nat.div_le_self _ _
  rw [ttlAdd]
  split
  · rename_i h
    rcases h with h | h
    · have hmul : (2147483647 / m + 1) * m ≤ n * m := Nat.mul_le_mul_right _ (by omega)
      have hlt := Nat.lt_mul_div_succ 2147483647 hm
      rw [Nat.mul_comm] at hlt
      omega
    · omega
  · rw [Nat.min_eq_left (a := n) (by omega)]
    have hmul : n * m ≤ 2147483647 / m * m := Nat.mul_le_mul_right _ (by omega)
    have hle := Nat.div_mul_le_self 2147483647 m
    omega

/-- The loop adds up what the text says; the last number may be without a unit. -/
lemma ttlLoop_sum {last : Text} (hlast : last = [] ∧ n = 0 ∨ IsNumber last n) {s : Text} {v : Nat}
    (h : UnitTerms s v) : ∀ {fuel total : Nat}, s.length + last.length < fuel →
      ttlLoop fuel total (s ++ last) = min (total + (v + n)) 2147483647 := by
  induction h with
  | nil =>
    intro fuel total hfuel
    obtain ⟨fuel, rfl⟩ : ∃ k, fuel = k + 1 := ⟨fuel - 1, by omega⟩
    rcases hlast with ⟨rfl, rfl⟩ | hnum
    · rfl
    obtain ⟨fuel, rfl⟩ : ∃ k, fuel = k + 1 :=
      ⟨fuel - 1, by have := length_pos_iff.mpr hnum.ne_nil; simp at hfuel; omega⟩
    rw [nil_append, ttlLoop_last hnum]
    exact (ttlAdd_min total n 0 Nat.one_pos).trans (by rw [Nat.mul_one, Nat.add_zero, Nat.zero_add])
  | cons hn hu hrest hs hw ih =>
    rename_i rest s u a m v w
    intro fuel total hfuel
    obtain ⟨fuel, rfl⟩ : ∃ k, fuel = k + 1 := ⟨fuel - 1, by omega⟩
    obtain ⟨-, hpos, -⟩ := ttlUnit_letter u m hu
    rw [hs] at hfuel
    rw [hs, append_assoc, cons_append, ttlLoop_unit hn hu, ih (by simp at hfuel; omega),
      ttlAdd_min total a _ hpos, hw]
    congr 1
    omega

/-! ### `parse_ttl_strict` -/

/-- The loops of `parse_ttl_strict`; `seen` tells that a unit was read and `num` is the number being
read. -/
def strictScan (max : Nat) : Nat → Bool → Option Nat → Text → Option Nat
  | total, seen, num, [] =>
    num.elim (some (total % 2 ^ 32)) fun num =>
      let total := (total + num) % 2 ^ 64
      if seen ∨ total > max then none else some (total % 2 ^ 32)
  | total, seen, num, c :: p =>
    if isDigit c then
      let num := (num.getD 0 * 10 + (c.toNat - 48)) % 2 ^ 64
      if num > max then none else strictScan max total seen (some num) p
    else num.bind fun num => (ttlUnit c).bind fun mult =>
      let total := (total + num * mult % 2 ^ 64) % 2 ^ 64
      if total > max then none else strictScan max total true none p

/-- `parse_ttl_strict`. -/
def parseTtlStrict (s : Text) (max : Nat) : Option Nat :=
  if s = [] ∨ max > 0xFFFFFFFF ∨ s.length > 63 then none else strictScan max 0 false none s

variable {max total : Nat} {seen : Bool} {num : Option Nat}

/-- What was read of a number. -/
inductive Reading (max : Nat) : Text → Option Nat → Prop
  | start : Reading max [] none
  | number {ds : Text} {n : Nat} (hn : IsNumber ds n) (hle : n ≤ max) : Reading max ds (some n)

lemma Reading.le {pre : Text} (h : Reading max pre num) : num.getD 0 ≤ max := by
  cases h with
  | start => exact Nat.zero_le _
  | number _ hle => exact hle

lemma Reading.digit {pre : Text} {c : UInt8} (h : Reading max pre num) (hc : isDigit c = true)
    (hle : num.getD 0 * 10 + (c.toNat - 48) ≤ max) :
      Reading max (pre ++ [c]) (some (num.getD 0 * 10 + (c.toNat - 48))) := by
  refine .number ⟨by simp, fun d hd => ?_, ?_⟩ hle
  · rcases mem_append.mp hd with hd | hd
    · cases h with
      | start => cases hd
      | number hn => exact hn.digit d hd
    · rwa [mem_singleton.mp hd]
  · rw [appendDigits, foldl_append]
    cases h with
    | start => rfl
    | number hn => rw [hn.value]; rfl

/-- What is accepted when `pre` was read of a number. -/
lemma strictScan_some (hmax : max ≤ 0xFFFFFFFF) :
    ∀ {s pre : Text} {num : Option Nat} {total : Nat} {seen : Bool} {v : Nat},
    total ≤ max → Reading max pre num → strictScan max total seen num s = some v →
    v ≤ max ∧ ∃ w, v = total + w ∧ (UnitTerms (pre ++ s) w ∨ seen = false ∧ IsNumber (pre ++ s) w)
  | [], pre, num, total, seen, v, ht, hpre, h => by
    rw [append_nil]
    rw [strictScan] at h
    cases hpre with
    | start =>
      rw [Option.elim_none, Nat.mod_eq_of_lt (by omega)] at h
      obtain rfl := Option.some.inj h
      exact ⟨ht, 0, rfl, .inl .nil⟩
    | @number _ n hn hle =>
      rw [Option.elim_some, Nat.mod_eq_of_lt (by omega)] at h
      dsimp only at h
      split_ifs at h with hno
      rw [not_or] at hno
      rw [Nat.mod_eq_of_lt (by omega)] at h
      obtain rfl := Option.some.inj h
      exact ⟨by omega, n, rfl, .inr ⟨by simpa using hno.1, hn⟩⟩
  | c :: p, pre, num, total, seen, v, ht, hpre, h => by
    have hc := c.toNat_lt
    have hget := hpre.le
    rw [strictScan] at h
    split at h
    · rename_i hdigit
      rw [Nat.mod_eq_of_lt (by omega)] at h
      dsimp only at h
      split_ifs at h with hle
      have ih := strictScan_some hmax ht (hpre.digit hdigit (by omega)) h
      rwa [append_assoc, singleton_append] at ih
    cases hpre with
    | start => cases h
    | @number _ n hn hle =>
      rw [Option.bind_some] at h
      obtain ⟨m, hu, h⟩ := Option.bind_eq_some_iff.mp h
      obtain ⟨-, -, hm⟩ := ttlUnit_letter c m hu
      have hmul : n * m ≤ 0xFFFFFFFF * 604800 := Nat.mul_le_mul (by omega) hm
      rw [Nat.mod_eq_of_lt (a := n * m) (by omega), Nat.mod_eq_of_lt (by omega)] at h
      dsimp only at h
      split_ifs at h with hle'
      obtain ⟨hv, w, rfl, hw⟩ := strictScan_some hmax (by omega) .start h
      refine ⟨hv, n * m + w, by omega, .inl ?_⟩
      rcases hw with hw | ⟨hw, -⟩
      · exact .cons hn hu hw rfl rfl
      · cases hw

/-- Digits are added to the number being read. -/
lemma strictScan_digits (hmax : max ≤ 0xFFFFFFFF) (rest : Text) : ∀ {ds : Text} {num : Option Nat},
    (∀ c ∈ ds, isDigit c = true) → appendDigits (num.getD 0) ds ≤ max → ds ≠ [] →
      strictScan max total seen num
        (ds ++ rest) = strictScan max total seen (some (appendDigits (num.getD 0) ds)) rest
  | [], _, _, _, h => absurd rfl h
  | c :: ds, num, h, hle, _ => by
    have hnum : num.getD 0 * 10 + (c.toNat - 48) ≤ _ := (le_appendDigits ds _).trans hle
    rw [cons_append, strictScan, if_pos (h c mem_cons_self), Nat.mod_eq_of_lt (by omega)]
    dsimp only
    rw [if_neg (by omega)]
    by_cases hds : ds = []
    · rw [hds]
      rfl
    · exact strictScan_digits hmax rest (fun d hd => h d (mem_cons_of_mem _ hd)) hle hds

lemma strictScan_number (hmax : max ≤ 0xFFFFFFFF) (hn : IsNumber ds n) (hle : n ≤ max)
    (rest : Text) :
    strictScan max total seen none (ds ++ rest) = strictScan max total seen (some n) rest := by
  rw [hn.value] at hle ⊢
  exact strictScan_digits hmax rest hn.digit hle hn.ne_nil

/-- Numbers with units are accepted up to the limit. -/
lemma strictScan_terms (hmax : max ≤ 0xFFFFFFFF) {s : Text} {w : Nat} (h : UnitTerms s w) :
    ∀ {total : Nat} {seen : Bool},
    total + w ≤ max → strictScan max total seen none s = some (total + w) := by
  induction h with
  | nil =>
    intro total seen hle
    rw [strictScan, Option.elim_none, Nat.mod_eq_of_lt (by omega)]
    rfl
  | cons hn hu hrest hs hw ih =>
    rename_i ds rest s u n m v w
    intro total seen hle
    obtain ⟨hletter, hpos, -⟩ := ttlUnit_letter u m hu
    have hnum : n ≤ n * m := Nat.le_mul_of_pos_right n hpos
    rw [hs, strictScan_number hmax hn (by omega), strictScan, if_neg (by simp [hletter]), hu,
      Option.bind_some, Option.bind_some, Nat.mod_eq_of_lt (a := n * m) (by omega),
      Nat.mod_eq_of_lt (by omega)]
    dsimp only
    rw [if_neg (by omega), ih (by omega), hw, Nat.add_assoc]

/-- TTLs in text form are read exactly, up to the greatest TTL or to the limit. -/
theorem ttl_texts_exact :
    (∀ (s last : Text) (v n : Nat), UnitTerms s v → (last = [] ∧ n = 0 ∨ IsNumber last n) →
      s ++ last ≠ [] →
      parseTtlValue (s ++ last) = min 2147483647 (v + n)) ∧
    ∀ (s : Text) (max v : Nat), max ≤ 0xFFFFFFFF → (parseTtlStrict s max = some v ↔
      s.length ≤ 63 ∧ v ≤ max ∧ (IsNumber s v ∨ s ≠ [] ∧ UnitTerms s v)) := by
  refine ⟨fun s last v n hs hlast hne => ?_, fun s max v hmax => ?_⟩
  · rw [parseTtlValue, if_neg hne]
    split
    · rename_i hall
      cases hs with
      | nil =>
        rcases hlast with ⟨rfl, -⟩ | hn
        · exact absurd rfl hne
        · rw [nil_append, ← append_nil last, hn.strtoull (by simp), Nat.zero_add]
          omega
      | cons _ hu _ hs _ =>
        have hunit :=
          List.all_eq_true.mp hall _ (mem_append_left _ (hs ▸ mem_append_right _ mem_cons_self))
        rw [(ttlUnit_letter _ _ hu).1] at hunit
        cases hunit
    · rw [ttlLoop_sum hlast hs (by rw [length_append]; omega), Nat.zero_add, Nat.min_comm]
  rw [parseTtlStrict]
  split
  · rename_i hno
    refine ⟨fun h => (by cases h), ?_⟩
    rintro ⟨hlen, hle, hform⟩
    have hne : s ≠ [] := hform.elim IsNumber.ne_nil And.left
    rcases hno with hno | hno | hno
    · exact absurd hno hne
    · omega
    · omega
  rename_i hyes
  simp only [not_or] at hyes
  constructor
  · intro h
    obtain ⟨hle, w, rfl, hform⟩ := strictScan_some hmax (Nat.zero_le _) .start h
    rw [Nat.zero_add] at hle ⊢
    rcases hform with hform | ⟨-, hform⟩
    · exact ⟨by omega, hle, .inr ⟨hyes.1, hform⟩⟩
    · exact ⟨by omega, hle, .inl hform⟩
  · rintro ⟨-, hle, hform | ⟨-, hform⟩⟩
    · rw [← append_nil s, strictScan_number hmax hform hle, strictScan, Option.elim_some,
        Nat.zero_add, Nat.mod_eq_of_lt (by omega)]
      dsimp only
      rw [if_neg (by simpa using hle), Nat.mod_eq_of_lt (by omega)]
    · rw [strictScan_terms hmax hform (by omega), Nat.zero_add]

theorem ttl_texts_exact_hour :
    parseTtlValue (ascii "1h" ++ ascii "30") = 3630 ∧ (parseTtlStrict (ascii "90") 100 = some 90 ↔
      (ascii "90").length ≤ 63 ∧ 90 ≤ 100 ∧
        (IsNumber (ascii "90") 90 ∨ ascii "90" ≠ [] ∧ UnitTerms (ascii "90") 90)) :=
  ⟨ttl_texts_exact.1 (ascii "1h") (ascii "30") 3600 30
      (@UnitTerms.cons (ascii "1") [] _ 104 1 3600 0 _ ⟨by decide, by decide +kernel, by decide⟩
        (by decide) .nil (by decide) (by decide))
      (.inr ⟨by decide, by decide +kernel, by decide⟩) (by decide),
    ttl_texts_exact.2 (ascii "90") 100 90 (by decide)⟩

end KariDns
