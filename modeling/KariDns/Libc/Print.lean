import Mathlib.Data.Nat.Digits.Defs
import KariDns.Rdata.Fields

/-! What is printed reads back.

Numbers printed with `%u` are read back by the integer readers, and addresses printed by
`inet_ntop` by `inet_pton`.
-/

namespace KariDns

open Octets DomainName List Option

/-! ### Numbers in digits -/

/-- A property of printed numbers, digit by digit. -/
lemma digits_induct {b : Nat} (hb : 1 < b) {P : Nat → Text → Prop}
    (digit : ∀ d < b, P d [(Nat.digitChar d).toUInt8])
    (more : ∀ n t d, d < b → 0 < n → P n t → P (n * b + d) (t ++ [(Nat.digitChar d).toUInt8]))
    (n : Nat) :
    P n ((Nat.toDigits b n).map Char.toUInt8) := by
  induction n using Nat.strong_induction_on with
  | _ n ih =>
    rw [Nat.toDigits_eq_if hb]
    split
    · exact digit n ‹_›
    · have hpos : 0 < n / b := Nat.div_pos (by omega) (by omega)
      have hmore :=
        more (n / b) _ (n % b) (Nat.mod_lt _ (by omega)) hpos (ih _ (Nat.div_lt_self (by omega) hb))
      rwa [Nat.div_add_mod', ← map_singleton, ← map_append] at hmore

/-- A number with more digits behind it. -/
def appendDigits (n : Nat) (ds : Text) : Nat := ds.foldl (fun n c => n * 10 + (c.toNat - 48)) n

/-- The text of a number. -/
structure IsNumber (ds : Text) (n : Nat) : Prop where
  ne_nil : ds ≠ []
  digit : ∀ c ∈ ds, isDigit c = true
  value : n = appendDigits 0 ds

variable {ds rest : Text} {n : Nat} (ws : List Nat)

lemma scanDigits_number (hrest : ∀ c ∈ rest.head?, isDigit c = false) : ∀ {ds : Text} {n : Nat},
    (∀ c ∈ ds, isDigit c = true) → scanDigits n (ds ++ rest) = (appendDigits n ds, rest)
  | [], n, _ => by
    cases rest with
    | nil => rfl
    | cons c t => simp [scanDigits, hrest c rfl, appendDigits]
  | c :: ds, n, h => by
    rw [cons_append, scanDigits, if_pos (h c mem_cons_self)]
    exact scanDigits_number hrest fun d hd => h d (mem_cons_of_mem _ hd)

lemma not_space_of_digit : ∀ c : UInt8, isDigit c = true → isSpace c = false ∧ c ≠ 45 ∧ c ≠ 43 := by
  decide +kernel

/-- The integer readers take a number up to what is no digit. -/
lemma IsNumber.scan (h : IsNumber ds n) (hrest : ∀ c ∈ rest.head?, isDigit c = false) :
    scanNumber (ds ++ rest) = some (false, n, rest) := by
  have hscan := scanDigits_number hrest h.digit (n := 0)
  rw [← h.value] at hscan
  obtain ⟨c, t, rfl⟩ := exists_cons_of_ne_nil h.ne_nil
  have hc := h.digit c mem_cons_self
  obtain ⟨hs, hminus, hplus⟩ := not_space_of_digit c hc
  rw [cons_append] at hscan ⊢
  simp [scanNumber, hs, hminus, hplus, hc, hscan]

lemma IsNumber.strtoull (h : IsNumber ds n) (hrest : ∀ c ∈ rest.head?, isDigit c = false) :
    strtoull (ds ++ rest) = (min n (2 ^ 64 - 1), rest) := by
  simp only [KariDns.strtoull, h.scan hrest, Bool.false_eq_true, if_false]
  split <;> simp <;> omega

/-! ### Decimal numbers -/

lemma digitChar_decimal : ∀ d < 10, isDigit (Nat.digitChar d).toUInt8 = true ∧
    (Nat.digitChar d).toUInt8.toNat - 48 = d ∧ (d ≠ 0 → (Nat.digitChar d).toUInt8 ≠ 48) := by decide

/-- A number is printed in digits, the first of which is not 0. -/
lemma decimal_number :
    ∀ n : Nat, IsNumber (decimal n) n ∧ (n ≠ 0 → (decimal n).head? ≠ some 48) := by
  refine digits_induct (P := fun n t => IsNumber t n ∧ (n ≠ 0 → t.head? ≠ some 48)) (by decide)
    (fun d hd => ?_) fun n t d hd hn h => ?_
  · obtain ⟨hdigit, hval, hzero⟩ := digitChar_decimal d hd
    exact ⟨⟨by simp, by simpa using hdigit, by simp [appendDigits, hval]⟩, by simpa using hzero⟩
  · obtain ⟨hdigit, hval, -⟩ := digitChar_decimal d hd
    obtain ⟨⟨hne, hds, hv⟩, hhead⟩ := h
    refine ⟨⟨by simp, fun c hc => ?_, ?_⟩, fun _ => ?_⟩
    · rcases mem_append.mp hc with hc | hc
      · exact hds c hc
      · rwa [mem_singleton.mp hc]
    · rw [appendDigits, foldl_append, foldl_cons, foldl_nil, hval, ← appendDigits, ← hv]
    · rw [head?_append_of_ne_nil _ hne]
      exact hhead hn.ne'

variable (n)

lemma decimal_digits : ∀ c ∈ decimal n, isDigit c = true := (decimal_number n).1.digit

lemma decimal_ne_nil : decimal n ≠ [] := (decimal_number n).1.ne_nil

lemma scanDigits_decimal : scanDigits 0 (decimal n) = (n, []) := by
  rw [← append_nil (decimal n), scanDigits_number (by simp) (decimal_digits n),
    ← (decimal_number n).1.value]

lemma parseBounded_decimal {bound n : Nat} (hn : n ≤ bound) (hb : bound < 2 ^ 63) :
    parseBounded bound (decimal n) = some n := by
  have hmin : min (2 ^ 63 - 1) (n : Int) = n := by omega
  have hscan : scanNumber (decimal n ++ []) = _ := (decimal_number n).1.scan (by simp)
  rw [append_nil] at hscan
  simp only [parseBounded, decimal_ne_nil, if_false, strtol, hscan, hmin]
  simp
  omega

lemma parseU16_decimal {n : Nat} (h : n < 65536) : parseU16 (decimal n) = some n :=
  parseBounded_decimal (by omega) (by omega)

lemma strtoull_decimal {n : Nat} (h : n < 2 ^ 64) : strtoull (decimal n) = (n, []) := by
  rw [← append_nil (decimal n), (decimal_number n).1.strtoull (by simp), Nat.min_eq_left (by omega)]

lemma strtoul32_decimal {n : Nat} (h : n < 2 ^ 32) : strtoul32 (decimal n) = n := by
  rw [strtoul32, strtoull_decimal (by omega)]
  exact Nat.mod_eq_of_lt h

/-- A TTL is read back up to the greatest signed value. -/
lemma parseTtlValue_decimal {n : Nat} (h : n < 2 ^ 32) :
    parseTtlValue (decimal n) = min n 2147483647 := by
  have hall : (decimal n).all isDigit = true := List.all_eq_true.mpr (decimal_digits n)
  rw [parseTtlValue, if_neg (decimal_ne_nil n), if_pos hall, strtoull_decimal (by omega)]

/-! ### Dotted quads -/

lemma not_mem_decimal {c : UInt8} (h : isDigit c = false) (n : Nat) : c ∉ decimal n := by
  intro hc
  rw [decimal_digits n c hc] at h
  cases h

lemma dottedOctet_decimal (b : UInt8) : dottedOctet (decimal b.toNat) = some b := by
  have hzero : ¬ ((decimal b.toNat).length > 1 ∧ (decimal b.toNat).head? = some 48) := by
    rintro ⟨hlen, hhead⟩
    refine (decimal_number b.toNat).2 (fun h0 => ?_) hhead
    rw [h0] at hlen
    exact absurd hlen (by decide)
  have hall : (decimal b.toNat).all isDigit = true := List.all_eq_true.mpr (decimal_digits _)
  have hlt := b.toNat_lt
  rw [dottedOctet, if_neg, scanDigits_decimal]
  · rw [if_neg (by simp only; omega), UInt8.ofNat_toNat]
  · rw [not_or, not_or]
    exact ⟨decimal_ne_nil _, not_not.mpr hall, hzero⟩

lemma inetPton4_ntop4 (a b c d : UInt8) :
    inetPton4 (inetNtop4 [a, b, c, d]) = some [a, b, c, d] := by
  have hdot : ∀ x : UInt8, (46 : UInt8) ∉ decimal x.toNat := fun x => not_mem_decimal (by decide) _
  have hsplit : splitOn 46 (inetNtop4 [a, b, c, d]) =
      [decimal a.toNat, decimal b.toNat, decimal c.toNat, decimal d.toNat] := by
    simp only [inetNtop4, append_assoc, cons_append]
    rw [splitOn_append _ (hdot a), splitOn_append _ (hdot b), splitOn_append _ (hdot c),
      splitOn_none (hdot d)]
  simp [inetPton4, hsplit, dottedOctet_decimal]

/-! ### Addresses in hexadecimal -/

lemma digitChar_hex : ∀ d < 16, hexCharToVal (Nat.digitChar d).toUInt8 = some d ∧
    (Nat.digitChar d).toUInt8 ≠ 58 ∧ (Nat.digitChar d).toUInt8 ≠ 46 := by decide

/-- The fold of `hexGroup`. -/
def hexValue (t : Text) : Option Nat :=
  t.foldl (fun acc c => do return (← acc) * 16 + (← hexCharToVal c)) (some 0)

/-- A number printed in hexadecimal is read back, and holds no separator. -/
lemma hexText_number : ∀ n : Nat, hexText n ≠ [] ∧ hexValue (hexText n) = some n ∧ 58 ∉ hexText n ∧
    46 ∉ hexText n := by
  refine digits_induct (P := fun n t => t ≠ [] ∧ hexValue t = some n ∧ 58 ∉ t ∧ 46 ∉ t) (by decide)
    (fun d hd => ?_) fun n t d hd hn h => ?_
  · obtain ⟨hval, hcolon, hdot⟩ := digitChar_hex d hd
    simp [hexValue, hval, hcolon.symm, hdot.symm]
  · obtain ⟨hval, hcolon, hdot⟩ := digitChar_hex d hd
    obtain ⟨-, hv, hc, hq⟩ := h
    rw [hexValue] at hv ⊢
    rw [foldl_append, hv]
    simp [hval, hc, hq, hcolon.symm, hdot.symm]

lemma hexText_ne_nil : hexText n ≠ [] := (hexText_number n).1

lemma hexText_length {n k : Nat} (hk : 0 < k) (h : n < 16 ^ k) : (hexText n).length ≤ k := by
  rw [hexText, length_map]
  exact Nat.toDigits_length 16 n k hk h

lemma colon_not_mem_hexText : 58 ∉ hexText n := (hexText_number n).2.2.1

lemma hexGroup_hexText {n : Nat} (h : n < 65536) : hexGroup (hexText n) = some n := by
  have hlen := hexText_length (show 0 < 4 by omega) (show n < 16 ^ 4 by omega)
  rw [hexGroup, if_neg]
  · exact (hexText_number n).2.1
  · rw [not_or]
    exact ⟨hexText_ne_nil n, by omega⟩

/-- A text with a character that is no hexadecimal digit is no group. -/
lemma hexGroup_none {c : UInt8} {t : Text} (hc : hexCharToVal c = none) (h : c ∈ t) :
    hexGroup t = none := by
  have hnone : ∀ t : Text,
      t.foldl (fun acc c => do return (← acc) * 16 + (← hexCharToVal c))
        (none : Option Nat) = none := by
    intro t
    induction t with
    | nil => rfl
    | cons d t ih => exact ih
  obtain ⟨front, back, rfl⟩ := append_of_mem h
  rw [hexGroup, foldl_append, foldl_cons, hc]
  split
  · rfl
  · cases foldl (fun acc c => do return (← acc) * 16 + (← hexCharToVal c)) (some 0) front
      <;> exact hnone back

lemma joinHex_cons_cons (w v : Nat) (ws : List Nat) :
    joinHex (w :: v :: ws) = hexText w ++ 58 :: joinHex (v :: ws) := rfl

lemma splitOn_joinHex : ∀ {ws : List Nat}, ws ≠ [] → splitOn 58 (joinHex ws) = ws.map hexText
  | [w], _ => splitOn_none (colon_not_mem_hexText w)
  | w :: v :: ws, _ => by
    rw [joinHex_cons_cons, splitOn_append _ (colon_not_mem_hexText w), splitOn_joinHex (by simp)]
    rfl

lemma joinHex_eq_nil {ws : List Nat} : joinHex ws = [] ↔ ws = [] := by
  cases ws with
  | nil => simp [joinHex]
  | cons w ws =>
    cases ws with
    | nil => simpa [joinHex] using hexText_ne_nil w
    | cons v ws => simp [joinHex_cons_cons]

lemma hexGroups_hexText (allowQuad : Bool) : ∀ {ws : List Nat}, (∀ w ∈ ws, w < 65536) →
    hexGroups allowQuad (ws.map hexText) = some (ws.flatMap be16)
  | [], _ => rfl
  | [w], h => by
    simp [hexGroups, hexGroup_hexText (h w mem_cons_self)]
  | w :: v :: ws, h => by
    have ih : hexGroups allowQuad ((v :: ws).map hexText) = some ((v :: ws).flatMap be16) :=
      hexGroups_hexText allowQuad fun x hx => h x (mem_cons_of_mem _ hx)
    rw [map_cons, hexGroups, hexGroup_hexText (h w mem_cons_self), ih]
    · rfl
    · simp

lemma groupsOf_joinHex (allowQuad : Bool) {ws : List Nat} (h : ∀ w ∈ ws, w < 65536) :
    groupsOf allowQuad (joinHex ws) = some (ws.flatMap be16) := by
  rw [groupsOf]
  split
  · rename_i hnil
    rw [joinHex_eq_nil.mp hnil]
    rfl
  rename_i hnil
  have hws : ws ≠ [] := fun h0 => hnil (joinHex_eq_nil.mpr h0)
  rw [splitOn_joinHex hws, hexGroups_hexText allowQuad h]

/-- A text without a colon in front does not take part in the search for `::`. -/
lemma splitDoubleColon_append {p : Text} (t : Text) (hp : 58 ∉ p) (hne : p ≠ []) :
    splitDoubleColon (p ++ t) = (splitDoubleColon t).map fun (a, b) => (p ++ a, b) := by
  induction p with
  | nil => exact absurd rfl hne
  | cons c p ih =>
    rw [mem_cons, not_or] at hp
    have hc : splitDoubleColon (c :: (p ++ t)) = (splitDoubleColon (p ++ t)).map fun (a, b) =>
        (c :: a, b) := by
      rw [splitDoubleColon]
      rintro t' rfl
      exact absurd rfl hp.1
    rw [cons_append, hc]
    by_cases hnil : p = []
    · rw [hnil]
      rfl
    · rw [ih hp.2 hnil, Option.map_map]
      rfl

lemma splitDoubleColon_single {t : Text} (h : t.head? ≠ some 58) :
    splitDoubleColon (58 :: t) = (splitDoubleColon t).map fun (a, b) => (58 :: a, b) := by
  rw [splitDoubleColon]
  rintro t' _ rfl
  exact h rfl

lemma joinHex_head : (joinHex ws).head? ≠ some 58 := by
  have hhead : ∀ w t, (hexText w ++ t).head? ≠ some 58 := by
    intro w t h
    rw [head?_append_of_ne_nil _ (hexText_ne_nil w)] at h
    exact colon_not_mem_hexText w (mem_of_head? h)
  match ws with
  | [] => simp [joinHex]
  | [w] => simpa [joinHex] using hhead w []
  | w :: v :: ws => exact hhead w _

/-- Words joined with single colons hold no `::`. -/
lemma splitDoubleColon_joinHex (t : Text) : ∀ ws : List Nat,
    splitDoubleColon (joinHex ws ++ t) = (splitDoubleColon t).map fun (a, b) => (joinHex ws ++ a, b)
  | [] => by simp [joinHex]
  | [w] => splitDoubleColon_append _ (colon_not_mem_hexText w) (hexText_ne_nil w)
  | w :: v :: ws => by
    have hhead : (joinHex (v :: ws) ++ t).head? ≠ some 58 := by
      rw [head?_append_of_ne_nil _ (by simp [joinHex_eq_nil])]
      exact joinHex_head _
    rw [joinHex_cons_cons, append_assoc, cons_append,
      splitDoubleColon_append _ (colon_not_mem_hexText w) (hexText_ne_nil w),
      splitDoubleColon_single hhead, splitDoubleColon_joinHex t (v :: ws)]
    simp [Function.comp_def]

/-! ### Words -/

lemma wordsOf_lt : ∀ {a : List UInt8}, ∀ w ∈ wordsOf a, w < 65536
  | [], w, h => by cases h
  | [_], w, h => by cases h
  | x :: y :: a, w, h => by
    have hx := x.toNat_lt
    have hy := y.toNat_lt
    rcases mem_cons.mp h with rfl | h
    · omega
    · exact wordsOf_lt w h

lemma be16_word (x y : UInt8) : be16 (x.toNat * 256 + y.toNat) = [x, y] := by
  have hx := x.toNat_lt
  have hy := y.toNat_lt
  have h1 : (x.toNat * 256 + y.toNat) / 256 = x.toNat := by omega
  have h2 : UInt8.ofNat (x.toNat * 256 + y.toNat) = y := by
    apply UInt8.toNat_inj.mp
    rw [UInt8.toNat_ofNat']
    omega
  rw [be16, h1, h2, UInt8.ofNat_toNat]

/-- The words of an address hold its octets. -/
lemma flatMap_wordsOf : ∀ {n : Nat} {a : List UInt8}, a.length = 2 * n →
    (wordsOf a).flatMap be16 = a
  | 0, [], _ => rfl
  | n + 1, x :: y :: a, h => by
    rw [wordsOf, flatMap_cons, be16_word,
      flatMap_wordsOf (show a.length = 2 * n by simp at h; omega)]
    rfl

lemma wordsOf_length : ∀ {n : Nat} {a : List UInt8}, a.length = 2 * n → (wordsOf a).length = n
  | 0, [], _ => rfl
  | n + 1, x :: y :: a, h => by
    rw [wordsOf, length_cons, wordsOf_length (show a.length = 2 * n by simp at h; omega)]

lemma zeroRun_spec : ∀ ws : List Nat, ws = List.replicate (zeroRun ws) 0 ++ ws.drop (zeroRun ws)
  | [] => rfl
  | 0 :: ws => by
    rw [zeroRun, replicate_succ, cons_append, drop_succ_cons, ← zeroRun_spec ws]
  | (w + 1) :: ws => rfl

/-- The run that is printed as `::` consists of zeros. -/
lemma bestRun_spec : ∀ (ws : List Nat) (i : Nat), 0 < (bestRun i ws).2 → i ≤ (bestRun i ws).1 ∧
      ws.drop ((bestRun i ws).1 - i) =
        List.replicate (bestRun i ws).2 0 ++ ws.drop ((bestRun i ws).1 - i + (bestRun i ws).2)
  | [], i, h => by simp [bestRun] at h
  | w :: ws, i, h => by
    rw [bestRun] at h ⊢
    split at h
    · rename_i hrun
      rw [if_pos hrun]
      simpa using zeroRun_spec (w :: ws)
    rename_i hrun
    rw [if_neg hrun]
    obtain ⟨hle, hdrop⟩ := bestRun_spec ws (i + 1) h
    refine ⟨by omega, ?_⟩
    rw [show (bestRun (i + 1) ws).1 - i = (bestRun (i + 1) ws).1 - (i + 1) + 1 by omega,
      drop_succ_cons, hdrop, Nat.add_right_comm, drop_succ_cons]

lemma flatMap_zeros : (List.replicate n 0).flatMap be16 = List.replicate (2 * n) (0 : UInt8) := by
  induction n with
  | zero => rfl
  | succ n ih =>
    rw [replicate_succ, flatMap_cons, ih, Nat.mul_succ, Nat.add_comm, replicate_add]
    rfl

lemma length_flatMap_be16 : (ws.flatMap be16).length = 2 * ws.length := by
  induction ws with
  | nil => rfl
  | cons w ws ih =>
    rw [flatMap_cons, length_append, ih, be16_length, length_cons]
    omega

/-- Words on both sides of `::`, the last two of them perhaps printed as a dotted quad. -/
lemma inetPton6_gap {before : List Nat} {behind : Text} {bs : List UInt8}
    (hb : ∀ w ∈ before, w < 65536) (hbehind : groupsOf true behind = some bs)
    (hlen : 2 * before.length + bs.length < 16) :
    inetPton6 (joinHex before ++ 58 :: 58 :: behind) =
      some (before.flatMap be16 ++
        List.replicate (16 - 2 * before.length - bs.length) 0 ++ bs) := by
  have hroom : (before.flatMap be16).length + bs.length < 16 := by rwa [length_flatMap_be16]
  rw [inetPton6, splitDoubleColon_joinHex]
  simp only [splitDoubleColon, map_some, append_nil, groupsOf_joinHex false hb, hbehind,
    bind_eq_bind, bind_some]
  rw [if_pos hroom, length_flatMap_be16]

lemma groupsOf_quad (a b c d : UInt8) : groupsOf true (inetNtop4 [a, b, c, d]) = some [a, b, c, d] ∧
      groupsOf true (hexText 0xFFFF ++ 58 :: inetNtop4 [a, b, c, d]) =
        some [255, 255, a, b, c, d] := by
  have hmem : (46 : UInt8) ∈ inetNtop4 [a, b, c, d] := by simp [inetNtop4]
  have hne : inetNtop4 [a, b, c, d] ≠ [] := ne_nil_of_mem hmem
  have hcolon : (58 : UInt8) ∉ inetNtop4 [a, b, c, d] := by
    have h : ∀ x : UInt8, (58 : UInt8) ∉ decimal x.toNat := fun x => not_mem_decimal (by decide) _
    simp [inetNtop4, h]
  have hquad : hexGroups true [inetNtop4 [a, b, c, d]] = some [a, b, c, d] := by
    rw [hexGroups, hexGroup_none (show hexCharToVal 46 = none by decide) hmem]
    exact inetPton4_ntop4 a b c d
  constructor
  · rw [groupsOf, if_neg hne, splitOn_none hcolon, hquad]
  rw [groupsOf, if_neg (by simp), splitOn_append _ (colon_not_mem_hexText _), splitOn_none hcolon,
    hexGroups, hexGroup_hexText (by omega), hquad]
  · rfl
  · simp

/-- An address printed with a dotted quad. -/
lemma inetPton6_quad {a : List UInt8} {len : Nat} (h : a.length = 16)
    (hlen : (wordsOf a).length = 8)
    (haddr : ((wordsOf a).take 0).flatMap be16 ++ List.replicate (2 * len) 0 ++
      ((wordsOf a).drop (0 + len)).flatMap be16 = a)
    (hquad : len = 6 ∨ len = 5 ∧ (wordsOf a).getD 5 0 = 0xFFFF) :
    inetPton6 ((if len = 6 then [58, 58] else 58 :: 58 :: hexText 0xFFFF ++ [58]) ++
      inetNtop4 (a.drop 12)) = some a := by
  obtain ⟨p, q, r, s, hlast⟩ : ∃ p q r s, a.drop 12 = [p, q, r, s] := by
    have hl : (a.drop 12).length = 4 := by simp [h]
    match a.drop 12, hl with
    | [p, q, r, s], _ => exact ⟨p, q, r, s, rfl⟩
  obtain ⟨hfour, hsix⟩ := groupsOf_quad p q r s
  rw [take_zero, flatMap_nil, nil_append, Nat.zero_add] at haddr
  rw [hlast]
  rcases hquad with rfl | ⟨rfl, hffff⟩
  · have hgap := @inetPton6_gap [] _ _ (by simp) hfour (by simp)
    have htail := congrArg (List.drop 12) haddr
    rw [hlast] at htail
    rw [show ((wordsOf a).drop 6).flatMap be16 = [p, q, r, s] by simpa using htail] at haddr
    rw [if_pos rfl, ← haddr]
    exact hgap
  have hgap := @inetPton6_gap [] _ _ (by simp) hsix (by simp)
  have hword : (wordsOf a).drop 5 = 0xFFFF :: (wordsOf a).drop 6 := by
    have hget : (wordsOf a)[5] = 0xFFFF := by simpa [hlen] using hffff
    rw [drop_eq_getElem_cons (by omega), hget]
  rw [hword, flatMap_cons] at haddr
  have htail := congrArg (List.drop 12) haddr
  rw [hlast] at htail
  rw [show ((wordsOf a).drop 6).flatMap be16 = [p, q, r, s] by simpa [be16] using htail] at haddr
  rw [if_neg (by omega), ← haddr]
  have htext : (58 :: 58 :: hexText 0xFFFF ++ [58]) ++ inetNtop4 [p, q, r, s] =
      joinHex [] ++ 58 :: 58 :: (hexText 0xFFFF ++ 58 :: inetNtop4 [p, q, r, s]) := by
    simp [joinHex]
  rw [htext, hgap]
  rfl

/-- An address is what its text says. -/
lemma inetPton6_ntop6 {a : List UInt8} (h : a.length = 16) : inetPton6 (inetNtop6 a) = some a := by
  have hlen := wordsOf_length (show a.length = 2 * 8 by omega)
  have hoct := flatMap_wordsOf (show a.length = 2 * 8 by omega)
  have hlt := @wordsOf_lt a
  have hrun := bestRun_spec (wordsOf a) 0
  obtain ⟨⟨base, len⟩, hbest⟩ : ∃ r, bestRun 0 (wordsOf a) = r := ⟨_, rfl⟩
  simp only [inetNtop6, hbest] at hrun ⊢
  by_cases hshort : len < 2
  · rw [if_pos hshort]
    have hnone := splitDoubleColon_joinHex [] (wordsOf a)
    rw [append_nil] at hnone
    simp [inetPton6, hnone, splitDoubleColon, groupsOf_joinHex true hlt, hoct, h]
  rw [if_neg hshort]
  obtain ⟨-, hdrop⟩ := hrun (by omega)
  rw [Nat.sub_zero] at hdrop
  have htotal : base + len ≤ 8 := by
    have hl := congrArg List.length hdrop
    simp only [length_drop, length_append, length_replicate, hlen] at hl
    omega
  -- the octets before the run, the run, and the octets behind it
  have haddr : ((wordsOf a).take base).flatMap be16 ++ List.replicate (2 * len) 0 ++
      ((wordsOf a).drop (base + len)).flatMap be16 = a := by
    rw [← flatMap_zeros, append_assoc, ← flatMap_append, ← flatMap_append, ← hdrop,
      take_append_drop, hoct]
  split
  · rename_i hquad
    obtain ⟨rfl, hquad⟩ := hquad
    exact inetPton6_quad h hlen haddr hquad
  have hbehind := groupsOf_joinHex true fun w hw => hlt w (mem_of_mem_drop (i := base + len) hw)
  have hsize : 2 * ((wordsOf a).take base).length +
      (((wordsOf a).drop (base + len)).flatMap be16).length + 2 * len = 16 := by
    rw [length_flatMap_be16, length_take, length_drop, hlen]
    omega
  rw [append_assoc, cons_append, cons_append, nil_append,
    inetPton6_gap (fun w hw => hlt w (mem_of_mem_take hw)) hbehind (by omega),
    show 16 - 2 * ((wordsOf a).take base).length -
      (((wordsOf a).drop (base + len)).flatMap be16).length = 2 * len by omega, haddr]

end KariDns
