import KariDns.Wire.Expand

/-! Walking through a message by its counts.

`skip_wire_name` passes over a name, `walkQuestions` and `walkRecords` pass over the sections. A
message is well formed if a walk with its own counts ends where the message does. What a walk finds
depends only on the octets it goes through.
-/

namespace KariDns

open Octets DomainName List Option

variable {m m' : Buf} {visited : List Nat} {n : Name} {bufSize e fuel' hi len len' lo p total : Nat}
  {jumped : Option Nat} {out : Text}

/-- Octets as memory. -/
def bufOf (bs : List UInt8) : Buf := fun i => bs.getD i 0

lemma holds_bufOf (bs : List UInt8) : Holds (bufOf bs) 0 bs := by
  refine ext_getElem? fun i => ?_
  rcases Nat.lt_or_ge i bs.length with hi | hi
  · rw [slice_getElem? hi, Nat.zero_add, bufOf, getD_eq_getElem?_getD, getElem?_eq_getElem hi]
    rfl
  · rw [getElem?_eq_none (by simpa using hi), getElem?_eq_none hi]

/-- A part of a list of octets stands where the part before it ends. -/
lemma holds_bufOf_mid (as bs cs : List UInt8) : Holds (bufOf (as ++ bs ++ cs)) as.length bs := by
  have hall := (holds_append.mp (holds_append.mp (holds_bufOf (as ++ bs ++ cs))).1).2
  rwa [Nat.zero_add] at hall

/-! ### Passing over -/

/-- The loop of `skip_wire_name`, which follows pointers but keeps no text. -/
def skipWireLoop (m : Buf) (len : Nat) : Nat → Nat → Option Nat → List Nat → Option Nat
  | 0, _, _, _ => none
  | fuel + 1, p, jumped, visited =>
    if p ≥ len then none
    else if isPointer (m p) then
      if p + 1 ≥ len then none
      else if pointerTarget m p ≥ len then none
      else if pointerTarget m p ∈ visited then none
      else skipWireLoop m len fuel (pointerTarget m p) (jumped.or (some (p + 2)))
        (pointerTarget m p :: visited)
    else if m p &&& 0xC0 ≠ 0 then none
    else if m p = 0 then some (jumped.getD (p + 1))
    else skipWireLoop m len fuel (p + 1 + (m p).toNat) jumped visited

/-- `skip_wire_name`. Between two jumps the loop only moves forward, and every target is taken
once. -/
def skipWireName (m : Buf) (len p : Nat) : Option Nat :=
  skipWireLoop m len ((0x4000 + 1) * (len + 1)) p none []

/-- The questions are passed over. -/
def skipWireQuestions (m : Buf) (len : Nat) : Nat → Nat → Option Nat
  | 0, offset => some offset
  | k + 1, offset =>
    match skipWireName m len offset with
    | none => none
    | some e => if e + 4 > len then none else skipWireQuestions m len k (e + 4)

/-! ### Sections -/

/-- A question as it reads. -/
structure Question where
  name : Text
  qtype : Nat
  qclass : Nat
  deriving DecidableEq, Repr

/-- The questions from `p` on, and the offset behind them. -/
def walkQuestions (m : Buf) (len : Nat) : Nat → Nat → Option (List Question × Nat)
  | 0, p => some ([], p)
  | k + 1, p =>
    match expandWireNameToBuffer m len p dnsNameTextSize with
    | none => none
    | some (name, e) =>
      if e + 4 > len then none
      else (walkQuestions m len k (e + 4)).map fun (qs, p') =>
        (⟨name, getU16 m e, getU16 m (e + 2)⟩ :: qs, p')

/-- The offset behind `k` records from `p` on. -/
def walkRecords (m : Buf) (len : Nat) : Nat → Nat → Option Nat
  | 0, p => some p
  | k + 1, p =>
    match expandWireNameToBuffer m len p dnsNameTextSize with
    | none => none
    | some (_, e) =>
      if e + 10 + getU16 m (e + 8) > len then none
      else walkRecords m len k (e + 10 + getU16 m (e + 8))

/-- The questions of a message that a walk with its own counts goes through to its end. -/
def wholeMessage (m : Buf) (len : Nat) : Option (List Question) :=
  if len < 12 then none
  else
    match walkQuestions m len (getU16 m 4) 12 with
    | none => none
    | some (qs, p) =>
      if walkRecords m len (getU16 m 6 + getU16 m 8 + getU16 m 10) p = some len then
        some qs else none

/-! ### Passing over and decoding -/

/-- `skip_wire_name` ends where the decoder does. -/
lemma skipWireLoop_of_expand (fuel : Nat) {t : Text} (hf : fuel ≤ fuel')
    (h : expandLoop m len bufSize fuel p jumped visited total out = some (t, e)) :
    skipWireLoop m len fuel' p jumped visited = some e := by
  induction fuel generalizing fuel' p jumped visited total out with
  | zero => cases h
  | succ fuel ih =>
    rcases fuel' with _ | fuel'
    · omega
    rw [expandLoop] at h
    rw [skipWireLoop]
    split_ifs at h with h1 h2 h3 h4 h5 h6 h7 h8 h9 h10
    · rw [if_neg h1, if_pos h2, if_neg h3, if_neg h4, if_neg h5]
      exact ih (by omega) h
    · rw [if_neg h1, if_neg h2, if_neg h6, if_pos h8]
      exact congrArg some (Prod.mk.inj (some.inj h)).2
    · rw [if_neg h1, if_neg h2, if_neg h6, if_pos h8]
      exact congrArg some (Prod.mk.inj (some.inj h)).2
    rw [if_neg h1, if_neg h2, if_neg h6, if_neg h8]
    split at h
    · cases h
    · exact ih (by omega) h

lemma skipWireName_of_expand {t : Text} (h : expandWireNameToBuffer m len p bufSize = some (t, e)) :
    skipWireName m len p = some e := by
  unfold expandWireNameToBuffer at h
  split at h
  · cases h
  refine skipWireLoop_of_expand _ ?_ h
  calc expandFuel ≤ (0x4000 + 1) * (1 + 1) := by decide
    _ ≤ (0x4000 + 1) * (len + 1) := Nat.mul_le_mul_left _ (by omega)

/-- What `skip_wire_name` passes over is spelled there. It may be longer than a name can be. -/
lemma skipWireLoop_sound (fuel : Nat) (h : skipWireLoop m len fuel p jumped visited = some e) :
    ∃ n e', Traces m len visited p n e' ∧ e = jumped.getD e' := by
  induction fuel generalizing p jumped visited with
  | zero => cases h
  | succ fuel ih =>
    rw [skipWireLoop] at h
    split_ifs at h with h1 h2 h3 h4 h5 h6 h7
    · obtain ⟨n, e', hs, he⟩ := ih h
      refine ⟨n, p + 2, .pointer (by omega) h2 h5 hs, ?_⟩
      cases jumped <;> exact he
    · exact ⟨[], p + 1, .root (by omega) h7, (some.inj h).symm⟩
    obtain ⟨n, e', hs, he⟩ := ih h
    obtain ⟨hlabel, hwire⟩ := label_at (Bool.eq_false_iff.mpr h2) (not_not.mp h6) h7
    have hin := spells_lt_len hs.spells
    refine ⟨slice m (p + 1) (m p).toNat :: n, e', .label hlabel hwire ?_ ?_, he⟩
    · rw [slice_length]
      omega
    · rw [slice_length]
      exact hs

lemma skipWireName_sound (h : skipWireName m len p = some e) : ∃ n, Spells m len p n e := by
  obtain ⟨n, e', hs, rfl⟩ := skipWireLoop_sound _ h
  exact ⟨n, hs.spells⟩

/-- A name that is short enough is decoded wherever `skip_wire_name` passes over it. -/
lemma expandWireNameToBuffer_of_skip (h : skipWireName m len p = some e) (hn : Spells m len p n e)
    (hshort : (wire n).length ≤ 255) :
      ∃ t, expandWireNameToBuffer m len p dnsNameTextSize = some (t, e) := by
  obtain ⟨n', e', htraces, rfl⟩ := skipWireLoop_sound _ h
  obtain ⟨rfl, -⟩ := spells_unique hn htraces.spells
  exact ⟨_, expandWireNameToBuffer_traces htraces hshort (Nat.le_refl _)⟩

/-- A walk that went through passed over one question and then the others. -/
lemma walkQuestions_step {k : Nat} {qs : List Question}
    (h : walkQuestions m len (k + 1) p = some (qs, e)) :
    ∃ t e' qs', expandWireNameToBuffer m len p dnsNameTextSize = some (t, e') ∧ e' + 4 ≤ len ∧
      walkQuestions m len k (e' + 4) = some (qs', e) ∧
        qs = ⟨t, getU16 m e', getU16 m (e' + 2)⟩ :: qs' := by
  rw [walkQuestions] at h
  cases hx : expandWireNameToBuffer m len p dnsNameTextSize with
  | none =>
    rw [hx] at h
    cases h
  | some r =>
    obtain ⟨t, e'⟩ := r
    rw [hx] at h
    simp only at h
    split at h
    · cases h
    obtain ⟨⟨qs', p'⟩, hrest, heq⟩ := map_eq_some_iff.mp h
    cases heq
    exact ⟨t, e', qs', rfl, by omega, hrest, rfl⟩

lemma skipWireQuestions_of_walk (k : Nat) {p' : Nat} {qs : List Question}
    (h : walkQuestions m len k p = some (qs, p')) : skipWireQuestions m len k p = some p' := by
  induction k generalizing p qs with
  | zero =>
    cases h
    rfl
  | succ k ih =>
    obtain ⟨t, e, qs', hx, hroom, hrest, -⟩ := walkQuestions_step h
    simp only [skipWireQuestions, skipWireName_of_expand hx]
    rw [if_neg (by omega)]
    exact ih hrest

/-! ### More octets behind the message -/

lemma getU16_agree (hag : AgreeOn lo hi m m') (hlo : lo ≤ p) (hhi : p + 2 ≤ hi) :
    getU16 m' p = getU16 m p := by
  unfold getU16
  rw [hag p hlo (by omega), hag (p + 1) (by omega) (by omega)]

lemma skipWireLoop_extend (hag : AgreeOn 0 len m m') (hlen : len ≤ len') (fuel : Nat)
    (hf : fuel ≤ fuel') (h : skipWireLoop m len fuel p jumped visited = some e) :
      skipWireLoop m' len' fuel' p jumped visited = some e := by
  induction fuel generalizing fuel' p jumped visited with
  | zero => cases h
  | succ fuel ih =>
    rcases fuel' with _ | fuel'
    · omega
    rw [skipWireLoop] at h ⊢
    split_ifs at h with h1 h2 h3 h4 h5 h6 h7
    · have hp := hag p (by omega) (by omega)
      have hp' := hag (p + 1) (by omega) (by omega)
      have htgt : pointerTarget m' p = pointerTarget m p := by
        unfold pointerTarget
        rw [hp, hp']
      rw [htgt, ← hp, if_neg (by omega), if_pos h2, if_neg (by omega), if_neg (by omega), if_neg h5]
      exact ih (by omega) h
    · rw [← hag p (by omega) (by omega), if_neg (by omega), if_neg h2, if_neg h6, if_pos h7]
      exact h
    · rw [← hag p (by omega) (by omega), if_neg (by omega), if_neg h2, if_neg h6, if_neg h7]
      exact ih (by omega) h

lemma skipWireName_extend (hag : AgreeOn 0 len m m') (hlen : len ≤ len')
    (h : skipWireName m len p = some e) :
    skipWireName m' len' p = some e :=
  skipWireLoop_extend hag hlen _ (Nat.mul_le_mul_left _ (by omega)) h

lemma skipWireQuestions_extend (hag : AgreeOn 0 len m m') (hlen : len ≤ len') (k : Nat) {q : Nat}
    (h : skipWireQuestions m len k p = some q) : skipWireQuestions m' len' k p = some q := by
  induction k generalizing p with
  | zero => exact h
  | succ k ih =>
    rw [skipWireQuestions] at h ⊢
    cases hs : skipWireName m len p with
    | none =>
      rw [hs] at h
      cases h
    | some e =>
      rw [hs] at h
      dsimp only at h
      split at h
      · cases h
      rw [skipWireName_extend hag hlen hs]
      dsimp only
      rw [if_neg (by omega)]
      exact ih h

/-- A zero octet is a name. -/
lemma skipWireName_root (hp : p < len) (h : m p = 0) : skipWireName m len p = some (p + 1) := by
  have hfuel : (0x4000 + 1) * (len + 1) ≠ 0 := by omega
  obtain ⟨fuel, hf⟩ := Nat.exists_eq_succ_of_ne_zero hfuel
  rw [skipWireName, hf, skipWireLoop, if_neg (by omega), h, if_neg (by decide), if_neg (by decide),
    if_pos rfl]
  rfl

/-! ### A walk and the octets it goes through -/

/-- The name at `p`, with the pointers it goes through, lies between `lo` and `hi`. -/
def nameInside (m : Buf) (lo hi : Nat) : Nat → Nat → Bool
  | 0, _ => false
  | fuel + 1, p =>
    if p < lo ∨ p ≥ hi then false
    else if isPointer (m p) then p + 1 < hi && nameInside m lo hi fuel (pointerTarget m p)
    else if m p = 0 then true
    else p + 1 + (m p).toNat ≤ hi && nameInside m lo hi fuel (p + 1 + (m p).toNat)

/-- A name reads the same wherever the octets it lies in stand. -/
lemma expandLoop_inside (hag : AgreeOn lo hi m m') (hlen' : hi ≤ len') (fuel : Nat) {r : Text × Nat}
    (hin : nameInside m lo hi fuel' p = true)
    (h : expandLoop m len bufSize fuel p jumped visited total out = some r) :
    expandLoop m' len' bufSize fuel p jumped visited total out = some r := by
  induction fuel generalizing fuel' p jumped visited total out with
  | zero => cases h
  | succ fuel ih =>
    cases fuel' with
    | zero => cases hin
    | succ fuel' =>
      rw [nameInside] at hin
      split at hin
      · cases hin
      rename_i hrange
      have hp : m p = m' p := hag p (by omega) (by omega)
      rw [expandLoop] at h ⊢
      rw [← hp, if_neg (by omega)]
      split_ifs at h with h1 h2 h3 h4 h5 h6 h7 h8 h9 h10
      · rw [if_pos h2, Bool.and_eq_true, decide_eq_true_eq] at hin
        have hp1 : m (p + 1) = m' (p + 1) := hag (p + 1) (by omega) hin.1
        have htgt : pointerTarget m' p = pointerTarget m p := by
          unfold pointerTarget
          rw [hp, hp1]
        have hrange' : pointerTarget m p < hi := by
          cases fuel' with
          | zero => exact absurd hin.2 (by simp [nameInside])
          | succ fuel' =>
            have hnext := hin.2
            rw [nameInside] at hnext
            split at hnext
            · cases hnext
            · omega
        rw [htgt, if_pos h2, if_neg (by omega), if_neg (by omega), if_neg h5]
        exact ih hin.2 h
      · rw [if_neg h2, if_neg h6, if_neg h7, if_pos h8]
        simpa [h9] using h
      · rw [if_neg h2, if_neg h6, if_neg h7, if_pos h8]
        simpa [h9] using h
      rw [if_neg h2, if_neg h8, Bool.and_eq_true, decide_eq_true_eq] at hin
      have hslice : slice m (p + 1) (m p).toNat = slice m' (p + 1) (m p).toNat :=
        slice_congr fun i hlo hhi => hag i (by omega) (by omega)
      rw [if_neg h2, if_neg h6, if_neg h7, if_neg h8, if_neg (by omega), ← hslice]
      split at h
      · cases h
      · exact ih hin.2 h

lemma expandWireNameToBuffer_inside {fuel : Nat} {r : Text × Nat} (hag : AgreeOn lo hi m m')
    (hlen' : hi ≤ len') (hin : nameInside m lo hi fuel p = true)
    (h : expandWireNameToBuffer m len p bufSize = some r) :
    expandWireNameToBuffer m' len' p bufSize = some r := by
  have hp : p < hi := by
    cases fuel with
    | zero => cases hin
    | succ fuel =>
      rw [nameInside] at hin
      split at hin
      · cases hin
      · omega
  unfold expandWireNameToBuffer at h ⊢
  split at h
  · cases h
  · rw [if_neg (by omega)]
    exact expandLoop_inside hag hlen' _ hin h

end KariDns
