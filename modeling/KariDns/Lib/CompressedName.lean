import KariDns.Lib.DomainName

/-! Compressed names in a message (RFC 1035 4.1.4).

`Reads m S lim p n e` says that the name `n` is spelled from index `p` of the message `m`,
that the octet behind it is `e`, that only octets of `S` take part, and that every pointer on
the way points strictly backwards: below `lim` and below its own place, with `lim` replaced
by the target at each jump. Pointer chains therefore end.
-/

namespace DomainName

open Octets

variable {m : Buf} {n : Name} {e len lim p : Nat} {S : Nat → Prop}

/-- The two top bits mark a compression pointer. -/
def isPointer (b : UInt8) : Bool := b &&& 0xC0 == 0xC0

/-- The 14-bit offset of the pointer at `p`. -/
def pointerTarget (m : Buf) (p : Nat) : Nat := (m p &&& 0x3F).toNat * 256 + (m (p + 1)).toNat

/-- The two octets of a pointer to `t`. -/
def pointerWire (t : Nat) : List UInt8 := be16 (0xC000 + t)

inductive Reads (m : Buf) (S : Nat → Prop) : Nat → Nat → Name → Nat → Prop
  | root {lim p : Nat} : S p → m p = 0 → Reads m S lim p [] (p + 1)
  | label {lim p e : Nat} {l : Label} {n : Name} : LabelOk l → Holds m p (labelWire l) →
      (∀ i, p ≤ i → i < p + 1 + l.length → S i) → Reads m S lim (p + 1 + l.length) n e →
      Reads m S lim p (l :: n) e
  | pointer {lim p e : Nat} {n : Name} : S p → S (p + 1) → isPointer (m p) = true →
      pointerTarget m p < lim → pointerTarget m p < p →
      Reads m S (pointerTarget m p) (pointerTarget m p) n e → Reads m S lim p n (p + 2)

/-- A name does not see changes of octets that take no part. -/
lemma Reads.congr {m m' : Buf} {S : Nat → Prop} {lim p e : Nat} {n : Name}
    (hag : ∀ i, S i → m i = m' i) (h : Reads m S lim p n e) : Reads m' S lim p n e := by
  induction h with
  | root hp h0 => exact .root hp (hag _ hp ▸ h0)
  | label hl hw hS _ ih =>
    refine .label hl (hw.congr fun i hlo hhi => hag i (hS i hlo ?_)) hS ih
    rw [labelWire_length] at hhi
    omega
  | pointer hp hp' hptr hlim hback _ ih =>
    have htgt :=
      congrArg₂ (fun a b : UInt8 => (a &&& 0x3F).toNat * 256 + b.toNat) (hag _ hp) (hag _ hp')
    change pointerTarget m _ = pointerTarget m' _ at htgt
    rw [hag _ hp] at hptr
    rw [htgt] at hlim hback ih
    exact .pointer hp hp' hptr hlim hback ih

lemma Reads.mono {S' : Nat → Prop} (hS : ∀ i, S i → S' i) (h : Reads m S lim p n e) :
    Reads m S' lim p n e := by
  induction h with
  | root hp h0 => exact .root (hS _ hp) h0
  | label hl hw hb _ ih => exact .label hl hw (fun i hlo hhi => hS i (hb i hlo hhi)) ih
  | pointer hp hp' hptr hlim hback _ ih => exact .pointer (hS _ hp) (hS _ hp') hptr hlim hback ih

/-- An uncompressed name reads as itself. -/
lemma reads_wire (lim : Nat) : ∀ {n : Name} {p : Nat},
    (∀ l ∈ n, LabelOk l) → Holds m p (wire n) → (∀ i, p ≤ i → i < p + (wire n).length → S i) →
    Reads m S lim p n (p + (wire n).length)
  | [], p, _, hw, hb => .root (hb p (Nat.le_refl _) (by simp)) (holds_cons.mp hw).1
  | l :: n, p, hn, hw, hb => by
    rw [wire_cons, holds_append, labelWire_length] at hw
    rw [wire_length_cons] at hb ⊢
    have hrest : Holds m (p + 1 + l.length) (wire n) := by
      rw [Nat.add_assoc, Nat.add_comm 1]
      exact hw.2
    have htail : ∀ k ∈ n, LabelOk k := fun k hk => hn k (List.mem_cons_of_mem _ hk)
    have ih := reads_wire lim htail hrest fun i hlo hhi => hb i (by omega) (by omega)
    rw [show p + (l.length + 1 + (wire n).length) = p + 1 + l.length + (wire n).length by omega]
    exact .label (hn l List.mem_cons_self) hw.1 (fun i hlo hhi => hb i hlo (by omega)) ih

/-! ### Names with any pointers -/

/-- The name `n` is spelled from `p` on within the first `len` octets, the octet behind it being
`e`; pointers may lead anywhere as long as they come to an end. -/
inductive Spells (m : Buf) (len : Nat) : Nat → Name → Nat → Prop
  | root {p : Nat} : p < len → m p = 0 → Spells m len p [] (p + 1)
  | label {p e : Nat} {l : Label} {n : Name} : LabelOk l → Holds m p (labelWire l) →
      p + 1 + l.length ≤ len → Spells m len (p + 1 + l.length) n e → Spells m len p (l :: n) e
  | pointer {p e : Nat} {n : Name} : p + 1 < len → isPointer (m p) = true →
      Spells m len (pointerTarget m p) n e → Spells m len p n (p + 2)

lemma Spells.lt (h : Spells m len p n e) : p < e := by
  induction h with
  | root => omega
  | label _ _ _ _ ih => omega
  | pointer => omega

lemma Spells.labelOk (h : Spells m len p n e) : ∀ l ∈ n, LabelOk l := by
  induction h with
  | root _ _ => simp
  | label hl _ _ _ ih => simpa using ⟨hl, ih⟩
  | pointer _ _ _ ih => exact ih

lemma spells_lt_len (h : Spells m len p n e) : p < len := by
  cases h with
  | root hp _ => exact hp
  | label _ _ hp _ => omega
  | pointer hp _ _ => omega

/-- The name `n` is spelled from `p` on, and no pointer leads to a target of `visited` or twice to
the same. -/
inductive Traces (m : Buf) (len : Nat) : List Nat → Nat → Name → Nat → Prop
  | root {visited : List Nat} {p : Nat} : p < len → m p = 0 → Traces m len visited p [] (p + 1)
  | label {visited : List Nat} {p e : Nat} {l : Label} {n : Name} : LabelOk l →
    Holds m p (labelWire l) →
      p + 1 + l.length ≤ len → Traces m len visited (p + 1 + l.length) n e →
        Traces m len visited p (l :: n) e
  | pointer {visited : List Nat} {p e : Nat} {n : Name} : p + 1 < len → isPointer (m p) = true →
      pointerTarget m p ∉ visited →
        Traces m len (pointerTarget m p :: visited) (pointerTarget m p) n e →
      Traces m len visited p n (p + 2)

lemma Traces.spells {visited : List Nat} (h : Traces m len visited p n e) : Spells m len p n e := by
  induction h with
  | root hp h0 => exact .root hp h0
  | label hl hw hle _ ih => exact .label hl hw hle ih
  | pointer hp hptr _ _ ih => exact .pointer hp hptr ih

/-- Targets that fall are all different. -/
lemma Reads.traces (hS : ∀ i, S i → i < len) (h : Reads m S lim p n e) :
    ∀ {visited : List Nat}, (∀ v ∈ visited, lim ≤ v) → Traces m len visited p n e := by
  induction h with
  | root hp h0 => exact fun _ => .root (hS _ hp) h0
  | @label lim p e l n hl hw hb _ ih =>
    have hlast := hS _ (hb (p + l.length) (by omega) (by omega))
    exact fun {_} hvis => .label hl hw (by omega) (ih hvis)
  | pointer _ hp' hptr hlim _ _ ih =>
    intro visited hvis
    refine .pointer (hS _ hp') hptr (fun hmem => ?_) (ih fun v hv => ?_)
    · have := hvis _ hmem
      omega
    rcases List.mem_cons.mp hv with rfl | hv
    · exact Nat.le_refl _
    · have := hvis v hv
      omega

lemma Reads.spells (hS : ∀ i, S i → i < len) (h : Reads m S lim p n e) : Spells m len p n e :=
  (h.traces hS (List.forall_mem_nil _)).spells

/-! ### The octets of a pointer -/

lemma pointerWire_eq (t : Nat) : pointerWire t = [UInt8.ofNat (0xC0 + t / 256), UInt8.ofNat t] := by
  have hhi : (0xC000 + t) / 256 = 0xC0 + t / 256 := by omega
  have hlo : UInt8.ofNat (0xC000 + t) = UInt8.ofNat t := by
    apply UInt8.toNat_inj.mp
    simp only [UInt8.toNat_ofNat']
    omega
  rw [pointerWire, be16, hhi, hlo]

lemma pointerHigh : ∀ k : Fin 64, isPointer (UInt8.ofNat (0xC0 + k)) = true ∧
    (UInt8.ofNat (0xC0 + k) &&& 0x3F).toNat = k := by
  decide +kernel

lemma pointer_of_holds {t : Nat} (ht : t < 0x4000) (h : Holds m p (pointerWire t)) :
    isPointer (m p) = true ∧ pointerTarget m p = t := by
  rw [pointerWire_eq] at h
  simp only [holds_cons, holds_nil, and_true] at h
  obtain ⟨hp, htgt⟩ := pointerHigh ⟨t / 256, by omega⟩
  unfold pointerTarget
  rw [h.1, h.2]
  refine ⟨hp, ?_⟩
  rw [htgt, UInt8.toNat_ofNat']
  simp only
  omega

/-- A pointer written at `p` reads as what reads at its target. -/
lemma Reads.jump {t : Nat} (hp : S p) (hp' : S (p + 1)) (ht : t < 0x4000)
    (hw : Holds m p (pointerWire t)) (hlim : t < lim) (hback : t < p) (hr : Reads m S t t n e) :
      Reads m S lim p n (p + 2) := by
  obtain ⟨hptr, rfl⟩ := pointer_of_holds ht hw
  exact .pointer hp hp' hptr hlim hback hr

end DomainName
