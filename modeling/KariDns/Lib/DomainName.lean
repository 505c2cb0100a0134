import Mathlib.Data.FinEnum
import KariDns.Lib.Octets

/-! Domain names.

A name is its list of labels, leftmost first and without the root label, so the root is
`[]` and the parent of a name is its tail. Names are compared with ASCII case folded
(RFC 4343), and `wire` is the uncompressed form of RFC 1035 3.1.
-/

namespace DomainName

open Octets List

abbrev Label := List UInt8

abbrev Name := List Label

/-- ASCII lower case of one octet. -/
def lower (c : UInt8) : UInt8 := if 65 ≤ c ∧ c ≤ 90 then c ||| 0x20 else c

/-- The case-folded spelling of a name. -/
def fold (n : Name) : Name := n.map (List.map lower)

/-- Two spellings of one name. -/
def Same (a b : Name) : Prop := fold a = fold b

instance (a b : Name) : Decidable (Same a b) := inferInstanceAs (Decidable (fold a = fold b))

/-- A label that fits a length octet below 64 and is not the root label. -/
def LabelOk (l : Label) : Prop := l ≠ [] ∧ l.length ≤ 63

instance (l : Label) : Decidable (LabelOk l) := inferInstanceAs (Decidable (_ ∧ _))

def labelWire (l : Label) : List UInt8 := UInt8.ofNat l.length :: l

/-- The uncompressed wire form, root label included. -/
def wire : Name → List UInt8
  | [] => [0]
  | l :: n => labelWire l ++ wire n

/-- RFC 1035 2.3.4: labels of at most 63 octets, a name of at most 255. -/
structure Valid (n : Name) : Prop where
  labels : ∀ l ∈ n, LabelOk l
  short : (wire n).length ≤ 255

instance (n : Name) : Decidable (Valid n) :=
  decidable_of_iff ((∀ l ∈ n, LabelOk l) ∧ (wire n).length ≤ 255)
    ⟨fun h => ⟨h.1, h.2⟩, fun h => ⟨h.1, h.2⟩⟩

/-! ### Case folding -/

lemma lower_lower : ∀ c : UInt8, lower (lower c) = lower c := by decide +kernel

@[simp] lemma fold_nil : fold [] = [] := rfl

variable (l : Label) (n : Name)

@[simp] lemma fold_cons : fold (l :: n) = l.map lower :: fold n := rfl

lemma fold_fold : fold (fold n) = fold n := by
  simp [fold, Function.comp_def, lower_lower]

lemma Same.refl : Same n n := rfl

lemma Same.symm {a b : Name} (h : Same a b) : Same b a := Eq.symm h

lemma same_fold : Same (fold n) n := fold_fold n

lemma same_cons {k l : Label} {a b : Name} :
    Same (k :: a) (l :: b) ↔ k.map lower = l.map lower ∧ Same a b := by
  simp [Same]

lemma same_nil_right {a : Name} : Same a [] ↔ a = [] := by
  simp [Same, fold]

lemma length_eq_of_fold {k l : Label} (h : k.map lower = l.map lower) : k.length = l.length := by
  simpa using congrArg List.length h

lemma LabelOk.of_fold {k l : Label} (h : k.map lower = l.map lower)
    (hl : LabelOk l) : LabelOk k := by
  have hlen := length_eq_of_fold h
  refine ⟨fun hk => hl.1 (eq_nil_of_length_eq_zero ?_), hlen ▸ hl.2⟩
  rw [← hlen, hk]
  rfl

/-! ### Wire form -/

@[simp] lemma wire_nil : wire [] = [0] := rfl

lemma wire_cons : wire (l :: n) = labelWire l ++ wire n := rfl

@[simp] lemma labelWire_length : (labelWire l).length = l.length + 1 := rfl

lemma wire_length_cons : (wire (l :: n)).length = l.length + 1 + (wire n).length := by
  simp [wire_cons]

lemma wire_length_pos : 0 < (wire n).length := by
  cases n with
  | nil => simp
  | cons l n => rw [wire_length_cons]; omega

lemma length_lt_wire : n.length < (wire n).length := by
  induction n with
  | nil => simp
  | cons l n ih =>
    rw [wire_length_cons, length_cons]
    omega

lemma wire_length_same {a b : Name} (h : Same a b) : (wire a).length = (wire b).length := by
  induction a generalizing b with
  | nil => rw [same_nil_right.mp h.symm]
  | cons k a ih =>
    cases b with
    | nil => exact absurd (same_nil_right.mp h) (by simp)
    | cons l b =>
      obtain ⟨hl, hs⟩ := same_cons.mp h
      rw [wire_length_cons, wire_length_cons, ih hs, length_eq_of_fold hl]

lemma Valid.nil : Valid [] := ⟨by simp, by simp⟩

lemma Valid.tail {l : Label} {n : Name} (h : Valid (l :: n)) : Valid n := by
  refine ⟨fun k hk => h.labels k (mem_cons_of_mem _ hk), ?_⟩
  have := h.short
  rw [wire_length_cons] at this
  omega

lemma Valid.head {l : Label} {n : Name} (h : Valid (l :: n)) : LabelOk l :=
  h.labels l mem_cons_self

lemma Valid.of_same {a b : Name} (h : Same a b) (hb : Valid b) : Valid a := by
  refine ⟨?_, wire_length_same h ▸ hb.short⟩
  have hsh := hb.labels
  clear hb
  induction a generalizing b with
  | nil => simp
  | cons k a ih =>
    cases b with
    | nil => exact absurd (same_nil_right.mp h) (by simp)
    | cons l b =>
      obtain ⟨hl, hs⟩ := same_cons.mp h
      intro x hx
      rcases mem_cons.mp hx with rfl | hx
      · exact LabelOk.of_fold hl (hsh l mem_cons_self)
      · exact ih hs (fun y hy => hsh y (mem_cons_of_mem _ hy)) x hx

end DomainName
