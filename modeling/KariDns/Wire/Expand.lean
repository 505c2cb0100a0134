import KariDns.Name.Text

/-! Reading names out of a message.

`expandWireNameToBuffer` is the decoder every incoming name goes through: it follows
compression pointers, refuses a target it has jumped to before, refuses names of more than
255 octets, and writes the name in presentation form. On a name that `Reads` describes it
returns that name and the offset behind it.
-/

namespace KariDns

open Octets DomainName List Option

variable {m : Buf} {n : Name} {bufSize e p packetLen : Nat}

/-- `DNS_NAME_TEXT_SIZE`. -/
def dnsNameTextSize : Nat := 1025

/-- Turns of the decoder's loop: at most one per pointer target and one per label. -/
def expandFuel : Nat := 0x4000 + 256

/-- The loop of `expand_wire_name_to_buffer`. `jumped` is the offset behind the first pointer,
`visited` the targets jumped to, `total` the octets of the name read so far, `out` the text. -/
def expandLoop (m : Buf) (packetLen bufSize : Nat) :
    Nat → Nat → Option Nat → List Nat → Nat → Text → Option (Text × Nat)
  | 0, _, _, _, _, _ => none
  | fuel + 1, p, jumped, visited, total, out =>
    if p ≥ packetLen then none
    else if isPointer (m p) then
      if p + 1 ≥ packetLen then none
      else if pointerTarget m p ≥ packetLen then none
      else if pointerTarget m p ∈ visited then none
      else expandLoop m packetLen bufSize fuel (pointerTarget m p) (jumped.or (some (p + 2)))
        (pointerTarget m p :: visited) total out
    else if m p &&& 0xC0 ≠ 0 then none
    else if total + 1 + (m p).toNat > 255 then none
    else if m p = 0 then some (if out = [] then [46] else out, jumped.getD (p + 1))
    else if p + 1 + (m p).toNat > packetLen ∨ out.length + 2 > bufSize then none
    else
      match dnsLabelToText (bufSize - out.length - 2) 0 (slice m (p + 1) (m p).toNat) with
      | none => none
      | some t => expandLoop m packetLen bufSize fuel (p + 1 + (m p).toNat) jumped visited
          (total + 1 + (m p).toNat) (out ++ t ++ [46])

/-- `expand_wire_name_to_buffer`: the text and the next offset. -/
def expandWireNameToBuffer (m : Buf) (packetLen current bufSize : Nat) : Option (Text × Nat) :=
  if current ≥ packetLen ∨ bufSize < 2 then none
  else expandLoop m packetLen bufSize expandFuel current none [] 0 []

/-! ### Decoding a name that reads -/

/-- The labels of a name, each followed by a dot. -/
def labelsText (n : Name) : Text := n.flatMap fun l => labelText l ++ [46]

lemma nameText_eq (n : Name) : nameText n = if labelsText n = [] then [46] else labelsText n := by
  cases n with
  | nil => rfl
  | cons l n => simp [nameText, labelsText]

lemma labelsText_cons (l : Label) (n : Name) : labelsText
    (l :: n) = labelText l ++ [46] ++ labelsText n := rfl

lemma length_octet : ∀ b : UInt8, b.toNat ≤ 63 → isPointer b = false ∧ b &&& 0xC0 = 0 := by
  decide +kernel

/-- What the loop's tests see at the length octet of a label. -/
lemma labelOctet {l : Label} (hl : LabelOk l) (hw : Holds m p (labelWire l)) :
    (m p).toNat = l.length ∧ isPointer (m p) = false ∧ m p &&& 0xC0 = 0 ∧ m p ≠ 0 ∧
      slice m (p + 1) l.length = l := by
  obtain ⟨hp, hs⟩ := holds_cons.mp hw
  have hpos := length_pos_iff.mpr hl.1
  have hle := hl.2
  have hlen : (m p).toNat = l.length := by
    rw [hp, UInt8.toNat_ofNat']
    exact Nat.mod_eq_of_lt (by omega)
  obtain ⟨h1, h2⟩ := length_octet (m p) (by omega)
  refine ⟨hlen, h1, h2, fun h0 => ?_, hs⟩
  rw [h0] at hlen
  simp at hlen
  omega

lemma pointerTarget_lt (m : Buf) (p : Nat) : pointerTarget m p < 0x4000 := by
  have hhigh : (m p &&& 0x3F).toNat ≤ 63 := by
    rw [UInt8.toNat_and]
    exact Nat.and_le_right
  have hlow := (m (p + 1)).toNat_lt
  unfold pointerTarget
  omega

/-- Targets taken once are fewer than there are offsets. -/
lemma visited_length {visited : List Nat} (h : visited.Nodup ∧ ∀ v ∈ visited, v < 0x4000) :
    visited.length ≤ 0x4000 := by
  have hsub : visited ⊆ List.range 0x4000 := fun v hv => mem_range.mpr (h.2 v hv)
  have hle := (subperm_of_subset h.1 hsub).length_le
  rwa [length_range] at hle

/-- The decoder's loop returns the name that is spelled from `p` on if it is short enough. The
induction follows the name: every turn takes a label, or a target that was not taken before. -/
lemma expandLoop_traces {visited : List Nat} (h : Traces m packetLen visited p n e) :
    ∀ {fuel : Nat} {jumped : Option Nat} {total : Nat} {out : Text},
      (visited.Nodup ∧ ∀ v ∈ visited, v < 0x4000) →
        (wire n).length + (0x4000 - visited.length) ≤ fuel →
      total + (wire n).length ≤ 255 → out.length + 4 * (wire n).length ≤ bufSize →
      expandLoop m packetLen bufSize fuel p jumped visited total out =
        some (if out ++ labelsText n = [] then [46] else out ++ labelsText n, jumped.getD e) := by
  induction h with
  | @root visited p hp h0 =>
    intro fuel jumped total out _ hf htot _
    obtain ⟨fuel, rfl⟩ := Nat.exists_eq_succ_of_ne_zero (show fuel ≠ 0 by simp at hf; omega)
    simp only [wire_nil, length_singleton] at htot
    simp [expandLoop, h0, show ¬ packetLen ≤ p by omega, show ¬ 255 < total + 1 by omega,
      labelsText, isPointer]
  | @label visited p e l n hl hw hle _ ih =>
    intro fuel jumped total out hvis hf htot hbuf
    rw [wire_length_cons] at hf htot hbuf
    rcases fuel with _ | fuel
    · omega
    obtain ⟨hlen, hnp, h00, hne, hsl⟩ := labelOctet hl hw
    have htext := labelText_length_le l
    have hwpos := wire_length_pos n
    have hcap : dnsLabelToText (bufSize - out.length - 2) 0 l = some (labelText l) := by
      rw [dnsLabelToText_eq _ _ _ (Nat.zero_le _), if_pos (by omega)]
    rw [expandLoop, if_neg (by omega), hnp, if_neg (by simp), if_neg (by simp [h00]), hlen,
      if_neg (by omega), if_neg hne, if_neg (by omega), hsl, hcap]
    have hout : (out ++ labelText l ++ [46]).length + 4 * (wire n).length ≤ bufSize := by
      simp only [length_append, length_singleton]
      omega
    simp only [ih hvis (show _ ≤ fuel by omega) (show total + 1 + l.length + _ ≤ 255 by omega) hout]
    simp [labelsText_cons]
  | @pointer visited p e n hp hptr hfresh hrest ih =>
    intro fuel jumped total out hvis hf htot hbuf
    obtain ⟨fuel, rfl⟩ :=
      Nat.exists_eq_succ_of_ne_zero (show fuel ≠ 0 by have := wire_length_pos n; omega)
    have hvis' : (pointerTarget m p :: visited).Nodup ∧
        ∀ v ∈ pointerTarget m p :: visited, v < 0x4000 :=
      ⟨nodup_cons.mpr ⟨hfresh, hvis.1⟩, forall_mem_cons.mpr ⟨pointerTarget_lt m p, hvis.2⟩⟩
    have hcount := visited_length hvis'
    rw [length_cons] at hcount
    rw [expandLoop, if_neg (by omega), if_pos hptr, if_neg (by omega),
      if_neg (by have := spells_lt_len hrest.spells; omega), if_neg hfresh,
      ih hvis' (by rw [length_cons]; omega) htot hbuf]
    cases jumped <;> simp

/-- A short name is decoded wherever it is spelled. -/
lemma expandWireNameToBuffer_traces (h : Traces m packetLen [] p n e)
    (hshort : (wire n).length ≤ 255) (hb : dnsNameTextSize ≤ bufSize) :
      expandWireNameToBuffer m packetLen p bufSize = some (nameText n, e) := by
  have hp := spells_lt_len h.spells
  unfold dnsNameTextSize at hb
  rw [expandWireNameToBuffer, if_neg (by omega),
    expandLoop_traces h (by simp) (by simp [expandFuel]; omega) (by omega)
    (by simp; omega)]
  simp [nameText_eq]

/-- A valid name that reads at `p` is what the decoder returns, with the offset behind it. -/
lemma expandWireNameToBuffer_reads {S : Nat → Prop} {lim : Nat} (hS : ∀ i, S i → i < packetLen)
    (h : Reads m S lim p n e) (hn : Valid n) (hb : dnsNameTextSize ≤ bufSize) :
    expandWireNameToBuffer m packetLen p bufSize = some (nameText n, e) :=
  expandWireNameToBuffer_traces (h.traces hS (by simp)) hn.short hb

/-! ### What the decoder accepts -/

lemma length_of_octet : ∀ b : UInt8, isPointer b = false → b &&& 0xC0 = 0 → b.toNat ≤ 63 := by
  decide +kernel

/-- The label whose length octet stands at `p`. -/
lemma label_at (hplain : isPointer (m p) = false) (hkind : m p &&& 0xC0 = 0) (hne : m p ≠ 0) :
    LabelOk (slice m (p + 1) (m p).toNat) ∧
      Holds m p (labelWire (slice m (p + 1) (m p).toNat)) := by
  have hle := length_of_octet (m p) hplain hkind
  have hpos : (m p).toNat ≠ 0 := fun hz => hne (UInt8.toNat_inj.mp hz)
  refine ⟨⟨fun hnil => ?_, by simpa using hle⟩, ?_⟩
  · have hlen := congrArg List.length hnil
    rw [slice_length, length_nil] at hlen
    exact hpos hlen
  · rw [labelWire, holds_cons, slice_length, UInt8.ofNat_toNat]
    exact ⟨rfl, holds_slice _ _ _⟩

lemma dnsLabelToText_some {cap : Nat} {l : Label} {t : Text} (h : dnsLabelToText cap 0 l = some t) :
    t = labelText l := by
  rw [dnsLabelToText_eq _ _ _ (Nat.zero_le _)] at h
  split at h
  · exact (some.inj h).symm
  · cases h

/-- What the decoder's loop returns is a name that is spelled in the packet. The induction is on
the turns of the loop. -/
lemma expandLoop_sound : ∀ {fuel p : Nat} {jumped : Option Nat}
    {visited : List Nat} {total : Nat} {out t : Text} {e : Nat},
    expandLoop m packetLen bufSize fuel p jumped visited total out = some (t, e) →
    ∃ n e', Spells m packetLen p n e' ∧ e = jumped.getD e' ∧ total + (wire n).length ≤ 255 ∧
      t = if out ++ labelsText n = [] then [46] else out ++ labelsText n
  | fuel + 1, p, jumped, visited, total, out, t, e, h => by
    rw [expandLoop] at h
    split_ifs at h with hp hptr hp1 htgt hvis h00 htot h0 hout hroom
    · obtain ⟨n, e', hs, he, hlen, ht⟩ := expandLoop_sound h
      refine ⟨n, p + 2, .pointer (by omega) hptr hs, ?_, hlen, ht⟩
      cases jumped with
      | none => exact he
      | some j => exact he
    · obtain ⟨rfl, rfl⟩ := Prod.mk.inj (some.inj h)
      exact ⟨[], p + 1, .root (by omega) h0,
        rfl, by simp [h0] at htot ⊢; omega, by simp [labelsText, hout]⟩
    · obtain ⟨rfl, rfl⟩ := Prod.mk.inj (some.inj h)
      exact ⟨[], p + 1, .root (by omega) h0,
        rfl, by simp [h0] at htot ⊢; omega, by simp [labelsText, hout]⟩
    split at h
    · cases h
    rename_i text htext
    obtain ⟨n, e', hs, he, hlen, ht⟩ := expandLoop_sound h
    obtain ⟨hlabel, hwire⟩ := label_at (Bool.eq_false_iff.mpr hptr) (not_not.mp h00) h0
    refine ⟨slice m (p + 1) (m p).toNat :: n, e', .label hlabel hwire ?_ ?_, he, ?_, ?_⟩
    · rw [slice_length]
      omega
    · rw [slice_length]
      exact hs
    · rw [wire_length_cons, slice_length]
      omega
    · rw [ht, dnsLabelToText_some htext]
      simp [labelsText_cons]

/-- Whatever the decoder accepts is the text of a valid name spelled in the packet. -/
lemma expandWireNameToBuffer_sound {t : Text}
    (h : expandWireNameToBuffer m packetLen p bufSize = some (t, e)) :
    ∃ n, Valid n ∧ Spells m packetLen p n e ∧ t = nameText n := by
  rw [expandWireNameToBuffer] at h
  split at h
  · cases h
  obtain ⟨n, e', hs, rfl, hlen, ht⟩ := expandLoop_sound h
  refine ⟨n, ⟨hs.labelOk, by omega⟩, hs, ?_⟩
  rw [ht, nameText_eq, nil_append]

/-- A place in a packet spells one name. -/
lemma spells_unique {len : Nat} (h : Spells m len p n e) :
    ∀ {n' : Name} {e' : Nat}, Spells m len p n' e' → n = n' ∧ e = e' := by
  induction h with
  | root hp h0 =>
    intro n' e' h'
    cases h' with
    | root => exact ⟨rfl, rfl⟩
    | label hl hw _ _ => exact absurd h0 (labelOctet hl hw).2.2.2.1
    | pointer _ hptr _ =>
      rw [h0] at hptr
      cases hptr
  | @label p e l n hl hw _ _ ih =>
    intro n' e' h'
    obtain ⟨hlen, hnp, -, hne, hsl⟩ := labelOctet hl hw
    cases h' with
    | root _ h0 => exact absurd h0 hne
    | @label _ _ l' n' hl' hw' _ hr' =>
      obtain ⟨hlen', -, -, -, hsl'⟩ := labelOctet hl' hw'
      have hll : l.length = l'.length := hlen.symm.trans hlen'
      obtain rfl : l = l' := by rw [← hsl, ← hsl', hll]
      obtain ⟨rfl, rfl⟩ := ih hr'
      exact ⟨rfl, rfl⟩
    | pointer _ hptr _ =>
      rw [hnp] at hptr
      cases hptr
  | @pointer p e n _ hptr _ ih =>
    intro n' e' h'
    cases h' with
    | root _ h0 =>
      rw [h0] at hptr
      cases hptr
    | label hl hw _ _ =>
      rw [(labelOctet hl hw).2.1] at hptr
      cases hptr
    | pointer _ _ hr' =>
      obtain ⟨rfl, -⟩ := ih hr'
      exact ⟨rfl, rfl⟩

end KariDns
