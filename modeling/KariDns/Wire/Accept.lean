import KariDns.Wire.Reencode

/-! What the reader of messages accepts.

`FieldsRead` says that values stand in a packet in a way the reader can follow; `Shape` is the
list of fields a type has. Values of the right shape are accepted, and are what the record is
served with (`values_accepted`). `Fills` ties the script of a record to the values it
writes.
-/

namespace KariDns

open Octets DomainName List Option

variable {m : Buf} {vs : List FieldValue} {e p packetLen rdlen stop type : Nat}

/-! ### Fields the reader can follow -/

lemma readField_mono {stop' : Nat} {f : WireField} {r : Text × Nat} (hle : stop ≤ stop')
    (h : readField m packetLen stop p f = some r) : readField m packetLen stop' p f = some r := by
  cases f with
  | name =>
    obtain ⟨h, hstop⟩ := filter_eq_some_iff.mp h
    have hstop : r.2 ≤ stop := by simpa using hstop
    exact filter_eq_some_iff.mpr ⟨h, by simpa using Nat.le_trans hstop hle⟩
  | _ =>
    rw [readField] at h ⊢
    split at h
    · cases h
    · rw [if_neg (by omega)]
      exact h

/-- The value stands at `p` and is read there, with nothing to spare. -/
structure FieldValue.Read (m : Buf) (packetLen p e : Nat) (v : FieldValue) : Prop where
  ok : v.Ok
  stands : v.At m packetLen p e
  read : readField m packetLen e p v.kind = some (v.text, e)

/-- Values one behind the other, each of them readable. -/
inductive FieldsRead (m : Buf) (packetLen : Nat) : Nat → List FieldValue → Nat → Prop
  | nil {p : Nat} : FieldsRead m packetLen p [] p
  | cons {p e e' : Nat} {v : FieldValue} {vs : List FieldValue} : v.Read m packetLen p e →
      FieldsRead m packetLen e vs e' → FieldsRead m packetLen p (v :: vs) e'

lemma FieldsRead.fieldsAt (h : FieldsRead m packetLen p vs e) : FieldsAt m packetLen p vs e := by
  induction h with
  | nil => exact .nil
  | cons hv _ ih => exact .cons hv.ok hv.stands ih

lemma FieldsRead.append {e' : Nat} {vs' : List FieldValue} (h : FieldsRead m packetLen p vs e)
    (h' : FieldsRead m packetLen e vs' e') : FieldsRead m packetLen p (vs ++ vs') e' := by
  induction h with
  | nil => exact h'
  | cons hv _ ih => exact .cons hv (ih h')

/-- The least number of octets a field takes. -/
def WireField.least : WireField → Nat
  | .name | .chars => 1
  | .u16 => 2
  | .u32 | .addr4 => 4
  | .addr6 => 16

lemma FieldValue.Read.least {v : FieldValue} (h : v.Read m packetLen p e) :
    p + v.kind.least ≤ e := by
  obtain ⟨hok, hat, -⟩ := h
  cases v with
  | name n => exact hat.lt
  | _ =>
    simp only [FieldValue.At, FieldValue.wire, be16_length, be32_length, length_cons] at hat
    simp only [FieldValue.Ok] at hok
    simp only [FieldValue.kind, WireField.least]
    omega

lemma FieldsRead.least (h : FieldsRead m packetLen p vs e) :
    p + (vs.map fun v => v.kind.least).sum ≤ e := by
  induction h with
  | nil => simp
  | cons hv _ ih =>
    have := hv.least
    rw [map_cons, sum_cons]
    omega

lemma FieldsRead.readFields (h : FieldsRead m packetLen p vs e) (hstop : e ≤ stop) :
    readFields m packetLen stop (vs.map FieldValue.kind) p = some (vs.map FieldValue.text, e) := by
  induction h with
  | nil => rfl
  | cons hv hrest ih =>
    have hle := hrest.least
    rw [map_cons, KariDns.readFields, readField_mono (by omega) hv.read]
    dsimp only
    rw [ih hstop]
    rfl

/-- A value whose wire form stands in the packet is read. -/
lemma read_of_holds {v : FieldValue} (hok : v.Ok) (h : Holds m p v.wire)
    (hle : p + v.wire.length ≤ packetLen) :
    v.Read m packetLen p (p + v.wire.length) := by
  cases v with
  | name n =>
    have hreads : Reads m (· < packetLen) packetLen p n (p + (wire n).length) :=
      reads_wire _ hok.labels h fun i _ hi => Nat.lt_of_lt_of_le hi hle
    refine ⟨hok, hreads.spells (fun _ hi => hi),
      filter_eq_some_iff.mpr ⟨?_, by simp [FieldValue.wire]⟩⟩
    exact expandWireNameToBuffer_reads (fun _ hi => hi) hreads hok (Nat.le_refl _)
  | u16 v =>
    refine ⟨hok, ⟨h, rfl⟩, ?_⟩
    rw [FieldValue.wire] at h
    rw [FieldValue.kind, readField, getU16_of_holds h hok]
    simp [FieldValue.wire, FieldValue.text]
  | u32 v =>
    refine ⟨hok, ⟨h, rfl⟩, ?_⟩
    rw [FieldValue.wire] at h
    rw [FieldValue.kind, readField, getU32_of_holds h hok]
    simp [FieldValue.wire, FieldValue.text]
  | addr4 a =>
    refine ⟨hok, ⟨h, rfl⟩, ?_⟩
    have hlen : a.length = 4 := hok
    have hslice : slice m p 4 = a := hlen ▸ h
    simp [FieldValue.kind, readField, FieldValue.wire, FieldValue.text, hlen, hslice]
  | addr6 a =>
    refine ⟨hok, ⟨h, rfl⟩, ?_⟩
    have hlen : a.length = 16 := hok
    have hslice : slice m p 16 = a := hlen ▸ h
    simp [FieldValue.kind, readField, FieldValue.wire, FieldValue.text, hlen, hslice]
  | chars s =>
    refine ⟨hok, ⟨h, rfl⟩, ?_⟩
    have hlen : s.length ≤ 255 := hok
    obtain ⟨hcount, hs⟩ := holds_cons.mp h
    have hcount : (m p).toNat = s.length := by
      rw [hcount, UInt8.toNat_ofNat']
      omega
    rw [FieldValue.kind, readField, hcount, if_neg (by simp [FieldValue.wire]; omega), hs]
    simp [FieldValue.wire, FieldValue.text]
    omega

lemma fieldsRead_of_holds : ∀ {vs : List FieldValue} {p : Nat},
    (∀ v ∈ vs, v.Ok) → Holds m p (valuesWire vs) → p + (valuesWire vs).length ≤ packetLen →
    FieldsRead m packetLen p vs (p + (valuesWire vs).length)
  | [], _, _, _, _ => .nil
  | v :: vs, p, hok, h, hle => by
    have hwire : valuesWire (v :: vs) = v.wire ++ valuesWire vs := rfl
    rw [hwire, length_append, ← Nat.add_assoc] at hle ⊢
    obtain ⟨hv, hvs⟩ := holds_append.mp (hwire ▸ h)
    exact .cons (read_of_holds (hok v mem_cons_self) hv (by omega))
      (fieldsRead_of_holds (fun u hu => hok u (mem_cons_of_mem _ hu)) hvs hle)

/-! ### Values of the right shape are accepted -/

/-- The fields of NAPTR. -/
def naptrFields : List WireField := [.u16, .u16, .chars, .chars, .chars, .name]

/-- The values are those of a type that is kept as text. -/
def Shape (type : Nat) (vs : List FieldValue) : Prop :=
  match rdataReaders.lookup type with
  | some r => vs.map FieldValue.kind = r.fields
  | none => type = 35 ∧ vs.map FieldValue.kind = naptrFields ∨
      type = 16 ∧ ∃ ss : List Text, ss ≠ [] ∧ vs = ss.map .chars

/-- No reader asks for more octets than its fields have; one that asks for a number of octets has
fields of that size. -/
lemma reader_length : ∀ e ∈ rdataReaders, e.2.length ≤ (e.2.fields.map WireField.least).sum ∧
    (e.2.exact = true → e.2.fields = [.addr4] ∧ e.2.length = 4 ∨ e.2.fields = [.addr6] ∧
      e.2.length = 16) := by
  decide

lemma typed_accepted {r : RdataReader} (hr : rdataReaders.lookup type = some r)
    (hk : vs.map FieldValue.kind = r.fields) (h : FieldsRead m packetLen p vs (p + rdlen)) :
    (parseTyped m packetLen p rdlen r).isSome = true := by
  have hleast := h.least
  have hsum : (vs.map fun v => v.kind.least).sum = (r.fields.map WireField.least).sum := by
    rw [← hk, List.map_map]
    rfl
  obtain ⟨hlen, hfixed⟩ := reader_length _ (lookup_mem hr)
  dsimp only at hlen hfixed
  have hexact : r.exact = true → rdlen = r.length := by
    intro hexact
    obtain ⟨-, -, hend⟩ := h.fieldsAt.address hk (hfixed hexact)
    omega
  rw [parseTyped, if_neg, ← hk, h.readFields (Nat.le_refl _)]
  · rfl
  rintro (hlt | ⟨hex, hne⟩)
  · omega
  · exact hne (hexact hex)

/-- A name in full is found to end where it ends. -/
lemma fullNameEnd_of_holds : ∀ {n : Name} {fuel q : Nat}, (∀ l ∈ n, LabelOk l) →
    Holds m q (wire n) → q + (wire n).length ≤ stop → n.length < fuel →
    fullNameEnd m stop fuel q = some (q + (wire n).length)
  | [], fuel + 1, q, _, h, hle, _ => by
    have hle : q + 1 ≤ stop := hle
    rw [fullNameEnd, if_neg (by omega), (holds_cons.mp h).1]
    rfl
  | l :: n, fuel + 1, q, hn, h, hle, hfuel => by
    rw [wire_cons, holds_append, labelWire_length] at h
    rw [wire_cons, length_append, labelWire_length] at hle ⊢
    obtain ⟨hlen, -, hmask, hne, -⟩ := labelOctet (hn l mem_cons_self) h.1
    have hrest : fullNameEnd m stop fuel (q + (l.length + 1)) =
        some (q + (l.length + 1) + (wire n).length) :=
      fullNameEnd_of_holds (fun k hk => hn k (mem_cons_of_mem _ hk)) h.2 (by omega)
        (Nat.lt_of_succ_lt_succ hfuel)
    rw [fullNameEnd, if_neg (by omega), if_neg (by simpa using hmask), if_neg hne, hlen,
      show q + 1 + l.length = q + (l.length + 1) by omega, hrest]
    congr 1
    omega

lemma txtStrings_of_read : ∀ {ss : List Text} {fuel p : Nat},
    FieldsRead m packetLen p (ss.map .chars) stop → ss.length < fuel →
    txtStrings m stop fuel p = some ss
  | [], fuel + 1, p, h, _ => by
    cases h
    rw [txtStrings, if_pos (Nat.le_refl _)]
  | s :: ss, fuel + 1, p, h, hfuel => by
    cases h with
    | cons hv hrest =>
      have hlt := hv.least
      have hle := hrest.least
      have hlt : p + 1 ≤ _ := hlt
      rw [txtStrings, if_neg (by omega)]
      have hread : readField m 0 stop p .chars = some (s, _) := readField_mono (by omega) hv.read
      rw [hread]
      dsimp only
      rw [txtStrings_of_read hrest (Nat.lt_of_succ_lt_succ hfuel)]
      rfl

/-- A NAPTR in full is accepted, with or without a NUL in its strings. -/
lemma naptr_accepted (hk : vs.map FieldValue.kind = naptrFields)
    (h : FieldsRead m packetLen p vs (p + rdlen)) (hfull : Holds m p (valuesWire vs))
    (hlen : rdlen = (valuesWire vs).length) :
    (parseNaptr m packetLen p rdlen).isSome = true := by
  have hleast := h.least
  simp only [naptrFields, map_eq_cons_iff, map_eq_nil_iff] at hk
  obtain ⟨v1, _, rfl, hv1, v2, _, rfl, hv2, v3, _, rfl, hv3, v4, _, rfl, hv4, v5, _, rfl,
    hv5, v6, _, rfl,
    hv6, rfl⟩ := hk
  obtain ⟨n, rfl⟩ := kind_iff.1.mp hv6
  simp only [map_cons, hv1, hv2, hv3, hv4, hv5, WireField.least, sum_cons] at hleast
  -- the name is what is left behind the first five fields
  obtain ⟨q, hfirst, hname⟩ : ∃ q, FieldsRead m packetLen p [v1, v2, v3, v4, v5] q ∧
      FieldValue.Read m packetLen q (p + rdlen) (.name n) := by
    rcases h with _ | ⟨h1, h⟩
    rcases h with _ | ⟨h2, h⟩
    rcases h with _ | ⟨h3, h⟩
    rcases h with _ | ⟨h4, h⟩
    rcases h with _ | ⟨h5, h⟩
    rcases h with _ | ⟨h6, h⟩
    cases h
    exact ⟨_, .cons h1 (.cons h2 (.cons h3 (.cons h4 (.cons h5 .nil)))), h6⟩
  have hread := hfirst.readFields (Nat.le_of_lt hname.stands.lt)
  simp only [map_cons, map_nil, hv1, hv2, hv3, hv4, hv5] at hread
  have hend : fullNameEnd m (p + rdlen) (rdlen + 1) q = some (p + rdlen) := by
    have hsplit : valuesWire [v1, v2, v3, v4, v5, .name n] =
        valuesWire [v1, v2, v3, v4, v5] ++ wire n := by
      simp [valuesWire, FieldValue.wire]
    obtain ⟨-, hq⟩ := hfirst.fieldsAt.holds (by simp [hv1, hv2, hv3, hv4, hv5])
    rw [hsplit, holds_append, ← hq] at hfull
    rw [hsplit, length_append] at hlen
    have hcount := length_lt_wire n
    rw [fullNameEnd_of_holds hname.ok.labels hfull.2 (by omega) (by omega)]
    congr 1
    omega
  have hname : readField m packetLen (p + rdlen) q .name = some (nameText n, p + rdlen) :=
    hname.read
  rw [parseNaptr, if_neg (by omega), hread]
  simp only [bind_eq_bind, bind_some, hname, hend, if_true]
  split <;> rfl

/-- Types with names have the fields their reader knows. -/
lemma fields_shape : ∀ e ∈ nameFields, (rdataReaders.lookup e.1).map RdataReader.fields = some e.2 ∨
    rdataReaders.lookup e.1 = none ∧ e.1 = 35 ∧ e.2 = naptrFields := by
  decide

/-- Readable values are the RDATA that stands there. -/
lemma values_rdataAt (hshape : Shape type vs) (h : FieldsRead m packetLen p vs (p + rdlen)) :
    RdataAt m packetLen type p rdlen (valuesWire vs) := by
  unfold RdataAt
  split
  · rename_i fs hfs
    refine ⟨vs, ?_, h.fieldsAt, rfl⟩
    unfold Shape at hshape
    rcases fields_shape _ (lookup_mem hfs) with hr | ⟨hr, h35, hf⟩
    · obtain ⟨r, hr, rfl⟩ := map_eq_some_iff.mp hr
      rw [hr] at hshape
      exact hshape
    rw [hr] at hshape
    rcases hshape with ⟨-, hk⟩ | ⟨h16, -⟩
    · exact hk.trans hf.symm
    · exact absurd (h16.symm.trans h35) (by decide)
  rename_i hnone
  have hnames : ∀ v ∈ vs, v.kind ≠ .name := by
    unfold Shape at hshape
    split at hshape
    · rename_i r hr
      intro v hv hname
      have hmem := List.mem_map_of_mem (f := FieldValue.kind) hv
      rw [hshape, hname] at hmem
      rcases reader_fields _ (lookup_mem hr) with hsome | ⟨-, -, -, hf | hf⟩
      · rw [hnone] at hsome
        cases hsome
      · rw [show r.fields = [.addr4] from hf.1] at hmem
        simp at hmem
      · rw [show r.fields = [.addr6] from hf.1] at hmem
        simp at hmem
    rcases hshape with ⟨rfl, -⟩ | ⟨-, ss, -, rfl⟩
    · cases hnone
    · simp [FieldValue.kind]
  obtain ⟨hholds, hend⟩ := h.fieldsAt.holds hnames
  have hlen : rdlen = (valuesWire vs).length := by omega
  rw [hlen]
  exact hholds.symm

/-- Values of the right shape are accepted and are the RDATA; a NAPTR must stand there in full. -/
lemma values_accepted (hshape : Shape type vs) (h : FieldsRead m packetLen p vs (p + rdlen))
    (hfull : type = 35 → Holds m p (valuesWire vs) ∧ rdlen = (valuesWire vs).length) :
    (parseRdata m packetLen type p rdlen).isSome = true := by
  cases hr : rdataReaders.lookup type with
  | some r =>
    simp only [Shape, hr] at hshape
    simp only [parseRdata, hr]
    exact typed_accepted hr hshape h
  | none =>
    simp only [Shape, hr] at hshape
    simp only [parseRdata, hr]
    rcases hshape with ⟨rfl, hk⟩ | ⟨rfl, ss, -, rfl⟩
    · exact naptr_accepted hk h (hfull rfl).1 (hfull rfl).2
    have hleast := h.least
    have hcount : (((ss.map FieldValue.chars).map fun v => v.kind.least)).sum = ss.length := by
      simp [Function.comp_def, FieldValue.kind, WireField.least]
    rw [hcount] at hleast
    rw [if_neg (by decide), if_pos rfl, parseTxt, txtStrings_of_read h (by omega)]
    rfl

end KariDns
