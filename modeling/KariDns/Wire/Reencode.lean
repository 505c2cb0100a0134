import KariDns.Wire.Values

/-! A record read from a message and written again.

A secondary serves what it was sent by reading records out of transfers and writing them into
answers. `RdataAt` is what was sent: the RDATA with the names of the types that may use
compression spelled out. `reencode_parsed` says what is served instead.
-/

namespace KariDns

open Octets DomainName List Option

variable {prd : ParsedRdata}

/-! ### What was sent -/

/-- The fields of the types whose RDATA holds names that a message may compress. -/
def nameFields : List (Nat × List WireField) := [
  (2, [.name]), (3, [.name]), (4, [.name]), (5, [.name]), (7, [.name]), (8, [.name]), (9, [.name]),
  (12, [.name]), (23, [.name]), (39, [.name]),
  (6, [.name, .name, .u32, .u32, .u32, .u32, .u32]),
  (14, [.name, .name]), (17, [.name, .name]),
  (15, [.u16, .name]), (18, [.u16, .name]), (21, [.u16, .name]), (36, [.u16, .name]),
    (107, [.u16, .name]),
  (26, [.u16, .name, .name]), (33, [.u16, .u16, .u16, .name]),
  (35, [.u16, .u16, .chars, .chars, .chars, .name])]

/-- The RDATA of `rdlen` octets at `p` is `rd` once its names are spelled out; it ends with its last
field. -/
def RdataAt (m : Buf) (packetLen type p rdlen : Nat) (rd : List UInt8) : Prop :=
  match nameFields.lookup type with
  | some fs => ∃ vs : List FieldValue, vs.map FieldValue.kind = fs ∧
      FieldsAt m packetLen p vs (p + rdlen) ∧ rd = valuesWire vs
  | none => rd = slice m p rdlen

/-! ### What is served -/

/-- 32-bit numbers with the top bit set become the greatest number without it. -/
def clampTimers : List UInt8 → List UInt8
  | a :: b :: c :: d :: t =>
    (if a ≥ 128 then [127, 255, 255, 255] else [a, b, c, d]) ++ clampTimers t
  | t => t

/-- The RDATA as it is served: the last four numbers of SOA are limited. -/
def servedRdata (type : Nat) (rd : List UInt8) : List UInt8 :=
  if type = 6 then rd.take (rd.length - 16) ++ clampTimers (rd.drop (rd.length - 16)) else rd

/-- Types whose RDATA is kept as text fields. -/
def parsedAsText (type : Nat) : Bool :=
  (rdataReaders.lookup type).isSome || type == 35 || type == 16

lemma clampTimers_be32 {v : Nat} (hv : v < 4294967296) (t : List UInt8) :
    clampTimers (be32 v ++ t) = be32 (min v 2147483647) ++ clampTimers t := by
  have htop : UInt8.ofNat (v / 16777216) ≥ 128 ↔ 2147483648 ≤ v := by
    rw [ge_iff_le, UInt8.le_iff_toNat_le, UInt8.toNat_ofNat', Nat.mod_eq_of_lt (by omega)]
    simp
    omega
  rw [be32, cons_append, cons_append, cons_append, cons_append, clampTimers, nil_append]
  by_cases h : 2147483648 ≤ v
  · rw [if_pos (htop.mpr h), Nat.min_eq_right (by omega)]
    rfl
  · rw [if_neg (fun hc => h (htop.mp hc)), Nat.min_eq_left (by omega)]
    rfl

/-- The octets of served values are the served octets of the values. -/
lemma servedRdata_valuesWire {type : Nat} {vs : List FieldValue} (hok : ∀ v ∈ vs, v.Ok)
    (hk : type = 6 → vs.map FieldValue.kind = [.name, .name, .u32, .u32, .u32, .u32, .u32]) :
    servedRdata type (valuesWire vs) = valuesWire (servedValues type vs) := by
  by_cases htype : type = 6
  · have hk := hk htype
    simp only [map_eq_cons_iff, map_eq_nil_iff, kind_iff] at hk
    obtain ⟨v1, _, rfl, -, v2, _, rfl, -, v3, _, rfl, -, _, _, rfl, ⟨a, rfl⟩, _, _, rfl,
      ⟨b, rfl⟩, _, _, rfl,
      ⟨c, rfl⟩, _, _, rfl, ⟨d, rfl⟩, rfl⟩ := hk
    have ha : a < 4294967296 := hok (.u32 a) (by simp)
    have hb : b < 4294967296 := hok (.u32 b) (by simp)
    have hc : c < 4294967296 := hok (.u32 c) (by simp)
    have hd : d < 4294967296 := hok (.u32 d) (by simp)
    have hsplit : valuesWire [v1, v2, v3, .u32 a, .u32 b, .u32 c, .u32 d] =
        (v1.wire ++ v2.wire ++ v3.wire) ++ (be32 a ++ (be32 b ++ (be32 c ++ (be32 d ++ [])))) := by
      simp [valuesWire, FieldValue.wire]
    have hlen : (be32 a ++ (be32 b ++ (be32 c ++ (be32 d ++ [])))).length = 16 := by simp
    rw [servedRdata, if_pos htype, servedValues, if_pos htype, hsplit, length_append, hlen,
      Nat.add_sub_cancel, take_left, drop_left, clampTimers_be32 ha, clampTimers_be32 hb,
      clampTimers_be32 hc, clampTimers_be32 hd]
    simp [valuesWire, FieldValue.wire, clampTimer, clampTimers]
  · rw [servedRdata, if_neg htype, servedValues, if_neg htype]

/-! ### The parsed RDATA and what it is written as -/

/-- The reader of a type knows the fields of the type. -/
lemma reader_fields : ∀ e ∈ rdataReaders, nameFields.lookup e.1 = some e.2.fields ∨
    nameFields.lookup e.1 = none ∧ e.1 ≠ 6 ∧ e.2.exact = true ∧
      (e.2.fields = [.addr4] ∧ e.2.length = 4 ∨ e.2.fields = [.addr6] ∧ e.2.length = 16) := by
  decide

/-- Types with names have a reader. -/
lemma fields_reader : ∀ e ∈ nameFields, (rdataReaders.lookup e.1).isSome = true ∨ e.1 = 35 := by
  decide

lemma nameFields_none {type : Nat} (hr : rdataReaders.lookup type = none) (h35 : type ≠ 35) :
    nameFields.lookup type = none := by
  cases hl : nameFields.lookup type with
  | none => rfl
  | some fs =>
    rcases fields_reader _ (lookup_mem hl) with h | h
    · rw [hr] at h
      cases h
    · exact absurd h h35

section parsed

variable {m : Buf} {packetLen type p rdlen : Nat} {rd : List UInt8} {rec : DnsRecord}

/-- A type with a reader, all its RDATA used up. -/
lemma typed_reencoded {r : RdataReader} (hcache : rec.cache = .empty)
    (htype : rec.typeCode.toNat = type) (hrdata : rec.rdata = prd.rdata)
    (hr : rdataReaders.lookup type = some r) (h : parseTyped m packetLen p rdlen r = some prd)
    (hat : RdataAt m packetLen type p rdlen rd) :
    emission (rdataScript false rec) = some (servedRdata type rd) := by
  rw [parseTyped] at h
  split at h
  · cases h
  rename_i hlen
  obtain ⟨⟨ts, e⟩, hread, rfl⟩ := map_eq_some_iff.mp h
  obtain ⟨vs, hk, hfields, rfl, hle⟩ := readFields_sound (Nat.le_add_right _ _) hread
  subst htype
  have hform := reader_form _ (lookup_mem hr)
  have hsoa : rec.typeCode.toNat = 6 →
      vs.map FieldValue.kind = [.name, .name, .u32, .u32, .u32, .u32, .u32] := by
    intro h6
    rcases hform with hform | ⟨hne, -⟩
    · simp only [mem_singleton, Prod.mk.injEq] at hform
      exact hk.trans hform.2.1
    · exact absurd h6 hne
  rw [typed_emission hcache hr hk hfields.ok hrdata, ← servedRdata_valuesWire hfields.ok hsoa]
  congr 2
  rcases reader_fields _ (lookup_mem hr) with hnames | ⟨hnone, -, hexact, haddr⟩
  · rw [RdataAt, hnames] at hat
    obtain ⟨vs', hk', hfields', rfl⟩ := hat
    obtain ⟨rfl, -⟩ := hfields.unique (hk.trans hk'.symm) hfields'
    rfl
  rw [RdataAt, hnone] at hat
  simp only at hnone hexact haddr
  have hrdlen : rdlen = r.length := by
    by_contra hne
    exact hlen (.inr ⟨hexact, hne⟩)
  obtain ⟨hholds, hwlen, -⟩ := hfields.address hk haddr
  rw [hat, hrdlen, ← hwlen]
  exact hholds.symm

/-- A NAPTR that is read: its strings as text, or its octets if one of them has an octet 0. -/
lemma parseNaptr_sound (h : parseNaptr m packetLen p rdlen = some prd) :
    ∃ vs n q e, vs.map FieldValue.kind = [.u16, .u16, .chars, .chars, .chars] ∧
      FieldsAt m packetLen p vs q ∧
      (FieldValue.name n).Ok ∧ (FieldValue.name n).At m packetLen q e ∧
      (prd = { rdata := vs.map FieldValue.text ++ [nameText n] } ∨
        prd = { generic := some (slice m p rdlen) } ∧
          fullNameEnd m (p + rdlen) (rdlen + 1) q = some (p + rdlen)) := by
  obtain ⟨-, h⟩ := ite_none_left_eq_some.mp h
  obtain ⟨⟨ts, q⟩, hread, h⟩ := bind_eq_some_iff.mp h
  obtain ⟨⟨t, e⟩, hname, h⟩ := bind_eq_some_iff.mp h
  dsimp only at h hname
  obtain ⟨vs, hk, hfields, rfl, -⟩ := readFields_sound (Nat.le_add_right _ _) hread
  obtain ⟨v, hkv, hok, hv, rfl, -⟩ := readField_sound hname
  obtain ⟨n, rfl⟩ := kind_iff.1.mp hkv
  refine ⟨vs, n, q, e, hk, hfields, hok, hv, ?_⟩
  split at h
  · obtain ⟨hfull, h⟩ := ite_none_right_eq_some.mp h
    exact .inr ⟨(some.inj h).symm, hfull⟩
  · exact .inl (some.inj h).symm

lemma naptr_reencoded (htype : rec.typeCode.toNat = 35) (hrdata : rec.rdata = prd.rdata)
    (hgeneric : prd.generic = none) (h : parseNaptr m packetLen p rdlen = some prd)
    (hat : RdataAt m packetLen 35 p rdlen rd) : emission (rdataScript false rec) = some rd := by
  obtain ⟨vs, n, q, e, hk, hfields, hok, hv, rfl | ⟨rfl, -⟩⟩ := parseNaptr_sound h
  · simp only [map_eq_cons_iff, map_eq_nil_iff, kind_iff] at hk
    obtain ⟨_, _, rfl, ⟨order, rfl⟩, _, _, rfl, ⟨pref, rfl⟩, _, _, rfl, ⟨s1, rfl⟩, _, _, rfl,
      ⟨s2, rfl⟩, _, _, rfl,
      ⟨s3, rfl⟩, rfl⟩ := hk
    have hall := hfields.ok
    simp only [forall_mem_cons, not_mem_nil, false_implies, implies_true, and_true,
      FieldValue.Ok] at hall
    obtain ⟨h1, h2, h3, h4, h5⟩ := hall
    rw [naptr_emission htype h1 h2 h3 h4 h5 hok hrdata]
    obtain ⟨vs', hk', hfields', rfl⟩ := hat
    obtain ⟨rfl, -⟩ := (hfields.append (.cons hok hv .nil)).unique hk'.symm hfields'
    rfl
  · cases hgeneric

/-- A name that uses no pointers stands in full. -/
lemma fullNameEnd_holds {stop len : Nat} : ∀ {fuel q e e' : Nat} {n : Name},
    fullNameEnd m stop fuel q = some e → Spells m len q n e' →
    Holds m q (wire n) ∧ e' = q + (wire n).length
  | fuel + 1, q, e, e', n, h, hs => by
    rw [fullNameEnd] at h
    split_ifs at h with h1 h2 h3
    · cases hs with
      | root _ h0 => exact ⟨holds_cons.mpr ⟨h0, holds_nil _ _⟩, rfl⟩
      | label hl hw _ _ => exact absurd h3 (labelOctet hl hw).2.2.2.1
      | pointer _ hptr _ =>
        rw [h3] at hptr
        cases hptr
    cases hs with
    | root _ h0 => exact absurd h0 h3
    | @label _ _ l n hl hw _ hr =>
      obtain ⟨hlen, -⟩ := labelOctet hl hw
      rw [hlen] at h
      obtain ⟨hrest, rfl⟩ := fullNameEnd_holds h hr
      rw [wire_cons, holds_append, labelWire_length, length_append, labelWire_length]
      refine ⟨⟨hw, ?_⟩, by omega⟩
      rwa [show q + (l.length + 1) = q + 1 + l.length by omega]
    | pointer _ hptr _ =>
      have hmask : m q &&& 192 = 192 := by simpa [isPointer] using hptr
      rw [hmask] at h2
      exact absurd (by decide) h2

/-- NAPTR kept as octets: the replacement stands in full and ends the RDATA. -/
lemma naptr_opaque {bs : List UInt8} (hgeneric : prd.generic = some bs)
    (h : parseNaptr m packetLen p rdlen = some prd) (hat : RdataAt m packetLen 35 p rdlen rd) :
      bs = rd := by
  obtain ⟨vs, n, q, e, hk, hfields, hok, hv, rfl | ⟨rfl, hfull⟩⟩ := parseNaptr_sound h
  · cases hgeneric
  obtain rfl := some.inj hgeneric
  obtain ⟨vs', hk', hfields', rfl⟩ := hat
  have hkinds : (vs ++ [FieldValue.name n]).map FieldValue.kind = vs'.map FieldValue.kind := by
    rw [hk', map_append, hk]
    rfl
  obtain ⟨rfl, rfl⟩ := (hfields.append (.cons hok hv .nil)).unique hkinds hfields'
  obtain ⟨hn, hend⟩ := fullNameEnd_holds hfull hv
  obtain ⟨hvs, rfl⟩ := hfields.holds (by
    intro v hv hname
    have := List.mem_map_of_mem (f := FieldValue.kind) hv
    rw [hk, hname] at this
    simp at this)
  have hwire : valuesWire (vs ++ [FieldValue.name n]) = valuesWire vs ++ wire n := by
    simp [valuesWire, FieldValue.wire]
  have hholds : Holds m p (valuesWire vs ++ wire n) := holds_append.mpr ⟨hvs, hn⟩
  rw [hwire, ← hholds, length_append]
  congr 1
  omega

lemma txt_reencoded (hcache : rec.cache = .empty) (htype : rec.typeCode.toNat = 16)
    (hrdata : rec.rdata = prd.rdata) (hgeneric : prd.generic = none) (hne : rdlen ≠ 0)
    (h : parseTxt m p rdlen = some prd) :
    emission (rdataScript false rec) = some (slice m p rdlen) := by
  obtain ⟨ts, hread, hprd⟩ := map_eq_some_iff.mp h
  split at hprd
  · rw [← hprd] at hgeneric
    cases hgeneric
  subst hprd
  have hfields := txtStrings_sound (Nat.le_add_right _ _) hread
  obtain ⟨hholds, hlen⟩ := hfields.holds (by simp [FieldValue.kind])
  have hlen : (valuesWire (ts.map .chars)).length = rdlen := by omega
  have hts : rec.rdata ≠ [] := by
    rintro hnil
    have hts : ts = [] := hrdata.symm.trans hnil
    rw [hts] at hlen
    exact hne hlen.symm
  have hshort : ∀ s ∈ rec.rdata, s.length ≤ 255 := by
    intro s hs
    rw [hrdata] at hs
    exact hfields.ok (.chars s) (List.mem_map_of_mem hs)
  rw [txt_emission hcache htype hts hshort, hrdata, ← hlen]
  exact congrArg some hholds.symm

/-- What the parsed record is written as. -/
lemma parsed_emission (hcache : rec.cache = .empty) (htype : rec.typeCode.toNat = type)
    (hrdata : rec.rdata = prd.rdata) (hgeneric : rec.generic = prd.generic)
    (hclass : rec.classVal = classKaridnsExt → parsedAsText type = false)
    (htxt : type = 16 → rdlen ≠ 0) (h : parseRdata m packetLen type p rdlen = some prd)
    (hat : RdataAt m packetLen type p rdlen rd) :
    emission (fullRdataScript false rec) = some (servedRdata type rd) := by
  have hput : ∀ bs, emission [.put bs] = some bs := fun bs => by simp [emission, Act.emission]
  have htext : prd.generic = none → parsedAsText type = true →
      fullRdataScript false rec = rdataScript false rec := by
    intro hnone htext
    rw [fullRdataScript, hgeneric, hnone]
    dsimp only
    rw [if_neg]
    intro hext
    rw [hclass hext] at htext
    cases htext
  rw [parseRdata] at h
  split at h
  · rename_i r hr
    have hnone : prd.generic = none := by
      rw [parseTyped] at h
      split at h
      · cases h
      · obtain ⟨_, -, rfl⟩ := map_eq_some_iff.mp h
        rfl
    rw [htext hnone (by simp [parsedAsText, hr])]
    exact typed_reencoded hcache htype hrdata hr h hat
  rename_i hr
  have hnot6 : type ≠ 6 := by
    rintro rfl
    revert hr
    decide
  rw [servedRdata, if_neg hnot6]
  split at h
  · rename_i h35
    subst h35
    cases hg : prd.generic with
    | none =>
      rw [htext hg (by decide)]
      exact naptr_reencoded htype hrdata hg h hat
    | some bs =>
      rw [fullRdataScript, hgeneric, hg, naptr_opaque hg h hat]
      exact hput rd
  rename_i h35
  rw [RdataAt, nameFields_none hr h35] at hat
  subst hat
  split at h
  · rename_i h16
    subst h16
    cases hg : prd.generic with
    | none =>
      rw [htext hg (by decide)]
      exact txt_reencoded hcache htype hrdata hg (htxt rfl) h
    | some bs =>
      obtain ⟨ts, -, hprd⟩ := map_eq_some_iff.mp h
      rw [fullRdataScript, hgeneric]
      split at hprd
      · rw [← hprd]
        exact hput _
      · rw [← hprd] at hg
        cases hg
  obtain rfl := some.inj h
  rw [fullRdataScript, hgeneric]
  exact hput _

end parsed

/-! ### The record -/

/-- The head of a parsed record is written as it was read, the TTL limited. -/
lemma parsed_head {m : Buf} {owner : Text} {p : Nat} {prd : ParsedRdata}
    (hclass : getU16 m (p + 2) ≠ 0) :
    (parsedRecord m owner p prd).typeCode.toNat = getU16 m p ∧
      recClass (parsedRecord m owner p prd) = getU16 m (p + 2) ∧
      recTtl (parsedRecord m owner p prd) = min (getU32 m (p + 4)) 0x7FFFFFFF := by
  have htype := getU16_lt m p
  have hclassLt := getU16_lt m (p + 2)
  have httl : min (getU32 m (p + 4)) 0x7FFFFFFF < 2 ^ 32 := by omega
  refine ⟨Nat.mod_eq_of_lt htype, ?_, ?_⟩
  · have hval : (parsedRecord m owner p prd).classVal.toNat = getU16 m (p + 2) :=
      Nat.mod_eq_of_lt hclassLt
    rw [recClass, if_neg, hval]
    intro hzero
    rw [hzero] at hval
    exact hclass hval.symm
  have hval : (parsedRecord m owner p prd).ttlValue.toNat = min (getU32 m (p + 4)) 0x7FFFFFFF :=
    Nat.mod_eq_of_lt httl
  rw [recTtl]
  split
  · rename_i hzero
    have htext : (parsedRecord m owner p prd).ttl = decimal (min (getU32 m (p + 4)) 0x7FFFFFFF) :=
      rfl
    rw [htext, parseTtlValue_decimal httl]
    omega
  · rw [hval]
    omega

/-- What a parsed record is written as, without compression. -/
lemma parsedRecord_served (alloc : Nat → Bool) {m : Buf} {packetLen p : Nat} {owner : Name}
    {prd : ParsedRdata} {rd : List UInt8} (hvalid : Valid owner)
    (hprd : parseRdata m packetLen (getU16 m p) (p + 10) (getU16 m (p + 8)) = some prd)
    (hat : RdataAt m packetLen (getU16 m p) (p + 10) (getU16 m (p + 8)) rd)
    (hmeta : isMetaRrtype (getU16 m p) = false) (hclass : getU16 m (p + 2) ≠ 0)
    (hext : getU16 m (p + 2) = classKaridnsExt.toNat → parsedAsText (getU16 m p) = false)
    (htxt : getU16 m p = 16 → getU16 m (p + 8) ≠ 0) {maxLen : Nat} {w : Out} (hctx : w.ctx = none)
    (hroom : w.offset + dnsHeaderSize ≤ maxLen)
    (hfit : w.offset + (recordWire (wire owner) (getU16 m p) (getU16 m (p + 2))
      (min (getU32 m (p + 4)) 0x7FFFFFFF) (servedRdata (getU16 m p) rd)).length ≤ maxLen) :
    serializeDnsRecord maxLen (preparseCache alloc (parsedRecord m (nameText owner) p prd))
      none 0xFFFFFFFF w =
      (true, w.put (recordWire (wire owner) (getU16 m p) (getU16 m (p + 2))
        (min (getU32 m (p + 4)) 0x7FFFFFFF) (servedRdata (getU16 m p) rd))) := by
  obtain ⟨htype, hc, httl⟩ := @parsed_head m (nameText owner) p prd hclass
  generalize hr0 : parsedRecord m (nameText owner) p prd = r0 at htype hc httl ⊢
  have hplain : r0.uncached = r0 := hr0 ▸ rfl
  have hemission : emission (fullRdataScript false r0) = some (servedRdata (getU16 m p) rd) := by
    refine parsed_emission (hr0 ▸ rfl) htype (hr0 ▸ rfl) (hr0 ▸ rfl) ?_ htxt hprd hat
    intro h1
    apply hext
    rw [← h1, ← hr0]
    exact (Nat.mod_eq_of_lt (getU16_lt m (p + 2))).symm
  have hwire : serializedWire r0 none 0xFFFFFFFF = some (recordWire (wire owner) (getU16 m p)
      (getU16 m (p + 2)) (min (getU32 m (p + 4)) 0x7FFFFFFF) (servedRdata (getU16 m p) rd)) := by
    have howner : emission (ownerScript false r0 none) = some (wire owner) := by
      rw [← hr0]
      simp [ownerScript, parsedRecord, emission, Act.emission, readName_nameText hvalid]
    rw [serializedWire, howner, hemission, htype, hc, httl, ttlWithOverride, if_neg (by simp)]
    rfl
  have hwires : r0.WiresOk := by
    rw [← hr0]
    exact ⟨fun _ h => (by cases h), fun _ h => (by cases h), trivial⟩
  have hout := @serialize_outcome maxLen r0 none 0xFFFFFFFF w hwires (htype.symm ▸ hmeta) hctx hroom
  rw [hwire] at hout
  have hsame := serialize_uncached maxLen none 0xFFFFFFFF w (truthful_preparse alloc r0)
  rw [uncached_preparse, hplain, hplain, (outcome_fits hfit).mp hout] at hsame
  exact hsame.eq_success

/-- A record that was accepted, written again without compression: owner, type and class are those
that were sent, the TTL and the timers of an SOA are limited to 2147483647, and the rest of the
RDATA is what was sent with its names spelled out. -/
theorem reencode_parsed (alloc : Nat → Bool) {m : Buf} {packetLen offset next : Nat}
    {rec : DnsRecord} (h : parseResourceRecord alloc m packetLen offset = some (rec, next)) :
    ∃ owner p, Valid owner ∧ Spells m packetLen offset owner p ∧ next = p + 10 + getU16 m (p + 8) ∧
      ∀ rd, RdataAt m packetLen (getU16 m p) (p + 10) (getU16 m (p + 8)) rd →
        isMetaRrtype (getU16 m p) = false → getU16 m (p + 2) ≠ 0 →
        (getU16 m (p + 2) = classKaridnsExt.toNat → parsedAsText (getU16 m p) = false) →
        (getU16 m p = 16 → getU16 m (p + 8) ≠ 0) →
        ∀ maxLen (w : Out), w.ctx = none → w.offset + dnsHeaderSize ≤ maxLen →
          w.offset + (recordWire (wire owner) (getU16 m p) (getU16 m (p + 2))
            (min (getU32 m (p + 4)) 0x7FFFFFFF) (servedRdata (getU16 m p) rd)).length ≤ maxLen →
          serializeDnsRecord maxLen rec none 0xFFFFFFFF w =
            (true, w.put (recordWire (wire owner) (getU16 m p) (getU16 m (p + 2))
              (min (getU32 m (p + 4)) 0x7FFFFFFF) (servedRdata (getU16 m p) rd))) := by
  obtain ⟨t, p, prd, hexpand, rfl, hprd, rfl⟩ := parse_form h
  obtain ⟨owner, hvalid, hspells, rfl⟩ := expandWireNameToBuffer_sound hexpand
  refine ⟨owner, p, hvalid, hspells, rfl, ?_⟩
  intro rd hat hmeta hclass hext htxt maxLen w hctx hroom hfit
  exact parsedRecord_served alloc hvalid hprd hat hmeta hclass hext htxt hctx hroom hfit

/-- An MX record of `a.` whose exchange is a pointer to the owner. -/
def mxMessage : Buf := fun i =>
  [1, 97, 0, 0, 15, 0, 1, 0, 0, 0, 60, 0, 4, 0, 10, 192, 0].getD i 0

/-- The exchange is served in full. -/
theorem reencode_parsed_mx :
    ∃ rec, parseResourceRecord (fun _ => true) mxMessage 17 0 = some (rec, 17) ∧
      serializeDnsRecord 512 rec none 0xFFFFFFFF ⟨fun _ => 0, 0, none⟩ =
        (true, Out.put ⟨fun _ => 0, 0, none⟩
          [1, 97, 0, 0, 15, 0, 1, 0, 0, 0, 60, 0, 5, 0, 10, 1, 97, 0]) := by
  have hsome : (parseResourceRecord (fun _ => true) mxMessage 17 0).map (·.2) = some 17 := by
    decide +kernel
  obtain ⟨⟨rec, next⟩, hparse, rfl⟩ := map_eq_some_iff.mp hsome
  have howner : Spells mxMessage 17 0 [[97]] 3 :=
    .label (by decide) (by unfold Holds; decide) (by decide) (.root (by decide) rfl)
  obtain ⟨owner, p, -, hs, -, hwrite⟩ := reencode_parsed (fun _ => true) hparse
  obtain ⟨rfl, rfl⟩ := spells_unique howner hs
  have hrdata : RdataAt mxMessage 17 15 13 4 (be16 10 ++ wire [[97]]) := by
    refine ⟨[.u16 10, .name [[97]]], rfl, ?_, rfl⟩
    refine .cons (e := 15) (show 10 < 65536 by decide) ⟨by unfold Holds; decide, rfl⟩ ?_
    exact .cons ⟨by decide, by decide⟩ (.pointer (by decide) (by decide) howner) .nil
  have hwire : recordWire (wire [[97]]) 15 1 (min 60 0x7FFFFFFF)
    (servedRdata 15 (be16 10 ++ wire [[97]])) =
      [1, 97, 0, 0, 15, 0, 1, 0, 0, 0, 60, 0, 5, 0, 10, 1, 97, 0] := by decide
  have htype : getU16 mxMessage 3 = 15 := by decide
  have hclass : getU16 mxMessage (3 + 2) = 1 := by decide
  have httl : getU32 mxMessage (3 + 4) = 60 := by decide
  have hlen : getU16 mxMessage (3 + 8) = 4 := by decide
  rw [htype, hclass, httl, hlen] at hwrite
  have hput := hwrite _ hrdata (by decide) (by decide) (by decide) (by decide) 512
    ⟨fun _ => 0, 0, none⟩ rfl (by decide)
  rw [hwire] at hput
  exact ⟨rec, hparse, hput (by decide)⟩

/-- An SOA record of the root with TTL and refresh 2147483648. -/
def soaMessage : Buf := fun i =>
  ([0, 0, 6, 0, 1, 128, 0, 0, 0, 0, 22, 0, 0, 0, 0, 0, 1, 128, 0, 0, 0, 0, 0, 0, 2, 0, 0, 0,
    3, 0, 0, 0, 4] :
    List UInt8).getD i 0

/-- Both are served as 2147483647. -/
theorem reencode_limited : (parseResourceRecord (fun _ => true) soaMessage 33 0).map (fun r =>
      let s := serializeDnsRecord 512 r.1 none 0xFFFFFFFF ⟨fun _ => 0, 0, none⟩
      (s.1, slice s.2.buf 0 s.2.offset)) =
    some (true, [0, 0, 6, 0, 1, 127, 255, 255, 255, 0, 22, 0, 0, 0, 0, 0, 1, 127, 255, 255, 255,
      0, 0, 0, 2, 0, 0, 0, 3, 0, 0, 0, 4]) := by
  decide +kernel

end KariDns
