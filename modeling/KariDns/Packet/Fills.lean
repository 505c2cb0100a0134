import KariDns.Packet.Names
import KariDns.Wire.Accept

/-! The values a script writes.

`Fills s vs` says that the actions of `s` write the values `vs`: a name with an action of its
own, other values as octets. The script of a record whose type is kept as text fills values of
the type's shape (`rdataScript_fills`), and where the script was laid out the reader finds
those values, the case of letters in compressed names aside (`Fills.read`).
-/

namespace KariDns

open Octets DomainName List Option

variable {vs : List FieldValue} {bs : List UInt8} {s : Script} {t : Text}

/-- The actions of a script write the values. -/
inductive Fills : Script → List FieldValue → Prop
  | nil : Fills [] []
  | name {a : Act} {n : Name} {s : Script} {vs : List FieldValue} : a.meant = some n → Fills s vs →
      Fills (a :: s) (.name n :: vs)
  | put {us vs : List FieldValue} {s : Script} : (∀ u ∈ us, u.kind ≠ .name) → Fills s vs →
      Fills (.put (valuesWire us) :: s) (us ++ vs)

lemma meant_emission {a : Act} {n : Name} (h : a.meant = some n) : a.emission = some (wire n) := by
  cases a with
  | need _ => cases h
  | put _ => cases h
  | fail => cases h
  | copyName k => rw [some.inj h]; rfl
  | packName k => rw [some.inj h]; rfl
  | textName t => exact map_eq_some_iff.mpr ⟨n, h, rfl⟩
  | dnsName t => exact map_eq_some_iff.mpr ⟨n, h, rfl⟩

/-- Without compression the values are written one behind the other. -/
lemma Fills.emission (h : Fills s vs) : emission s = some (valuesWire vs) := by
  induction h with
  | nil => rfl
  | name hm _ ih =>
    rw [KariDns.emission, meant_emission hm, ih]
    rfl
  | put _ _ ih =>
    rw [KariDns.emission, ih]
    simp [Act.emission, valuesWire]

/-! ### Numbers and addresses -/

lemma parseU16_lt {v : Nat} (h : parseU16 t = some v) : v < 65536 := by
  rw [parseU16, parseBounded] at h
  split at h
  · cases h
  dsimp only at h
  split at h
  · cases h
  rename_i hbound
  obtain rfl := some.inj h
  omega

lemma ttlLoop_le : ∀ {fuel total : Nat} {s : Text}, ttlLoop fuel total s ≤ 2147483647
  | 0, _, _ => by simp [ttlLoop]
  | _ + 1, _, [] => Nat.min_le_right _ _
  | fuel + 1, total, c :: p => by
    rw [ttlLoop]
    split
    · omega
    dsimp only
    split
    · exact ttlLoop_le
    split
    · omega
    · exact ttlLoop_le

lemma parseTtlValue_le (t : Text) : parseTtlValue t ≤ 2147483647 := by
  rw [parseTtlValue]
  split
  · omega
  split
  · omega
  · exact ttlLoop_le

lemma inetPton4_length {a : List UInt8} (h : inetPton4 t = some a) : a.length = 4 := by
  unfold inetPton4 at h
  split at h
  · simp only [bind_eq_bind, bind_eq_some_iff] at h
    obtain ⟨_, _, _, _, _, _, _, _, h⟩ := h
    rw [← some.inj h]
    rfl
  · cases h

lemma inetPton6_length {a : List UInt8} (h : inetPton6 t = some a) : a.length = 16 := by
  unfold inetPton6 at h
  split at h
  · obtain ⟨b, _, h⟩ := bind_eq_some_iff.mp h
    split at h
    · obtain rfl := some.inj h
      assumption
    · cases h
  obtain ⟨b, _, h⟩ := bind_eq_some_iff.mp h
  obtain ⟨c, _, h⟩ := bind_eq_some_iff.mp h
  split at h
  · rw [← some.inj h]
    simp
    omega
  · cases h

/-! ### Parts of scripts -/

lemma emission_cons_some {a : Act} (h : emission (a :: s) = some bs) :
    ∃ as bs', a.emission = some as ∧ emission s = some bs' := by
  obtain ⟨as, ha, h⟩ := bind_eq_some_iff.mp h
  obtain ⟨bs', hs, -⟩ := map_eq_some_iff.mp h
  exact ⟨as, bs', ha, hs⟩

/-- The action writes a name given as text. -/
def Act.namesText : Act → Prop
  | .textName _ | .dnsName _ => True
  | _ => False

lemma meant_of_emission {a : Act} {as : List UInt8} (ha : a.namesText) (h : a.emission = some as) :
    ∃ n, a.meant = some n ∧ Valid n := by
  cases a with
  | textName t =>
    obtain ⟨n, hn, -⟩ := map_eq_some_iff.mp h
    exact ⟨n, hn, readName_valid hn⟩
  | dnsName t =>
    obtain ⟨n, hn, -⟩ := map_eq_some_iff.mp h
    exact ⟨n, hn, readName_valid hn⟩
  | _ => exact ha.elim

lemma fixedFields_u16 : ∀ {k : Nat} {ts : List Text} {bs : List UInt8},
    fixedFields (List.replicate k u16Field) ts = some bs →
    ∃ vs : List Nat, vs.length = k ∧ (∀ v ∈ vs, v < 65536) ∧ bs = valuesWire (vs.map .u16)
  | 0, _, _, h => ⟨[], rfl, by simp, (some.inj h).symm⟩
  | k + 1, [], _, h => by cases h
  | k + 1, t :: ts, bs, h => by
    obtain ⟨b, hb, h⟩ := bind_eq_some_iff.mp h
    obtain ⟨v, hv, rfl⟩ := map_eq_some_iff.mp hb
    obtain ⟨bs', hrest, rfl⟩ := map_eq_some_iff.mp h
    obtain ⟨vs, hlen, hvs, rfl⟩ := fixedFields_u16 hrest
    exact ⟨v :: vs, by simp [hlen], by simpa using ⟨parseU16_lt hv, hvs⟩, rfl⟩

lemma emission_orFail {α : Type} {o : Option α} {k : α → Script}
    (h : emission (orFail o k) = some bs) :
    ∃ a, o = some a ∧ emission (k a) = some bs := by
  cases o with
  | none => cases h
  | some a => exact ⟨a, rfl, h⟩

/-- Leading numbers of 16 bits and what follows them. -/
lemma withFields_u16 {count k : Nat} {rdata : List Text} {tail : List Text → Script}
    {bs : List UInt8}
    (h : emission (withFields count (List.replicate k u16Field) rdata tail) = some bs) :
    ∃ vs : List Nat, vs.length = k ∧ (∀ v ∈ vs, v < 65536) ∧
      withFields count (List.replicate k u16Field) rdata tail =
        .put (valuesWire (vs.map .u16)) :: tail (rdata.drop k) := by
  rw [withFields] at h ⊢
  split at h
  · cases h
  obtain ⟨b, hfixed, -⟩ := emission_orFail h
  obtain ⟨vs, hlen, hvs, rfl⟩ := fixedFields_u16 hfixed
  refine ⟨vs, hlen, hvs, ?_⟩
  rw [if_neg ‹_›, hfixed, orFail_some, length_replicate]

/-! ### The scripts of types kept as text -/

/-- If the script is written, it fills values of the given kinds. -/
def FillsAs (s : Script) (ks : List WireField) : Prop := ∀ bs, emission s = some bs →
  ∃ vs : List FieldValue, Fills s vs ∧ vs.map FieldValue.kind = ks ∧ ∀ v ∈ vs, v.Ok

namespace FillsAs

variable {ks : List WireField} {c : Prop} [Decidable c]

lemma nil : FillsAs [] [] := fun _ _ => ⟨[], .nil, rfl, by simp⟩

lemma guard (h : ¬ c → FillsAs s ks) : FillsAs (if c then [.fail] else s) ks := by
  split
  · intro bs hem
    cases hem
  · exact h ‹_›

lemma orFail {α : Type} {o : Option α} {k : α → Script} (h : ∀ a, o = some a → FillsAs (k a) ks) :
    FillsAs (orFail o k) ks := by
  intro bs hem
  obtain ⟨a, rfl, -⟩ := emission_orFail hem
  exact h a rfl bs hem

lemma name {a : Act} (ha : a.namesText) (h : FillsAs s ks) : FillsAs (a :: s) (.name :: ks) := by
  intro bs hem
  obtain ⟨as, bs', has, hs⟩ := emission_cons_some hem
  obtain ⟨n, hm, hv⟩ := meant_of_emission ha has
  obtain ⟨vs, hfills, rfl, hok⟩ := h bs' hs
  exact ⟨.name n :: vs, .name hm hfills, rfl, forall_mem_cons.mpr ⟨hv, hok⟩⟩

lemma put {l : List FieldValue} (hl : ∀ u ∈ l, u.kind ≠ .name ∧ u.Ok) (h : FillsAs s ks) :
    FillsAs (.put (valuesWire l) :: s) (l.map FieldValue.kind ++ ks) := by
  intro bs hem
  obtain ⟨-, bs', -, hs⟩ := emission_cons_some hem
  obtain ⟨vs, hfills, rfl, hok⟩ := h bs' hs
  refine ⟨l ++ vs, .put (fun u hu => (hl u hu).1) hfills, map_append, fun v hv => ?_⟩
  exact (mem_append.mp hv).elim (fun hu => (hl v hu).2) (hok v)

lemma address {rec : DnsRecord} {pton : Text → Option (List UInt8)} {v : List UInt8 → FieldValue}
    {k : WireField} (hk : k ≠ .name) (hv : ∀ a, (v a).wire = a ∧ (v a).kind = k)
    (hok : ∀ a, pton (rec.rd 0) = some a → (v a).Ok) :
    FillsAs (addressScript rec none pton) [k] :=
  guard fun _ => orFail fun a ha => by
    have hput := nil.put (l := [v a]) (by simpa [(hv a).2, hk] using hok a ha)
    simpa [valuesWire, hv] using hput

/-- Leading numbers of 16 bits. -/
lemma u16s (k : Nat) {ts : List Text} (h : FillsAs s ks) :
    FillsAs (KariDns.orFail (fixedFields (List.replicate k u16Field) ts) fun bs => .put bs :: s)
      (List.replicate k .u16 ++ ks) :=
  orFail fun b hb => by
    obtain ⟨vs, rfl, hvs, rfl⟩ := fixedFields_u16 hb
    have hput := h.put (l := vs.map .u16) (by simpa [FieldValue.kind, FieldValue.Ok] using hvs)
    simpa [Function.comp_def, FieldValue.kind] using hput

lemma chars (t : Text) (h : FillsAs s ks) : FillsAs (writeCharString t ++ s) (.chars :: ks) := by
  have hput := h.put (l := [.chars (t.take 255)]) (by simp [FieldValue.kind, FieldValue.Ok])
  simpa [valuesWire, FieldValue.wire, FieldValue.kind, writeCharString, Nat.min_comm] using hput

end FillsAs

section typed

variable {rec : DnsRecord} {hasCtx : Bool} {bs : List UInt8}

lemma soa_fills (hcache : rec.cache = .empty) (h : emission (soaScript hasCtx rec) = some bs) :
    ∃ vs : List FieldValue, Fills (soaScript hasCtx rec) vs ∧
      vs.map FieldValue.kind = [.name, .name, .u32, .u32, .u32, .u32, .u32] ∧ (∀ v ∈ vs, v.Ok) ∧
      vs.take 3 ++ (vs.drop 3).map clampTimer = vs := by
  rw [soaScript] at h ⊢
  split at h
  · cases h
  rw [if_neg ‹_›]
  simp only [hcache] at h ⊢
  obtain ⟨_, _, hm, h⟩ := emission_cons_some h
  obtain ⟨_, _, hr, -⟩ := emission_cons_some h
  obtain ⟨m, hm, hmv⟩ := @meant_of_emission (.dnsName _) _ trivial hm
  obtain ⟨r, hr, hrv⟩ := @meant_of_emission (.dnsName _) _ trivial hr
  have hserial : strtoul32 (rec.rd 2) < 4294967296 := Nat.mod_lt _ (by decide)
  have httl := fun i => parseTtlValue_le (rec.rd i)
  have h3 := httl 3
  have h4 := httl 4
  have h5 := httl 5
  have h6 := httl 6
  refine ⟨.name m :: .name r :: (soaNumbers rec).map .u32 ++ [], ?_, rfl, ?_, ?_⟩
  · refine .name hm (.name hr ?_)
    have hput : (soaNumbers rec).flatMap be32 = valuesWire ((soaNumbers rec).map .u32) := by
      simp [valuesWire, FieldValue.wire, flatMap_map]
    rw [hput]
    exact .put (by simp [FieldValue.kind]) .nil
  · simp only [soaNumbers, map_cons, map_nil, append_nil, forall_mem_cons, FieldValue.Ok,
      not_mem_nil, false_implies, implies_true, and_true]
    exact ⟨hmv, hrv, hserial, by omega, by omega, by omega, by omega⟩
  · simp [soaNumbers, clampTimer, h3, h4, h5, h6]

/-- The script of a type with a reader fills the fields of the reader; the timers of SOA are
written within their limit. -/
lemma typed_fills {r : RdataReader} (hcache : rec.cache = .empty)
    (hr : rdataReaders.lookup rec.typeCode.toNat = some r)
    (h : emission (rdataScript hasCtx rec) = some bs) :
    ∃ vs : List FieldValue, Fills (rdataScript hasCtx rec) vs ∧ vs.map FieldValue.kind = r.fields ∧
      (∀ v ∈ vs, v.Ok) ∧ servedValues rec.typeCode.toNat vs = vs := by
  have hform := reader_form _ (lookup_mem hr)
  simp only [mem_cons, not_mem_nil, or_false, Prod.mk.injEq] at hform
  rcases hform with ⟨htype, hfields, hform⟩ | ⟨htype, hform⟩
  · rw [rdataScript, hform] at h ⊢
    obtain ⟨vs, hfills, hk, hok, hserved⟩ := soa_fills hcache h
    exact ⟨vs, hfills, hk.trans hfields.symm, hok, (if_pos htype).trans hserved⟩
  suffices hfills : FillsAs (rdataScript hasCtx rec) r.fields by
    obtain ⟨vs, hfills, hk, hok⟩ := hfills bs h
    exact ⟨vs, hfills, hk, hok, if_neg htype⟩
  clear h
  rcases hform with ⟨hfields, hform⟩ | ⟨hfields, hform⟩ | ⟨hfields, hform⟩ | ⟨hfields, hform⟩ |
    ⟨hfields, hform⟩ | ⟨hfields, hform⟩ | ⟨hfields, hform⟩ | ⟨hfields, hform⟩ | ⟨hfields, hform⟩ |
    ⟨hfields, hform⟩
  all_goals
    rw [rdataScript, hform, hfields]
    simp only [hostNameScript, plainNameScript, srvScript, mxScript, hcache]
  · exact .address (v := .addr4) (by simp) (fun _ => ⟨rfl, rfl⟩) fun _ => inetPton4_length
  · exact .guard fun _ => .name trivial .nil
  · exact .guard fun _ => .name trivial .nil
  · exact .guard fun _ => .name trivial (.name trivial .nil)
  · exact .guard fun _ => .name trivial (.name trivial .nil)
  · exact .guard fun _ => .u16s 1 (.name trivial .nil)
  · exact .guard fun _ => .u16s 1 (.name trivial (.name trivial .nil))
  · exact .guard fun _ => .u16s 3 (.name trivial .nil)
  · exact .guard fun _ => .orFail fun pref hpref =>
      .put (l := [.u16 pref]) (by simpa [FieldValue.kind, FieldValue.Ok] using parseU16_lt hpref)
        (.name trivial .nil)
  · exact .address (v := .addr6) (by simp) (fun _ => ⟨rfl, rfl⟩) fun _ => inetPton6_length

lemma naptr_fills (htype : rec.typeCode.toNat = 35) :
    FillsAs (rdataScript hasCtx rec) naptrFields := by
  have hform : rdataForm rec.typeCode.toNat = .naptr := by rw [htype]; decide
  rw [rdataScript, hform]
  refine .guard fun hcount => .u16s 2 ?_
  obtain ⟨s1, s2, s3, t, rest, hrest⟩ : ∃ s1 s2 s3 t rest, rec.rdata.drop 2 = s1 :: s2 ::
      s3 :: t :: rest := by
    have hlen := length_drop (i := 2) (l := rec.rdata)
    rcases hd : rec.rdata.drop 2 with _ | ⟨s1, _ | ⟨s2, _ | ⟨s3, _ | ⟨t, rest⟩⟩⟩⟩
    case cons.cons.cons.cons => exact ⟨s1, s2, s3, t, rest, rfl⟩
    all_goals
      simp only [hd, length_cons, length_nil] at hlen
      omega
  have htail := (FillsAs.name (a := .textName t) trivial .nil).chars s3 |>.chars s2 |>.chars s1
  simpa [hrest] using htail

lemma txtChunks_values : ∀ {fuel : Nat} {s : Text}, s.length < fuel →
    ∃ ss : List Text, ss ≠ [] ∧ (∀ t ∈ ss, t.length ≤ 255) ∧
      txtChunks fuel s = valuesWire (ss.map .chars)
  | fuel + 1, s, hfuel => by
    rw [txtChunks]
    by_cases hlen : s.length ≤ 255
    · refine ⟨[s], by simp, by simpa using hlen, ?_⟩
      rw [if_pos hlen]
      simp [valuesWire, FieldValue.wire]
    obtain ⟨ss, -, hss, hrest⟩ := @txtChunks_values fuel (s.drop 255) (by simp; omega)
    refine ⟨s.take 255 :: ss, by simp, ?_, ?_⟩
    · simpa using hss
    have hcount : (s.take 255).length = 255 := by simp; omega
    rw [if_neg hlen, hrest]
    simp only [valuesWire, map_cons, flatMap_cons, FieldValue.wire, hcount]
    rfl

lemma txtWire_strings : ∀ {ts : List Text}, ts ≠ [] →
    ∃ ss : List Text, ss ≠ [] ∧ (∀ t ∈ ss, t.length ≤ 255) ∧ txtWire ts = valuesWire (ss.map .chars)
  | [t], _ => by simpa [txtWire] using @txtChunks_values (t.length + 1) t (Nat.lt_add_one _)
  | t :: u :: ts, _ => by
    obtain ⟨ss, hne, hss, hhead⟩ := @txtChunks_values (t.length + 1) t (Nat.lt_add_one _)
    obtain ⟨ss', -, hss', htail⟩ := @txtWire_strings (u :: ts) (by simp)
    refine ⟨ss ++ ss', by simp [hne], ?_, ?_⟩
    · intro x hx
      rcases mem_append.mp hx with hx | hx
      · exact hss x hx
      · exact hss' x hx
    have hcons : txtWire (t :: u :: ts) = txtChunks (t.length + 1) t ++ txtWire (u :: ts) := rfl
    rw [hcons, hhead, htail]
    simp [valuesWire]

lemma txt_fills (hcache : rec.cache = .empty) (htype : rec.typeCode.toNat = 16)
    (h : emission (rdataScript hasCtx rec) = some bs) :
    ∃ ss : List Text, ss ≠ [] ∧ (∀ t ∈ ss, t.length ≤ 255) ∧
      Fills (rdataScript hasCtx rec) (ss.map .chars) := by
  have hform : rdataForm rec.typeCode.toNat = .txt := by rw [htype]; decide
  rw [rdataScript, hform] at h ⊢
  simp only [txtScript, hcache] at h ⊢
  split at h
  · cases h
  rename_i hlen
  obtain ⟨ss, hne, hss, hwire⟩ := @txtWire_strings rec.rdata (by rintro hnil; simp [hnil] at hlen)
  refine ⟨ss, hne, hss, ?_⟩
  rw [if_neg hlen, hwire, ← append_nil (ss.map _)]
  have hfills := @Fills.put (ss.map .chars) [] [] (by simp [FieldValue.kind]) .nil
  simpa using hfills

end typed

/-- The script of a record kept as text fills values of the type's shape. -/
lemma rdataScript_fills {rec : DnsRecord} {hasCtx : Bool} (hcache : rec.cache = .empty)
    (htext : parsedAsText rec.typeCode.toNat = true)
    (h : emission (rdataScript hasCtx rec) = some bs) :
    ∃ vs : List FieldValue, Fills (rdataScript hasCtx rec) vs ∧ Shape rec.typeCode.toNat vs ∧
      (∀ v ∈ vs, v.Ok) ∧ servedValues rec.typeCode.toNat vs = vs := by
  cases hr : rdataReaders.lookup rec.typeCode.toNat with
  | some r =>
    obtain ⟨vs, hfills, hk, hok, hserved⟩ := typed_fills hcache hr h
    refine ⟨vs, hfills, ?_, hok, hserved⟩
    rw [Shape, hr]
    exact hk
  | none =>
    have htype : rec.typeCode.toNat = 35 ∨ rec.typeCode.toNat = 16 := by
      simpa [parsedAsText, hr] using htext
    rcases htype with htype | htype
    · obtain ⟨vs, hfills, hk, hok⟩ := naptr_fills htype _ h
      refine ⟨vs, hfills, ?_, hok, if_neg (by omega)⟩
      rw [Shape, hr]
      exact .inl ⟨htype, hk⟩
    obtain ⟨ss, hne, hss, hfills⟩ := txt_fills hcache htype h
    refine ⟨ss.map .chars, hfills, ?_, by simpa [FieldValue.Ok] using hss, if_neg (by omega)⟩
    rw [Shape, hr]
    exact .inr ⟨htype, ss, hne, rfl⟩

/-! ### What the reader finds where a script was laid out -/

/-- The same value, ASCII case aside in a name. -/
def FieldValue.Same : FieldValue → FieldValue → Prop
  | .name n, .name n' => DomainName.Same n n'
  | v, v' => v = v'

lemma FieldValue.Same.refl (v : FieldValue) : v.Same v := by
  cases v with
  | name n => exact DomainName.Same.refl n
  | _ => rfl

lemma FieldValue.Same.kind {v v' : FieldValue} (h : v.Same v') : v.kind = v'.kind := by
  cases v <;> cases v' <;> first | rfl | cases h

lemma FieldValue.Same.clampTimer {v v' : FieldValue} (h : v.Same v') (hv : clampTimer v' = v') :
    clampTimer v = v := by
  cases v with
  | u32 a =>
    cases v' <;> cases h
    exact hv
  | _ => rfl

lemma same_kinds {vs' : List FieldValue} (h : List.Forall₂ FieldValue.Same vs' vs) :
    vs'.map FieldValue.kind = vs.map FieldValue.kind := by
  induction h with
  | nil => rfl
  | cons hv _ ih => simp [hv.kind, ih]

/-- A name that is good where it stands is read there. -/
lemma NameMark.Good.read {m : Buf} {p e packetLen : Nat} {n : Name}
    (h : (NameMark.mk p e n).Good noHold m) (hle : e ≤ packetLen) :
      ∃ n', DomainName.Same n' n ∧ FieldValue.Read m packetLen p e (.name n') := by
  obtain ⟨hv, n', hsame, hreads⟩ := h
  have hin : ∀ i, Settled noHold e i → i < packetLen := fun i hi => Nat.lt_of_lt_of_le hi.1 hle
  have hv' : Valid n' := Valid.of_same hsame hv
  refine ⟨n', hsame, hv', hreads.spells hin, filter_eq_some_iff.mpr ⟨?_, by simp⟩⟩
  exact expandWireNameToBuffer_reads hin hreads hv' (Nat.le_refl _)

/-- Where a script is laid out the reader finds the values it fills. -/
lemma Fills.read {m : Buf} {packetLen : Nat} (h : Fills s vs) :
    ∀ {ks : List NameMark} {p e : Nat}, LaidOut noHold m s ks p e → e ≤ packetLen →
      (∀ v ∈ vs, v.Ok) →
      ∃ vs' : List FieldValue, List.Forall₂ FieldValue.Same vs' vs ∧
        FieldsRead m packetLen p vs' e := by
  induction h with
  | nil =>
    intro ks p e hlaid _ _
    cases hlaid
    exact ⟨[], .nil, .nil⟩
  | @name a n s vs hm _ ih =>
    intro ks p e hlaid hle hok
    cases hlaid with
    | cons _ hat hrest =>
      obtain ⟨vs', hsame, hread⟩ := ih hrest hle fun v hv => hok v (mem_cons_of_mem _ hv)
      obtain ⟨n', hsame', hn⟩ : ∃ n', DomainName.Same n' n ∧
          FieldValue.Read m packetLen p _ (.name n') := by
        have hend := Nat.le_trans hrest.le hle
        cases a with
        | need _ => cases hm
        | put _ => cases hm
        | fail => cases hm
        | _ =>
          obtain ⟨k, hk, hgood⟩ := hat
          rw [hm] at hk
          cases hk
          exact hgood.read hend
      exact ⟨.name n' :: vs', .cons hsame' hsame, .cons hn hread⟩
  | @put us vs s _ _ ih =>
    intro ks p e hlaid hle hok
    cases hlaid with
    | cons _ hat hrest =>
      obtain ⟨hholds, rfl⟩ := hat
      obtain ⟨vs', hsame, hread⟩ := ih hrest hle fun v hv => hok v (mem_append_right _ hv)
      refine ⟨us ++ vs', ?_, ?_⟩
      · exact rel_append (forall₂_same.mpr fun v _ => .refl v) hsame
      refine FieldsRead.append ?_ hread
      exact fieldsRead_of_holds (fun v hv => hok v (mem_append_left _ hv)) hholds
        (Nat.le_trans hrest.le hle)

end KariDns
