import KariDns.Libc.Print
import KariDns.Wire.Parse
import KariDns.Wire.Plain

/-! RDATA as a list of values.

The reader of messages turns RDATA into text and the writer turns text into RDATA; the two
meet at the values of the fields. `FieldsAt` says that values stand in a packet, names
perhaps compressed. Reading finds values that stand there (`readFields_sound`), and writing
their texts stores their wire forms (`typed_emission`).
-/

namespace KariDns

open Octets DomainName List Option

variable {m : Buf} {rec : DnsRecord} {v : FieldValue} {vs : List FieldValue} {n : Name}
    {e p packetLen stop : Nat}

/-! ### Values -/

/-- The value of a field. -/
inductive FieldValue
  | name (n : Name)
  | u16 (v : Nat)
  | u32 (v : Nat)
  | addr4 (a : List UInt8)
  | addr6 (a : List UInt8)
  | chars (s : List UInt8)
  deriving DecidableEq

def FieldValue.kind : FieldValue → WireField
  | .name _ => .name
  | .u16 _ => .u16
  | .u32 _ => .u32
  | .addr4 _ => .addr4
  | .addr6 _ => .addr6
  | .chars _ => .chars

/-- The text the reader gives a value. -/
def FieldValue.text : FieldValue → Text
  | .name n => nameText n
  | .u16 v | .u32 v => decimal v
  | .addr4 a => inetNtop4 a
  | .addr6 a => inetNtop6 a
  | .chars s => s

/-- The wire form, names in full. -/
def FieldValue.wire : FieldValue → List UInt8
  | .name n => DomainName.wire n
  | .u16 v => be16 v
  | .u32 v => be32 v
  | .addr4 a | .addr6 a => a
  | .chars s => UInt8.ofNat s.length :: s

/-- A value that the wire can hold. -/
def FieldValue.Ok : FieldValue → Prop
  | .name n => Valid n
  | .u16 v => v < 65536
  | .u32 v => v < 4294967296
  | .addr4 a => a.length = 4
  | .addr6 a => a.length = 16
  | .chars s => s.length ≤ 255

/-- The value stands at `p`, the octet behind it being `e`. -/
def FieldValue.At (m : Buf) (packetLen p e : Nat) : FieldValue → Prop
  | .name n => Spells m packetLen p n e
  | v => Holds m p v.wire ∧ e = p + v.wire.length

/-- Values stand one behind the other. -/
inductive FieldsAt (m : Buf) (packetLen : Nat) : Nat → List FieldValue → Nat → Prop
  | nil {p : Nat} : FieldsAt m packetLen p [] p
  | cons {p e e' : Nat} {v : FieldValue} {vs : List FieldValue} : v.Ok → v.At m packetLen p e →
      FieldsAt m packetLen e vs e' → FieldsAt m packetLen p (v :: vs) e'

/-! ### Reading finds what stands there -/

lemma readField_sound {f : WireField} {t : Text}
    (h : readField m packetLen stop p f = some (t, e)) :
    ∃ v : FieldValue, v.kind = f ∧ v.Ok ∧ v.At m packetLen p e ∧ t = v.text ∧ e ≤ stop := by
  cases f with
  | name =>
    obtain ⟨h, hle⟩ := filter_eq_some_iff.mp h
    obtain ⟨n, hv, hs, rfl⟩ := expandWireNameToBuffer_sound h
    exact ⟨.name n, rfl, hv, hs, rfl, by simpa using hle⟩
  | u16 =>
    obtain ⟨hfit, h⟩ := ite_none_left_eq_some.mp h
    obtain ⟨rfl, rfl⟩ := Prod.mk.inj (some.inj h)
    refine ⟨.u16 (getU16 m p), rfl, getU16_lt m p, ⟨?_, rfl⟩, rfl, by omega⟩
    rw [FieldValue.wire, be16_getU16]
    exact holds_slice m p 2
  | u32 =>
    obtain ⟨hfit, h⟩ := ite_none_left_eq_some.mp h
    obtain ⟨rfl, rfl⟩ := Prod.mk.inj (some.inj h)
    refine ⟨.u32 (getU32 m p), rfl, getU32_lt m p, ⟨?_, rfl⟩, rfl, by omega⟩
    rw [FieldValue.wire, be32_getU32]
    exact holds_slice m p 4
  | addr4 =>
    obtain ⟨hfit, h⟩ := ite_none_left_eq_some.mp h
    obtain ⟨rfl, rfl⟩ := Prod.mk.inj (some.inj h)
    exact ⟨.addr4 (slice m p 4), rfl, slice_length m p 4,
      ⟨holds_slice m p 4, by simp [FieldValue.wire]⟩, rfl, by omega⟩
  | addr6 =>
    obtain ⟨hfit, h⟩ := ite_none_left_eq_some.mp h
    obtain ⟨rfl, rfl⟩ := Prod.mk.inj (some.inj h)
    exact ⟨.addr6 (slice m p 16), rfl, slice_length m p 16,
      ⟨holds_slice m p 16, by simp [FieldValue.wire]⟩, rfl, by omega⟩
  | chars =>
    obtain ⟨hfit, h⟩ := ite_none_left_eq_some.mp h
    obtain ⟨rfl, rfl⟩ := Prod.mk.inj (some.inj h)
    have hlt := (m p).toNat_lt
    refine ⟨.chars (slice m (p + 1) (m p).toNat), rfl, ?_, ⟨?_, ?_⟩, rfl, by omega⟩
    · rw [FieldValue.Ok, slice_length]
      omega
    · rw [FieldValue.wire, holds_cons, slice_length, UInt8.ofNat_toNat]
      exact ⟨rfl, holds_slice m (p + 1) _⟩
    · simp [FieldValue.wire]
      omega

lemma readFields_sound : ∀ {fs : List WireField} {p e : Nat} {ts : List Text},
    p ≤ stop → readFields m packetLen stop fs p = some (ts, e) →
    ∃ vs : List FieldValue, vs.map FieldValue.kind = fs ∧ FieldsAt m packetLen p vs e ∧
      ts = vs.map FieldValue.text ∧ e ≤ stop
  | [], p, e, ts, hp, h => by
    obtain ⟨rfl, rfl⟩ := Prod.mk.inj (some.inj h)
    exact ⟨[], rfl, .nil, rfl, hp⟩
  | f :: fs, p, e, ts, _, h => by
    rw [readFields] at h
    split at h
    · cases h
    rename_i t p' hf
    obtain ⟨v, hk, hok, hat, rfl, hle⟩ := readField_sound hf
    obtain ⟨⟨ts', e'⟩, hrest, heq⟩ := map_eq_some_iff.mp h
    obtain ⟨rfl, rfl⟩ := Prod.mk.inj heq
    obtain ⟨vs, hks, hats, rfl, hle'⟩ := readFields_sound hle hrest
    exact ⟨v :: vs, by simp [hk, hks], .cons hok hat hats, rfl, hle'⟩

/-! ### A place holds one value of a kind -/

/-- Values of one kind that stand at one place are one value. -/
lemma FieldValue.At.unique {e' : Nat} {v' : FieldValue} (hk : v.kind = v'.kind) (hok : v.Ok)
    (hok' : v'.Ok) (h : v.At m packetLen p e) (h' : v'.At m packetLen p e') : v = v' ∧ e = e' := by
  -- two runs of one length at one place are one run
  have hsame : ∀ {bs cs : List UInt8}, bs.length = cs.length → Holds m p bs →
      Holds m p cs → bs = cs := by
    intro bs cs hlen hb hc
    rw [← hb, ← hc, hlen]
  cases v with
  | name n =>
    cases v' <;> cases hk
    obtain ⟨rfl, rfl⟩ := spells_unique h h'
    exact ⟨rfl, rfl⟩
  | u16 v =>
    cases v' <;> cases hk
    obtain rfl := (getU16_of_holds h.1 hok).symm.trans (getU16_of_holds h'.1 hok')
    exact ⟨rfl, h.2.trans h'.2.symm⟩
  | u32 v =>
    cases v' <;> cases hk
    obtain rfl := (getU32_of_holds h.1 hok).symm.trans (getU32_of_holds h'.1 hok')
    exact ⟨rfl, h.2.trans h'.2.symm⟩
  | addr4 a =>
    cases v' <;> cases hk
    obtain rfl := hsame (hok.trans (Eq.symm hok')) h.1 h'.1
    exact ⟨rfl, h.2.trans h'.2.symm⟩
  | addr6 a =>
    cases v' <;> cases hk
    obtain rfl := hsame (hok.trans (Eq.symm hok')) h.1 h'.1
    exact ⟨rfl, h.2.trans h'.2.symm⟩
  | chars s =>
    cases v' with
    | chars s' =>
      have hlen : s.length = s'.length := by
        have h1 := congrArg UInt8.toNat ((holds_cons.mp h.1).1.symm.trans (holds_cons.mp h'.1).1)
        rw [UInt8.toNat_ofNat', UInt8.toNat_ofNat'] at h1
        change s.length ≤ 255 at hok
        change s'.length ≤ 255 at hok'
        omega
      obtain ⟨-, rfl⟩ := List.cons.inj (hsame (by simp [hlen]) h.1 h'.1)
      exact ⟨rfl, h.2.trans h'.2.symm⟩
    | _ => cases hk

lemma FieldsAt.unique (h : FieldsAt m packetLen p vs e) : ∀ {vs' : List FieldValue} {e' : Nat},
    vs.map FieldValue.kind = vs'.map FieldValue.kind → FieldsAt m packetLen p vs' e' →
      vs = vs' ∧ e = e' := by
  induction h with
  | nil =>
    intro vs' e' hk h'
    cases h' with
    | nil => exact ⟨rfl, rfl⟩
    | cons => cases hk
  | cons hok hat _ ih =>
    intro vs' e' hk h'
    cases h' with
    | nil => cases hk
    | cons hok' hat' hrest' =>
      rw [map_cons, map_cons, List.cons.injEq] at hk
      obtain ⟨rfl, rfl⟩ := hat.unique hk.1 hok hok' hat'
      obtain ⟨rfl, rfl⟩ := ih hk.2 hrest'
      exact ⟨rfl, rfl⟩

lemma FieldsAt.ok (h : FieldsAt m packetLen p vs e) : ∀ v ∈ vs, v.Ok := by
  induction h with
  | nil => simp
  | cons hok _ _ ih => simpa using ⟨hok, ih⟩

lemma FieldsAt.append {e' : Nat} {vs' : List FieldValue} (h : FieldsAt m packetLen p vs e)
    (h' : FieldsAt m packetLen e vs' e') : FieldsAt m packetLen p (vs ++ vs') e' := by
  induction h with
  | nil => exact h'
  | cons hok hat _ ih => exact .cons hok hat (ih h')

/-! ### Writing the texts stores the wire forms -/

/-- The timers of SOA are written as TTLs: at most the greatest signed value. -/
def clampTimer : FieldValue → FieldValue
  | .u32 v => .u32 (min v 2147483647)
  | v => v

/-- The values a record of the given type is served with. -/
def servedValues (type : Nat) (vs : List FieldValue) : List FieldValue :=
  if type = 6 then vs.take 3 ++ (vs.drop 3).map clampTimer else vs

/-- The wire form of values. -/
def valuesWire (vs : List FieldValue) : List UInt8 := vs.flatMap FieldValue.wire

/-- Every reader goes with one form of RDATA. -/
lemma reader_form : ∀ e ∈ rdataReaders, (e.1, e.2.fields, rdataForm e.1) ∈
    [(6, [.name, .name, .u32, .u32, .u32, .u32, .u32], .soa)] ∨
    e.1 ≠ 6 ∧ (e.2.fields, rdataForm e.1) ∈
      [([.addr4], .a), ([.name], .hostName), ([.name], .plainName), ([.name, .name], .minfo),
        ([.name, .name], .twoNames), ([.u16, .name], .prefName), ([.u16, .name, .name], .px),
        ([.u16, .u16, .u16, .name], .srv), ([.u16, .name], .mx), ([.addr6], RdataForm.aaaa)] := by
  decide

lemma kind_iff : (v.kind = .name ↔ ∃ n, v = .name n) ∧ (v.kind = .chars ↔ ∃ s, v = .chars s) ∧
    (v.kind = .u16 ↔ ∃ n, v = .u16 n) ∧ (v.kind = .u32 ↔ ∃ n, v = .u32 n) ∧
    (v.kind = .addr4 ↔ ∃ a, v = .addr4 a) ∧ (v.kind = .addr6 ↔ ∃ a, v = .addr6 a) := by
  cases v <;> simp [FieldValue.kind]

/-- The texts of addresses and names are read back. -/
lemma inetPton4_text {a : List UInt8} (h : a.length = 4) : inetPton4 (inetNtop4 a) = some a := by
  match a, h with
  | [p, q, r, s], _ => exact inetPton4_ntop4 p q r s

/-- The texts of values are read back. -/
lemma texts_read (hok : ∀ v ∈ vs, v.Ok) : (∀ n, .name n ∈ vs → readName (nameText n) = some n) ∧
    (∀ k, .u16 k ∈ vs → parseU16 (decimal k) = some k) ∧
    (∀ k, .u32 k ∈ vs → strtoul32 (decimal k) = k ∧ parseTtlValue (decimal k) = min k 2147483647) ∧
    (∀ a, .addr4 a ∈ vs → inetPton4 (inetNtop4 a) = some a) ∧ ∀ a, .addr6 a ∈ vs →
      inetPton6 (inetNtop6 a) = some a :=
  ⟨fun _ h => readName_nameText (hok _ h), fun _ h => parseU16_decimal (hok _ h),
    fun _ h => ⟨strtoul32_decimal (hok _ h), parseTtlValue_decimal (hok _ h)⟩, fun _ h =>
      inetPton4_text (hok _ h),
    fun _ h => inetPton6_ntop6 (hok _ h)⟩

/-- The RDATA that the texts of values are written as. -/
lemma typed_emission {r : RdataReader} (hcache : rec.cache = .empty)
    (hr : rdataReaders.lookup rec.typeCode.toNat = some r) (hk : vs.map FieldValue.kind = r.fields)
    (hok : ∀ v ∈ vs, v.Ok) (hrd : rec.rdata = vs.map FieldValue.text) :
    emission (rdataScript false rec) = some (valuesWire (servedValues rec.typeCode.toNat vs)) := by
  obtain ⟨hname, hu16, hu32, haddr4, haddr6⟩ := texts_read hok
  have hform := reader_form _ (lookup_mem hr)
  simp only [mem_cons, not_mem_nil, or_false, Prod.mk.injEq] at hform
  rcases hform with ⟨htype, hfields, hform⟩ | ⟨htype,
    ⟨hfields, hform⟩ | ⟨hfields, hform⟩ | ⟨hfields, hform⟩ |
    ⟨hfields, hform⟩ | ⟨hfields, hform⟩ | ⟨hfields, hform⟩ | ⟨hfields, hform⟩ | ⟨hfields,
      hform⟩ | ⟨hfields, hform⟩ |
    ⟨hfields, hform⟩⟩
  all_goals
    rw [hfields] at hk
    simp [map_eq_cons_iff, kind_iff] at hk
    rw [rdataScript, hform, servedValues]
    repeat obtain ⟨_, hk⟩ := hk
    simp [htype, hcache, hrd, addressScript, hostNameScript, plainNameScript, mxScript, srvScript,
      soaScript, soaNumbers, withFields, fixedFields, u16Field, DnsRecord.rd, FieldValue.text,
      FieldValue.wire, emission, Act.emission, valuesWire, clampTimer, hname, hu16, hu32, haddr4,
      haddr6]

/-! ### NAPTR and TXT -/

lemma writeCharString_emission {s : Text} (h : s.length ≤ 255) (rest : Script) :
    emission (writeCharString s ++ rest) =
      (emission rest).map (FieldValue.wire (.chars s) ++ ·) := by
  rw [writeCharString, singleton_append, emission, Act.emission, Nat.min_eq_left h,
    take_of_length_le h]
  rfl

lemma naptr_emission {order pref : Nat} {s1 s2 s3 : Text} (htype : rec.typeCode.toNat = 35)
    (ho : order < 65536) (hp : pref < 65536) (h1 : s1.length ≤ 255) (h2 : s2.length ≤ 255)
    (h3 : s3.length ≤ 255) (hn : Valid n)
    (hrd : rec.rdata = [decimal order, decimal pref, s1, s2, s3, nameText n]) :
    emission (rdataScript false rec) =
      some (valuesWire [.u16 order, .u16 pref, .chars s1, .chars s2, .chars s3, .name n]) := by
  have hform : rdataForm rec.typeCode.toNat = .naptr := by rw [htype]; decide
  have hscript : rdataScript false rec = .put (be16 order ++ be16 pref) ::
      (writeCharString s1 ++
        (writeCharString s2 ++ (writeCharString s3 ++ [.textName (nameText n)]))) := by
    rw [rdataScript, hform]
    simp [withFields, hrd, fixedFields, u16Field, parseU16_decimal ho, parseU16_decimal hp]
  rw [hscript, emission, writeCharString_emission h1, writeCharString_emission h2,
    writeCharString_emission h3]
  simp [emission, Act.emission, readName_nameText hn, valuesWire, FieldValue.wire]

lemma txtWire_values : ∀ {ss : List Text}, (∀ s ∈ ss, s.length ≤ 255) →
    txtWire ss = valuesWire (ss.map .chars)
  | [], _ => rfl
  | s :: ss, h => by
    have hs := h s mem_cons_self
    have ih := txtWire_values fun t ht => h t (mem_cons_of_mem _ ht)
    unfold txtWire at ih ⊢
    rw [flatMap_cons, ih, txtChunks, if_pos hs]
    rfl

lemma txt_emission (hcache : rec.cache = .empty) (htype : rec.typeCode.toNat = 16)
    (hne : rec.rdata ≠ []) (hs : ∀ s ∈ rec.rdata, s.length ≤ 255) :
    emission (rdataScript false rec) = some (valuesWire (rec.rdata.map .chars)) := by
  have hform : rdataForm rec.typeCode.toNat = .txt := by rw [htype]; decide
  rw [rdataScript, hform]
  simp [txtScript, hcache, hne, emission, Act.emission, txtWire_values hs]

/-- Values without names are the octets at their place. -/
lemma FieldsAt.holds (h : FieldsAt m packetLen p vs e) (hk : ∀ v ∈ vs, v.kind ≠ .name) :
    Holds m p (valuesWire vs) ∧ e = p + (valuesWire vs).length := by
  induction h with
  | nil => exact ⟨holds_nil _ _, rfl⟩
  | @cons p e e' v vs _ hat _ ih =>
    obtain ⟨hrest, rfl⟩ := ih fun w hw => hk w (mem_cons_of_mem _ hw)
    have hv : Holds m p v.wire ∧ e = p + v.wire.length := by
      cases v with
      | name n => exact absurd rfl (hk (.name n) mem_cons_self)
      | _ => exact hat
    obtain ⟨hw, rfl⟩ := hv
    rw [valuesWire, flatMap_cons, holds_append, length_append, Nat.add_assoc]
    exact ⟨⟨hw, hrest⟩, rfl⟩

/-- An address stands as its octets. -/
lemma FieldsAt.address {fs : List WireField} {l : Nat} (h : FieldsAt m packetLen p vs e)
    (hk : vs.map FieldValue.kind = fs) (hfs : fs = [.addr4] ∧ l = 4 ∨ fs = [.addr6] ∧ l = 16) :
    Holds m p (valuesWire vs) ∧ (valuesWire vs).length = l ∧ e = p + l := by
  have hok := h.ok
  obtain ⟨hholds, rfl⟩ := h.holds (by
    intro v hv hname
    have := List.mem_map_of_mem (f := FieldValue.kind) hv
    rw [hk, hname] at this
    rcases hfs with ⟨hf, -⟩ | ⟨hf, -⟩ <;> simp [hf] at this)
  have hlen : (valuesWire vs).length = l := by
    rcases hfs with ⟨rfl, rfl⟩ | ⟨rfl, rfl⟩
    all_goals
      simp only [map_eq_cons_iff, map_eq_nil_iff, kind_iff] at hk
      obtain ⟨_, _, rfl, ⟨a, rfl⟩, rfl⟩ := hk
      simpa [valuesWire, FieldValue.wire, FieldValue.Ok] using hok _ mem_cons_self
  exact ⟨hholds, hlen, by rw [hlen]⟩

lemma txtStrings_sound :
    ∀ {fuel p : Nat} {ts : List Text}, p ≤ stop → txtStrings m stop fuel p = some ts →
    FieldsAt m 0 p (ts.map .chars) stop
  | fuel + 1, p, ts, hp, h => by
    rw [txtStrings] at h
    split at h
    · rename_i hge
      obtain rfl := some.inj h
      obtain rfl : p = stop := by omega
      exact .nil
    split at h
    · cases h
    rename_i t p' hf
    obtain ⟨v, hk, hok, hat, rfl, hle⟩ := readField_sound hf
    obtain ⟨s, rfl⟩ := kind_iff.2.1.mp hk
    obtain ⟨ts', hrest, rfl⟩ := map_eq_some_iff.mp h
    exact .cons hok hat (txtStrings_sound hle hrest)

end KariDns
