import KariDns.Image.Thaw
import KariDns.Zone.Compare

/-! What `compare_records` decides.

Of records that can be written, those compare equal whose canonical RDATA is equal: the comparison
of the texts only saves work. The TTLs however are compared as they are spelled.
-/

namespace KariDns

open Octets DomainName List Option

/-! ### The canonical form of RDATA (RFC 4034 6.2) -/

/-- What RDATA consists of up to its last name. -/
inductive RdataField
  | octets (n : Nat)
  | characterString
  | name

/-- The labels at the front of octets, and what follows them. -/
def frontLabels : List UInt8 → Name × List UInt8
  | [] => ([], [])
  | l :: rest =>
    if 0 < l.toNat ∧ l.toNat ≤ 63 ∧ l.toNat ≤ rest.length then
      let r := frontLabels (rest.drop l.toNat)
      (rest.take l.toNat :: r.1, r.2)
    else ([], l :: rest)
termination_by bs => bs.length
decreasing_by rw [length_drop, length_cons]; omega

/-- RDATA of these fields with its names in lower case. Of a name that does not end the labels
are. -/
def lowerNames : List RdataField → List UInt8 → List UInt8
  | [], rd => rd
  | .octets n :: fields, rd => rd.take n ++ lowerNames fields (rd.drop n)
  | .characterString :: fields, rd =>
    let n := 1 + (rd.headD 0).toNat
    rd.take n ++ lowerNames fields (rd.drop n)
  | .name :: fields, rd =>
    labelsWire (fold (frontLabels rd).1) ++
      match (frontLabels rd).2 with
      | 0 :: behind => 0 :: lowerNames fields behind
      | broken => broken

/-- The fields of the types whose names are in lower case in canonical form: those of RFC 4034 6.2,
without NSEC (RFC 6840 5.1). -/
def canonicalFields (type : Nat) (rd : List UInt8) : List RdataField :=
  match type with
  -- NS, MD, MF, CNAME, MB, MG, MR, PTR, NXT, DNAME
  | 2 | 3 | 4 | 5 | 7 | 8 | 9 | 12 | 30 | 39 => [.name]
  -- SOA, MINFO, RP
  | 6 | 14 | 17 => [.name, .name]
  -- MX, AFSDB, RT, KX
  | 15 | 18 | 21 | 36 => [.octets 2, .name]
  -- PX
  | 26 => [.octets 2, .name, .name]
  -- SRV
  | 33 => [.octets 6, .name]
  -- SIG, RRSIG
  | 24 | 46 => [.octets 18, .name]
  -- NAPTR
  | 35 => [.octets 4, .characterString, .characterString, .characterString, .name]
  -- A6: the length of the prefix, the other bits of the address, the name of the prefix if any
  | 38 =>
    let prefixLen := (rd.headD 0).toNat
    if 0 < prefixLen ∧ prefixLen ≤ 128 then [.octets (1 + (128 - prefixLen + 7) / 8), .name] else []
  | _ => []

def canonicalRdata (type : Nat) (rd : List UInt8) : List UInt8 :=
  lowerNames (canonicalFields type rd) rd

lemma frontLabels_wire : ∀ {n : Name}, (∀ l ∈ n, LabelOk l) → ∀ rest : List UInt8,
    frontLabels (wire n ++ rest) = (n, 0 :: rest)
  | [], _, rest => by
    rw [wire_nil, cons_append, nil_append, frontLabels]
    simp
  | l :: n, h, rest => by
    have hl := h l mem_cons_self
    have hlen : (UInt8.ofNat l.length).toNat = l.length :=
      UInt8.toNat_ofNat_of_lt (hl.2.trans_lt (by decide))
    have hpos := length_pos_of_ne_nil hl.1
    have ih := frontLabels_wire (fun k hk => h k (mem_cons_of_mem _ hk)) rest
    rw [wire_cons, append_assoc, labelWire, cons_append, frontLabels, hlen,
      if_pos ⟨hpos, hl.2, by simp⟩]
    simp [ih]

lemma frontLabels_append (bs : List UInt8) :
    labelsWire (frontLabels bs).1 ++ (frontLabels bs).2 = bs := by
  fun_induction frontLabels bs with
  | case1 => rfl
  | case2 l rest h r ih =>
    have hlen : (rest.take l.toNat).length = l.toNat := length_take_of_le h.2.2
    have hrest : labelsWire r.1 ++ r.2 = rest.drop l.toNat := ih
    simp only [labelsWire, flatMap_cons, labelWire, hlen, UInt8.ofNat_toNat, cons_append,
      append_assoc] at hrest ⊢
    rw [hrest, take_append_drop]
  | case3 => rfl

/-- A whole name is written with its case folded. -/
lemma lowerNames_name {n : Name} (h : ∀ l ∈ n, LabelOk l) (fields : List RdataField)
    (rd : List UInt8) :
    lowerNames (.name :: fields) (wire n ++ rd) = wire (fold n) ++ lowerNames fields rd := by
  rw [lowerNames, frontLabels_wire h, wire_eq_labelsWire, append_assoc]
  rfl

/-! ### The code writes the canonical form -/

lemma downcaseWireName_eq : ∀ {fuel : Nat} {bs : List UInt8}, bs.length ≤ fuel →
    downcaseWireName fuel bs = (labelsWire (fold (frontLabels bs).1) ++ (frontLabels bs).2,
      if (frontLabels bs).2.head? = some 0 then (labelsWire (frontLabels bs).1).length + 1 else 0)
  | 0, [], _ => by simp [downcaseWireName, frontLabels, labelsWire]
  | fuel + 1, [], _ => by simp [downcaseWireName, frontLabels, labelsWire]
  | fuel + 1, l :: rest, h => by
    rw [downcaseWireName, frontLabels]
    by_cases hzero : l = 0
    · simp [hzero, labelsWire]
    have hpos : 0 < l.toNat := Nat.pos_of_ne_zero fun h => hzero (UInt8.toNat_inj.mp h)
    rw [if_neg hzero]
    by_cases hlong : l > 63 ∨ rest.length < l.toNat
    · have hnot : ¬ (0 < l.toNat ∧ l.toNat ≤ 63 ∧ l.toNat ≤ rest.length) := by
        rw [gt_iff_lt, UInt8.lt_iff_toNat_lt] at hlong
        have : (63 : UInt8).toNat = 63 := rfl
        omega
      simp [if_pos hlong, if_neg hnot, labelsWire, hzero]
    have hfit : 0 < l.toNat ∧ l.toNat ≤ 63 ∧ l.toNat ≤ rest.length := by
      rw [gt_iff_lt, UInt8.lt_iff_toNat_lt] at hlong
      have : (63 : UInt8).toNat = 63 := rfl
      omega
    have ih := @downcaseWireName_eq fuel (rest.drop l.toNat) (by simp at h ⊢; omega)
    rw [if_neg hlong, if_pos hfit]
    dsimp only
    rw [ih]
    have hlen : (rest.take l.toNat).length = l.toNat := by simp [hfit.2.2]
    simp only [fold_cons, labelsWire, flatMap_cons, labelWire, length_map, hlen, UInt8.ofNat_toNat,
      length_append, length_cons]
    split <;> simp [Nat.add_comm, Nat.add_left_comm]

lemma lowerNames_last (rd : List UInt8) :
    lowerNames [.name] rd = labelsWire (fold (frontLabels rd).1) ++ (frontLabels rd).2 := by
  rw [lowerNames]
  split <;> simp_all [lowerNames]

lemma downcaseAt_eq (skip : Nat) (rd : List UInt8) :
    downcaseAt skip rd = lowerNames [.octets skip, .name] rd := by
  rw [lowerNames, lowerNames_last, downcaseAt]
  split
  · rw [downcaseWireName_eq (by simp)]
  · rename_i hshort
    simp [drop_eq_nil_of_le (not_lt.mp hshort), take_of_length_le (not_lt.mp hshort), frontLabels,
      labelsWire]

lemma downcaseTwoAt_eq (skip : Nat) (rd : List UInt8) :
    downcaseTwoAt skip rd = lowerNames [.octets skip, .name, .name] rd := by
  rw [lowerNames, lowerNames, downcaseTwoAt]
  split
  · rw [downcaseWireName_eq (by simp)]
    rcases hbehind : (frontLabels (rd.drop skip)).2 with _ | ⟨c, behind⟩
    · simp
    by_cases hend : c = 0
    · have hlen : (labelsWire (fold (frontLabels (rd.drop skip)).1)).length =
          (labelsWire (frontLabels (rd.drop skip)).1).length := by
        simp [labelsWire, fold, flatMap_map, labelWire, length_flatMap]
      have hfit : behind.length ≤ rd.length := by
        have := congrArg length (frontLabels_append (rd.drop skip))
        simp [hbehind] at this
        omega
      simp only [hend, head?_cons, if_true, ← hlen, Nat.zero_lt_succ, gt_iff_lt,
        take_length_add_append, drop_length_add_append, take_succ_cons, take_zero, drop_succ_cons,
        drop_zero, downcaseWireName_eq hfit, lowerNames_last, append_assoc, singleton_append]
    · simp [hend]
  · rename_i hshort
    simp [drop_eq_nil_of_le (not_lt.mp hshort), take_of_length_le (not_lt.mp hshort), frontLabels,
      labelsWire]

lemma lowerNames_nil : ∀ fields : List RdataField, lowerNames fields [] = []
  | [] => rfl
  | .octets _ :: fields | .characterString :: fields => by simp [lowerNames, lowerNames_nil fields]
  | .name :: fields => by simp [lowerNames, frontLabels, labelsWire]

/-- The name behind character-strings. -/
lemma downcaseAt_behindStrings (rd : List UInt8) :
    ∀ n off : Nat, downcaseAt (behindStrings rd n off) rd =
    rd.take off ++ lowerNames (replicate n .characterString ++ [.name]) (rd.drop off)
  | 0, off => downcaseAt_eq off rd
  | n + 1, off => by
    rw [behindStrings]
    split
    · rename_i hoff
      have hhead : (rd.drop off).headD 0 = rd.getD off 0 := by
        simp [headD_eq_head?_getD, head?_drop]
      rw [downcaseAt_behindStrings rd n, replicate_succ, cons_append, lowerNames, hhead, drop_drop,
        Nat.add_assoc, take_add, append_assoc]
    · rename_i hshort
      have hnil := drop_eq_nil_of_le (not_lt.mp hshort)
      rw [downcaseAt_eq, lowerNames, hnil, lowerNames_nil, lowerNames_nil]

lemma dnsCanonicalDowncaseRdata_eq (type : Nat) (rd : List UInt8) :
    dnsCanonicalDowncaseRdata type rd = canonicalRdata type rd := by
  unfold canonicalRdata canonicalFields
  split
  all_goals first
    | exact downcaseAt_eq _ rd
    | exact downcaseTwoAt_eq _ rd
    | exact downcaseAt_behindStrings rd 3 4
    | skip
  · have hcode : dnsCanonicalDowncaseRdata 38 rd =
        if rd.length > 0 ∧ (rd.getD 0 0).toNat > 0 ∧ (rd.getD 0 0).toNat ≤ 128 then
          downcaseAt (1 + (128 - (rd.getD 0 0).toNat + 7) / 8) rd else rd := rfl
    rw [hcode]
    rcases rd with _ | ⟨c, rd⟩
    · rfl
    · by_cases hlen : 0 < c.toNat ∧ c.toNat ≤ 128
      · exact (if_pos ⟨Nat.zero_lt_succ _, hlen⟩).trans
          ((downcaseAt_eq _ _).trans (by rw [headD_cons, if_pos hlen]; rfl))
      · exact (if_neg fun h => hlen h.2).trans (by rw [headD_cons, if_neg hlen]; rfl)
  · simp_all [dnsCanonicalDowncaseRdata, lowerNames]

/-! ### Records that can be written -/

/-- A record that can be written, with a cache that tells the truth. -/
structure DnsRecord.Encodes (rec : DnsRecord) : Prop where
  truthful : rec.Truthful
  written : (captureRdata rec).isSome

/-- The record has text that is not written, because its RDATA is octets, of which there are none.
A zone file gives such a record with `\# 0`, whose tokens the parser leaves in place. -/
def DnsRecord.hidesText (rec : DnsRecord) : Bool :=
  rec.rdata ≠ [] ∧ rec.generic.getD [] = [] ∧ (rec.generic.isSome ∨ rec.classVal = classKaridnsExt)

/-- If the records have one type, the same text and the same octets, both or neither are written
from the text. -/
def DnsRecord.WrittenAlike (a b : DnsRecord) : Prop :=
  a.typeCode = b.typeCode → a.rdata = b.rdata → a.generic.getD [] = b.generic.getD [] →
    a.hidesText = b.hidesText

instance (a b : DnsRecord) : Decidable (a.WrittenAlike b) :=
  inferInstanceAs (Decidable (_ → _ → _ → _))

/-- Without text nothing is written, if anything is. -/
lemma rdataScript_bare {rec : DnsRecord} (hrd : rec.rdata = []) {bs : List UInt8}
    (h : emission (rdataScript false rec.uncached) = some bs) : bs = [] := by
  have hun : rec.uncached.rdata = [] := hrd
  have hcache : rec.uncached.cache = .empty := rfl
  unfold rdataScript at h
  split at h
  all_goals
    simp [hun, hcache, addressScript, hostNameScript, plainNameScript, mxScript, srvScript,
      caaScript, soaScript, txtScript, ipseckeyScript, amtrelayScript, rrsigScript, nsec3Script,
      nsec3paramScript, hipScript, svcbScript, dsyncScript, uriScript, euiScript, nxtScript,
      a6Script, doaScript, withFields, emission, Act.emission, orFail] at h
  case h_11 => cases h
  case h_12 => exact h

lemma rdataScript_congr {a b : DnsRecord} (htype : a.typeCode = b.typeCode)
    (hrd : a.rdata = b.rdata) :
    rdataScript false a.uncached = rdataScript false b.uncached := by
  cases a
  cases b
  cases htype
  cases hrd
  rfl

/-- The RDATA of a record that can be written: its octets, or what its text says. -/
lemma DnsRecord.Encodes.capture {rec : DnsRecord} (h : rec.Encodes) :
    captureRdata rec = if rec.generic.getD [] ≠ [] ∨ rec.rdata = [] ∨ rec.hidesText then
      some (rec.generic.getD [])
      else (emission (rdataScript false rec.uncached)).filter fun rd => rd.length ≤ 65524 := by
  have hun := capture_uncached h.truthful
  obtain ⟨rd, hrd⟩ := isSome_iff_exists.mp h.written
  obtain ⟨hmeta, hem⟩ := capture_spec (truthful_uncached rec).wiresOk (hun.symm.trans hrd)
  rcases hg : rec.generic with _ | bs
  · have hscript : fullRdataScript false rec.uncached =
        if rec.classVal = classKaridnsExt then [] else rdataScript false rec.uncached := by
      rw [fullRdataScript, show rec.uncached.generic = none from hg]
      rfl
    rw [hscript] at hem
    by_cases hclass : rec.classVal = classKaridnsExt
    · have hnil : rd = [] := by simpa [hclass, emission] using hem.symm
      have hcases : rec.rdata = [] ∨ rec.hidesText := by simp [DnsRecord.hidesText, hg, hclass, em]
      simp [hrd, hnil, hcases]
    have hshown : rec.hidesText = false := by simp [DnsRecord.hidesText, hg, hclass]
    rw [if_neg hclass] at hem
    by_cases hbare : rec.rdata = []
    · simp [hrd, rdataScript_bare hbare hem, hbare]
    · rw [hun, capture_eq (truthful_uncached rec).wiresOk, hscript, if_neg (by simpa using hmeta)]
      simp [hclass, hbare, hshown]
  · rw [fullRdataScript, show rec.uncached.generic = some bs from hg] at hem
    have hbs : rd = bs := by simpa [emission, Act.emission] using hem.symm
    have hcases : bs ≠ [] ∨ rec.rdata = [] ∨ rec.hidesText := by
      by_cases hnil : bs = [] <;> simp [DnsRecord.hidesText, hg, hnil, em]
    rw [hrd, hbs, getD_some, if_pos hcases]

/-- What equal records agree in, apart from their TTLs: owner, type, tinydns attributes, tags and
the canonical RDATA. -/
def DnsRecord.identity (rec : DnsRecord) :=
  (rec.name.map lower, rec.typeCode, rec.tinydnsLoc, rec.tinydnsTtd, rec.tinydnsTtlCountdown,
    rec.bindLocationTag.map (·.map lower), rec.ecsSubnetTag.map (·.map lower),
    (captureRdata rec).map (canonicalRdata rec.typeCode.toNat))

lemma dnsRecordCanonicalRdata_eq (rec : DnsRecord) :
    dnsRecordCanonicalRdata rec = (captureRdata rec).map (canonicalRdata rec.typeCode.toNat) := by
  rw [dnsRecordCanonicalRdata, funext (dnsCanonicalDowncaseRdata_eq _)]

lemma tagsEqualCi_iff (a b : Option Text) :
    tagsEqualCi a b ↔ a.map (·.map lower) = b.map (·.map lower) := by
  rcases a with _ | a <;> rcases b with _ | b <;> simp [tagsEqualCi, strcaseeq]

section Pair
variable {a b : DnsRecord} (ha : a.Encodes) (hb : b.Encodes) (halike : a.WrittenAlike b)
include ha hb halike

/-- The text decides nothing: equal text gives equal RDATA. -/
lemma sameRdata_iff (htype : a.typeCode = b.typeCode) :
    (sameText a b ∨ sameCanonical a b) ↔ dnsRecordCanonicalRdata a = dnsRecordCanonicalRdata b := by
  obtain ⟨rd, hrd⟩ := isSome_iff_exists.mp ha.written
  have hsome : sameCanonical a b ↔ dnsRecordCanonicalRdata a = dnsRecordCanonicalRdata b := by
    simp [sameCanonical, dnsRecordCanonicalRdata, hrd, eq_comm]
  rw [hsome, or_iff_right_iff_imp]
  intro htext
  obtain ⟨hr, hg⟩ : a.rdata = b.rdata ∧ a.generic.getD [] = b.generic.getD [] := by
    simpa [sameText] using htext
  rw [dnsRecordCanonicalRdata, dnsRecordCanonicalRdata, ha.capture, hb.capture, halike htype hr hg,
    hr, hg, htype, rdataScript_congr htype hr]

lemma compareRecords_iff (ignoreTtl : Bool) :
    compareRecords a b ignoreTtl ↔ a.identity = b.identity ∧ (ignoreTtl ∨ a.ttl = b.ttl) := by
  simp only [compareRecords, dnsRecordSameVisibility, decide_eq_true_iff, tagsEqualCi_iff,
    strcaseeq, beq_iff_eq, DnsRecord.identity, Prod.mk.injEq, ← dnsRecordCanonicalRdata_eq]
  constructor
  · rintro ⟨htype, hname, httl, ⟨hloc, httd, hcount, hbind, hecs⟩, hrd⟩
    exact ⟨⟨hname, htype, hloc, httd, hcount, hbind, hecs,
      (sameRdata_iff ha hb halike htype).mp hrd⟩, httl⟩
  · rintro ⟨⟨hname, htype, hloc, httd, hcount, hbind, hecs, hrd⟩, httl⟩
    exact ⟨htype, hname, httl, ⟨hloc, httd, hcount, hbind, hecs⟩,
      (sameRdata_iff ha hb halike htype).mpr hrd⟩

end Pair

/-- A delegation as a zone file gives it. -/
def hostServer (ttl : String) : DnsRecord :=
  { name := ascii "A.test.", ttl := ascii ttl, classVal := 1, typeCode := 2,
    rdata := [ascii "NS.test."] }

/-- The same in generic form, in lower case: the parser keeps the tokens beside the octets. -/
def hostServerOctets : DnsRecord :=
  { name := ascii "a.test.", ttl := ascii "3600", classVal := 1, typeCode := 2
    rdata := [ascii "\\#", ascii "9", ascii "026e73047465737400"]
    generic := some (wire [ascii "ns", ascii "test"]) }

/-- A record without RDATA of a type that has no text form, as it comes from the wire. -/
def emptyRecord : DnsRecord :=
  { name := ascii "a.test.", ttl := ascii "3600", classVal := 1, typeCode := 65534, rdata := []
    generic := some [] }

/-- The same from a zone file, where it is written `TYPE65534 \# 0`. -/
def emptyTokens : DnsRecord := { emptyRecord with rdata := [ascii "#", ascii "0"] }

lemma hostServer_encodes (ttl : String) (h : (captureRdata (hostServer ttl)).isSome) :
    (hostServer ttl).Encodes :=
  ⟨truthful_uncached (hostServer ttl), h⟩

lemma hostServerOctets_encodes : hostServerOctets.Encodes :=
  ⟨truthful_uncached hostServerOctets, by decide +kernel⟩

lemma hostServer_identity (ttl : String)
    (h : dnsRecordCanonicalRdata (hostServer ttl) = dnsRecordCanonicalRdata hostServerOctets) :
    (hostServer ttl).identity = hostServerOctets.identity := by
  simp only [DnsRecord.identity, ← dnsRecordCanonicalRdata_eq, Prod.mk.injEq]
  exact ⟨show (ascii "A.test.").map lower = (ascii "a.test.").map lower by decide +kernel, rfl, rfl,
    rfl, rfl, rfl, rfl, h⟩

end KariDns
