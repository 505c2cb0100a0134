import KariDns.Wire.Serialize

/-! The cache of parsed RDATA (`dns_record_preparse_cache`).

Loading a zone works out ahead of time what writing its records needs: the owner and the
names of RDATA in wire form, addresses, TXT as octets, and the numbers of SOA, MX, SRV and
RRSIG. The serializer takes these values where it finds them. Here the cached way and the
text way are shown to have the same result for every record, buffer and context.
-/

namespace KariDns

open Octets DomainName Option

/-- The record as it was before any cache. -/
def DnsRecord.uncached (rec : DnsRecord) : DnsRecord :=
  { rec with nameWire := none, cache := .empty }

/-- What an allocation of the arena gives: the value, or nothing when memory is short. -/
def allocated {α : Type} (ok : Bool) (v : Option α) : Option α := if ok then v else none

/-- The cached RDATA, by form. `alloc i` tells whether the `i`-th allocation succeeds (the owner
takes number 0; a null arena refuses all of them). -/
def preparseRdata (alloc : Nat → Bool) (rec : DnsRecord) : RdataCache :=
  match rdataForm rec.typeCode.toNat with
  | .a => ((inetPton4 (rec.rd 0)).map .a).getD .empty
  | .aaaa => ((inetPton6 (rec.rd 0)).map .aaaa).getD .empty
  | .hostName | .plainName => ((allocated (alloc 1) (readName (rec.rd 0))).map .name).getD .empty
  | .txt =>
    if 0 < (txtWire rec.rdata).length ∧ (txtWire rec.rdata).length ≤ 65535 ∧ alloc 1 then
      .txt (txtWire rec.rdata)
    else .empty
  | .soa =>
    if rec.rdata.length < 7 then .empty
    else
      let wires := do return (← readName (rec.rd 0), ← readName (rec.rd 1))
      .soa (rec.rd 0) (rec.rd 1) (allocated (alloc 1 && alloc 2) wires) (soaNumbers rec)
  | .mx =>
    if rec.rdata.length < 2 then .empty
    else
      match parseU16 (rec.rd 0) with
      | none => .empty
      | some pref => .mx pref (rec.rd 1) (allocated (alloc 1) (readName (rec.rd 1)))
  | .rrsig =>
    if rec.rdata.length < 9 then .empty
    else
      match parseU8 (rec.rd 1), parseU8 (rec.rd 2), parseU16 (rec.rd 6) with
      | some alg, some labels, some tag =>
        .rrsig (getTypeCode (rec.rd 0)) alg labels (strtoul32 (rec.rd 3))
          (parseDnssecTime (rec.rd 4)) (parseDnssecTime (rec.rd 5)) tag (rec.rd 7)
          (allocated (alloc 1 && rec.generic.isNone) (concatB64 (rec.rdata.drop 8)))
      | _, _, _ => .empty
  | .srv =>
    if rec.rdata.length < 4 then .empty
    else
      match parseU16 (rec.rd 0), parseU16 (rec.rd 1), parseU16 (rec.rd 2) with
      | some prio, some weight, some port =>
        .srv prio weight port (rec.rd 3) (allocated (alloc 1) (readName (rec.rd 3)))
      | _, _, _ => .empty
  | _ => .empty

/-- `dns_record_preparse_cache`: a record without text fields keeps what it has. -/
def preparseCache (alloc : Nat → Bool) (rec : DnsRecord) : DnsRecord :=
  if rec.rdata.length = 0 then rec
  else
    { rec with
      nameWire := allocated (alloc 0) (readName rec.name)
      cache := preparseRdata alloc rec }

/-! ### Names in wire form and names in text form -/

/-- A name cached in wire form is written as its text is. -/
lemma cachedName_equiv {hasCtx : Bool} {t : Text} {n : Name} (h : readName t = some n) :
    ScriptEquiv hasCtx (cachedName hasCtx n) [.dnsName t] := by
  intro maxLen w hc hw
  unfold cachedName
  cases hctx : w.ctx with
  | some ctx =>
    obtain rfl : hasCtx = true := by rw [← hc, hctx]; rfl
    have hexec : Act.exec maxLen w (.packName n) = Act.exec maxLen w (.dnsName t) := by
      simp only [Act.exec, writeDnsNameStr_some hctx, h, hctx]
    rw [if_pos rfl, run_cons, run_cons, hexec]
    exact SameRun.refl _
  | none =>
    obtain rfl : hasCtx = false := by rw [← hc, hctx]; rfl
    have hem : emission [.copyName n] = emission [.dnsName t] := by
      simp [emission, Act.emission, h]
    refine (run_plain hw (by simp [Act.plain])).same (hem ▸ run_plain hw ?_)
    simp [Act.plain, hctx]

/-- Where compression is not allowed, too. -/
lemma copyName_equiv {hasCtx : Bool} {t : Text} {n : Name} (h : readName t = some n) :
    ScriptEquiv hasCtx [.copyName n] [.textName t] := by
  intro maxLen w _ hw
  have hem : emission [.copyName n] = emission [.textName t] := by
    simp [emission, Act.emission, h]
  exact (run_plain hw (by simp [Act.plain])).same (hem ▸ run_plain hw (by simp [Act.plain]))

/-! ### A cache that tells the truth -/

/-- Every value of the cache is what the text of the record gives. -/
def CacheOk (rec : DnsRecord) : Prop :=
  match rec.cache with
  | .empty => True
  | .a addr => rec.rdata.length ≠ 0 ∧ inetPton4 (rec.rd 0) = some addr
  | .aaaa addr => rec.rdata.length ≠ 0 ∧ inetPton6 (rec.rd 0) = some addr
  | .name n => rec.rdata.length ≠ 0 ∧ readName (rec.rd 0) = some n
  | .txt bs => rec.rdata.length ≠ 0 ∧ bs = txtWire rec.rdata
  | .soa m r wires numbers =>
    m = rec.rd 0 ∧ r = rec.rd 1 ∧ numbers = soaNumbers rec ∧
      ∀ a b, wires = some (a, b) → readName m = some a ∧ readName r = some b
  | .mx pref target wire =>
    parseU16 (rec.rd 0) = some pref ∧ target = rec.rd 1 ∧ ∀ n, wire = some n →
      readName target = some n
  | .rrsig tc alg labels ottl exp inc tag signer signature =>
    tc = getTypeCode (rec.rd 0) ∧ parseU8 (rec.rd 1) = some alg ∧ parseU8 (rec.rd 2) = some labels ∧
      ottl = strtoul32 (rec.rd 3) ∧ exp = parseDnssecTime (rec.rd 4) ∧
      inc = parseDnssecTime (rec.rd 5) ∧ parseU16 (rec.rd 6) = some tag ∧ signer = rec.rd 7 ∧
      ∀ sig, signature = some sig → concatB64 (rec.rdata.drop 8) = some sig
  | .srv prio weight port target wire =>
    parseU16 (rec.rd 0) = some prio ∧ parseU16 (rec.rd 1) = some weight ∧
      parseU16 (rec.rd 2) = some port ∧ target = rec.rd 3 ∧
      ∀ n, wire = some n → readName target = some n

lemma allocated_eq_some {α : Type} {ok : Bool} {v : Option α} {a : α}
    (h : allocated ok v = some a) : v = some a := by
  unfold allocated at h
  split at h
  · exact h
  · cases h

variable (alloc : Nat → Bool)

/-- `dns_record_preparse_cache` leaves a cache that tells the truth. -/
lemma cacheOk_preparse {rec : DnsRecord} (h : rec.rdata.length ≠ 0) :
    CacheOk (preparseCache alloc rec) := by
  have hcases : ∀ {α : Type} {o : Option α} {f : α → RdataCache} {w : Option Name},
      (∀ a, o = some a → CacheOk { rec with nameWire := w, cache := f a }) →
        CacheOk { rec with nameWire := w, cache := (o.map f).getD .empty } := by
    intro α o f w hf
    cases o with
    | none => trivial
    | some a => exact hf a rfl
  rw [preparseCache, if_neg h]
  unfold preparseRdata
  split
  · exact hcases fun _ ha => ⟨h, ha⟩
  · exact hcases fun _ ha => ⟨h, ha⟩
  · exact hcases fun _ ha => ⟨h, allocated_eq_some ha⟩
  · exact hcases fun _ ha => ⟨h, allocated_eq_some ha⟩
  · split
    · exact ⟨h, rfl⟩
    · trivial
  · split
    · trivial
    refine ⟨rfl, rfl, rfl, fun a b hab => ?_⟩
    have hw := allocated_eq_some hab
    simpa [bind_eq_some_iff] using hw
  · split
    · trivial
    split
    · trivial
    · rename_i pref hp
      exact ⟨hp, rfl, fun n hn => allocated_eq_some hn⟩
  · split
    · trivial
    split
    · rename_i alg labels tag h1 h2 h6
      exact ⟨rfl, h1, h2, rfl, rfl, rfl, h6, rfl, fun sig hs => allocated_eq_some hs⟩
    · trivial
  · split
    · trivial
    split
    · rename_i prio weight port h0 h1 h2
      exact ⟨h0, h1, h2, rfl, fun n hn => allocated_eq_some hn⟩
    · trivial
  · trivial

/-! ### The scripts with and without the cache -/

section forms

variable {rec : DnsRecord} (hasCtx : Bool)

lemma uncached_cache : rec.uncached.cache = .empty := rfl

lemma uncached_rdata : rec.uncached.rdata = rec.rdata := rfl

lemma uncached_rd (i : Nat) : rec.uncached.rd i = rec.rd i := rfl

lemma ScriptEquiv.guard {c : Prop} [Decidable c] {s s' : Script}
    (h : ¬ c → ScriptEquiv hasCtx s s') :
    ScriptEquiv hasCtx (if c then [.fail] else s) (if c then [.fail] else s') := by
  split
  · exact .refl _ _
  · exact h ‹_›

lemma hostNameScript_uncached : hostNameScript hasCtx rec.uncached =
    if rec.rdata.length = 0 then [.fail] else [.dnsName (rec.rd 0)] := rfl

lemma hostName_equiv (hok : CacheOk rec) :
    ScriptEquiv hasCtx (hostNameScript hasCtx rec) (hostNameScript hasCtx rec.uncached) := by
  rw [hostNameScript_uncached, hostNameScript]
  split
  · rename_i n hc
    simp only [CacheOk, hc] at hok
    rw [if_neg hok.1]
    exact cachedName_equiv hok.2
  · exact .refl _ _

lemma plainName_equiv (hok : CacheOk rec) :
    ScriptEquiv hasCtx (plainNameScript rec) (plainNameScript rec.uncached) := by
  simp only [plainNameScript, uncached_cache, uncached_rdata, uncached_rd]
  split
  · rename_i n hc
    simp only [CacheOk, hc] at hok
    simp only [hok.1, if_false]
    exact copyName_equiv hok.2
  · exact .refl _ _

lemma mxScript_uncached : mxScript hasCtx rec.uncached =
    if rec.rdata.length < 2 then [.fail]
    else orFail (parseU16 (rec.rd 0)) fun pref => [.put (be16 pref), .dnsName (rec.rd 1)] := rfl

lemma mx_equiv (hok : CacheOk rec) : ScriptEquiv hasCtx (mxScript hasCtx rec)
    (mxScript hasCtx rec.uncached) := by
  rw [mxScript_uncached, mxScript]
  refine .guard _ fun hlen => ?_
  split
  · rename_i pref target n hc
    simp only [CacheOk, hc] at hok
    obtain ⟨hp, rfl, hn⟩ := hok
    rw [hp, orFail_some]
    exact (cachedName_equiv (hn n rfl)).cons _
  · rename_i pref target hc
    simp only [CacheOk, hc] at hok
    obtain ⟨hp, rfl, -⟩ := hok
    rw [hp, orFail_some]
    exact .refl _ _
  · exact .refl _ _

/-- Three 16-bit fields at the front. -/
lemma fixedFields_three {a b c : Nat} (hlen : ¬ rec.rdata.length < 4)
    (ha : parseU16 (rec.rd 0) = some a) (hb : parseU16 (rec.rd 1) = some b)
    (hc : parseU16 (rec.rd 2) = some c) :
    fixedFields [u16Field, u16Field, u16Field] rec.rdata = some (be16 a ++ be16 b ++ be16 c) := by
  match h : rec.rdata with
  | [] | [_] | [_, _] | [_, _, _] => simp [h] at hlen
  | x :: y :: z :: _ :: _ =>
    simp only [DnsRecord.rd, h, List.getD_cons_zero, List.getD_cons_succ] at ha hb hc
    simp [fixedFields, u16Field, ha, hb, hc]

lemma srv_equiv (hok : CacheOk rec) : ScriptEquiv hasCtx (srvScript rec)
    (srvScript rec.uncached) := by
  simp only [srvScript, uncached_cache, uncached_rdata, uncached_rd]
  refine .guard _ fun hlen => ?_
  split
  · rename_i prio weight port target n hc
    simp only [CacheOk, hc] at hok
    obtain ⟨h0, h1, h2, rfl, hn⟩ := hok
    rw [fixedFields_three hlen h0 h1 h2, orFail_some]
    exact (copyName_equiv (hn n rfl)).cons _
  · rename_i prio weight port target hc
    simp only [CacheOk, hc] at hok
    obtain ⟨h0, h1, h2, rfl, -⟩ := hok
    rw [fixedFields_three hlen h0 h1 h2, orFail_some]
    exact .refl _ _
  · exact .refl _ _

lemma txtScript_uncached : txtScript rec.uncached =
    if rec.rdata.length = 0 then [.fail] else [.put (txtWire rec.rdata)] := rfl

lemma txt_equiv (hok : CacheOk rec) : ScriptEquiv hasCtx (txtScript rec)
    (txtScript rec.uncached) := by
  rw [txtScript_uncached, txtScript]
  split
  · rename_i bs hc
    simp only [CacheOk, hc] at hok
    rw [if_neg hok.1, hok.2]
    exact .refl _ _
  · exact .refl _ _

lemma rrsig_equiv (hok : CacheOk rec) : ScriptEquiv hasCtx (rrsigScript rec)
    (rrsigScript rec.uncached) := by
  simp only [rrsigScript, uncached_cache, uncached_rdata, uncached_rd]
  refine .guard _ fun hlen => ?_
  split
  · rename_i tc alg labels ottl exp inc tag signer signature hc
    simp only [CacheOk, hc] at hok
    obtain ⟨rfl, h1, h2, rfl, rfl, rfl, h6, rfl, hsig⟩ := hok
    rw [h1, h2, h6]
    simp only [orFail_some]
    refine ScriptEquiv.append (.refl _ _) ?_
    split
    · rename_i sig
      rw [decodeConcatB64Rdata, hsig sig rfl, orFail_some]
      exact .refl _ _
    · exact .refl _ _
  · exact .refl _ _

/-- Without a context the room for the whole SOA is asked for at once. -/
lemma soa_room_outcome {maxLen : Nat} {w : Out} (m r : Name) {numbers : List UInt8}
    (hlen : numbers.length = 20) (hw : w.offset ≤ maxLen) :
    Outcome maxLen w (emission [.copyName m, .copyName r, .put numbers])
      (run maxLen [.need ((wire m).length + (wire r).length + 20), .copyName m, .copyName r,
        .put numbers] w) := by
  refine outcome_need (fun bs hbs => ?_) (run_plain hw (by simp [Act.plain]))
  simp only [emission, Act.emission, bind_some, map_some, some.injEq] at hbs
  rw [← hbs]
  simp [hlen]
  omega

lemma soa_room_equiv (m r : Name) {numbers : List UInt8} (hlen : numbers.length = 20) :
    ScriptEquiv false
      [.need ((wire m).length + (wire r).length + 20), .copyName m, .copyName r, .put numbers]
      [.copyName m, .copyName r, .put numbers] :=
  fun _ _ _ hw => (soa_room_outcome m r hlen hw).same (run_plain hw (by simp [Act.plain]))

lemma soaScript_uncached : soaScript hasCtx rec.uncached =
    if rec.rdata.length < 7 then [.fail]
    else [.dnsName (rec.rd 0), .dnsName (rec.rd 1), .put ((soaNumbers rec).flatMap be32)] := rfl

lemma soa_equiv (hok : CacheOk rec) : ScriptEquiv hasCtx (soaScript hasCtx rec)
    (soaScript hasCtx rec.uncached) := by
  rw [soaScript_uncached, soaScript]
  refine .guard _ fun hlen => ?_
  split
  · rename_i mname rname m r numbers hc
    simp only [CacheOk, hc] at hok
    obtain ⟨rfl, rfl, rfl, hw⟩ := hok
    obtain ⟨hm, hr⟩ := hw m r rfl
    have hnames := (cachedName_equiv hm).append
      ((cachedName_equiv hr).append
        (ScriptEquiv.refl hasCtx [.put ((soaNumbers rec).flatMap be32)]))
    cases hasCtx with
    | false => exact (soa_room_equiv m r rfl).trans hnames
    | true => exact hnames
  · rename_i mname rname numbers hc
    simp only [CacheOk, hc] at hok
    obtain ⟨rfl, rfl, rfl, -⟩ := hok
    exact .refl _ _
  · exact .refl _ _

lemma address_equiv {pton : Text → Option (List UInt8)} {cached : Option (List UInt8)}
    (hc : ∀ addr, cached = some addr → pton (rec.rd 0) = some addr) :
    ScriptEquiv hasCtx (addressScript rec cached pton) (addressScript rec.uncached none pton) := by
  simp only [addressScript, uncached_rdata, uncached_rd]
  refine .guard _ fun _ => ?_
  cases cached with
  | none => exact .refl _ _
  | some addr =>
    rw [hc addr rfl]
    exact .refl _ _

end forms

/-! ### Whole records -/

/-- The cached RDATA of a record is written as its text is. -/
lemma rdata_equiv (hasCtx : Bool) {rec : DnsRecord} (hok : CacheOk rec) :
    ScriptEquiv hasCtx (rdataScript hasCtx rec) (rdataScript hasCtx rec.uncached) := by
  unfold rdataScript
  have htype : rdataForm rec.uncached.typeCode.toNat = rdataForm rec.typeCode.toNat := rfl
  rw [htype]
  split
  case h_1 | h_2 =>
    refine address_equiv _ fun addr h => ?_
    split at h
    · rename_i hc
      cases h
      simp only [CacheOk, hc] at hok
      exact hok.2
    · cases h
  case h_3 => exact hostName_equiv hasCtx hok
  case h_4 => exact plainName_equiv hasCtx hok
  case h_5 => exact mx_equiv hasCtx hok
  case h_6 => exact srv_equiv hasCtx hok
  case h_14 => exact soa_equiv hasCtx hok
  case h_15 => exact txt_equiv hasCtx hok
  case h_21 => exact rrsig_equiv hasCtx hok
  -- the other forms never look at the cache
  all_goals exact ScriptEquiv.refl _ _

lemma fullRdata_equiv (hasCtx : Bool) {rec : DnsRecord} (hok : CacheOk rec) :
    ScriptEquiv hasCtx (fullRdataScript hasCtx rec) (fullRdataScript hasCtx rec.uncached) := by
  unfold fullRdataScript
  have hgeneric : rec.uncached.generic = rec.generic := rfl
  have hclass : rec.uncached.classVal = rec.classVal := rfl
  rw [hgeneric]
  split
  · exact ScriptEquiv.refl _ _
  by_cases hext : rec.classVal = classKaridnsExt
  · rw [if_pos hext, if_pos (hclass.trans hext)]
    exact ScriptEquiv.refl _ _
  · rw [if_neg hext, if_neg (fun h => hext (hclass.symm.trans h))]
    exact rdata_equiv hasCtx hok

/-- A cached owner is written as the text of the owner is. -/
lemma owner_equiv (hasCtx : Bool) {rec : DnsRecord} (owner : Option Text)
    (hname : ∀ n, rec.nameWire = some n → readName rec.name = some n) :
    ScriptEquiv hasCtx (ownerScript hasCtx rec owner) (ownerScript hasCtx rec.uncached owner) := by
  cases owner with
  | some t => exact ScriptEquiv.refl _ _
  | none =>
    have huncached : ownerScript hasCtx rec.uncached none = [.dnsName rec.name] := rfl
    rw [huncached, ownerScript]
    split
    · rename_i n hn
      exact cachedName_equiv (hname n hn)
    · exact ScriptEquiv.refl _ _

/-- Owner and RDATA cached by a record are what its text gives. -/
structure DnsRecord.Truthful (rec : DnsRecord) : Prop where
  owner : ∀ n, rec.nameWire = some n → readName rec.name = some n
  cache : CacheOk rec

lemma truthful_uncached (rec : DnsRecord) : rec.uncached.Truthful := by
  refine ⟨?_, trivial⟩
  intro n h
  cases h

/-- Caches that tell the truth do not change what a call does. -/
lemma serialize_uncached (maxLen : Nat) {rec : DnsRecord} (owner : Option Text) (ttl : Nat)
    (w : Out) (h : rec.Truthful) :
    SameWrite (serializeDnsRecord maxLen rec owner ttl w)
      (serializeDnsRecord maxLen rec.uncached owner ttl w) := by
  have hunfold : serializeDnsRecord maxLen rec.uncached owner ttl w =
      if isMetaRrtype rec.typeCode.toNat then (false, w)
      else
        writeRecord maxLen
          (recordHead (ownerScript w.ctx.isSome rec.uncached owner)
            rec.typeCode.toNat (recClass rec)
            (ttlWithOverride (recTtl rec) ttl))
          (fullRdataScript w.ctx.isSome rec.uncached) w := rfl
  rw [hunfold, serializeDnsRecord]
  split
  · exact SameWrite.refl _
  · exact writeRecord_same (owner_equiv _ owner h.owner) (fullRdata_equiv _ h.cache)

/-- Preparsing changes nothing but the cache. -/
lemma preparse_keeps {β : Type} (f : DnsRecord → β)
    (hf : ∀ r w c, f { r with nameWire := w, cache := c } = f r) (alloc : Nat → Bool)
    (rec : DnsRecord) : f (preparseCache alloc rec) = f rec := by
  unfold preparseCache
  split
  · rfl
  · exact hf rec _ _

/-- Preparsing and then dropping the cache gives the record without the cache. -/
lemma uncached_preparse (rec : DnsRecord) : (preparseCache alloc rec).uncached = rec.uncached :=
  preparse_keeps DnsRecord.uncached (fun _ _ _ => rfl) alloc rec

/-- `dns_record_preparse_cache` leaves caches that tell the truth, whichever allocations fail. -/
lemma truthful_preparse (rec : DnsRecord) : (preparseCache alloc rec.uncached).Truthful := by
  by_cases hlen : rec.uncached.rdata.length = 0
  · have hkeep : preparseCache alloc rec.uncached = rec.uncached := if_pos hlen
    rw [hkeep]
    exact truthful_uncached rec
  refine ⟨?_, cacheOk_preparse alloc hlen⟩
  rw [preparseCache, if_neg hlen]
  exact fun n hn => allocated_eq_some hn

/-- For every record, whichever allocations fail: the call on the preparsed record and the call on
the record without the cache have one result, for every buffer size, offset and context. In a buffer
of at most 65535 octets the offset fits in the 16 bits that the source has for it. -/
theorem serialize_preparseCache (alloc : Nat → Bool) (maxLen : Nat) (rec : DnsRecord)
    (owner : Option Text) (ttl : Nat) (w : Out) :
    SameWrite (serializeDnsRecord maxLen (preparseCache alloc rec.uncached) owner ttl w)
        (serializeDnsRecord maxLen rec.uncached owner ttl w) ∧
      (maxLen ≤ 65535 → w.offset ≤ maxLen →
        (serializeDnsRecord maxLen (preparseCache alloc rec.uncached) owner ttl w).2.offset ≤
          65535) := by
  have hsame := serialize_uncached maxLen owner ttl w (truthful_preparse alloc rec)
  rw [uncached_preparse] at hsame
  exact ⟨hsame, fun hmax hw => (serialize_le _ owner ttl hw).trans hmax⟩

end KariDns
