import KariDns.Image.Freeze
import KariDns.Wire.Plain

/-! Writing a record of the image (`image_serialize_rr`).

The image keeps RDATA with every name in full. Writing copies it, except that the names of
the types of RFC 1035 go through the compression table. Whatever an arena holds, this is
shown to do what `serialize_dns_record` does with the record the image was made from.
-/

namespace KariDns

open Octets DomainName List Option

variable {hasCtx : Bool} {rec : DnsRecord} {rr : ImageRr} {rd : List UInt8} {lay : NameLayout}
    {img : ZoneImage}

/-! ### The writer -/

/-- The owner: the override, else the wire form, else the text; `noNameWire` records have the wire
form only for the sake of the compression table. -/
def imageOwnerScript (hasCtx : Bool) (nm : ImageName) (rr : ImageRr) : Option Text → Script
  | some owner => [.dnsName owner]
  | none =>
    let (text, wire) := (rr.ext.bind (·.alt)).getD (nm.text, nm.wire)
    match wire with
    | some n => if hasCtx ∨ ¬ rr.noNameWire then cachedName hasCtx n else [.dnsName text]
    | none => [.dnsName text]

/-- `k` names from the front of some octets, then the rest. -/
def imageNamesScript (hasCtx : Bool) : Nat → List UInt8 → Script
  | 0, rd => if rd = [] then [] else [.put rd]
  | k + 1, rd =>
    match wireNameAt rd with
    | none => [.fail]
    | some (n, rest) => cachedName hasCtx n ++ imageNamesScript hasCtx k rest

/-- The RDATA: copied, or cut at the names that may be compressed. -/
def imageRdataScript (hasCtx : Bool) (rr : ImageRr) : Script :=
  match if rr.raw then none else dnsRdataNameLayout rr.type.toNat with
  | some lay =>
    if lay.compress then
      (if lay.skip = 0 then []
        else if rr.rdata.length < lay.skip then [.fail]
        else [.put (rr.rdata.take lay.skip)]) ++
      imageNamesScript hasCtx lay.names (rr.rdata.drop lay.skip)
    else imageNamesScript hasCtx 0 rr.rdata
  | none => imageNamesScript hasCtx 0 rr.rdata

/-- `image_serialize_rr`. -/
def imageSerializeRr (maxLen : Nat) (img : ZoneImage) (k : Nat) (owner : Option Text) (ttl : Nat)
    (w : Out) : Bool × Out :=
  match img.rrs[k]? with
  | none => (false, w)
  | some rr =>
    match img.names[rr.nameId]? with
    | none => (false, w)
    | some nm =>
      if isMetaRrtype rr.type.toNat then (false, w)
      else
        writeRecord maxLen
          (recordHead (imageOwnerScript w.ctx.isSome nm rr owner) rr.type.toNat rr.classVal
            (min ttl 0x7FFFFFFF))
          (imageRdataScript w.ctx.isSome rr) w

/-! ### RDATA with names -/

/-- A fixed part, names, and a rest. -/
def namesScript (hasCtx : Bool) (pre : List UInt8) (names : List Name)
    (post : List UInt8) : Script :=
  .put pre :: (names.flatMap (cachedName hasCtx) ++ [.put post])

lemma put_nil_equiv (hasCtx : Bool) : ScriptEquiv hasCtx [.put []] [] := by
  intro maxLen w _ hw
  have hexec : Act.exec maxLen w (.put []) = (true, w) := by
    rw [exec_put (by simpa using hw), Out.put_nil]
  rw [run_cons, hexec]
  exact SameRun.refl _

/-- An empty store may be left out. -/
lemma put_equiv (hasCtx : Bool) (bs : List UInt8) :
    ScriptEquiv hasCtx (if bs = [] then [] else [.put bs]) [.put bs] := by
  split
  · rename_i h
    rw [h]
    exact (put_nil_equiv hasCtx).symm
  · exact ScriptEquiv.refl _ _

/-- The image finds the names where they were written. -/
lemma imageNames_equiv (hasCtx : Bool) (post : List UInt8) :
    ∀ {names : List Name}, (∀ n ∈ names, Valid n) →
    ScriptEquiv hasCtx (imageNamesScript hasCtx names.length (names.flatMap wire ++ post))
      (names.flatMap (cachedName hasCtx) ++ [.put post])
  | [], _ => put_equiv hasCtx post
  | n :: names, h => by
    rw [length_cons, imageNamesScript, flatMap_cons, append_assoc,
      wireNameAt_wire (h n mem_cons_self)]
    rw [flatMap_cons, append_assoc]
    exact (ScriptEquiv.refl _ _).append
      (imageNames_equiv hasCtx post fun m hm => h m (mem_cons_of_mem _ hm))

/-- Octets of the shape a layout describes, and the image's script for them. -/
lemma imageRdata_names {pre post : List UInt8} {names : List Name} (hraw : rr.raw = false)
    (hlay : dnsRdataNameLayout rr.type.toNat = some lay) (hc : lay.compress = true)
    (hrd : rr.rdata = pre ++ (names.flatMap wire ++ post)) (hpre : pre.length = lay.skip)
    (hnames : names.length = lay.names) (hv : ∀ n ∈ names, Valid n) :
    ScriptEquiv hasCtx (imageRdataScript hasCtx rr) (namesScript hasCtx pre names post) := by
  have hfront : ScriptEquiv hasCtx (if lay.skip = 0 then []
        else if rr.rdata.length < lay.skip then [.fail]
        else [.put (rr.rdata.take lay.skip)]) [.put pre] := by
    have htake : rr.rdata.take lay.skip = pre := by rw [hrd, ← hpre, take_left]
    have hlen : ¬ rr.rdata.length < lay.skip := by
      rw [hrd, ← hpre, length_append]
      omega
    rw [if_neg hlen, htake]
    by_cases hskip : lay.skip = 0
    · rw [if_pos hskip, length_eq_zero_iff.mp (hpre.trans hskip)]
      exact (put_nil_equiv hasCtx).symm
    · rw [if_neg hskip]
      exact ScriptEquiv.refl _ _
  have hdrop : rr.rdata.drop lay.skip = names.flatMap wire ++ post := by
    rw [hrd, ← hpre, drop_left]
  unfold imageRdataScript
  rw [hraw, if_neg (by simp), hlay]
  dsimp only
  rw [if_pos hc, hdrop, ← hnames]
  exact hfront.append (imageNames_equiv hasCtx post hv)

/-! ### The record's side -/

/-- What `serialize_dns_record` writes for the names of a type: `rd` has the shape the layout
says, and the script is the one for that shape, with or without a context. -/
def HasShape (rec : DnsRecord) (rd : List UInt8) (lay : NameLayout) : Prop :=
  ∃ pre names post, rd = pre ++ (names.flatMap wire ++ post) ∧ pre.length = lay.skip ∧
    names.length = lay.names ∧ (∀ n ∈ names, Valid n) ∧
    ∀ hasCtx, ScriptEquiv hasCtx (rdataScript hasCtx rec) (namesScript hasCtx pre names post)

/-- Where a name of RDATA comes from: the cache or the text. -/
def nameSource (hasCtx : Bool) : Name ⊕ Text → Script
  | .inl n => cachedName hasCtx n
  | .inr t => [.dnsName t]

/-- A cached name is a name. -/
def SourceOk (src : Name ⊕ Text) : Prop := ∀ n, src = .inl n → Valid n

/-- The name a source stands for. -/
lemma nameSource_name {src : Name ⊕ Text} {bs : List UInt8} (hok : SourceOk src)
    (hem : emission (nameSource false src) = some bs) :
    ∃ n, Valid n ∧ bs = wire n ∧ ∀ b, ScriptEquiv b (nameSource b src) (cachedName b n) := by
  cases src with
  | inl n =>
    refine ⟨n, hok n rfl, ?_, fun b => ScriptEquiv.refl _ _⟩
    simpa [nameSource, cachedName, emission, Act.emission] using hem.symm
  | inr t =>
    obtain ⟨n, hn, hbs⟩ : ∃ n, readName t = some n ∧ wire n = bs := by
      simpa [nameSource, emission, Act.emission] using hem
    exact ⟨n, readName_valid hn, hbs.symm, fun b => (cachedName_equiv hn).symm⟩

/-- What an emission of two parts is made of. -/
lemma emission_append_some {s t : Script} (h : emission (s ++ t) = some rd) :
    ∃ as bs, emission s = some as ∧ emission t = some bs ∧ rd = as ++ bs := by
  rw [emission_append] at h
  cases hs : emission s with
  | none => simp [hs] at h
  | some as =>
    cases ht : emission t with
    | none => simp [hs, ht] at h
    | some bs => exact ⟨as, bs, rfl, rfl, by simpa [hs, ht] using h.symm⟩

/-- A script that stores octets, which may have no store if there are none. -/
inductive PutsOnly : Script → List UInt8 → Prop
  | nil : PutsOnly [] []
  | put (bs : List UInt8) : PutsOnly [.put bs] bs

lemma PutsOnly.equiv {s : Script} {bs : List UInt8} (h : PutsOnly s bs) (hasCtx : Bool) :
    ScriptEquiv hasCtx s [.put bs] := by
  cases h with
  | nil => exact (put_nil_equiv hasCtx).symm
  | put => exact ScriptEquiv.refl _ _

lemma PutsOnly.emission {s : Script} {bs : List UInt8} (h : PutsOnly s bs) :
    emission s = some bs := by
  cases h <;> simp [KariDns.emission, Act.emission]

variable {before behind : Script} {pre post : List UInt8}

/-- A fixed part, one or two names from their sources, and a rest have the shape. -/
lemma shape_of_sources (srcs : List (Name ⊕ Text)) (hbefore : PutsOnly before pre)
    (hbehind : PutsOnly behind post) (hok : ∀ src ∈ srcs, SourceOk src)
    (hscript : ∀ b, ScriptEquiv b (rdataScript b rec)
      (before ++ (srcs.flatMap (nameSource b) ++ behind)))
    (hem : emission (before ++ (srcs.flatMap (nameSource false) ++ behind)) = some rd)
    (hpre : pre.length = lay.skip) (hnames : srcs.length = lay.names) : HasShape rec rd lay := by
  -- the names, one source after the other
  have hmany : ∀ {srcs : List (Name ⊕ Text)} {bs : List UInt8}, (∀ src ∈ srcs, SourceOk src) →
      emission (srcs.flatMap (nameSource false)) = some bs →
      ∃ names : List Name, names.length = srcs.length ∧ (∀ n ∈ names, Valid n) ∧
        bs = names.flatMap wire ∧
        ∀ b, ScriptEquiv b (srcs.flatMap (nameSource b)) (names.flatMap (cachedName b)) := by
    intro srcs
    induction srcs with
    | nil =>
      intro bs _ hbs
      exact ⟨[], rfl, by simp, by simpa [emission] using hbs.symm, fun b => ScriptEquiv.refl _ _⟩
    | cons src srcs ih =>
      intro bs hok hbs
      rw [flatMap_cons] at hbs
      obtain ⟨as, cs, has, hcs, rfl⟩ := emission_append_some hbs
      obtain ⟨n, hn, rfl, heq⟩ := nameSource_name (hok src mem_cons_self) has
      obtain ⟨names, hlen, hv, rfl, hrest⟩ := ih (fun s hs => hok s (mem_cons_of_mem _ hs)) hcs
      refine ⟨n :: names, by simp [hlen], ?_, by simp, fun b => ?_⟩
      · rintro m (_ | ⟨_, hm⟩)
        · exact hn
        · exact hv m hm
      · exact (heq b).append (hrest b)
  obtain ⟨as, bs, has, hbs, rfl⟩ := emission_append_some hem
  obtain ⟨cs, ds, hcs, hds, rfl⟩ := emission_append_some hbs
  obtain rfl := some.inj (hbefore.emission.symm.trans has)
  obtain rfl := some.inj (hbehind.emission.symm.trans hds)
  obtain ⟨names, hlen, hv, rfl, heq⟩ := hmany hok hcs
  exact ⟨pre, names, post, rfl, hpre, hlen.trans hnames, hv, fun b =>
    (hscript b).trans ((hbefore.equiv b).append ((heq b).append (hbehind.equiv b)))⟩

/-- So has a record whose script is that; the cached names are names. -/
lemma shape_of_script (hok : rec.WiresOk) (hem : emission (rdataScript false rec) = some rd)
    (srcs : List (Name ⊕ Text)) (hbefore : PutsOnly before pre) (hbehind : PutsOnly behind post)
    (hpre : pre.length = lay.skip) (hnames : srcs.length = lay.names)
    (hcached : ∀ n, .inl n ∈ srcs → n ∈ rec.cache.names)
    (hscript : ∀ b, rdataScript b rec = before ++ (srcs.flatMap (nameSource b) ++ behind)) :
      HasShape rec rd lay := by
  refine shape_of_sources srcs hbefore hbehind ?_ (fun b => hscript b ▸ ScriptEquiv.refl _ _)
    (hscript false ▸ hem) hpre hnames
  rintro _ hsrc n rfl
  exact hok.names n (hcached n hsrc)

/-- The SOA record with cached names asks for its room first when there is no context. -/
lemma soa_shape (hok : rec.WiresOk) {m r : Name} {t u : Text} {numbers : List Nat}
    (hc : rec.cache = .soa t u (some (m, r)) numbers)
    (hsoa : ∀ b, rdataScript b rec = if b then
      [.packName m, .packName r, .put (numbers.flatMap be32)]
      else [.need ((wire m).length + (wire r).length + 20), .copyName m, .copyName r,
        .put (numbers.flatMap be32)])
    (hem : emission (rdataScript false rec) = some rd) : HasShape rec rd ⟨0, 2, true⟩ := by
  have hvalid : ∀ n ∈ [m, r], Valid n :=
    fun n hn => hok.names n (by simpa [hc, RdataCache.names] using hn)
  have hnumbers : (numbers.flatMap be32).length = 20 := by
    have hfive := hok.numbers
    rw [hc] at hfive
    simp [length_flatMap, show numbers.length = 5 from hfive]
  refine shape_of_sources [.inl m, .inl r] .nil (.put (numbers.flatMap be32))
    (by simpa [SourceOk] using hvalid) (fun b => ?_) ?_
    rfl rfl
  · rw [hsoa]
    cases b with
    | true => exact ScriptEquiv.refl _ _
    | false => exact soa_room_equiv m r hnumbers
  · rw [← hem, hsoa]
    simp [nameSource, cachedName, emission, Act.emission]

/-! ### Layouts and forms -/

/-- The layout of a form that compresses. -/
def RdataForm.layout : RdataForm → NameLayout
  | .mx => ⟨2, 1, true⟩
  | .soa | .minfo => ⟨0, 2, true⟩
  | _ => ⟨0, 1, true⟩

/-- The two tables agree: a form that compresses has its layout, -/
lemma layout_of_compresses {t : Nat} (h : (rdataForm t).compresses = true) :
    dnsRdataNameLayout t = some (rdataForm t).layout := by
  have hall : ∀ p ∈ rdataForms, p.2.compresses = true →
      dnsRdataNameLayout p.1 = some p.2.layout := by
    decide
  exact hall _ (mem_of_compresses h) h

/-- and the layout of any other form says that nothing is compressed. -/
lemma layout_of_plain {t : Nat} (h : (rdataForm t).compresses = false)
    (hl : dnsRdataNameLayout t = some lay) :
    lay.compress = false := by
  have hall : ∀ p ∈ rdataNameLayouts, p.2.compress = true → (rdataForm p.1).compresses = true := by
    decide
  cases hc : lay.compress with
  | false => rfl
  | true =>
    have := hall (t, lay) (lookup_mem hl) hc
    rw [h] at this
    cases this

lemma shape_of_compresses (hok : rec.WiresOk) (h : (rdataForm rec.typeCode.toNat).compresses = true)
    (hem : emission (rdataScript false rec) = some rd) :
      HasShape rec rd (rdataForm rec.typeCode.toNat).layout := by
  have hfail : rdataScript false rec ≠ [.fail] := fun hf => by
    rw [hf] at hem
    cases hem
  cases hform : rdataForm rec.typeCode.toNat with
  | hostName =>
    have hs : ∀ b, rdataScript b rec = hostNameScript b rec := fun b => by rw [rdataScript, hform]
    rw [hs, hostNameScript] at hfail
    cases hc : rec.cache with
    | name n =>
      exact shape_of_script hok hem [.inl n] .nil .nil rfl rfl (by simp [hc, RdataCache.names])
        (by simp [hs, hostNameScript, hc, nameSource])
    | _ =>
      have hlen : rec.rdata.length ≠ 0 := fun hlen => hfail (by simp [hc, hlen])
      exact shape_of_script hok hem [.inr (rec.rd 0)] .nil .nil rfl rfl (by simp)
        (by simp [hs, hostNameScript, hc, hlen, nameSource])
  | mx =>
    have hs : ∀ b, rdataScript b rec = mxScript b rec := fun b => by rw [rdataScript, hform]
    rw [hs, mxScript] at hfail
    have hlen : ¬ rec.rdata.length < 2 := fun hlen => hfail (if_pos hlen)
    rw [if_neg hlen] at hfail
    cases hc : rec.cache with
    | mx pref target wire =>
      cases wire with
      | some n =>
        exact shape_of_script hok hem [.inl n] (.put _) .nil (be16_length pref) rfl
          (by simp [hc, RdataCache.names])
          (by simp [hs, mxScript, hlen, hc, nameSource])
      | none =>
        exact shape_of_script hok hem [.inr target] (.put _) .nil (be16_length pref) rfl (by simp)
          (by simp [hs, mxScript, hlen, hc, nameSource])
    | _ =>
      cases hp : parseU16 (rec.rd 0) with
      | none => exact absurd (by simp [hc, hp, orFail]) hfail
      | some pref =>
        exact shape_of_script hok hem [.inr (rec.rd 1)] (.put _) .nil
          (be16_length pref) rfl (by simp)
          (by simp [hs, mxScript, hlen, hc, hp, nameSource])
  | soa =>
    have hs : ∀ b, rdataScript b rec = soaScript b rec := fun b => by rw [rdataScript, hform]
    have hlen : ¬ rec.rdata.length < 7 := fun hlen => hfail ((hs false).trans (if_pos hlen))
    cases hc : rec.cache with
    | soa mname rname wires numbers =>
      cases wires with
      | none =>
        exact shape_of_script hok hem [.inr mname, .inr rname] .nil
          (.put (numbers.flatMap be32)) rfl rfl (by simp)
          (by simp [hs, soaScript, hlen, hc, nameSource])
      | some mr => exact soa_shape hok hc (fun b => by rw [hs, soaScript, if_neg hlen, hc]) hem
    | _ =>
      exact shape_of_script hok hem [.inr (rec.rd 0), .inr (rec.rd 1)] .nil
        (.put ((soaNumbers rec).flatMap be32)) rfl rfl (by simp)
        (by simp [hs, soaScript, hlen, hc, nameSource])
  | minfo =>
    have hs : ∀ b, rdataScript b rec = _ := fun b => by rw [rdataScript, hform]
    have hlen : ¬ rec.rdata.length < 2 := fun hlen => hfail ((hs false).trans (if_pos hlen))
    exact shape_of_script hok hem [.inr (rec.rd 0), .inr (rec.rd 1)] .nil .nil rfl rfl (by simp)
      (by simp [hs, hlen, nameSource])
  | _ =>
    rw [hform] at h
    cases h

/-! ### What a capture tells -/

lemma emission_rootOwner (rec : DnsRecord) :
    emission (ownerScript false rec (some (ascii "."))) = some [0] := by
  have hdot : readName (ascii ".") = some [] := by decide
  simp [ownerScript, emission, Act.emission, hdot]

/-- A capture gives the emission of the RDATA if that fits behind a root owner. -/
lemma capture_eq (hok : rec.WiresOk) :
    captureRdata rec = if isMetaRrtype rec.typeCode.toNat then none
      else (emission (fullRdataScript false rec)).filter fun rd => rd.length ≤ 65524 := by
  unfold captureRdata
  cases hmeta : isMetaRrtype rec.typeCode.toNat with
  | true => simp [serializeDnsRecord, hmeta]
  | false =>
    have hout :=
      @serialize_outcome 65535 rec (some (ascii ".")) 0xFFFFFFFF ⟨fun _ => 0, 0, none⟩ hok hmeta
      rfl (by simp [dnsHeaderSize])
    rw [serializedWire, emission_rootOwner, bind_some] at hout
    rw [if_neg (by simp)]
    generalize serializeDnsRecord 65535 rec (some (ascii ".")) 0xFFFFFFFF
      ⟨fun _ => 0, 0, none⟩ = r at hout ⊢
    cases hem : emission (fullRdataScript false rec) with
    | none =>
      rw [hem] at hout
      obtain ⟨ok, v⟩ := r
      obtain ⟨rfl, -⟩ := outcome_none.mp hout
      rfl
    | some rd =>
      rw [hem, map_some] at hout
      rw [filter_some]
      by_cases hfit : rd.length ≤ 65524
      · have hlen := recordWire_length [0] rec.typeCode.toNat (recClass rec)
          (ttlWithOverride (recTtl rec) 0xFFFFFFFF) rd
        rw [length_singleton] at hlen
        rw [(outcome_fits (by dsimp only; omega)).mp hout, if_pos (by simpa using hfit)]
        have hstored := holds_blit (fun _ => 0) 0 (recordWire [0] rec.typeCode.toNat (recClass rec)
          (ttlWithOverride (recTtl rec) 0xFFFFFFFF) rd)
        obtain ⟨hroot, -, -, -, hrdlen, hrd⟩ := recordWire_holds hstored
        have hget := getU16_of_holds hrdlen (by omega)
        simp only [length_singleton, Nat.zero_add, Nat.reduceAdd] at hget hrd
        dsimp only [Out.put]
        rw [hget, if_neg, if_neg (by omega), hrd]
        rw [not_or]
        exact ⟨by omega, not_not.mpr (holds_cons.mp hroot).1⟩
      obtain ⟨ok, v⟩ := r
      obtain ⟨rfl, -⟩ := (outcome_full (by rw [recordWire_length]; simp; omega)).mp hout
      rw [if_neg (by simpa using hfit)]

lemma capture_spec (hok : rec.WiresOk) (h : captureRdata rec = some rd) :
    isMetaRrtype rec.typeCode.toNat = false ∧ emission (fullRdataScript false rec) = some rd := by
  rw [capture_eq hok] at h
  split at h
  · cases h
  · rename_i hmeta
    exact ⟨by simpa using hmeta, (filter_eq_some_iff.mp h).1⟩

/-! ### The image and the record -/

/-- The image writes the RDATA of a record as the record's own writer does. -/
lemma imageRdata_equiv (hok : rec.WiresOk) (htype : rr.type = rec.typeCode)
    (hraw : rr.raw = decide (rec.generic.isSome ∨ rec.classVal = classKaridnsExt))
    (hem : emission (fullRdataScript false rec) = some rr.rdata) :
    ScriptEquiv hasCtx (imageRdataScript hasCtx rr) (fullRdataScript hasCtx rec) := by
  have hcopy :
    (∀ lay, dnsRdataNameLayout rr.type.toNat = some lay → rr.raw = false → lay.compress = false) →
      imageRdataScript hasCtx rr = imageNamesScript hasCtx 0 rr.rdata := by
    intro h
    unfold imageRdataScript
    cases hr : rr.raw with
    | true => rfl
    | false =>
      rw [if_neg (by simp)]
      cases hl : dnsRdataNameLayout rr.type.toNat with
      | none => rfl
      | some lay =>
        dsimp only
        rw [h lay hl hr, if_neg (by simp)]
  have hput := put_equiv hasCtx rr.rdata
  cases hg : rec.generic with
  | some bs =>
    rw [hcopy (by simp [hraw, hg])]
    rw [fullRdataScript, hg] at hem ⊢
    obtain rfl : bs = rr.rdata := by simpa [emission, Act.emission] using hem
    exact hput
  | none =>
    by_cases hext : rec.classVal = classKaridnsExt
    · rw [hcopy (by simp [hraw, hext])]
      rw [fullRdataScript, hg, if_pos hext] at hem ⊢
      have hnil : rr.rdata = [] := by simpa [emission] using hem.symm
      rw [hnil]
      exact ScriptEquiv.refl _ _
    have hfull : ∀ b, fullRdataScript b rec = rdataScript b rec := fun b => by
      rw [fullRdataScript, hg]
      exact if_neg hext
    have hnot : rr.raw = false := by simp [hraw, hg, hext]
    rw [hfull] at hem ⊢
    cases hcomp : (rdataForm rec.typeCode.toNat).compresses with
    | true =>
      obtain ⟨pre, names, post, hrd, hpre, hlen, hv, heq⟩ := shape_of_compresses hok hcomp hem
      have hlay := layout_of_compresses hcomp
      have hc : (rdataForm rec.typeCode.toNat).layout.compress = true := by
        generalize rdataForm rec.typeCode.toNat = form
        cases form <;> rfl
      exact (imageRdata_names hnot (htype ▸ hlay) hc hrd hpre hlen hv).trans (heq hasCtx).symm
    | false =>
      rw [hcopy fun lay hl _ => layout_of_plain hcomp (htype ▸ hl)]
      rw [rdataScript_ctx hcomp]
      refine hput.trans fun maxLen w _ hw => ?_
      have hplain := (plain_put rr.rdata).outcome hw
      have hrd : emission [.put rr.rdata] = emission (rdataScript false rec) := by
        rw [hem]
        simp [emission, Act.emission]
      exact hplain.same (hrd ▸ (plain_rdata hcomp).outcome hw)

/-- The spelling and wire form the image has for a record are the record's own. -/
lemma freezeExt_owner (text : Text) (wire : Option Name) (rec : DnsRecord) :
    ((freezeExt text wire rec).bind (·.alt)).getD (text, wire) = (rec.name, recOwnerWire rec) := by
  unfold freezeExt
  by_cases halt : rec.name ≠ text ∨ recOwnerWire rec ≠ wire
  · simp [halt]
  simp only [halt, if_false]
  have hname : rec.name = text := by
    by_contra h
    exact halt (.inl h)
  have hwire : recOwnerWire rec = wire := by
    by_contra h
    exact halt (.inr h)
  split <;> simp [hname, hwire]

/-- The image writes the owner of a record as the record's own writer does. -/
lemma imageOwner_equiv {nm : ImageName} (hext : rr.ext = freezeExt nm.text nm.wire rec)
    (hno : rr.noNameWire = rec.nameWire.isNone) (owner : Option Text) :
    ScriptEquiv hasCtx (imageOwnerScript hasCtx nm rr owner) (ownerScript hasCtx rec owner) := by
  cases owner with
  | some t => exact ScriptEquiv.refl _ _
  | none =>
    unfold imageOwnerScript ownerScript
    dsimp only
    rw [hext, freezeExt_owner]
    dsimp only
    unfold recOwnerWire
    cases hw : rec.nameWire with
    | some n =>
      dsimp only
      rw [if_pos (.inr (by simp [hno, hw]))]
      exact ScriptEquiv.refl _ _
    | none =>
      dsimp only
      cases hn : readName rec.name with
      | none => exact ScriptEquiv.refl _ _
      | some n =>
        dsimp only
        cases hasCtx with
        | true =>
          rw [if_pos (.inl rfl)]
          exact cachedName_equiv hn
        | false =>
          rw [if_neg (by simp [hno, hw])]
          exact ScriptEquiv.refl _ _

/-- A record of the image is written as the record it was made from, whatever the TTL. -/
lemma imageRecord_written {maxLen : Nat} {img : ZoneImage} {k : Nat} {rr : ImageRr} {nm : ImageName}
    {rec : DnsRecord} {id : Nat} (hok : rec.WiresOk) (hrr : img.rrs[k]? = some rr)
    (hnm : img.names[id]? = some nm) (hfreeze : freezeRr id nm.text nm.wire rec = some rr)
    (owner : Option Text) (ttl : Nat) (w : Out) :
    isMetaRrtype rec.typeCode.toNat = false ∧ SameWrite (imageSerializeRr maxLen img k owner ttl w)
      (writeRecord maxLen
          (recordHead (ownerScript w.ctx.isSome rec owner) rec.typeCode.toNat (recClass rec)
            (min ttl 0x7FFFFFFF))
          (fullRdataScript w.ctx.isSome rec) w) := by
  obtain ⟨rd, hrd, rfl⟩ := map_eq_some_iff.mp hfreeze
  obtain ⟨hmeta, hem⟩ := capture_spec hok hrd
  refine ⟨hmeta, ?_⟩
  unfold imageSerializeRr
  rw [hrr]
  dsimp only
  rw [hnm]
  dsimp only
  rw [hmeta, if_neg (by simp)]
  exact writeRecord_same (imageOwner_equiv rfl rfl owner) (imageRdata_equiv hok rfl rfl hem)

/-- A record and what became of it in the image are written alike, for every override of the TTL. -/
lemma imageRecord_same {maxLen : Nat} {k : Nat} {nm : ImageName} {id : Nat} (hok : rec.WiresOk)
    (hrr : img.rrs[k]? = some rr) (hnm : img.names[id]? = some nm)
    (hfreeze : freezeRr id nm.text nm.wire rec = some rr) (owner : Option Text) (override : Nat)
    (w : Out) :
    SameWrite (imageSerializeRr maxLen img k owner (ttlWithOverride (recTtl rec) override) w)
      (serializeDnsRecord maxLen rec owner override w) := by
  obtain ⟨hmeta, hsame⟩ := @imageRecord_written maxLen img k rr nm rec id hok hrr hnm hfreeze
    owner (ttlWithOverride (recTtl rec) override) w
  have hclamp : min (ttlWithOverride (recTtl rec) override) 0x7FFFFFFF =
      ttlWithOverride (recTtl rec) override := by
    have hle : recTtl rec ≤ 0x7FFFFFFF := Nat.min_le_right _ _
    unfold ttlWithOverride
    split <;> omega
  rw [hclamp] at hsame
  unfold serializeDnsRecord
  rwa [hmeta, if_neg (by simp)]

/-- What an accepted arena says about the records of the image. -/
lemma freeze_record {a : ZoneArena} {apex : Option Text} (h : zoneImageFreeze a apex = some img)
    {i : Nat} {s : Slot} (hs : a.records[i]? = some s) (hlive : s.live = true) :
    ∃ k id rr nm, (freezePlan a.records).recRr i = some k ∧ img.rrs[k]? = some rr ∧
      img.names[id]? = some nm ∧ freezeRr id nm.text nm.wire s.record = some rr := by
  obtain ⟨k, hk, hplace⟩ := recRr_isSome hs hlive
  obtain ⟨ix, hf⟩ := frozen_of_freeze h
  obtain ⟨slot, rr, nm, hslot, hrr, -, hnm, hone⟩ := hf.place hplace
  obtain rfl : s = slot := some.inj (hs.symm.trans hslot)
  exact ⟨k, rr.nameId, rr, nm, hk, hrr, hnm, hone⟩

/-- For every arena that is accepted, every record in it, every buffer, offset, context and owner:
the image writes the record as `serialize_dns_record` does, with the same TTL. In a buffer of at
most 65535 octets the offset fits in the 16 bits that the source has for it. -/
theorem imageSerializeRr_same {a : ZoneArena} {apex : Option Text} {img : ZoneImage}
    (h : zoneImageFreeze a apex = some img) {i : Nat} {s : Slot} (hs : a.records[i]? = some s)
    (hlive : s.live = true) :
    ∃ k, (freezePlan a.records).recRr i = some k ∧
      ∀ (maxLen : Nat) (owner : Option Text) (override : Nat) (w : Out),
        SameWrite
          (imageSerializeRr maxLen img k owner (ttlWithOverride (recTtl s.record) override) w)
          (serializeDnsRecord maxLen s.record owner override w) ∧
        (maxLen ≤ 65535 → w.offset ≤ maxLen →
          (imageSerializeRr maxLen img k owner (ttlWithOverride (recTtl s.record) override)
            w).2.offset ≤ 65535) := by
  obtain ⟨k, id, rr, nm, hk, hrr, hnm, hfreeze⟩ := freeze_record h hs hlive
  have hok := a.wires s (mem_of_getElem? hs)
  refine ⟨k, hk, fun maxLen owner override w => ?_⟩
  have hsame :
    SameWrite (imageSerializeRr maxLen img k owner (ttlWithOverride (recTtl s.record) override) w)
      (serializeDnsRecord maxLen s.record owner override w) :=
        imageRecord_same hok hrr hnm hfreeze owner override w
  exact ⟨hsame, fun hmax hw => hsame.offset ▸ (serialize_le _ owner override hw).trans hmax⟩

def mailServer : DnsRecord := textRecord "e." 15 ["10", "Mail.e."]

def mailHere : DnsRecord :=
  { textRecord "Mail.e." 28 ["2001:db8::1"] with bindLocationTag := some (ascii "x") }

/-- A zone with a mail server: one of its addresses is deleted, another is for one location. -/
def mailRecords : List Slot :=
  [⟨textRecord "e." 2 ["Ns.e."], true⟩, ⟨mailServer, true⟩,
    ⟨textRecord "mail.e." 1 ["192.0.2.1"], true⟩, ⟨textRecord "mail.e." 1 ["192.0.2.9"], false⟩,
    ⟨mailHere, true⟩]

def mailArena : ZoneArena :=
  { records := mailRecords
    index := some (buildZoneIndex mailRecords)
    wires := by
      have hbare : ∀ s ∈ mailRecords, s.record.nameWire = none ∧ s.record.cache = .empty := by
        decide +kernel
      intro s hs
      obtain ⟨hname, hcache⟩ := hbare s hs
      exact ⟨by simp [hname], by simp [hcache, RdataCache.names], by simp [hcache,
        RdataCache.NumbersOk]⟩ }

/-- A packet in which `mail.e.` stands behind the header. -/
def mailPacket : Out :=
  (Act.exec 512 ⟨fun _ => 0, 12, some compressCtxInit⟩ (.packName [ascii "mail", ascii "e"])).2

/-- The octets that a call wrote from `p` on. -/
def writtenFrom (p : Nat) (r : Bool × Out) : List UInt8 := slice r.2.buf p (r.2.offset - p)

/-- The owner and the name of the mail server are written as pointers. -/
theorem imageSerializeRr_same_mail : ∃ img k, zoneImageFreeze mailArena
    (some (ascii "e.")) = some img ∧
    (freezePlan mailRecords).recRr 1 = some k ∧
      (imageSerializeRr 512 img k none (ttlWithOverride (recTtl mailServer) 60)
        mailPacket).1 = true ∧
      writtenFrom 20
        (imageSerializeRr 512 img k none (ttlWithOverride (recTtl mailServer) 60) mailPacket) =
        [0xC0, 17, 0, 15, 0, 1, 0, 0, 0, 60, 0, 4, 0, 10, 0xC0, 12] := by
  obtain ⟨img, himg⟩ := isSome_iff_exists.mp
    (show (zoneImageFreeze mailArena (some (ascii "e."))).isSome = true by decide +kernel)
  obtain ⟨k, hk, hall⟩ := imageSerializeRr_same himg (i := 1) (s := ⟨mailServer, true⟩) rfl rfl
  have hsame := (hall 512 none 60 mailPacket).1
  have hwritten : (serializeDnsRecord 512 mailServer none 60 mailPacket).1 = true ∧
      writtenFrom 20 (serializeDnsRecord 512 mailServer none 60 mailPacket) =
        [0xC0, 17, 0, 15, 0, 1, 0, 0, 0, 60, 0, 4, 0, 10, 0xC0, 12] := by decide +kernel
  refine ⟨img, k, himg, hk, hsame.ok.trans hwritten.1, ?_⟩
  rw [← hwritten.2, writtenFrom, writtenFrom, hsame.buf (hsame.ok.trans hwritten.1), hsame.offset]

end KariDns
