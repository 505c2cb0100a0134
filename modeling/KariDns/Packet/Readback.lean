import KariDns.Packet.Fills
import KariDns.Packet.Run

/-! A record written into a packet and read again.

Transfers and updates rest on this: what `serialize_dns_record` writes, with any compression
table, `parse_resource_record` accepts, and the record it yields stands for the one that was
written (`parse_serialized`).
-/

namespace KariDns

open Octets DomainName List Option

variable {m : Buf} {rec : DnsRecord} {vs vs' : List FieldValue} {ks : List NameMark}
    {rd : List UInt8}
  {e maxLen p packetLen ttl type : Nat} {hold : Nat → Bool} {owner : Option Text} {w : Out}

/-! ### Caches do not change which pointers are clean -/

lemma runClean_none : ∀ {s : Script} {w : Out}, w.offset ≤ maxLen → w.ctx = none →
    runClean hold maxLen s w = true
  | [], _, _, _ => rfl
  | a :: s, w, hw, hctx => by
    have hclean : a.clean hold maxLen w = true := by simp [Act.clean, hctx]
    rw [runClean, hclean]
    cases hexec : (a.exec maxLen w).1 with
    | false => rfl
    | true =>
      have hsome := exec_isSome hw a
      rw [hctx] at hsome
      rw [runClean_none (exec_le hw hexec) (by simpa using hsome)]
      rfl

lemma runClean_plain : ∀ {s : Script} {w : Out}, Plain s → runClean hold maxLen s w = true
  | [], _, _ => rfl
  | a :: s, w, h => by
    obtain ⟨ha, hs⟩ := (acts_cons _ _).mp h
    have hpacked : a.packed = none := by
      cases a with
      | dnsName t => simp [Act.plain] at ha
      | packName n => simp [Act.plain] at ha
      | _ => rfl
    rw [runClean, runClean_plain hs]
    simp [Act.clean, hpacked]

/-- Actions that a context cannot tell apart. -/
def Act.Alike (a b : Act) : Prop :=
  ∀ (maxLen : Nat) (w : Out), w.ctx.isSome = true →
    a.exec maxLen w = b.exec maxLen w ∧ ∀ hold, a.clean hold maxLen w = b.clean hold maxLen w

lemma Act.Alike.refl (a : Act) : a.Alike a := fun _ _ _ => ⟨rfl, fun _ => rfl⟩

lemma packName_alike {t : Text} {n : Name} (h : readName t = some n) :
    (Act.packName n).Alike (.dnsName t) := by
  intro maxLen w hctx
  obtain ⟨ctx, hc⟩ := isSome_iff_exists.mp hctx
  refine ⟨?_, fun hold => ?_⟩
  · rw [Act.exec, Act.exec, hc, writeDnsNameStr_some hc, h]
  · simp [Act.clean, Act.packed, h, hc]

lemma run_alike {s s' : Script} (h : List.Forall₂ Act.Alike s s') :
    ∀ {w : Out}, w.offset ≤ maxLen → w.ctx.isSome = true → run maxLen s w = run maxLen s' w ∧
      ∀ hold, runClean hold maxLen s w = runClean hold maxLen s' w := by
  induction h with
  | nil => exact fun _ _ => ⟨rfl, fun _ => rfl⟩
  | @cons a b s s' hab _ ih =>
    intro w hw hctx
    obtain ⟨hexec, hclean⟩ := hab maxLen w hctx
    cases hb : (b.exec maxLen w).1 with
    | false =>
      refine ⟨?_, fun hold => ?_⟩
      · rw [run_cons, run_cons, hexec, hb, if_neg (by simp), if_neg (by simp)]
      · rw [runClean, runClean, hclean, hexec, hb]
        rfl
    | true =>
      obtain ⟨hrun, hcleans⟩ := ih (exec_le hw hb) ((exec_isSome hw b).trans hctx)
      refine ⟨?_, fun hold => ?_⟩
      · rw [run_cons, run_cons, hexec, hrun]
      · rw [runClean, runClean, hclean, hexec, hcleans]

lemma alike_refl (s : Script) : List.Forall₂ Act.Alike s s := forall₂_same.mpr fun a _ => .refl a

lemma owner_alike (h : rec.Truthful) (owner : Option Text) :
    List.Forall₂ Act.Alike (ownerScript true rec owner) (ownerScript true rec.uncached owner) := by
  cases owner with
  | some t => exact alike_refl _
  | none =>
    have huncached : ownerScript true rec.uncached none = [.dnsName rec.name] := rfl
    rw [huncached, ownerScript]
    split
    · rename_i n hn
      exact .cons (packName_alike (h.owner n hn)) .nil
    · exact alike_refl _

/-- Where names are compressed, cached names are packed like the texts they were read from. -/
lemma rdata_alike (h : CacheOk rec) (hcomp : (rdataForm rec.typeCode.toNat).compresses = true) :
    List.Forall₂ Act.Alike (rdataScript true rec) (rdataScript true rec.uncached) := by
  have huncached : rdataForm rec.uncached.typeCode.toNat = rdataForm rec.typeCode.toNat := rfl
  unfold rdataScript
  rw [huncached]
  generalize rdataForm rec.typeCode.toNat = form at hcomp
  cases form with
  | hostName =>
    dsimp only
    rw [hostNameScript_uncached, hostNameScript]
    split
    · rename_i n hc
      simp only [CacheOk, hc] at h
      rw [if_neg h.1]
      exact .cons (packName_alike h.2) .nil
    · exact alike_refl _
  | mx =>
    dsimp only
    rw [mxScript_uncached, mxScript]
    split
    · exact alike_refl _
    split
    · rename_i pref target n hc
      simp only [CacheOk, hc] at h
      rw [h.1, orFail_some, ← h.2.1]
      exact .cons (.refl _) (.cons (packName_alike (h.2.2 n rfl)) .nil)
    · rename_i pref target hc
      simp only [CacheOk, hc] at h
      rw [h.1, orFail_some, ← h.2.1]
      exact alike_refl _
    · exact alike_refl _
  | soa =>
    dsimp only
    rw [soaScript_uncached, soaScript]
    split
    · exact alike_refl _
    split
    · rename_i mname rname m r numbers hc
      simp only [CacheOk, hc] at h
      obtain ⟨rfl, rfl, rfl, hw⟩ := h
      obtain ⟨hm, hr⟩ := hw m r rfl
      exact .cons (packName_alike hm) (.cons (packName_alike hr) (.cons (.refl _) .nil))
    · rename_i mname rname numbers hc
      simp only [CacheOk, hc] at h
      obtain ⟨rfl, rfl, rfl, -⟩ := h
      exact alike_refl _
    · exact alike_refl _
  | minfo => exact alike_refl _
  | _ => cases hcomp

/-- The RDATA of a record is clean with its cache if it is without. -/
lemma fullRdata_clean {rec : DnsRecord} (h : CacheOk rec) {hold : Nat → Bool} {maxLen : Nat}
    {w : Out} (hw : w.offset ≤ maxLen) :
    runClean hold maxLen (fullRdataScript w.ctx.isSome rec) w =
      runClean hold maxLen (fullRdataScript w.ctx.isSome rec.uncached) w := by
  cases hctx : w.ctx.isSome with
  | false =>
    have hnone : w.ctx = none := by simpa using hctx
    rw [runClean_none hw hnone, runClean_none hw hnone]
  | true =>
    have hgeneric : rec.uncached.generic = rec.generic := rfl
    have hclass : rec.uncached.classVal = rec.classVal := rfl
    unfold fullRdataScript
    rw [hgeneric, hclass]
    split
    · rfl
    split
    · rfl
    cases hcomp : (rdataForm rec.typeCode.toNat).compresses with
    | true => exact (run_alike (rdata_alike h hcomp) hw hctx).2 hold
    | false =>
      rw [runClean_plain (plain_rdata hcomp)]
      exact (runClean_plain (@plain_rdata true rec.uncached hcomp)).symm

/-- The pointers of a record are clean with its caches if they are without. -/
lemma recordClean_uncached (h : rec.Truthful) (hw : w.offset ≤ maxLen)
    (hclean : recordClean maxLen (headScript rec owner ttl w)
      (fullRdataScript w.ctx.isSome rec) w = true) :
    recordClean maxLen (headScript rec.uncached owner ttl w)
      (fullRdataScript w.ctx.isSome rec.uncached) w = true := by
  -- what is behind the head is reached with as much of a context as before it
  have hnext : ∀ {r : DnsRecord}, (run maxLen (headScript r owner ttl w) w).1 = true →
      (run maxLen (headScript r owner ttl w) w).2.ctx.isSome = w.ctx.isSome ∧
        (run maxLen (headScript r owner ttl w) w).2.offset + 2 ≤ maxLen :=
    fun hok => ⟨run_isSome hw, recordHead_room hok⟩
  rw [recordClean, Bool.and_eq_true, Bool.or_eq_true, Bool.not_eq_true'] at hclean ⊢
  cases hctx : w.ctx.isSome with
  | false =>
    have hnone : w.ctx = none := by simpa using hctx
    refine ⟨runClean_none hw hnone, ?_⟩
    cases hok : (run maxLen (headScript rec.uncached owner ttl w) w).1 with
    | false => exact .inl rfl
    | true =>
      obtain ⟨hsome, hroom⟩ := hnext hok
      exact .inr (runClean_none hroom (by simpa [hctx] using hsome))
  | true =>
    have halike : List.Forall₂ Act.Alike (headScript rec owner ttl w)
        (headScript rec.uncached owner ttl w) := by
      rw [headScript, headScript, hctx, recordHead, recordHead]
      exact .cons (.refl _) (rel_append (owner_alike h owner) (alike_refl _))
    obtain ⟨hrun, hcleans⟩ := run_alike halike hw hctx
    rw [hcleans, hrun] at hclean
    refine ⟨hclean.1, ?_⟩
    cases hok : (run maxLen (headScript rec.uncached owner ttl w) w).1 with
    | false => exact .inl rfl
    | true =>
      obtain ⟨hsome, hroom⟩ := hnext hok
      have hrd := hclean.2.resolve_left (by simp [hok])
      have hrdata :=
        @fullRdata_clean rec h.cache
          (lengthHold (run maxLen (headScript rec.uncached owner ttl w) w).2.offset)
        maxLen { (run maxLen (headScript rec.uncached owner ttl w) w).2 with
          offset := (run maxLen (headScript rec.uncached owner ttl w) w).2.offset + 2 } hroom
      dsimp only at hrdata
      rw [hsome, hctx] at hrdata
      rw [hctx] at hrd
      exact .inr (hrdata.symm.trans hrd)

/-! ### The RDATA that is read back -/

/-- Octets given for a type that is kept as text have the fields of the type, timers within their
limit. -/
def GenericOk (type : Nat) (bs : List UInt8) : Prop :=
  parsedAsText type = true → ∃ vs : List FieldValue, Shape type vs ∧ (∀ v ∈ vs, v.Ok) ∧
    servedValues type vs = vs ∧ bs = valuesWire vs

/-- The same RDATA, ASCII case aside in the names it holds. -/
def SameRdata (type : Nat) (rd rd' : List UInt8) : Prop :=
  rd' = rd ∨ ∃ vs vs' : List FieldValue, Shape type vs ∧ List.Forall₂ FieldValue.Same vs' vs ∧
    rd = valuesWire vs ∧ rd' = valuesWire vs'

/-- RDATA from `p` to `e` that the reader accepts and that is served as `rd`. -/
structure ReadsBack (m : Buf) (packetLen type p e : Nat) (rd : List UInt8) : Prop where
  accepted : ∃ prd, parseRdata m packetLen type p (e - p) = some prd
  rdataAt : RdataAt m packetLen type p (e - p) rd
  served : servedRdata type rd = rd
  notEmpty : type = 16 → e - p ≠ 0

lemma shape_soa
    (h : Shape 6 vs) : vs.map FieldValue.kind = [.name, .name, .u32, .u32, .u32, .u32, .u32] := h

lemma same_chars {ss : List Text} (h : List.Forall₂ FieldValue.Same vs (ss.map .chars)) :
    vs = ss.map .chars := by
  induction ss generalizing vs with
  | nil =>
    cases h
    rfl
  | cons s ss ih =>
    rcases h with _ | ⟨hv, hrest⟩
    rename_i v vs
    obtain rfl : v = .chars s := by
      cases v <;> exact hv
    rw [ih hrest]
    rfl

lemma shape_same (h : Shape type vs) (hsame : List.Forall₂ FieldValue.Same vs' vs) :
    Shape type vs' := by
  unfold Shape at h ⊢
  split at h
  · exact (same_kinds hsame).trans h
  rcases h with ⟨h35, hk⟩ | ⟨h16, ss, hne, rfl⟩
  · exact .inl ⟨h35, (same_kinds hsame).trans hk⟩
  · exact .inr ⟨h16, ss, hne, same_chars hsame⟩

lemma clamp_same (hsame : List.Forall₂ FieldValue.Same vs' vs) (h : vs.map clampTimer = vs) :
    vs'.map clampTimer = vs' := by
  induction hsame with
  | nil => rfl
  | cons hv _ ih =>
    rw [map_cons, List.cons.injEq] at h
    rw [map_cons, hv.clampTimer h.1, ih h.2]

lemma served_same (h : servedValues type vs = vs) (hsame : List.Forall₂ FieldValue.Same vs' vs) :
    servedValues type vs' = vs' := by
  unfold servedValues at h ⊢
  split at h
  · rename_i h6
    rw [if_pos h6]
    have hclamp : (vs.drop 3).map clampTimer = vs.drop 3 :=
      append_cancel_left (h.trans (take_append_drop 3 vs).symm)
    rw [clamp_same (forall₂_drop 3 hsame) hclamp, take_append_drop]
  · rename_i h6
    exact if_neg h6

lemma values_readBack (hshape : Shape type vs) (hserved : servedValues type vs = vs)
    (h : FieldsRead m packetLen p vs e)
    (hfull : type = 35 → Holds m p (valuesWire vs) ∧ e - p = (valuesWire vs).length) :
    ReadsBack m packetLen type p e (valuesWire vs) := by
  have hleast := h.least
  obtain ⟨len, rfl⟩ : ∃ len, e = p + len := ⟨e - p, by omega⟩
  have hlen : p + len - p = len := by omega
  refine ⟨?_, ?_, ?_, ?_⟩
  · rw [hlen] at hfull ⊢
    exact isSome_iff_exists.mp (values_accepted hshape h hfull)
  · rw [hlen]
    exact values_rdataAt hshape h
  · rw [servedRdata_valuesWire h.fieldsAt.ok (fun h6 => shape_soa (h6 ▸ hshape)), hserved]
  rintro rfl
  rcases hshape with ⟨h35, -⟩ | ⟨-, ss, hne, rfl⟩
  · cases h35
  match ss, hne with
  | s :: ss, _ =>
    simp [FieldValue.kind, WireField.least] at hleast
    omega

/-- Types with names that are compressed are kept as text. -/
lemma text_of_compresses (h : (rdataForm type).compresses = true) : parsedAsText type = true := by
  have hall : ∀ p ∈ rdataForms, p.2.compresses = true → parsedAsText p.1 = true := by decide
  exact hall _ (mem_of_compresses h) h

lemma laid_emission {s : Script} (h : LaidOut hold m s ks p e) : ∃ bs, emission s = some bs := by
  induction h with
  | nil => exact ⟨[], rfl⟩
  | @cons a s ks p q e _ hat _ ih =>
    obtain ⟨bs, hbs⟩ := ih
    obtain ⟨as, has⟩ : ∃ as, a.emission = some as := by
      cases a with
      | need _ => exact ⟨_, rfl⟩
      | put _ => exact ⟨_, rfl⟩
      | fail => exact hat.elim
      | _ =>
        obtain ⟨n, hm, -⟩ := hat
        exact ⟨_, meant_emission hm⟩
    exact ⟨as ++ bs, by rw [emission, has, hbs]; rfl⟩

/-- Without a cache the script does not depend on the context. -/
lemma fullRdataScript_ctx (hcache : rec.cache = .empty) (hasCtx : Bool) :
    fullRdataScript hasCtx rec = fullRdataScript false rec := by
  unfold fullRdataScript
  split
  · rfl
  split
  · rfl
  unfold rdataScript
  cases rdataForm rec.typeCode.toNat with
  | hostName => simp only [hostNameScript, hcache]
  | mx => simp only [mxScript, hcache]
  | soa => simp only [soaScript, hcache]
  | _ => rfl

/-- Octets that stand in full in the place of the RDATA. -/
def InFull (m : Buf) (p e : Nat) (bs : List UInt8) : Prop := Holds m p bs ∧ e = p + bs.length

lemma opaque_readBack (h : InFull m p e rd) (htext : parsedAsText type = false) :
    ReadsBack m packetLen type p e rd := by
  obtain ⟨hholds, rfl⟩ := h
  obtain ⟨hr, h35, h16⟩ : rdataReaders.lookup type = none ∧ type ≠ 35 ∧ type ≠ 16 := by
    simpa [parsedAsText, and_assoc] using htext
  have hlen : p + rd.length - p = rd.length := by omega
  have h6 : type ≠ 6 := by
    rintro rfl
    revert hr
    decide
  refine ⟨⟨parseOther m type p (p + rd.length - p), ?_⟩, ?_, if_neg h6, fun h => absurd h h16⟩
  · rw [parseRdata, hr]
    dsimp only
    rw [if_neg h35, if_neg h16]
  · rw [RdataAt, nameFields_none hr h35, hlen]
    exact hholds.symm

lemma full_readBack (hshape : Shape type vs) (hserved : servedValues type vs = vs)
    (hok : ∀ v ∈ vs, v.Ok) (h : InFull m p e (valuesWire vs)) (hle : e ≤ packetLen) :
      ReadsBack m packetLen type p e (valuesWire vs) := by
  obtain ⟨hholds, rfl⟩ := h
  exact values_readBack hshape hserved (fieldsRead_of_holds hok hholds hle) fun _ =>
    ⟨hholds, by omega⟩

section

variable (hcache : rec.cache = .empty)
    (hclass : rec.classVal = classKaridnsExt → parsedAsText rec.typeCode.toNat = false)
  (hgeneric : ∀ bs, rec.generic = some bs → GenericOk rec.typeCode.toNat bs)

include hcache hclass hgeneric

/-- RDATA that stands in full is read back. -/
lemma plain_readBack (hrd : emission (fullRdataScript false rec) = some rd)
    (hfull : InFull m p e rd) (hle : e ≤ packetLen) :
    ReadsBack m packetLen rec.typeCode.toNat p e rd := by
  cases htext : parsedAsText rec.typeCode.toNat with
  | false => exact opaque_readBack hfull htext
  | true =>
    unfold fullRdataScript at hrd
    cases hg : rec.generic with
    | some bs =>
      obtain ⟨vs, hshape, hok, hserved, hbs⟩ := hgeneric bs hg htext
      obtain rfl : rd = valuesWire vs := by
        rw [← hbs]
        simpa [hg, emission, Act.emission, eq_comm] using hrd
      exact full_readBack hshape hserved hok hfull hle
    | none =>
      have hext : rec.classVal ≠ classKaridnsExt := by
        intro hext
        rw [hclass hext] at htext
        cases htext
      simp only [hg, if_neg hext] at hrd
      obtain ⟨vs, hfills, hshape, hok, hserved⟩ := rdataScript_fills hcache htext hrd
      obtain rfl : valuesWire vs = rd := some.inj (hfills.emission.symm.trans hrd)
      exact full_readBack hshape hserved hok hfull hle

/-- Where the RDATA of a record was laid out it is read back, exactly if nothing was compressed. -/
lemma rdata_readBack {hasCtx : Bool} (hlaid : LaidOut noHold m (fullRdataScript hasCtx rec) ks p e)
    (hle : e ≤ packetLen)
    (hplain : hasCtx = false ∨ (rdataForm rec.typeCode.toNat).compresses = false →
      ∀ bs, emission (fullRdataScript hasCtx rec) = some bs → InFull m p e bs) :
    ∃ rd rd', emission (fullRdataScript false rec) = some rd ∧
      ReadsBack m packetLen rec.typeCode.toNat p e rd' ∧ SameRdata rec.typeCode.toNat rd rd' ∧
      (hasCtx = false ∨ (rdataForm rec.typeCode.toNat).compresses = false → rd' = rd) := by
  obtain ⟨rd, hrd⟩ := laid_emission hlaid
  have hscript := fullRdataScript_ctx hcache hasCtx
  have hexact : InFull m p e rd → ReadsBack m packetLen rec.typeCode.toNat p e rd := fun hfull =>
    plain_readBack hcache hclass hgeneric (hscript ▸ hrd) hfull hle
  by_cases hp : hasCtx = false ∨ (rdataForm rec.typeCode.toNat).compresses = false
  · exact ⟨rd, rd, hscript ▸ hrd, hexact (hplain hp rd hrd), .inl rfl, fun _ => rfl⟩
  have htext : parsedAsText rec.typeCode.toNat = true :=
    text_of_compresses (by simpa using (not_or.mp hp).2)
  cases hg : rec.generic with
  | some bs =>
    have hput : fullRdataScript hasCtx rec = [.put bs] := by
      rw [fullRdataScript, hg]
    obtain rfl : rd = bs := by
      rw [hput] at hrd
      simpa [emission, Act.emission, eq_comm] using hrd
    have hfull : InFull m p e rd := by
      rw [hput] at hlaid
      cases hlaid with
      | cons _ hat hrest =>
        cases hrest
        exact hat
    exact ⟨rd, rd, hscript ▸ hrd, hexact hfull, .inl rfl, fun _ => rfl⟩
  | none =>
    have hfull : fullRdataScript hasCtx rec = rdataScript hasCtx rec := by
      rw [fullRdataScript, hg]
      refine if_neg fun hext => ?_
      rw [hclass hext] at htext
      cases htext
    rw [hfull] at hlaid hrd
    rw [← hscript, hfull]
    obtain ⟨vs, hfills, hshape, hok, hserved⟩ := rdataScript_fills hcache htext hrd
    obtain ⟨vs', hsame, hread⟩ := hfills.read hlaid hle hok
    have h35 : rec.typeCode.toNat ≠ 35 := by
      intro h35
      refine hp (.inr ?_)
      rw [h35]
      decide
    refine ⟨_, valuesWire vs', hfills.emission, ?_, .inr ⟨vs, vs', hshape, hsame, rfl, rfl⟩,
      fun h => absurd h hp⟩
    exact values_readBack (shape_same hshape hsame) (served_same hserved hsame) hread
      fun h => absurd h h35

end

/-! ### The record that is read back -/

/-- The head of a record without caches: the owner stands at `p`, the fixed fields behind it. -/
lemma head_laid {class_ q : Nat} {hasCtx : Bool} (hname : rec.nameWire = none)
    (h : LaidOut noHold m (recordHead (ownerScript hasCtx rec owner) type class_ ttl) ks p q) :
    ∃ n e, readName (owner.getD rec.name) = some n ∧ (NameMark.mk p e n).Good noHold m ∧ q = e + 8 ∧
      Holds m e (be16 type ++ be16 class_ ++ be32 ttl) := by
  have hscript : ownerScript hasCtx rec owner = [.dnsName (owner.getD rec.name)] := by
    cases owner with
    | some t => rfl
    | none => rw [ownerScript, hname]; rfl
  rw [hscript, recordHead] at h
  rcases h with _ | ⟨-, hneed, h⟩
  rcases h with _ | ⟨-, ⟨n, hread, hgood⟩, h⟩
  rcases h with _ | ⟨-, hten, h⟩
  rcases h with _ | ⟨-, ⟨hfields, hend⟩, h⟩
  cases h
  obtain rfl : _ = p := hneed
  obtain rfl := hten
  exact ⟨n, _, hread, hgood, by simpa using hend, hfields⟩

lemma wiresOk_bare (hcache : rec.cache = .empty) (hname : rec.nameWire = none) : rec.WiresOk :=
  ⟨by simp [hname], by simp [hcache, RdataCache.names], by simp [hcache, RdataCache.NumbersOk]⟩

/-- RDATA that no context changes stands in the packet in full. -/
lemma rdata_inFull {maxLen : Nat} {rec : DnsRecord} {head : Script} {w u : Out}
    (hcache : rec.cache = .empty) (hname : rec.nameWire = none)
    (hw : (run maxLen head w).2.offset + 2 ≤ maxLen) (hoff : w.offset ≤ maxLen)
    (h : writeRecord maxLen head (fullRdataScript w.ctx.isSome rec) w = (true, u))
    (hp : w.ctx.isSome = false ∨ (rdataForm rec.typeCode.toNat).compresses = false)
    {bs : List UInt8} (hbs : emission (fullRdataScript w.ctx.isSome rec) = some bs) :
    InFull u.buf ((run maxLen head w).2.offset + 2) u.offset bs := by
  obtain ⟨v, v', hhead, hrd, -, rfl⟩ := writeRecord_parts h
  rw [hhead] at hw ⊢
  dsimp only at hw ⊢
  have hctx : v.ctx.isSome = w.ctx.isSome := by
    have := @run_isSome maxLen head w hoff
    rwa [hhead] at this
  have hout : Outcome maxLen { v with offset := v.offset + 2 } (some bs) (true, v') := by
    rw [← hrd, ← hbs]
    rcases hp with hp | hp
    · rw [hp]
      exact fullRdata_outcome (wiresOk_bare hcache hname) hw (by simpa [hp] using hctx)
    unfold fullRdataScript
    split
    · exact (plain_put _).outcome hw
    split
    · exact Plain.outcome acts_nil hw
    · exact (plain_rdata hp).outcome hw
  by_cases hfit : v.offset + 2 + bs.length ≤ maxLen
  · obtain ⟨-, rfl⟩ := Prod.mk.inj ((outcome_fits hfit).mp hout)
    refine ⟨?_, rfl⟩
    refine (holds_blit v.buf (v.offset + 2) bs).congr fun i hi _ => ?_
    have hbehind : v.offset + (be16 (v.offset + 2 + bs.length - v.offset - 2)).length ≤ i := by
      simpa using hi
    exact (blit_ge hbehind).symm
  · cases ((outcome_full hfit).mp hout).1

lemma sameRdata_length {rd' : List UInt8} (h : SameRdata type rd rd') : rd'.length = rd.length := by
  rcases h with rfl | ⟨vs, vs', -, hsame, rfl, rfl⟩
  · rfl
  induction hsame with
  | nil => rfl
  | @cons v' v vs' vs hv _ ih =>
    have hlen : v'.wire.length = v.wire.length := by
      cases v' with
      | name n' =>
        cases v <;> first | exact wire_length_same hv | cases hv
      | _ =>
        cases v <;> cases hv
        rfl
    simp only [valuesWire, flatMap_cons, length_append] at ih ⊢
    rw [hlen, ih]

lemma recClass_ext (h : rec.classVal = classKaridnsExt) : recClass rec = classKaridnsExt.toNat := by
  rw [recClass, if_neg (by rw [h]; decide), h]

lemma recClass_lt (rec : DnsRecord) : recClass rec < 65536 := by
  rw [recClass]
  have := rec.classVal.toNat_lt
  split_ifs <;> omega

lemma recClass_ne_zero (rec : DnsRecord) : recClass rec ≠ 0 := by
  rw [recClass]
  split_ifs with h
  · decide
  · decide
  · decide
  · decide
  · intro hzero
    exact h (UInt16.toNat_inj.mp hzero)

lemma ttl_le (rec : DnsRecord) (override : Nat) :
    ttlWithOverride (recTtl rec) override ≤ 0x7FFFFFFF := by
  have hle : recTtl rec ≤ 0x7FFFFFFF := Nat.min_le_right _ _
  rw [ttlWithOverride]
  split <;> omega

/-- A record in a packet, from `p` to `stop`, its fixed fields at `e`: `n` is the owner that was
meant and `n'` the one that is read, `rd` the RDATA without compression and `rd'` the one that is
served again. -/
structure Written (m : Buf) (packetLen : Nat) (rec : DnsRecord) (owner : Option Text) (ttl : Nat)
    (hasCtx : Bool) (p e stop : Nat) (n n' : Name) (rd rd' : List UInt8) : Prop where
  meant : readName (owner.getD rec.name) = some n
  same : Same n' n
  owner : expandWireNameToBuffer m packetLen p dnsNameTextSize = some (nameText n', e)
  type : getU16 m e = rec.typeCode.toNat
  class_ : getU16 m (e + 2) = recClass rec
  ttl : getU32 m (e + 4) = ttl
  length : e + 10 + getU16 m (e + 8) = stop
  plain : emission (fullRdataScript false rec) = some rd
  reads : ReadsBack m packetLen rec.typeCode.toNat (e + 10) stop rd'
  sameRdata : SameRdata rec.typeCode.toNat rd rd'
  exact : hasCtx = false ∨ (rdataForm rec.typeCode.toNat).compresses = false → rd' = rd

/-- A record without caches stands in the packet once it is written. -/
lemma writeRecord_written {u : Out} (hcache : rec.cache = .empty) (hname : rec.nameWire = none)
    (hmax : maxLen ≤ 65535) (hpacket : u.offset ≤ packetLen) (httlLe : ttl ≤ 0x7FFFFFFF)
    (hok : writeRecord maxLen (headScript rec owner ttl w)
      (fullRdataScript w.ctx.isSome rec) w = (true, u))
    (hclean : recordClean maxLen (headScript rec owner ttl w)
      (fullRdataScript w.ctx.isSome rec) w = true)
    (hclass : rec.classVal = classKaridnsExt → parsedAsText rec.typeCode.toNat = false)
    (hgeneric : ∀ bs, rec.generic = some bs → GenericOk rec.typeCode.toNat bs) :
    ∃ e n n' rd rd', Written u.buf packetLen rec owner ttl w.ctx.isSome w.offset e u.offset
      n n' rd rd' := by
  have hwires := wiresOk_bare hcache hname
  have hheadOk : (run maxLen (headScript rec owner ttl w) w).1 = true := by
    obtain ⟨v, v', hv, -⟩ := writeRecord_parts hok
    exact congrArg Prod.fst hv
  have hoff := recordHead_offset hheadOk
  have hroom := recordHead_room hheadOk
  obtain ⟨⟨ks, ks', -, hhead, hrdata⟩, hlength⟩ :=
    writeRecord_laid (ownerScript_namesOk hwires owner) (fullRdataScript_namesOk hwires) hok hclean
  have hfull := fun hp bs hbs =>
    @rdata_inFull maxLen rec _ w u hcache hname hroom hoff hok hp bs hbs
  have hle : u.offset ≤ maxLen := by
    have h := @writeRecord_le maxLen (headScript rec owner ttl w) (fullRdataScript w.ctx.isSome rec)
      w hoff fun _ => hroom
    rwa [hok] at h
  obtain ⟨n, e, hread, hgood, hq, hfields⟩ := head_laid hname hhead
  rw [hq] at hlength hfull hrdata
  have hend := hrdata.le
  obtain ⟨rd, rd', hrd, hback, hsameRd, hexact⟩ :=
    rdata_readBack hcache hclass hgeneric hrdata hpacket hfull
  obtain ⟨n', hn', hnread⟩ := hgood.read (show e ≤ packetLen by omega)
  obtain ⟨hhead, httl⟩ := holds_append.mp hfields
  obtain ⟨htype, hclassAt⟩ := holds_append.mp hhead
  have hlength := getU16_of_holds hlength (by omega)
  exact ⟨e, n, n', rd, rd', {
    meant := hread
    same := hn'
    owner := (filter_eq_some_iff.mp hnread.read).1
    type := getU16_of_holds htype (UInt16.toNat_lt _)
    class_ := getU16_of_holds hclassAt (recClass_lt _)
    ttl := getU32_of_holds (by simpa using httl) (by omega)
    length := by omega
    plain := hrd
    reads := hback
    sameRdata := hsameRd
    exact := hexact }⟩

section written

variable {m : Buf} {packetLen ttl p e stop : Nat} {rec : DnsRecord}
    {owner : Option Text} {hasCtx : Bool}
  {n n' : Name} {rd rd' : List UInt8}

/-- The record that is read. -/
lemma Written.parse (alloc : Nat → Bool)
    (h : Written m packetLen rec owner ttl hasCtx p e stop n n' rd rd') (hstop : stop ≤ packetLen)
    (httl : ttl ≤ 0x7FFFFFFF) (hmeta : isMetaRrtype rec.typeCode.toNat = false)
    (hext : recClass rec = classKaridnsExt.toNat → parsedAsText rec.typeCode.toNat = false) :
    ∃ rec', parseResourceRecord alloc m packetLen p = some (rec', stop) ∧
      rec'.name = nameText n' ∧ rec'.typeCode = rec.typeCode ∧ recClass rec' = recClass rec ∧
      recTtl rec' = ttl ∧
      ∀ size (v : Out), v.ctx = none → v.offset + dnsHeaderSize ≤ size →
        v.offset + (recordWire (wire n') rec.typeCode.toNat (recClass rec) ttl rd').length ≤ size →
        serializeDnsRecord size rec' none 0xFFFFFFFF v =
          (true, v.put (recordWire (wire n') rec.typeCode.toNat (recClass rec) ttl rd')) := by
  have hvalid : Valid n' := Valid.of_same h.same (readName_valid h.meant)
  have hlength := h.length
  have hlen : stop - (e + 10) = getU16 m (e + 8) := by omega
  obtain ⟨⟨prd, hprd⟩, hat, hserved, hne⟩ := h.reads
  rw [hlen] at hprd hat hne
  have hclass : getU16 m (e + 2) ≠ 0 := h.class_ ▸ recClass_ne_zero rec
  have hmin : min (getU32 m (e + 4)) 0x7FFFFFFF = ttl := by
    rw [h.ttl]
    omega
  obtain ⟨htype, hc, ht⟩ := @parsed_head m (nameText n') e prd hclass
  refine ⟨preparseCache alloc (parsedRecord m (nameText n') e prd), ?_,
    preparse_keeps DnsRecord.name (fun _ _ _ => rfl) alloc _, ?_, ?_, ?_, ?_⟩
  · rw [parseResourceRecord, h.owner]
    dsimp only
    rw [if_neg (by omega), if_neg (by omega), h.type, hprd, hlength]
    rfl
  · rw [preparse_keeps DnsRecord.typeCode fun _ _ _ => rfl]
    exact UInt16.toNat_inj.mp (htype.trans h.type)
  · rw [preparse_keeps recClass fun _ _ _ => rfl, hc, h.class_]
  · rw [preparse_keeps recTtl fun _ _ _ => rfl, ht, hmin]
  intro size v hctx hroom hfit
  have hserve := @parsedRecord_served alloc m packetLen e n' prd rd' hvalid
  rw [h.type, h.class_, hmin, hserved] at hserve
  exact hserve hprd hat hmeta (recClass_ne_zero rec) hext hne hctx hroom hfit

/-- The record that was written, without compression. -/
lemma Written.plainSerialize {override : Nat}
    (h : Written m packetLen rec owner (ttlWithOverride (recTtl rec) override) hasCtx p e
      stop n n' rd rd')
    (hcache : rec.cache = .empty) (hname : rec.nameWire = none)
    (hmeta : isMetaRrtype rec.typeCode.toNat = false) {size : Nat} {v : Out} (hctx : v.ctx = none)
    (hroom : v.offset + dnsHeaderSize ≤ size)
    (hfit : v.offset + (recordWire (wire n) rec.typeCode.toNat (recClass rec)
      (ttlWithOverride (recTtl rec) override) rd).length ≤ size) :
    serializeDnsRecord size rec owner override v =
      (true, v.put (recordWire (wire n) rec.typeCode.toNat (recClass rec)
        (ttlWithOverride (recTtl rec) override) rd)) := by
  have hwires := wiresOk_bare hcache hname
  have howner : emission (ownerScript false rec owner) = some (wire n) := by
    have hmeant := h.meant
    cases owner with
    | some t =>
      have hmeant : readName t = some n := hmeant
      simp [ownerScript, emission, Act.emission, hmeant]
    | none =>
      have hmeant : readName rec.name = some n := hmeant
      simp [ownerScript, hname, emission, Act.emission, hmeant]
  have hout := @serialize_outcome size rec owner override v hwires hmeta hctx hroom
  rw [serializedWire, howner, h.plain] at hout
  exact (outcome_fits hfit).mp hout

end written

/-- What was written is read back: the record is accepted up to the write offset, with the owner
(ASCII case aside), type, class and TTL it was written with, and written again without
compression it gives the RDATA that the original gives without compression, but for the case of
letters in names that were compressed. -/
theorem parse_serialized (alloc : Nat → Bool) {maxLen override packetLen : Nat} {rec : DnsRecord}
    {owner : Option Text} {w u : Out} (hrec : rec.Truthful) (hmax : maxLen ≤ 65535)
    (hpacket : u.offset ≤ packetLen)
    (hok : serializeDnsRecord maxLen rec owner override w = (true, u))
    (hclean : recordClean maxLen (headScript rec owner (ttlWithOverride (recTtl rec) override) w)
      (fullRdataScript w.ctx.isSome rec) w = true)
    (hext : recClass rec = classKaridnsExt.toNat → parsedAsText rec.typeCode.toNat = false)
    (hgeneric : ∀ bs, rec.generic = some bs → GenericOk rec.typeCode.toNat bs) :
    ∃ n n' rd rd' rec', readName (owner.getD rec.name) = some n ∧ Same n' n ∧
      parseResourceRecord alloc u.buf packetLen w.offset = some (rec', u.offset) ∧
      rec'.name = nameText n' ∧ rec'.typeCode = rec.typeCode ∧ recClass rec' = recClass rec ∧
      recTtl rec' = ttlWithOverride (recTtl rec) override ∧
      SameRdata rec.typeCode.toNat rd rd' ∧
      (w.ctx = none ∨ (rdataForm rec.typeCode.toNat).compresses = false → rd' = rd) ∧
      ∀ size (v : Out), v.ctx = none → v.offset + dnsHeaderSize ≤ size →
        v.offset + (wire n).length + 10 + rd.length ≤ size →
        serializeDnsRecord size rec owner override v =
          (true, v.put (recordWire (wire n) rec.typeCode.toNat
          (recClass rec) (ttlWithOverride (recTtl rec) override) rd)) ∧
        serializeDnsRecord size rec' none 0xFFFFFFFF v = (true, v.put (recordWire (wire n')
          rec.typeCode.toNat (recClass rec) (ttlWithOverride (recTtl rec) override) rd')) := by
  have hsame := serialize_uncached maxLen owner override w hrec
  rw [hok] at hsame
  have hokU := hsame.symm.eq_success
  have hmeta : isMetaRrtype rec.typeCode.toNat = false := by
    cases hm : isMetaRrtype rec.typeCode.toNat with
    | false => rfl
    | true =>
      rw [serializeDnsRecord, hm] at hok
      cases hok
  have heq : writeRecord maxLen
    (headScript rec.uncached owner (ttlWithOverride (recTtl rec) override) w)
      (fullRdataScript w.ctx.isSome rec.uncached) w = (true, u) :=
    (serializeDnsRecord_eq (congrArg Prod.fst hokU)).symm.trans hokU
  have hoff : w.offset ≤ maxLen := by
    obtain ⟨v, v', hv, -⟩ := writeRecord_parts heq
    exact recordHead_offset (congrArg Prod.fst hv)
  have httlLe := ttl_le rec override
  obtain ⟨e, n, n', rd, rd', hw⟩ := writeRecord_written rfl rfl hmax hpacket httlLe heq
    (recordClean_uncached hrec hoff hclean) (fun h => hext (recClass_ext h)) hgeneric
  obtain ⟨rec', hparse, hname, htype, hclass, httl, hserve⟩ :=
    hw.parse alloc hpacket httlLe hmeta hext
  refine ⟨n, n', rd, rd', rec', hw.meant, hw.same, hparse, hname, htype, hclass, httl,
    hw.sameRdata, ?_, ?_⟩
  · exact fun hp => hw.exact (hp.imp (by simp [·]) id)
  intro size v hctx hroom hfit
  have hlen := sameRdata_length hw.sameRdata
  have hwire := wire_length_same hw.same
  refine ⟨?_, hserve size v hctx hroom (by rw [recordWire_length]; omega)⟩
  have hplain := hw.plainSerialize rfl rfl hmeta hctx hroom (by rw [recordWire_length]; omega)
  have hsame := serialize_uncached size owner override v hrec
  rw [hplain] at hsame
  exact hsame.eq_success

/-- The NS record of the root for `a.` -/
def rootNs : DnsRecord :=
  { name := ascii ".", classVal := 1, typeCode := 2, ttlValue := 60, rdata := [ascii "a."] }

/-- A packet that holds the name `A.` at 12. -/
def upperPacket : Out := (Act.exec 512 ⟨fun _ => 0, 12, some compressCtxInit⟩ (.packName [[65]])).2

/-- The record written behind it. -/
def rootNsWrite : Bool × Out := serializeDnsRecord 512 rootNs none 0xFFFFFFFF upperPacket

theorem parse_serialized_rootNs :
    ∃ rec', parseResourceRecord (fun _ => true) rootNsWrite.2.buf rootNsWrite.2.offset 15 =
      some (rec', 28) ∧
      rec'.typeCode = 2 ∧ recClass rec' = 1 ∧ recTtl rec' = 60 := by
  have hok : serializeDnsRecord 512 rootNs none 0xFFFFFFFF upperPacket = (true, rootNsWrite.2) :=
    Prod.ext (by decide +kernel) rfl
  have hclean : recordClean 512
    (headScript rootNs none (ttlWithOverride (recTtl rootNs) 0xFFFFFFFF) upperPacket)
      (fullRdataScript upperPacket.ctx.isSome rootNs) upperPacket = true := by decide +kernel
  have hstart : upperPacket.offset = 15 := by decide +kernel
  have hend : rootNsWrite.2.offset = 28 := by decide +kernel
  obtain ⟨_, _, _, _, rec', -, -, hparse, -, htype, hclass, httl, -⟩ :=
    parse_serialized (fun _ => true) (truthful_uncached rootNs) (by decide) (Nat.le_refl _) hok
      hclean (by decide) (fun bs h => nomatch h)
  rw [hstart, hend] at hparse
  rw [hend]
  exact ⟨rec', hparse, htype, hclass, httl⟩

/-- The RDATA of a record of the root written without compression. -/
def rootRdata (rec : DnsRecord) : List UInt8 :=
  let r := serializeDnsRecord 512 rec none 0xFFFFFFFF ⟨fun _ => 0, 0, none⟩
  slice r.2.buf 11 (r.2.offset - 11)

/-- The name server is packed as a pointer to `A.` and read back as such. -/
theorem readback_case : rootNsWrite.1 = true ∧ rootRdata rootNs = [1, 97, 0] ∧
      (parseResourceRecord (fun _ => true) rootNsWrite.2.buf rootNsWrite.2.offset
        upperPacket.offset).map
        (fun r => rootRdata r.1) = some [1, 65, 0] := by
  decide +kernel

end KariDns
