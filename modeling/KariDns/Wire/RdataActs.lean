import KariDns.Wire.Serialize

/-! Which actions the RDATA scripts are made of.

Apart from stores, names in text form and giving up, a script writes names that the record
keeps in wire form, and, for the types of RFC 1035 that may be compressed, names that go
through the compression table. `rdata_acts` says so once for every form of RDATA. It follows
that every other form has one script, with and without a context, and stores the same octets
everywhere.
-/

namespace KariDns

open Octets DomainName

variable {hasCtx : Bool} {rec : DnsRecord} {s : Script} {α : Type}

/-- Stores, names in text form and giving up are among the actions of `P`. -/
structure Basic (P : Act → Prop) : Prop where
  put : ∀ bs, P (.put bs)
  textName : ∀ t, P (.textName t)
  fail : P .fail

/-- Every action of the script is one of `P`. -/
def AllActs (P : Act → Prop) (s : Script) : Prop := ∀ a ∈ s, P a

section closure

variable {P : Act → Prop}

@[simp] lemma acts_nil : AllActs P [] := by simp [AllActs]

@[simp] lemma acts_cons (a : Act) (s : Script) : AllActs P (a :: s) ↔ P a ∧ AllActs P s := by
  simp [AllActs]

@[simp] lemma acts_append (s t : Script) : AllActs P (s ++ t) ↔ AllActs P s ∧ AllActs P t := by
  simp [AllActs, or_imp, forall_and]

@[simp] lemma acts_ite {c : Prop} [Decidable c] (s t : Script) :
    AllActs P (if c then s else t) ↔ (c → AllActs P s) ∧ (¬ c → AllActs P t) := by
  split <;> simp [*]

@[simp] lemma acts_flatMap {l : List α} {f : α → Script} :
    AllActs P (l.flatMap f) ↔ ∀ a ∈ l, AllActs P (f a) := by
  simp only [AllActs, List.mem_flatMap]
  exact ⟨fun h a ha b hb => h b ⟨a, ha, hb⟩, fun h b ⟨a, ha, hb⟩ => h a ha b hb⟩

@[simp] lemma acts_map {l : List α} {f : α → Act} : AllActs P (l.map f) ↔ ∀ a ∈ l, P (f a) := by
  simp [AllActs]

@[simp] lemma acts_orFail {o : Option α} {k : α → Script} :
    AllActs P (orFail o k) ↔ (o = none → P .fail) ∧ ∀ a ∈ o, AllActs P (k a) := by
  cases o <;> simp [orFail]

/-- Actions with names that may be compressed. -/
structure Compressing (P : Act → Prop) (rec : DnsRecord) : Prop where
  dnsName : ∀ t, P (.dnsName t)
  packName : ∀ n ∈ rec.cache.names, P (.packName n)
  copyName : ∀ n ∈ rec.cache.names, P (.copyName n)
  need : ∀ k, P (.need k)

/-! ### The forms -/

/-- Forms whose names go through the compression table. -/
def RdataForm.compresses : RdataForm → Bool
  | .hostName | .mx | .soa | .minfo => true
  | _ => false

/-- What the script of every form is made of. -/
lemma rdata_acts (hP : Basic P) (hcopy : ∀ n ∈ rec.cache.names, P (.copyName n))
    (hC : (rdataForm rec.typeCode.toNat).compresses = true → Compressing P rec) :
    AllActs P (rdataScript hasCtx rec) := by
  obtain ⟨hput, htext, hfail⟩ := hP
  unfold rdataScript
  split
  -- the forms with names in wire form, which depend on what the record keeps
  case h_3 hf =>
    obtain ⟨hdns, hpack, hcopy, -⟩ := hC (by rw [hf]; rfl)
    unfold hostNameScript cachedName
    split <;> simp_all [RdataCache.names]
  case h_4 =>
    unfold plainNameScript
    split <;> simp_all [RdataCache.names]
  case h_5 hf =>
    obtain ⟨hdns, hpack, hcopy, -⟩ := hC (by rw [hf]; rfl)
    unfold mxScript cachedName
    split
    · simpa using hfail
    split <;> simp_all [RdataCache.names]
  case h_6 =>
    unfold srvScript
    split
    · simpa using hfail
    split <;> simp_all [RdataCache.names]
  case h_14 hf =>
    obtain ⟨hdns, hpack, hcopy, hneed⟩ := hC (by rw [hf]; rfl)
    unfold soaScript
    split
    · simpa using hfail
    split <;> simp_all [RdataCache.names]
  case h_39 hf =>
    obtain ⟨hdns, -⟩ := hC (by rw [hf]; rfl)
    simp [hdns, hfail]
  case h_21 =>
    unfold rrsigScript
    split
    · simpa using hfail
    split
    · split <;> simp [decodeConcatB64Rdata, hput, htext, hfail]
    · simp [decodeConcatB64Rdata, hput, htext, hfail]
  case h_16 =>
    unfold ipseckeyScript withFields
    simp only [acts_ite, acts_orFail, acts_cons]
    refine ⟨fun _ => by simpa using hfail, fun _ => ⟨fun _ => hfail, fun _ _ => ⟨hput _, ?_⟩⟩⟩
    split <;> simp [relayScript, decodeConcatB64Rdata, hput, htext, hfail]
  case h_1 | h_2 | h_15 =>
    simp only [addressScript, txtScript]
    split <;> (try split) <;> simp [hput, hfail]
  all_goals
    simp [withFields, writeCharString, encodeTypeBitmap, decodeConcatHexRdata, decodeConcatB64Rdata,
      caaScript, amtrelayScript, relayScript, nsec3Script, nsec3paramScript, hipScript, svcbScript,
      dsyncScript, uriScript, euiScript, nxtScript, a6Script, doaScript, hput, htext, hfail]

end closure

lemma mem_of_compresses {t : Nat} (h : (rdataForm t).compresses = true) :
    (t, rdataForm t) ∈ rdataForms := by
  unfold rdataForm at h ⊢
  cases hl : rdataForms.lookup t with
  | none => simp [hl, RdataForm.compresses] at h
  | some form => exact lookup_mem hl

/-! ### Plain scripts -/

/-- No action of the script looks at the compression table. -/
def Plain (s : Script) : Prop := AllActs (fun a => a.plain true = true) s

lemma plain_put (bs : List UInt8) : Plain [.put bs] := by simp [Plain, Act.plain]

/-- Every form but the four that compress is plain. -/
lemma plain_rdata {hasCtx : Bool} {rec : DnsRecord}
    (h : (rdataForm rec.typeCode.toNat).compresses = false) :
    Plain (rdataScript hasCtx rec) :=
  rdata_acts (P := fun a => a.plain true = true) ⟨fun _ => rfl, fun _ => rfl, rfl⟩
    (fun _ _ => rfl) (by simp [h])

/-- A plain form has one script. -/
lemma rdataScript_ctx (h : (rdataForm rec.typeCode.toNat).compresses = false) :
    rdataScript hasCtx rec = rdataScript false rec := by
  unfold rdataScript
  generalize rdataForm rec.typeCode.toNat = form at h
  cases form <;> first | rfl | cases h

/-- A plain script stores its emission with or without a context. -/
lemma Plain.outcome {maxLen : Nat} {w : Out} (h : Plain s) (hw : w.offset ≤ maxLen) :
    Outcome maxLen w (emission s) (run maxLen s w) := by
  refine run_plain hw fun a ha => ?_
  have hplain := h a ha
  cases a with
  | dnsName t => simp [Act.plain] at hplain
  | _ => exact hplain

end KariDns
