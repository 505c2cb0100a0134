import KariDns.Wire.Preparse
import KariDns.Wire.RdataActs

/-! Records written without compression.

Without a compression context a record is one fixed run of octets, wherever it is written: the
owner, the fixed fields, RDLENGTH and the emission of the RDATA. A call stores that run if it
fits and fails otherwise.
-/

namespace KariDns

open Octets DomainName List

variable {maxLen : Nat} {rec : DnsRecord}

/-- Without a context RDATA is stored as its emission, or not at all. -/
lemma rdata_outcome {w : Out} (hok : rec.WiresOk) (hw : w.offset ≤ maxLen) (hctx : w.ctx = none) :
    Outcome maxLen w (emission (rdataScript false rec)) (run maxLen (rdataScript false rec) w) := by
  have hplain : ∀ {s : Script}, AllActs (fun a => a.plain false = true) s →
      Outcome maxLen w (emission s) (run maxLen s w) :=
    fun h => run_plain hw (by simpa [hctx, AllActs] using h)
  cases hform : rdataForm rec.typeCode.toNat with
  | hostName =>
    rw [rdataScript, hform]
    refine hplain ?_
    dsimp only [hostNameScript, cachedName]
    split <;> simp [Act.plain]
  | mx =>
    rw [rdataScript, hform]
    refine hplain ?_
    dsimp only [mxScript, cachedName]
    split
    · simp [Act.plain]
    split <;> simp [Act.plain]
  | minfo =>
    rw [rdataScript, hform]
    refine hplain ?_
    simp [Act.plain]
  | soa =>
    rw [rdataScript, hform]
    dsimp only
    unfold soaScript
    split
    · exact hplain (by simp [Act.plain])
    split
    · rename_i mname rname m r numbers hc
      have hfive : numbers.length = 5 := by
        have := hok.numbers
        rwa [hc] at this
      have hem : emission [.need ((wire m).length + (wire r).length + 20), .copyName m, .copyName r,
          .put (numbers.flatMap be32)] =
          emission [.copyName m, .copyName r, .put (numbers.flatMap be32)] := by
        simp [emission, Act.emission]
      rw [if_neg (by simp), hem]
      exact soa_room_outcome m r (by simp [length_flatMap, hfive]) hw
    · exact hplain (by simp [Act.plain])
    · exact hplain (by simp [Act.plain])
  | _ => exact (plain_rdata (by rw [hform]; rfl)).outcome hw

lemma fullRdata_outcome {w : Out} (hok : rec.WiresOk) (hw : w.offset ≤ maxLen)
    (hctx : w.ctx = none) :
    Outcome maxLen w (emission (fullRdataScript false rec))
      (run maxLen (fullRdataScript false rec) w) := by
  unfold fullRdataScript
  split
  · exact run_plain hw (by simp [Act.plain])
  split
  · exact run_plain hw (by simp)
  · exact rdata_outcome hok hw hctx

/-! ### The whole record -/

/-- The octets of a record with the given owner and RDATA. -/
def recordWire (owner : List UInt8) (type class_ ttl : Nat) (rd : List UInt8) : List UInt8 :=
  owner ++ (be16 type ++ be16 class_ ++ be32 ttl) ++ be16 rd.length ++ rd

lemma recordWire_length (owner : List UInt8) (type class_ ttl : Nat) (rd : List UInt8) :
    (recordWire owner type class_ ttl rd).length = owner.length + 10 + rd.length := by
  simp [recordWire]
  omega

/-- The parts of a record that stands at `p`. -/
lemma recordWire_holds {m : Buf} {p : Nat} {owner : List UInt8} {type class_ ttl : Nat}
    {rd : List UInt8} (h : Holds m p (recordWire owner type class_ ttl rd)) :
    Holds m p owner ∧ Holds m (p + owner.length) (be16 type) ∧
      Holds m (p + owner.length + 2) (be16 class_) ∧ Holds m (p + owner.length + 4) (be32 ttl) ∧
      Holds m (p + owner.length + 8) (be16 rd.length) ∧ Holds m (p + owner.length + 10) rd := by
  simp only [recordWire, holds_append, length_append, be16_length, be32_length,
    ← Nat.add_assoc] at h
  obtain ⟨⟨⟨hos, ⟨htype, hclass⟩, httl⟩, hlen⟩, hrd⟩ := h
  exact ⟨hos, htype, hclass, httl, hlen, hrd⟩

/-- A script that stores one run of octets wherever there is no context. -/
def Stores (maxLen : Nat) (s : Script) (o : Option (List UInt8)) : Prop :=
  ∀ w : Out, w.ctx = none → w.offset ≤ maxLen → Outcome maxLen w o (run maxLen s w)

/-- The head stores owner and fixed fields if they fit together with RDLENGTH. -/
lemma recordHead_outcome {maxLen : Nat} {owner : Script} {o : Option (List UInt8)}
    {type class_ ttl : Nat} {w : Out} (hctx : w.ctx = none)
    (hroom : w.offset + dnsHeaderSize ≤ maxLen) (howner : Stores maxLen owner o) :
    match o with
    | none => (run maxLen (recordHead owner type class_ ttl) w).1 = false ∧
        (run maxLen (recordHead owner type class_ ttl) w).2.ctx = none
    | some bs =>
      if w.offset + bs.length + 10 ≤ maxLen then
        run maxLen (recordHead owner type class_ ttl) w =
          (true, w.put (bs ++ (be16 type ++ be16 class_ ++ be32 ttl)))
      else (run maxLen (recordHead owner type class_ ttl) w).1 = false ∧
        (run maxLen (recordHead owner type class_ ttl) w).2.ctx = none := by
  have hout := howner w hctx (by omega)
  have hrun : run maxLen (recordHead owner type class_ ttl) w =
      run maxLen (owner ++ [.need 10, .put (be16 type ++ be16 class_ ++ be32 ttl)]) w := by
    rw [recordHead, cons_append, run, exec_need_pos hroom]
  rw [hrun, run_append]
  cases o with
  | none =>
    obtain ⟨hfail, hc⟩ := outcome_none.mp hout
    dsimp only
    rw [hfail, if_neg (by simp)]
    exact ⟨hfail, hc.trans hctx⟩
  | some bs =>
    dsimp only
    by_cases hfit : w.offset + bs.length ≤ maxLen
    · rw [(outcome_fits hfit).mp hout, if_pos rfl]
      dsimp only
      by_cases hten : w.offset + bs.length + 10 ≤ maxLen
      · rw [if_pos hten, run, exec_need_pos (by simpa using hten)]
        dsimp only
        rw [run, exec_put (by simp; omega)]
        simp only [run_nil, Out.put_put]
      · rw [if_neg hten, run, exec_need_neg (by simpa using hten)]
        exact ⟨rfl, hctx⟩
    obtain ⟨hfail, hc⟩ := (outcome_full hfit).mp hout
    have hten : ¬ w.offset + bs.length + 10 ≤ maxLen := by omega
    rw [if_neg hten, hfail, if_neg (by simp)]
    exact ⟨hfail, hc.trans hctx⟩

/-- Without a context a record is one run of octets, stored if it fits. -/
lemma writeRecord_outcome {owner rdata : Script} {o rd : Option (List UInt8)}
    (type class_ ttl : Nat) {w : Out} (hctx : w.ctx = none)
    (hroom : w.offset + dnsHeaderSize ≤ maxLen) (howner : Stores maxLen owner o)
    (hrdata : Stores maxLen rdata rd) :
    Outcome maxLen w (o.bind fun os => rd.map (recordWire os type class_ ttl))
      (writeRecord maxLen (recordHead owner type class_ ttl) rdata w) := by
  have hhead := @recordHead_outcome maxLen owner o type class_ ttl w hctx hroom howner
  unfold writeRecord
  cases o with
  | none =>
    dsimp only at hhead
    generalize run maxLen (recordHead owner type class_ ttl) w = r at hhead ⊢
    obtain ⟨ok, v⟩ := r
    obtain ⟨rfl, hc⟩ := hhead
    exact ⟨rfl, hc.trans hctx.symm⟩
  | some os =>
    dsimp only at hhead
    rw [Option.bind_some]
    by_cases hten : w.offset + os.length + 10 ≤ maxLen
    · rw [if_pos hten] at hhead
      rw [hhead]
      dsimp only
      generalize hv :
        ({ w.put (os ++ (be16 type ++ be16 class_ ++ be32 ttl)) with offset := _ } : Out) = v
      have hoff : v.offset = w.offset + os.length + 10 := by
        rw [← hv]
        simp
        omega
      have hvctx : v.ctx = none := hv ▸ hctx
      have hout := hrdata v hvctx (by omega)
      cases rd with
      | none =>
        generalize run maxLen rdata v = r at hout
        obtain ⟨ok, u⟩ := r
        obtain ⟨rfl, hc⟩ := outcome_none.mp hout
        exact ⟨rfl, hc.trans (hvctx.trans hctx.symm)⟩
      | some bs =>
        rw [Option.map_some]
        by_cases hfit : v.offset + bs.length ≤ maxLen
        · rw [(outcome_fits hfit).mp hout, outcome_fits (by rw [recordWire_length]; omega)]
          subst hv
          have hlen : (os ++ (be16 type ++ be16 class_ ++ be32 ttl)).length = os.length + 8 := by
            simp
          have hrd : w.offset + (os.length + 8) + 2 + bs.length - (w.offset + (os.length + 8)) - 2 =
              bs.length := by omega
          have hgap := blit_gap w.buf w.offset (os ++ (be16 type ++ be16 class_ ++ be32 ttl))
            (be16 bs.length) bs
          rw [hlen, be16_length] at hgap
          simp only [Out.put, hlen, hrd, hgap, recordWire, length_append, be16_length]
          simp only [Prod.mk.injEq, Out.mk.injEq, true_and, and_true]
          omega
        generalize run maxLen rdata v = r at hout
        obtain ⟨ok, u⟩ := r
        obtain ⟨rfl, hc⟩ := (outcome_full hfit).mp hout
        exact (outcome_full (by rw [recordWire_length]; omega)).mpr
          ⟨rfl, hc.trans (hvctx.trans hctx.symm)⟩
    · rw [if_neg hten] at hhead
      generalize run maxLen (recordHead owner type class_ ttl) w = r at hhead ⊢
      obtain ⟨ok, v⟩ := r
      obtain ⟨rfl, hc⟩ := hhead
      have hfail : (false, { v with offset := w.offset }).1 = false ∧
          (false, { v with offset := w.offset }).2.ctx = w.ctx := ⟨rfl, hc.trans hctx.symm⟩
      cases rd with
      | none => exact hfail
      | some bs => exact (outcome_full (by rw [recordWire_length]; omega)).mpr hfail

/-! ### `serialize_dns_record` without a context -/

lemma ownerScript_stores (maxLen : Nat) (rec : DnsRecord) (owner : Option Text) :
    Stores maxLen (ownerScript false rec owner) (emission (ownerScript false rec owner)) := by
  intro w hctx hw
  refine run_plain hw ?_
  unfold ownerScript cachedName
  split
  · simp [Act.plain, hctx]
  split
  · simp [Act.plain]
  · simp [Act.plain, hctx]

lemma fullRdata_stores (maxLen : Nat) (hok : rec.WiresOk) :
    Stores maxLen (fullRdataScript false rec) (emission (fullRdataScript false rec)) :=
  fun _ hctx hw => fullRdata_outcome hok hw hctx

/-- The octets of a record written without compression. -/
def serializedWire (rec : DnsRecord) (owner : Option Text) (overrideTtl : Nat) :
    Option (List UInt8) :=
  (emission (ownerScript false rec owner)).bind fun os =>
    (emission (fullRdataScript false rec)).map
      (recordWire os rec.typeCode.toNat (recClass rec) (ttlWithOverride (recTtl rec) overrideTtl))

/-- A call without a context stores the octets of the record if they fit, and fails otherwise. -/
lemma serialize_outcome {maxLen : Nat} {rec : DnsRecord} {owner : Option Text} {overrideTtl : Nat}
    {w : Out} (hok : rec.WiresOk) (hmeta : isMetaRrtype rec.typeCode.toNat = false)
    (hctx : w.ctx = none) (hroom : w.offset + dnsHeaderSize ≤ maxLen) :
    Outcome maxLen w (serializedWire rec owner overrideTtl)
      (serializeDnsRecord maxLen rec owner overrideTtl w) := by
  rw [serializeDnsRecord, hmeta, if_neg (by simp), hctx]
  exact writeRecord_outcome _ _ _ hctx hroom (ownerScript_stores _ _ _) (fullRdata_stores _ hok)

end KariDns
