import KariDns.Image.Serialize
import KariDns.Packet.Names

/-! Packets written by any sequence of writers on one compression context.

A packet is built by `serialize_dns_record`, `image_serialize_rr` and `compress_name` in any
order, by callers that set the write offset back after a write that failed or is not wanted
any more. `PacketState` keeps the marks of the names that are still in the packet next to the
output. As long as the pointers of every write are clean, every name of the packet decodes to
the name that was meant.
-/

namespace KariDns

open Octets DomainName List Option

/-! ### Steps -/

/-- An arena that was accepted, with its image. -/
structure AcceptedImage where
  arena : ZoneArena
  apex : Option Text
  img : ZoneImage
  accepted : zoneImageFreeze arena apex = some img

/-- The record that the image's record `k` was made from. -/
def AcceptedImage.source (z : AcceptedImage) (k : Nat) : Option DnsRecord :=
  (freezePlan z.arena.records).rrRec[k]?.bind fun i => z.arena.records[i]?.map (·.record)

/-- What a caller may do next with the packet. -/
inductive WriteOp
  /-- `serialize_dns_record` -/
  | record (rec : { r : DnsRecord // r.WiresOk }) (owner : Option Text) (overrideTtl : Nat)
  /-- `image_serialize_rr` -/
  | image (z : AcceptedImage) (k : Nat) (owner : Option Text) (ttl : Nat)
  /-- `compress_name` -/
  | name (n : { n : Name // Valid n })
  /-- an earlier write offset is restored -/
  | rollback (offset : Nat)

/-- One step: an operation, the `max_len` it is given, and what becomes of the octets that the
packet does not hold. A write that fails leaves octets past the write offset (`hex_decode` stores
what it has read so far, others clear a bitmap first), so any octets may stand there. -/
structure Write where
  maxLen : Nat
  op : WriteOp
  past : Buf → Buf

/-- The return value and the output of the writer. -/
def Write.stored (s : Write) (w : Out) : Bool × Out :=
  match s.op with
  | .record rec owner overrideTtl => serializeDnsRecord s.maxLen rec.1 owner overrideTtl w
  | .image z k owner ttl => imageSerializeRr s.maxLen z.img k owner ttl w
  | .name n => Act.exec s.maxLen w (.packName n)
  | .rollback offset => (true, { w with offset := min offset w.offset })

/-- The step: `past` gives the octets at and past the write offset. -/
def Write.exec (s : Write) (w : Out) : Bool × Out :=
  let r := s.stored w
  (r.1, { r.2 with buf := fun i => if i < r.2.offset then r.2.buf i else s.past r.2.buf i })

/-- The head of a record as it is written with a given TTL. -/
def headScript (rec : DnsRecord) (owner : Option Text) (ttl : Nat) (w : Out) : Script :=
  recordHead (ownerScript w.ctx.isSome rec owner) rec.typeCode.toNat (recClass rec) ttl

/-- The names that a successful step writes; the image's records hold the names of the records
they were made from. -/
def Write.marks (s : Write) (w : Out) : List NameMark :=
  match s.op with
  | .record rec owner overrideTtl =>
    recordMarks s.maxLen (headScript rec.1 owner (ttlWithOverride (recTtl rec.1) overrideTtl) w)
      (fullRdataScript w.ctx.isSome rec.1) w
  | .image z k owner ttl =>
    match z.source k with
    | none => []
    | some rec =>
      recordMarks s.maxLen (headScript rec owner (min ttl 0x7FFFFFFF) w)
        (fullRdataScript w.ctx.isSome rec) w
  | .name n => runMarks s.maxLen [.packName n] w
  | .rollback _ => []

/-- The pointers of a step are clean. -/
def Write.clean (s : Write) (w : Out) : Bool :=
  match s.op with
  | .record rec owner overrideTtl =>
    recordClean s.maxLen (headScript rec.1 owner (ttlWithOverride (recTtl rec.1) overrideTtl) w)
      (fullRdataScript w.ctx.isSome rec.1) w
  | .image z k owner ttl =>
    match z.source k with
    | none => true
    | some rec =>
      recordClean s.maxLen (headScript rec owner (min ttl 0x7FFFFFFF) w)
        (fullRdataScript w.ctx.isSome rec) w
  | .name n => runClean noHold s.maxLen [.packName n] w
  | .rollback _ => true

/-- The output and the marks of the names that the packet holds. -/
structure PacketState where
  out : Out
  marks : List NameMark

/-- A successful step adds its names; a name that reaches past the write offset is gone. -/
def PacketState.step (st : PacketState) (s : Write) : PacketState where
  out := (s.exec st.out).2
  marks := (st.marks ++ if (s.exec st.out).1 then s.marks st.out else []).filter
    fun k => k.stop ≤ (s.exec st.out).2.offset

def PacketState.run (st : PacketState) (steps : List Write) : PacketState := steps.foldl step st

/-- Every step of a sequence is clean in the state it is taken in. -/
def PacketState.runClean : PacketState → List Write → Bool
  | _, [] => true
  | st, s :: steps => s.clean st.out && (st.step s).runClean steps

/-! ### What one step keeps -/

/-- The marks of a packet are good and lie before its write offset. -/
def PacketState.Good (st : PacketState) : Prop :=
  ∀ k ∈ st.marks, k.stop ≤ st.out.offset ∧ k.Good noHold st.out.buf

lemma serializeDnsRecord_eq {maxLen : Nat} {rec : DnsRecord} {owner : Option Text} {override : Nat}
    {w : Out} (h : (serializeDnsRecord maxLen rec owner override w).1 = true) :
    serializeDnsRecord maxLen rec owner override w =
      writeRecord maxLen (headScript rec owner (ttlWithOverride (recTtl rec) override) w)
        (fullRdataScript w.ctx.isSome rec) w := by
  unfold serializeDnsRecord at h ⊢
  split at h
  · cases h
  rename_i hmeta
  rw [if_neg hmeta]
  rfl

/-- Every record of an accepted image has a source, and is written like it. -/
lemma AcceptedImage.written (z : AcceptedImage) {k : Nat} {rec : DnsRecord}
    (h : z.source k = some rec) (maxLen : Nat) (owner : Option Text) (ttl : Nat) (w : Out) :
    rec.WiresOk ∧ SameWrite (imageSerializeRr maxLen z.img k owner ttl w)
      (writeRecord maxLen (headScript rec owner (min ttl 0x7FFFFFFF) w)
        (fullRdataScript w.ctx.isSome rec) w) := by
  obtain ⟨i, hi, hrec⟩ := bind_eq_some_iff.mp h
  obtain ⟨slot, hslot, rfl⟩ := map_eq_some_iff.mp hrec
  obtain ⟨ix, hf⟩ := frozen_of_freeze z.accepted
  obtain ⟨slot', rr, nm, hslot', hrr, -, hnm, hfreeze⟩ := hf.place hi
  obtain rfl : slot = slot' := some.inj (hslot.symm.trans hslot')
  have hok := z.arena.wires slot (mem_of_getElem? hslot)
  exact ⟨hok, (imageRecord_written hok hrr hnm hfreeze owner ttl w).2⟩

/-- The octets of the packet are those of the writer. -/
lemma Write.exec_buf (s : Write) (w : Out) {i : Nat} (hi : i < (s.exec w).2.offset) :
    (s.stored w).2.buf i = (s.exec w).2.buf i :=
  (if_pos hi).symm

/-- A writer leaves the octets alone that lie before the write offset. -/
lemma Write.below (s : Write) (w : Out) {i : Nat} (hi : i < w.offset) :
    w.buf i = (s.stored w).2.buf i := by
  unfold Write.stored
  split
  · unfold serializeDnsRecord
    split
    · rfl
    · exact writeRecord_below _ _ _ _ i (Nat.zero_le _) hi
  · unfold imageSerializeRr
    repeat' split
    · rfl
    · rfl
    · rfl
    · exact writeRecord_below _ _ _ _ i (Nat.zero_le _) hi
  · exact (exec_grows _).agree i (Nat.zero_le _) hi
  · rfl

/-- The names of a clean write that succeeds are good. -/
lemma Write.good {s : Write} {w : Out} (hok : (s.stored w).1 = true) (hclean : s.clean w = true) :
    ∀ k ∈ s.marks w, k.Good noHold (s.stored w).2.buf := by
  intro k hk
  obtain ⟨maxLen, op, past⟩ := s
  cases op with
  | record rec owner override =>
    change (serializeDnsRecord maxLen rec.1 owner override w).1 = true at hok
    change k.Good noHold (serializeDnsRecord maxLen rec.1 owner override w).2.buf
    have heq := serializeDnsRecord_eq hok
    rw [heq] at hok ⊢
    exact writeRecord_good (ownerScript_namesOk rec.2 owner)
      (fullRdataScript_namesOk rec.2) hok hclean k hk
  | image z i owner ttl =>
    simp only [Write.marks] at hk
    simp only [Write.clean] at hclean
    split at hk
    · cases hk
    rename_i rec hsrc
    rw [hsrc] at hclean
    obtain ⟨hwires, hsame⟩ := z.written hsrc maxLen owner ttl w
    change (imageSerializeRr maxLen z.img i owner ttl w).1 = true at hok
    change k.Good noHold (imageSerializeRr maxLen z.img i owner ttl w).2.buf
    rw [hsame.buf hok]
    exact writeRecord_good (ownerScript_namesOk hwires owner) (fullRdataScript_namesOk hwires)
      (hsame.ok ▸ hok) hclean k hk
  | name n =>
    change (Act.exec maxLen w (.packName n)).1 = true at hok
    have hclean : Act.clean noHold maxLen w (.packName n) = true := by
      simpa [Write.clean, KariDns.runClean] using hclean
    obtain rfl : k = ⟨w.offset, (Act.exec maxLen w (.packName n)).2.offset, n⟩ := by
      simpa [Write.marks, runMarks, Act.marks, Act.meant] using hk
    exact packName_good n.2 (fun _ _ => rfl) hok hclean
  | rollback o => cases hk

/-- A clean step keeps the names of the packet good: the names it writes are, and the names from
before that are still there lie before both write offsets. -/
lemma PacketState.good_step {st : PacketState} {s : Write} (h : st.Good)
    (hclean : s.clean st.out = true) :
    (st.step s).Good := by
  intro k hk
  obtain ⟨hk, hstop⟩ := mem_filter.mp hk
  have hstop : k.stop ≤ (s.exec st.out).2.offset := by simpa using hstop
  refine ⟨hstop, ?_⟩
  suffices hgood : k.Good noHold (s.stored st.out).2.buf from
    hgood.congr fun i hi => s.exec_buf st.out (Nat.lt_of_lt_of_le hi.1 hstop)
  rcases mem_append.mp hk with hk | hk
  · obtain ⟨hle, hgood⟩ := h k hk
    exact hgood.congr fun i hi => s.below st.out (Nat.lt_of_lt_of_le hi.1 hle)
  split at hk
  · rename_i hok
    exact Write.good hok hclean k hk
  · cases hk

lemma PacketState.good_run : ∀ {steps : List Write} {st : PacketState}, st.Good →
    st.runClean steps = true → (st.run steps).Good
  | [], _, h, _ => h
  | s :: steps, st, h, hclean => by
    rw [PacketState.runClean, Bool.and_eq_true] at hclean
    change ((st.step s).run steps).Good
    exact PacketState.good_run (PacketState.good_step h hclean.1) hclean.2

/-! ### What the reader of the packet sees -/

/-- The pointers that a reader meets from `p` on, each with its target. -/
def pointerPath (m : Buf) : Nat → Nat → List (Nat × Nat)
  | 0, _ => []
  | fuel + 1, p =>
    if isPointer (m p) then (p, pointerTarget m p) :: pointerPath m fuel (pointerTarget m p)
    else if m p = 0 then []
    else pointerPath m fuel (p + 1 + (m p).toNat)

lemma pointerPath_back {m : Buf} {S : Nat → Prop} {lim p e : Nat} {n : Name}
    (h : Reads m S lim p n e) :
    ∀ fuel, ∀ x ∈ pointerPath m fuel p, x.2 < x.1 := by
  induction h with
  | @root lim p _ h0 =>
    intro fuel x hx
    cases fuel with
    | zero => cases hx
    | succ fuel => simp [pointerPath, h0, isPointer] at hx
  | @label lim p e l n hl hw _ _ ih =>
    intro fuel x hx
    obtain ⟨hlen, hnp, -, hne, -⟩ := labelOctet hl hw
    cases fuel with
    | zero => cases hx
    | succ fuel =>
      rw [pointerPath, hnp, if_neg (by simp), if_neg hne, hlen] at hx
      exact ih fuel x hx
  | @pointer lim p e n _ _ hptr _ hback _ ih =>
    intro fuel x hx
    cases fuel with
    | zero => cases hx
    | succ fuel =>
      rw [pointerPath, if_pos hptr] at hx
      rcases mem_cons.mp hx with rfl | hx
      · exact hback
      · exact ih fuel x hx

/-- The reader finds the name that was meant, ASCII case aside, the offset behind it, and only
pointers that point backwards. -/
structure NameMark.Decodes (m : Buf) (packetLen : Nat) (k : NameMark) : Prop where
  name : ∃ n, Same n k.name ∧ ∀ bufSize, dnsNameTextSize ≤ bufSize →
    expandWireNameToBuffer m packetLen k.start bufSize = some (nameText n, k.stop)
  back : ∀ fuel, ∀ x ∈ pointerPath m fuel k.start, x.2 < x.1

lemma NameMark.Good.decodes {hold : Nat → Bool} {m : Buf} {packetLen : Nat} {k : NameMark}
    (h : k.Good hold m) (hstop : k.stop ≤ packetLen) : k.Decodes m packetLen := by
  obtain ⟨hv, n, hsame, hr⟩ := h
  have hin : ∀ i, Settled hold k.stop i → i < packetLen := fun i hi => Nat.lt_of_lt_of_le hi.1 hstop
  exact ⟨⟨n, hsame, fun _ hb => expandWireNameToBuffer_reads hin hr (Valid.of_same hsame hv) hb⟩,
    pointerPath_back hr⟩

/-- In every run whose steps are clean, from any output and any compression table, and whatever the
steps leave past the write offset, every name in the packet decodes to the name that was meant. -/
theorem packet_names_decode (w : Out) (steps : List Write)
    (hclean : PacketState.runClean ⟨w, []⟩ steps = true) :
    ∀ k ∈ (PacketState.run ⟨w, []⟩ steps).marks,
      k.Decodes (PacketState.run ⟨w, []⟩ steps).out.buf
        (PacketState.run ⟨w, []⟩ steps).out.offset := by
  intro k hk
  have hstart : PacketState.Good ⟨w, []⟩ := fun k hk => (nomatch hk)
  obtain ⟨hstop, hgood⟩ := PacketState.good_run hstart hclean k hk
  exact hgood.decodes hstop

theorem packet_names_decode_rollback : ∃ steps : List Write, steps.length = 4 ∧
      PacketState.runClean ⟨⟨fun _ => 0, 12, some compressCtxInit⟩, []⟩ steps = true ∧
      (PacketState.run ⟨⟨fun _ => 0, 12, some compressCtxInit⟩, []⟩ steps).marks =
        [⟨12, 15, [[97]]⟩, ⟨15, 19, [[98], [97]]⟩] ∧
      ∀ k ∈ (PacketState.run ⟨⟨fun _ => 0, 12, some compressCtxInit⟩, []⟩ steps).marks,
        k.Decodes (PacketState.run ⟨⟨fun _ => 0, 12, some compressCtxInit⟩, []⟩ steps).out.buf
          (PacketState.run ⟨⟨fun _ => 0, 12, some compressCtxInit⟩, []⟩ steps).out.offset :=
  -- `c.b.` is given up with octets 1 behind it, `a.` and `b.a.` are written over it
  ⟨[⟨28, .name ⟨[[99], [98]], ⟨by decide, by decide⟩⟩, fun _ _ => 1⟩, ⟨28, .rollback 12, id⟩,
      ⟨28, .name ⟨[[97]], ⟨by decide, by decide⟩⟩, id⟩,
      ⟨28, .name ⟨[[98], [97]], ⟨by decide, by decide⟩⟩, id⟩],
    rfl, by decide +kernel, by decide +kernel, packet_names_decode _ _ (by decide +kernel)⟩

/-! ### A pointer taken on the word of an abandoned write -/

/-- An address record of `q.\000.y.`, whose owner fits in 28 octets and whose other fields do
not. -/
def abandonedRecord : DnsRecord :=
  { name := ascii "q.\\000.y.", classVal := 1, typeCode := 1, rdata := [ascii "192.0.2.1"] }

/-- The record is abandoned, then the label `61 01` is written over `01 71 01` of its owner, and
the octet 1 of that label together with the zero behind it and what is left of the owner passes
for the name `\000.y.`. -/
def staleSteps : List Write :=
  [⟨28, .record
    ⟨abandonedRecord, ⟨by simp [abandonedRecord], by simp [abandonedRecord, RdataCache.names],
      trivial⟩⟩ none 0xFFFFFFFF, id⟩,
    ⟨28, .name ⟨[[97, 1]], ⟨by decide, by decide⟩⟩, id⟩,
    ⟨28, .name ⟨[[0], [121]], ⟨by decide, by decide⟩⟩, id⟩]

/-- The pointer written last leads back to itself: the name at 16 does not decode. -/
theorem packet_name_stale :
    ∃ k ∈ (PacketState.run ⟨⟨fun _ => 0, 12, some compressCtxInit⟩, []⟩ staleSteps).marks,
      k = ⟨16, 18, [[0], [121]]⟩ ∧
      ¬ k.Decodes (PacketState.run ⟨⟨fun _ => 0, 12, some compressCtxInit⟩, []⟩ staleSteps).out.buf
        (PacketState.run ⟨⟨fun _ => 0, 12, some compressCtxInit⟩, []⟩ staleSteps).out.offset := by
  have hmark : (⟨16, 18, [[0], [121]]⟩ : NameMark) ∈
      (PacketState.run ⟨⟨fun _ => 0, 12, some compressCtxInit⟩, []⟩ staleSteps).marks := by
    decide +kernel
  have hnone : expandWireNameToBuffer
    (PacketState.run ⟨⟨fun _ => 0, 12, some compressCtxInit⟩, []⟩ staleSteps).out.buf
      (PacketState.run ⟨⟨fun _ => 0, 12, some compressCtxInit⟩, []⟩ staleSteps).out.offset
      16 dnsNameTextSize = none := by
    decide +kernel
  refine ⟨_, hmark, rfl, fun h => ?_⟩
  obtain ⟨n, -, hdec⟩ := h.name
  have hsome := hdec dnsNameTextSize (Nat.le_refl _)
  rw [hnone] at hsome
  cases hsome

end KariDns
