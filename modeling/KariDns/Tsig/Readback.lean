import KariDns.Tsig.Verify

/-! Reading a signed message back.

`PlainMessage` says what a message without a signature looks like to the walk of the verifier:
questions and records follow each other to the end of the message and none of the records is a TSIG
record. Once such a message is signed, the verifier finds the record that the signer appended, and
finds in it what the signer put there.
-/

namespace KariDns

open Octets DomainName List

/-! ### The extent of names and records -/

/-- A name takes the octets from `p` up to `e`; what a pointer points to does not matter. -/
inductive NameSpan (m : Buf) (len : Nat) : Nat → Nat → Prop
  | root {p : Nat} : p < len → m p = 0 → NameSpan m len p (p + 1)
  | pointer {p : Nat} : p + 2 ≤ len → isPointer (m p) = true → NameSpan m len p (p + 2)
  | label {p e : Nat} : p < len → 0 < (m p).toNat → (m p).toNat ≤ 63 →
      NameSpan m len (p + 1 + (m p).toNat) e → NameSpan m len p e

/-- `k` questions from `p` up to `q`. -/
inductive QuestionsSpan (m : Buf) (len : Nat) : Nat → Nat → Nat → Prop
  | nil {p : Nat} : QuestionsSpan m len 0 p p
  | cons {k p e q : Nat} : NameSpan m len p e → e + 4 ≤ len → QuestionsSpan m len k (e + 4) q →
      QuestionsSpan m len (k + 1) p q

/-- `k` records from `p` up to `q`, none of them a TSIG record. -/
inductive RrsSpan (m : Buf) (len : Nat) : Nat → Nat → Nat → Prop
  | nil {p : Nat} : RrsSpan m len 0 p p
  | cons {k p e q : Nat} : NameSpan m len p e → e + 10 + getU16 m (e + 8) ≤ len → getU16 m e ≠ 250 →
      RrsSpan m len k (e + 10 + getU16 m (e + 8)) q → RrsSpan m len (k + 1) p q

/-- A message without a TSIG record whose sections end where the message ends, and which has room
for one more additional record. -/
structure PlainMessage (m : Buf) (len : Nat) : Prop where
  header : 12 ≤ len
  additional : getU16 m 10 < 65535
  sections : ∃ q, QuestionsSpan m len (getU16 m 4) 12 q ∧
    RrsSpan m len (getU16 m 6 + getU16 m 8 + getU16 m 10) q len

lemma NameSpan.lt {m : Buf} {len p e : Nat} (h : NameSpan m len p e) : p < e := by
  induction h with
  | root => omega
  | pointer => omega
  | label _ _ _ _ ih => omega

/-- A longer message that starts with the same octets. -/
structure Extends (m m' : Buf) (len len' : Nat) : Prop where
  agree : AgreeOn 12 len m m'
  le : len ≤ len'

section Walk

variable {m m' : Buf} {len len' : Nat}

lemma Extends.getU16 (hx : Extends m m' len len') {p : Nat} (hlo : 12 ≤ p) (hhi : p + 2 ≤ len) :
    getU16 m' p = getU16 m p := by
  unfold Octets.getU16
  rw [hx.agree p hlo (by omega), hx.agree (p + 1) (by omega) (by omega)]

lemma octet_zero : isPointer 0 = false := by decide

/-- `skip_name_inplace` finds the end of a name. -/
lemma NameSpan.skip {p e : Nat} (h : NameSpan m len p e)
    (hx : Extends m m' len len') : ∀ {fuel : Nat},
    12 ≤ p → e ≤ p + fuel → skipNameInplace m' len' fuel p = some e := by
  have hle := hx.le
  induction h with
  | @root p hp h0 =>
    intro fuel hlo hfuel
    rcases fuel with _ | fuel
    · omega
    rw [hx.agree p hlo hp] at h0
    rw [skipNameInplace, if_neg (by omega), h0]
    simp [octet_zero]
  | @pointer p hp hptr =>
    intro fuel hlo hfuel
    rcases fuel with _ | fuel
    · omega
    rw [hx.agree p hlo (by omega)] at hptr
    rw [skipNameInplace, if_neg (by omega), if_pos hptr, if_neg (by omega)]
  | @label p e hp hpos h63 hrest ih =>
    intro fuel hlo hfuel
    have hlt := hrest.lt
    rcases fuel with _ | fuel
    · omega
    rw [hx.agree p hlo hp] at hpos h63 hlt ih
    obtain ⟨hnp, h00⟩ := length_octet (m' p) h63
    have hne : m' p ≠ 0 := fun h0 => by simp [h0] at hpos
    rw [skipNameInplace, if_neg (by omega), hnp, if_neg (by simp), if_pos h00, if_neg (by omega),
      if_neg hne]
    exact ih (by omega) (by omega)

lemma QuestionsSpan.skip {k p q : Nat} (h : QuestionsSpan m len k p q) (hx : Extends m m' len len')
    (hlo : 12 ≤ p) :
    skipQuestions m' len' k p = some q ∧ 12 ≤ q := by
  have hle := hx.le
  induction h with
  | nil => exact ⟨rfl, hlo⟩
  | @cons k p e q hname hfit _ ih =>
    have hlt := hname.lt
    rw [skipQuestions, hname.skip hx hlo (by omega)]
    simp only
    rw [if_neg (by omega)]
    exact ih (by omega)

/-- The scan passes over records that are no TSIG records. -/
lemma RrsSpan.scan {k p q total fixed rest : Nat} {s : TsigScan} (h : RrsSpan m len k p q)
    (hx : Extends m m' len len') (hlo : 12 ≤ p) :
    scanForTsig m' len' total fixed (k + rest) { s with offset := p } =
      scanForTsig m' len' total fixed rest { s with offset := q } := by
  have hle := hx.le
  induction h with
  | nil => rw [Nat.zero_add]
  | @cons k p e q hname hfit htype _ ih =>
    have hlt := hname.lt
    have hrd : getU16 m' (e + 8) = getU16 m (e + 8) := hx.getU16 (by omega) (by omega)
    have hty : getU16 m' e ≠ 250 := by rwa [hx.getU16 (by omega) (by omega)]
    rw [show k + 1 + rest = (k + rest) + 1 by omega, scanForTsig]
    simp only [hname.skip hx hlo (show e ≤ p + (len' + 1) by omega), hrd]
    rw [if_neg (by omega), if_neg (by omega), if_neg hty]
    exact ih (by omega)

end Walk

/-! ### The record at the end -/

/-- Names without pointers. -/
lemma extractLoop_wire {m : Buf} {limit bufSize : Nat} :
    ∀ {n : Name} {fuel p total : Nat} {out : Text},
    (∀ l ∈ n, LabelOk l) → Holds m p (wire n) → p + (wire n).length ≤ limit →
      total + (wire n).length ≤ 255 →
    out.length + 4 * (wire n).length ≤ bufSize → (wire n).length ≤ fuel →
    extractLoop m limit bufSize fuel p total out =
      some (if out ++ labelsText n = [] then [46] else out ++ labelsText n, p + (wire n).length)
  | [], fuel, p, total, out, _, hw, hlim, htot, hbuf, hf => by
    obtain ⟨fuel, rfl⟩ := Nat.exists_eq_succ_of_ne_zero (show fuel ≠ 0 by simp at hf; omega)
    have h0 := (holds_cons.mp hw).1
    simp only [wire_nil, length_singleton] at hlim htot hbuf
    have hroom : ¬ (if out = [] then [46] else out).length ≥ bufSize := by
      split <;> simp <;> omega
    rw [extractLoop, if_neg (by omega), if_neg (by simp [h0]), if_neg (by simp [h0]; omega),
      if_pos h0]
    simp only [if_neg hroom]
    simp [labelsText]
  | l :: n, fuel, p, total, out, hok, hw, hlim, htot, hbuf, hf => by
    have hl := hok l mem_cons_self
    rw [wire_length_cons] at hlim htot hbuf hf
    rcases fuel with _ | fuel
    · omega
    rw [wire_cons, holds_append, labelWire_length] at hw
    obtain ⟨hlen, -, h00, hne, hsl⟩ := labelOctet hl hw.1
    have htext := labelText_length_le l
    have hwpos := wire_length_pos n
    have hcap : dnsLabelToText (bufSize - out.length - 1) 0 l = some (labelText l) := by
      rw [dnsLabelToText_eq _ _ _ (Nat.zero_le _), if_pos (by omega)]
    have hout : (out ++ labelText l ++ [46]).length + 4 * (wire n).length ≤ bufSize := by
      simp only [length_append, length_singleton]
      omega
    have hrest : Holds m (p + 1 + l.length) (wire n) := by
      rw [Nat.add_assoc, Nat.add_comm 1]
      exact hw.2
    have ih : extractLoop m limit bufSize fuel (p + 1 + l.length) (total + 1 + l.length)
        (out ++ labelText l ++ [46]) = _ :=
      extractLoop_wire (fun k hk => hok k (mem_cons_of_mem _ hk)) hrest (by omega)
        (by omega) hout (by omega)
    have hend : p + 1 + l.length + (wire n).length = p + (wire (l :: n)).length := by
      rw [wire_length_cons]
      omega
    rw [extractLoop, if_neg (by omega), if_neg (by simp [h00]), hlen, if_neg (by omega), if_neg hne,
      if_neg (by omega), hsl, hcap]
    simp only [ih, hend]
    simp [labelsText_cons]

lemma extractWireNameToBuffer_wire {m : Buf} {limit p : Nat} {n : Name} (hn : Valid n)
    (hw : Holds m p (wire n)) (hlim : p + (wire n).length ≤ limit) :
    extractWireNameToBuffer m limit p dnsNameTextSize = some (nameText n, p + (wire n).length) := by
  have hshort := hn.short
  rw [extractWireNameToBuffer, extractLoop_wire hn.labels hw hlim (by omega)
    (by simp [dnsNameTextSize]; omega) (by omega), nameText_eq]
  rfl

lemma nameSpan_wire {m : Buf} {len : Nat} :
    ∀ {n : Name} {p : Nat}, (∀ l ∈ n, LabelOk l) → Holds m p (wire n) →
    p + (wire n).length ≤ len → NameSpan m len p (p + (wire n).length)
  | [], p, _, hw, hlen => .root (by simp at hlen; omega) (holds_cons.mp hw).1
  | l :: n, p, hok, hw, hlen => by
    have hl := hok l mem_cons_self
    rw [wire_cons, holds_append, labelWire_length] at hw
    rw [wire_length_cons] at hlen ⊢
    obtain ⟨hoctet, -, -, -, -⟩ := labelOctet hl hw.1
    have hpos := length_pos_iff.mpr hl.1
    have hrest : Holds m (p + 1 + (m p).toNat) (wire n) := by
      rw [hoctet, Nat.add_assoc, Nat.add_comm 1]
      exact hw.2
    have hfits : p + 1 + (m p).toNat + (wire n).length ≤ len := by omega
    have ih := nameSpan_wire (fun k hk => hok k (mem_cons_of_mem _ hk)) hrest hfits
    rw [hoctet,
      show p + 1 + l.length + (wire n).length = p + (l.length + 1 + (wire n).length) by omega] at ih
    exact .label (by omega) (by omega) (hoctet ▸ hl.2) (hoctet ▸ ih)

/-! ### The signed message -/

/-- The octets of Other Data. -/
def tsigOther (error : UInt16) (now48 : Nat) : List UInt8 := if error = 18 then be48 now48 else []

lemma tsigErrorOctets_eq (error : UInt16) (now48 : Nat) : tsigErrorOctets error now48 =
    be16 error.toNat ++ be16 (tsigOther error now48).length ++ tsigOther error now48 := by
  unfold tsigErrorOctets tsigOther
  split <;> simp

lemma tsigOther_length (error : UInt16) (now48 : Nat) :
    (tsigOther error now48).length = if error = 18 then 6 else 0 := by
  unfold tsigOther
  split <;> simp

/-- What the signer leaves in the buffer: the record behind the message, and ARCOUNT. -/
def signedBuf (m : Buf) (len : Nat) (rr : List UInt8) : Buf :=
  blit (blit m len rr) 10 (be16 (getU16 m 10 + 1))

section Signed

variable {m : Buf} {len : Nat} {rr : List UInt8}

lemma signedBuf_body {i : Nat} (hi : i < len) (hi' : i < 10 ∨ 12 ≤ i) :
    signedBuf m len rr i = m i := by
  unfold signedBuf
  rcases hi' with hi' | hi'
  · rw [blit_lt hi', blit_lt hi]
  · rw [blit_ge (by simpa using hi'), blit_lt hi]

lemma signedBuf_holds (hlen : 12 ≤ len) : Holds (signedBuf m len rr) len rr := by
  refine (holds_blit m len rr).congr fun i hlo _ => ?_
  have hge : 10 + (be16 (getU16 m 10 + 1)).length ≤ i := by
    rw [be16_length]
    omega
  exact (blit_ge hge).symm

lemma signedBuf_extends : Extends m (signedBuf m len rr) len (len + rr.length) :=
  ⟨fun _ hlo hhi => (signedBuf_body hhi (.inr hlo)).symm, Nat.le_add_right _ _⟩

lemma signedBuf_count (hlen : 12 ≤ len) {p : Nat} (hp : p + 2 ≤ 10) :
    getU16 (signedBuf m len rr) p = getU16 m p := by
  unfold getU16
  rw [signedBuf_body (by omega) (.inl (by omega)), signedBuf_body (by omega) (.inl (by omega))]

lemma signedBuf_arcount (hlt : getU16 m 10 < 65535) :
    getU16 (signedBuf m len rr) 10 = getU16 m 10 + 1 :=
  getU16_of_holds (holds_blit _ 10 _) (by omega)

end Signed

/-- The record the verifier reads in a signed message. -/
def signedRr (m : Buf) (len : Nat) (kn an : Name) (now : Nat) (fudge : UInt16) (mac : List UInt8)
    (error : UInt16) (now48 : Nat) : TsigRr :=
  { rrOffset := len, timersOffset := len + (wire kn).length + 10 + (wire an).length,
    keyName := nameText kn,
    algName := nameText an, timeSigned := now % 281474976710656, fudge := fudge.toNat, macSize :=
      mac.length, mac,
    origId := getU16 m 0, error := error.toNat, otherLen := (tsigOther error now48).length,
    other := tsigOther error now48 }

/-- The octets of the record the signer appends. -/
def signedOctets (m : Buf) (kn an : Name) (now : Nat) (fudge : UInt16) (mac : List UInt8)
    (error : UInt16) (now48 : Nat) : List UInt8 :=
  tsigRr (wire kn) (tsigRdata (wire an) now fudge mac (slice m 0 2) error now48)

section Record

variable {m m' : Buf} {len now now48 : Nat} {kn an : Name} {fudge error : UInt16} {mac : List UInt8}

/-- Where the fields of the record stand. -/
structure RecordHeld (m' : Buf) (p now now48 id : Nat) (kn an : Name) (fudge error : UInt16)
    (mac : List UInt8) : Prop where
  owner : Holds m' p (wire kn)
  type : getU16 m' (p + (wire kn).length) = 250
  class_ : getU16 m' (p + (wire kn).length + 2) = 255
  rdlen : getU16 m' (p + (wire kn).length + 8) = (wire an).length + 10 + mac.length + 6 +
    (tsigOther error now48).length
  alg : Holds m' (p + (wire kn).length + 10) (wire an)
  timers : Holds m' (p + (wire kn).length + 10 + (wire an).length) (be48 now ++ be16 fudge.toNat)
  macSize : getU16 m' (p + (wire kn).length + 10 + (wire an).length + 8) = mac.length
  macHeld : Holds m' (p + (wire kn).length + 10 + (wire an).length + 10) mac
  origId : getU16 m' (p + (wire kn).length + 10 + (wire an).length + 10 + mac.length) = id
  errorCode :
    getU16 m' (p + (wire kn).length + 10 + (wire an).length + 10 + mac.length + 2) = error.toNat
  otherLen : getU16 m' (p + (wire kn).length + 10 + (wire an).length + 10 + mac.length + 4) =
    (tsigOther error now48).length
  other : Holds m' (p + (wire kn).length + 10 + (wire an).length + 10 + mac.length + 6)
    (tsigOther error now48)

lemma recordHeld {p : Nat} (h : Holds m' p (signedOctets m kn an now fudge mac error now48))
    (han : Valid an) (hmac : mac.length ≤ 64) :
      RecordHeld m' p now now48 (getU16 m 0) kn an fudge error mac := by
  have hshort := han.short
  have hother := tsigOther_length error now48
  have hother' : (tsigOther error now48).length ≤ 6 := by
    rw [hother]
    split <;> omega
  simp only [signedOctets, tsigRr, tsigRdata, tsigErrorOctets_eq, ← be16_getU16, holds_append,
    length_append, be16_length, be32_length, be48_length, ← Nat.add_assoc] at h
  obtain ⟨⟨⟨⟨⟨h1, h2⟩, h3⟩, -⟩, h5⟩, ⟨⟨⟨⟨⟨h6, h7⟩, h8⟩, h9⟩, h10⟩, h11⟩, ⟨h12, h13⟩, h14⟩ := h
  have hlen : (wire an).length + 6 + 2 + 2 + mac.length + 2 + 2 + 2 +
    (tsigOther error now48).length =
      (wire an).length + 10 + mac.length + 6 + (tsigOther error now48).length := by omega
  refine ⟨h1, getU16_of_holds h2 (by decide), getU16_of_holds h3 (by decide), ?_, h6,
    holds_append.mpr ⟨h7, h8⟩,
    getU16_of_holds h9 (by omega), h10, getU16_of_holds h11 (getU16_lt m 0),
      getU16_of_holds h12 error.toNat_lt,
    getU16_of_holds h13 (by omega), h14⟩
  rw [hlen] at h5
  exact getU16_of_holds h5 (by omega)

lemma signedOctets_length : (signedOctets m kn an now fudge mac error now48).length =
    (wire kn).length + 10 +
      ((wire an).length + 10 + mac.length + 6 + (tsigOther error now48).length) := by
  simp only [signedOctets, tsigRr, tsigRdata, tsigErrorOctets_eq, length_append, be16_length,
    be32_length, be48_length, slice_length]
  omega

/-- The second half of `tsig_parse_rr` on the record of the signer. -/
lemma readTsigRr_signed (hkn : Valid kn) (han : Valid an) {len' : Nat}
    (h : RecordHeld m' len now now48 (getU16 m 0) kn an fudge error mac)
    (hlen : len' = len + (signedOctets m kn an now fudge mac error now48).length) :
    readTsigRr m' len' len = some (signedRr m len kn an now fudge mac error now48) := by
  rw [signedOctets_length] at hlen
  have howner : expandWireNameToBuffer m' len' len dnsNameTextSize =
      some (nameText kn, len + (wire kn).length) :=
    expandWireNameToBuffer_reads (S := fun i => i < len') (fun _ hi => hi)
      (reads_wire 0 hkn.labels h.owner fun i _ hi => by omega) hkn (Nat.le_refl _)
  have halg : extractWireNameToBuffer m' (len + (wire kn).length + 10 +
      ((wire an).length + 10 + mac.length + 6 + (tsigOther error now48).length))
        (len + (wire kn).length + 10) dnsNameTextSize =
      some (nameText an, len + (wire kn).length + 10 + (wire an).length) :=
    extractWireNameToBuffer_wire han h.alg (by omega)
  have htime := getU48_of_holds (holds_append.mp h.timers).1
  have hfudge := getU16_of_holds (holds_append.mp h.timers).2 fudge.toNat_lt
  rw [be48_length] at hfudge
  have hmac : slice m' (len + (wire kn).length + 10 + (wire an).length + 10) mac.length =
      mac := h.macHeld
  have hother : slice m' (len + (wire kn).length + 10 + (wire an).length + 10 + mac.length + 6)
    (tsigOther error now48).length = tsigOther error now48 := h.other
  simp only [readTsigRr, howner]
  rw [if_neg (by omega), if_neg (by simp [h.class_])]
  simp only [h.rdlen, halg, tsigFields, h.macSize, h.origId, h.errorCode, h.otherLen]
  rw [if_neg (by omega), if_neg (by omega), if_neg (by omega), htime, hfudge, hmac, hother]
  rfl

/-- The verifier finds the record of the signer. -/
lemma tsigParseRr_signed (hm : PlainMessage m len) (hkn : Valid kn) (han : Valid an)
    (hmac : mac.length ≤ 64) :
    tsigParseRr (signedBuf m len (signedOctets m kn an now fudge mac error now48))
        (len + (signedOctets m kn an now fudge mac error now48).length) =
      .found (signedRr m len kn an now fudge mac error now48) := by
  generalize hrr : signedOctets m kn an now fudge mac error now48 = rr
  obtain ⟨hlen, hlt, q, hquestions, hrrs⟩ := hm
  have hx : Extends m (signedBuf m len rr) len (len + rr.length) := signedBuf_extends
  have hheld : RecordHeld (signedBuf m len rr) len now now48 (getU16 m 0) kn an fudge error mac :=
    recordHeld (hrr ▸ signedBuf_holds hlen) han hmac
  have hsize : rr.length = (wire kn).length + 10 +
      ((wire an).length + 10 + mac.length + 6 + (tsigOther error now48).length) := by
    rw [← hrr, signedOctets_length]
  obtain ⟨hskip, hq⟩ := hquestions.skip hx (Nat.le_refl 12)
  have hspan : NameSpan (signedBuf m len rr) (len + rr.length) len (len + (wire kn).length) :=
    nameSpan_wire hkn.labels hheld.owner (by omega)
  have hname : skipNameInplace (signedBuf m len rr) (len + rr.length) (len + rr.length + 1) len =
      some (len + (wire kn).length) :=
    hspan.skip ⟨fun _ _ _ => rfl, Nat.le_refl _⟩ hlen (by omega)
  have hscan : scanForTsig (signedBuf m len rr) (len + rr.length)
    (getU16 m 6 + getU16 m 8 + (getU16 m 10 + 1))
      (getU16 m 6 + getU16 m 8) (getU16 m 6 + getU16 m 8 + (getU16 m 10 + 1)) ⟨q, 0, 0, false⟩ =
      .ok ⟨len + rr.length, len, 1, true⟩ := by
    rw [show getU16 m 6 + getU16 m 8 + (getU16 m 10 + 1) = getU16 m 6 + getU16 m 8 +
      getU16 m 10 + 1 by omega]
    refine (hrrs.scan (s := ⟨q, 0, 0, false⟩) hx hq).trans ?_
    rw [scanForTsig]
    simp only [hname, hheld.rdlen, hheld.type]
    rw [if_neg (by omega), if_neg (by omega)]
    simp only [if_true, scanForTsig, hsize]
    congr 2
    · omega
    · simp
  rw [tsigParseRr, if_neg (by omega), signedBuf_arcount hlt, if_neg (by omega),
    signedBuf_count hlen (by omega), hskip]
  simp only [signedBuf_count hlen (show 6 + 2 ≤ 10 by omega),
    signedBuf_count hlen (show 8 + 2 ≤ 10 by omega), hscan]
  rw [readTsigRr_signed hkn han hheld (by rw [hrr])]
  simp

end Record

end KariDns
