import KariDns.Wire.ErrorResponse

/-! The shape of a transfer request (`xfr_request_shape` in `dns_wire.c`).

Before a transfer is started the request is passed over with `skip_wire_name`, which keeps no text
and counts no octets. The question is then read once more by `parse_query_question_fast`, and every
name in the request by whoever needs it. They agree on a request exactly when no name in it is
longer than a name can be.
-/

namespace KariDns

open Octets DomainName List Option

variable {m : Buf} {len p q : Nat} {r : XfrRequest}

/-! ### The request -/

/-- `xfr_shape_t` without `XFR_SHAPE_OK`: the first thing wrong with a request. -/
inductive XfrShape where
  | short | tooLong | response | opcode | rcode | qdcount
  | question | qtype | ancount | nscount | ixfrSoa
  | additional | trailing
  deriving DecidableEq, Repr

/-- What `xfr_request_shape` reports of a request it accepts. -/
structure XfrRequest where
  qtype : Nat
  qEnd : Nat
  ixfrSerial : Nat
  deriving DecidableEq, Repr

/-- `XFR_REQUEST_MAX_LEN`. -/
def xfrRequestMaxLen : Nat := 4096

/-- A record as `xfr_shape_rr` finds it. -/
structure ShapeRr where
  start : Nat
  type : Nat
  rdata : Nat
  rdlen : Nat
  deriving DecidableEq, Repr

/-- The offset behind a record. -/
def ShapeRr.next (rr : ShapeRr) : Nat := rr.rdata + rr.rdlen

/-- `xfr_shape_rr`: the record at `p`, all of it inside the message. -/
def xfrShapeRr (m : Buf) (len p : Nat) : Option ShapeRr :=
  match skipWireName m len p with
  | none => none
  | some n =>
    if n + 10 > len then none
    else if n + 10 + getU16 m (n + 8) > len then none
    else some ⟨p, getU16 m n, n + 10, getU16 m (n + 8)⟩

/-- The records that `ixfr_request_client_serial` leaves behind it. -/
def skipWireRecords (m : Buf) (len : Nat) : Nat → Nat → Option Nat
  | 0, p => some p
  | k + 1, p =>
    match skipWireName m len p with
    | none => none
    | some n =>
      if n + 10 > len then none
      else if n + 10 + getU16 m (n + 8) > len then none
      else skipWireRecords m len k (n + 10 + getU16 m (n + 8))

/-- The SERIAL behind the two names of the SOA RDATA from `p` to `stop`. -/
def soaRdataSerial (m : Buf) (p stop : Nat) : Option Nat :=
  match skipWireName m stop p with
  | none => none
  | some rname =>
    match skipWireName m stop rname with
    | none => none
    | some rp => if rp + 4 > stop then none else some (getU32 m rp)

/-- `ixfr_request_client_serial`: the SERIAL of the SOA at the head of the authority section. -/
def ixfrRequestClientSerial (m : Buf) (len qEnd : Nat) : Option Nat :=
  if len < 12 then none
  else if getU16 m 8 = 0 then none
  else
    match skipWireRecords m len (getU16 m 6) qEnd with
    | none => none
    | some p =>
      match skipWireName m len p with
      | none => none
      | some n =>
        if n + 10 > len then none
        else if getU16 m n ≠ 6 ∨ n + 10 + getU16 m (n + 8) > len then none
        else soaRdataSerial m (n + 10) (n + 10 + getU16 m (n + 8))

/-- The options of an OPT record, from `o` on, fill its RDATA exactly. -/
def optionsFill (m : Buf) (stop : Nat) : Nat → Nat → Bool
  | 0, _ => false
  | fuel + 1, o =>
    if o ≥ stop then true
    else if o + 4 > stop then false
    else if o + 4 + getU16 m (o + 2) > stop then false
    else optionsFill m stop fuel (o + 4 + getU16 m (o + 2))

/-- The loop over the additional section, `k` of its records to come and `nOpt` OPT records found:
the offset behind the last record. -/
def shapeAdditional (m : Buf) (len : Nat) : Nat → Nat → Nat → Option Nat
  | 0, _, p => some p
  | k + 1, nOpt, p =>
    match xfrShapeRr m len p with
    | none => none
    | some rr =>
      if rr.type = 41 then
        if nOpt + 1 > 1 ∨ rr.rdata ≠ rr.start + 11 ∨ m rr.start ≠ 0 then none
        else if optionsFill m rr.next (rr.rdlen + 1) rr.rdata then
          shapeAdditional m len k (nOpt + 1) rr.next
        else none
      -- a TSIG or SIG(0) stands last
      else if (rr.type = 250 ∨ rr.type = 24) ∧ k = 0 then shapeAdditional m len k nOpt rr.next
      else none

/-- The authority section of a request: nothing, or the SOA of the client's version. -/
def shapeAuthority (m : Buf) (len qtype p : Nat) : Except XfrShape (Nat × Nat) :=
  if qtype = 252 then
    if getU16 m 8 ≠ 0 then .error .nscount else .ok (p, 0)
  else if getU16 m 8 ≠ 1 then .error .nscount
  else
    match xfrShapeRr m len p, ixfrRequestClientSerial m len p with
    | some rr, some serial => if rr.type ≠ 6 then .error .ixfrSoa else .ok (rr.next, serial)
    | _, _ => .error .ixfrSoa

/-- `xfr_request_shape`. -/
def xfrRequestShape (m : Buf) (len : Nat) : Except XfrShape XfrRequest :=
  if len < 12 then .error .short
  else if len > xfrRequestMaxLen then .error .tooLong
  else if m 2 &&& 0x80 ≠ 0 then .error .response
  else if opcodeOf m ≠ 0 then .error .opcode
  else if m 3 &&& 0x0F ≠ 0 then .error .rcode
  else if getU16 m 4 ≠ 1 then .error .qdcount
  else if questionNameCompressed m len len 12 then .error .question
  else
    match skipWireName m len 12 with
    | none => .error .question
    | some p =>
      if p + 4 > len then .error .question
      else if getU16 m p ≠ 252 ∧ getU16 m p ≠ 251 then .error .qtype
      else if getU16 m 6 ≠ 0 then .error .ancount
      else
        match shapeAuthority m len (getU16 m p) (p + 4) with
        | .error e => .error e
        | .ok (q, serial) =>
          match shapeAdditional m len (getU16 m 10) 0 q with
          | none => .error .additional
          | some stop => if stop ≠ len then .error .trailing else .ok ⟨getU16 m p, p + 4, serial⟩

/-! ### The question read on its own -/

/-- The loop of `parse_query_question_fast` over the labels, with the octets and the text so far:
the offset behind the name and its text, or the offset where it gives up. -/
def questionNameLoop (m : Buf) (len size : Nat) : Nat → Nat → Nat → Text → Except Nat (Nat × Text)
  | 0, offset, _, _ => .error offset
  | fuel + 1, offset, wireLen, text =>
    if offset ≥ len then .error offset
    else if m offset = 0 then .ok (offset + 1, text)
    else if m offset &&& 0xC0 = 0xC0 then .error offset
    else if (m offset).toNat > 63 ∨ offset + 1 + (m offset).toNat > len then .error offset
    else if wireLen + 1 + (m offset).toNat > 255 then .error (offset + 1)
    else
      let label := slice m (offset + 1) (m offset).toNat
      match if text.length + 1 < size then
        dnsLabelToText (size - text.length - 1) 0 label else none with
      | none => .error (offset + 1)
      | some t =>
        if text.length + t.length + 1 ≥ size then .error (offset + 1)
        else
          questionNameLoop m len size fuel (offset + 1 + (m offset).toNat)
            (wireLen + 1 + (m offset).toNat)
            (text ++ t ++ [46])

/-- What `parse_query_question_fast` leaves behind. -/
structure QuestionFast where
  ok : Bool
  qname : Text
  qtype : Nat
  qclass : Nat
  questionEnd : Nat
  deriving DecidableEq, Repr

/-- `parse_query_question_fast` with a name buffer of `size` octets, over what stood in the results
before. -/
def parseQueryQuestionFast (m : Buf) (len size : Nat) (before : QuestionFast) : QuestionFast :=
  if len ≤ 12 ∨ size = 0 then ⟨false, if size > 0 then [] else before.qname, 0, 1, 12⟩
  else
    match questionNameLoop m len size len 12 1 [] with
    | .error offset => ⟨false, [], 0, 1, offset⟩
    | .ok (offset, text) =>
      if text = [] ∧ size < 2 then { before with ok := false, qname := [] }
      else
        let qname := if text = [] then [46] else text
        if offset + 4 ≤ len then ⟨true, qname, getU16 m offset, getU16 m (offset + 2), offset + 4⟩
        else ⟨false, qname, 0, 1, offset⟩

/-! ### The names of a request -/

/-- A place where a name starts and the end of what it may be read from. -/
structure NamePlace where
  start : Nat
  stop : Nat
  deriving DecidableEq, Repr

/-- The name at a place has at most 255 octets. -/
def NamePlace.Short (m : Buf) (x : NamePlace) : Prop :=
  ∀ n e, Spells m x.stop x.start n e → (wire n).length ≤ 255

/-- The name at a place is decoded. -/
def NamePlace.Decodes (m : Buf) (x : NamePlace) : Prop :=
  ∃ t e, expandWireNameToBuffer m x.stop x.start dnsNameTextSize = some (t, e) ∧
    skipWireName m x.stop x.start = some e

/-- The owners of the next `k` records. -/
def ownerPlaces (m : Buf) (len : Nat) : Nat → Nat → List NamePlace
  | 0, _ => []
  | k + 1, p =>
    ⟨p, len⟩ ::
      match xfrShapeRr m len p with
      | none => []
      | some rr => ownerPlaces m len k rr.next

/-- The two names of a SOA RDATA. -/
def soaPlaces (m : Buf) (p stop : Nat) : List NamePlace :=
  ⟨p, stop⟩ ::
    match skipWireName m stop p with
    | none => []
    | some rname => [⟨rname, stop⟩]

/-- The names that the shape check of a request walks over: the question, for IXFR the owner and the
RDATA names of the SOA, and the owners of the additional records. -/
def xfrNames (m : Buf) (len : Nat) : List NamePlace :=
  ⟨12, len⟩ ::
    match skipWireName m len 12 with
    | none => []
    | some p =>
      if getU16 m p = 252 then ownerPlaces m len (getU16 m 10) (p + 4)
      else
        ⟨p + 4, len⟩ ::
          match xfrShapeRr m len (p + 4) with
          | none => []
          | some rr => soaPlaces m rr.rdata rr.next ++ ownerPlaces m len (getU16 m 10) rr.next

/-- `serial` is the SERIAL of the SOA record at `p`. -/
def SoaSerialAt (m : Buf) (len p serial : Nat) : Prop :=
  ∃ owner mname rname fixed rnameAt serialAt, Spells m len p owner fixed ∧ getU16 m fixed = 6 ∧
    fixed + 10 + getU16 m (fixed + 8) ≤ len ∧
    Spells m (fixed + 10 + getU16 m (fixed + 8)) (fixed + 10) mname rnameAt ∧
    Spells m (fixed + 10 + getU16 m (fixed + 8)) rnameAt rname serialAt ∧
    serialAt + 4 ≤ fixed + 10 + getU16 m (fixed + 8) ∧ serial = getU32 m serialAt

/-- A place that `skip_wire_name` passes over. -/
def NamePlace.Skips (m : Buf) (x : NamePlace) : Prop := ∃ e, skipWireName m x.stop x.start = some e

lemma NamePlace.short_of_expand {x : NamePlace}
    (h : (expandWireNameToBuffer m x.stop x.start dnsNameTextSize).isSome = true) : x.Short m := by
  intro n e hn
  obtain ⟨⟨t, e'⟩, ht⟩ := isSome_iff_exists.mp h
  obtain ⟨k, hvalid, hk, -⟩ := expandWireNameToBuffer_sound ht
  obtain ⟨rfl, -⟩ := spells_unique hn hk
  exact hvalid.short

lemma NamePlace.Skips.decodes_iff {x : NamePlace} (h : x.Skips m) : x.Decodes m ↔ x.Short m := by
  obtain ⟨e, he⟩ := h
  obtain ⟨n, hn⟩ := skipWireName_sound he
  constructor
  · rintro ⟨t, e', ht, -⟩
    exact short_of_expand (by rw [ht]; rfl)
  intro hshort
  obtain ⟨t, ht⟩ := expandWireNameToBuffer_of_skip he hn (hshort n e hn)
  exact ⟨t, e, ht, he⟩

lemma xfrShapeRr_some {rr : ShapeRr} (h : xfrShapeRr m len p = some rr) :
    ∃ n, skipWireName m len p = some n ∧ n + 10 + getU16 m (n + 8) ≤ len ∧
      rr = ⟨p, getU16 m n, n + 10, getU16 m (n + 8)⟩ := by
  rw [xfrShapeRr] at h
  cases hs : skipWireName m len p with
  | none =>
    rw [hs] at h
    cases h
  | some n =>
    rw [hs] at h
    dsimp only at h
    split_ifs at h with h1 h2
    exact ⟨n, rfl, by omega, (some.inj h).symm⟩

lemma shapeAdditional_skips (k : Nat) {nOpt stop : Nat}
    (h : shapeAdditional m len k nOpt p = some stop) :
    ∀ x ∈ ownerPlaces m len k p, x.Skips m := by
  induction k generalizing nOpt p with
  | zero => simp [ownerPlaces]
  | succ k ih =>
    rw [shapeAdditional] at h
    cases hrr : xfrShapeRr m len p with
    | none =>
      rw [hrr] at h
      cases h
    | some rr =>
      rw [hrr] at h
      dsimp only at h
      have hrest : ∃ c, shapeAdditional m len k c rr.next = some stop := by
        split_ifs at h with h1 h2 h3 h4
        · exact ⟨_, h⟩
        · exact ⟨_, h⟩
      obtain ⟨c, hc⟩ := hrest
      obtain ⟨n, hn, -, -⟩ := xfrShapeRr_some hrr
      rw [ownerPlaces, hrr]
      intro x hx
      rcases mem_cons.mp hx with rfl | hx
      · exact ⟨n, hn⟩
      · exact ih hc x hx

lemma soaRdataSerial_some {stop serial : Nat} (h : soaRdataSerial m p stop = some serial) :
    ∃ rnameAt serialAt, skipWireName m stop p = some rnameAt ∧
      skipWireName m stop rnameAt = some serialAt ∧
      serialAt + 4 ≤ stop ∧ serial = getU32 m serialAt := by
  rw [soaRdataSerial] at h
  cases hm : skipWireName m stop p with
  | none =>
    rw [hm] at h
    cases h
  | some rnameAt =>
    rw [hm] at h
    dsimp only at h
    cases hr : skipWireName m stop rnameAt with
    | none =>
      rw [hr] at h
      cases h
    | some serialAt =>
      rw [hr] at h
      dsimp only at h
      split_ifs at h with hend
      exact ⟨rnameAt, serialAt, rfl, hr, by omega, (some.inj h).symm⟩

/-- With nothing in the answer section the serial is read from the record that the shape check has
walked over. -/
lemma ixfrRequestClientSerial_some {serial : Nat} {rr : ShapeRr} (han : getU16 m 6 = 0)
    (hrr : xfrShapeRr m len p = some rr) (h : ixfrRequestClientSerial m len p = some serial) :
    rr.type = 6 ∧ soaRdataSerial m rr.rdata rr.next = some serial := by
  obtain ⟨n, hn, -, rfl⟩ := xfrShapeRr_some hrr
  rw [ixfrRequestClientSerial, han, skipWireRecords] at h
  dsimp only at h
  rw [hn] at h
  dsimp only at h
  split_ifs at h with h1 h2 h3 h4
  exact ⟨not_not.mp fun hne => h4 (.inl hne), h⟩

/-- What the authority section of an accepted request holds. -/
lemma shapeAuthority_ok {qtype serial : Nat} (han : getU16 m 6 = 0)
    (h : shapeAuthority m len qtype p = .ok (q, serial)) :
    (qtype = 252 ∧ q = p) ∨ qtype ≠ 252 ∧ ∃ rr, xfrShapeRr m len p = some rr ∧
      rr.type = 6 ∧ q = rr.next ∧
        soaRdataSerial m rr.rdata rr.next = some serial := by
  rw [shapeAuthority] at h
  split_ifs at h with h1 h2 h3
  · cases h
    exact .inl ⟨h1, rfl⟩
  cases hrr : xfrShapeRr m len p with
  | none =>
    rw [hrr] at h
    cases h
  | some rr =>
    cases hs : ixfrRequestClientSerial m len p with
    | none =>
      rw [hrr, hs] at h
      cases h
    | some s =>
      rw [hrr, hs] at h
      dsimp only at h
      obtain ⟨htype, hserial⟩ := ixfrRequestClientSerial_some han hrr hs
      rw [if_neg (by simpa using htype)] at h
      cases h
      exact .inr ⟨h1, rr, rfl, htype, rfl, hserial⟩

lemma guard_passed {ε α : Type} {c : Prop} [Decidable c] {e : ε} {x : Except ε α} {r : α}
    (h : (if c then .error e else x) = .ok r) : ¬ c ∧ x = .ok r := by
  split at h
  · cases h
  · exact ⟨‹_›, h⟩

/-- What `xfr_request_shape` has found when it accepts. -/
structure Accepted (m : Buf) (len : Nat) (r : XfrRequest) (p q : Nat) : Prop where
  header : 12 ≤ len
  plain : questionNameCompressed m len len 12 = false
  question : skipWireName m len 12 = some p
  inside : p + 4 ≤ len
  answers : getU16 m 6 = 0
  authority : shapeAuthority m len (getU16 m p) (p + 4) = .ok (q, r.ixfrSerial)
  additional : shapeAdditional m len (getU16 m 10) 0 q = some len
  qtype : r.qtype = getU16 m p
  qEnd : r.qEnd = p + 4
  transfer : r.qtype = 252 ∨ r.qtype = 251

lemma xfrRequestShape_ok (h : xfrRequestShape m len = .ok r) : ∃ p q, Accepted m len r p q := by
  rw [xfrRequestShape] at h
  obtain ⟨hheader, h⟩ := guard_passed h
  obtain ⟨-, h⟩ := guard_passed h
  obtain ⟨-, h⟩ := guard_passed h
  obtain ⟨-, h⟩ := guard_passed h
  obtain ⟨-, h⟩ := guard_passed h
  obtain ⟨-, h⟩ := guard_passed h
  obtain ⟨hplain, h⟩ := guard_passed h
  cases hq : skipWireName m len 12 with
  | none =>
    rw [hq] at h
    cases h
  | some p =>
    rw [hq] at h
    obtain ⟨hin, h⟩ := guard_passed h
    obtain ⟨hqtype, h⟩ := guard_passed h
    obtain ⟨han, h⟩ := guard_passed h
    cases hauth : shapeAuthority m len (getU16 m p) (p + 4) with
    | error e =>
      rw [hauth] at h
      cases h
    | ok a =>
      obtain ⟨q, serial⟩ := a
      rw [hauth] at h
      dsimp only at h
      cases hadd : shapeAdditional m len (getU16 m 10) 0 q with
      | none =>
        rw [hadd] at h
        cases h
      | some stop =>
        rw [hadd] at h
        obtain ⟨hstop, h⟩ := guard_passed h
        obtain rfl := Except.ok.inj h
        obtain rfl := not_not.mp hstop
        have htransfer : getU16 m p = 252 ∨ getU16 m p = 251 := by omega
        exact ⟨p, q, Nat.not_lt.mp hheader, Bool.eq_false_iff.mpr hplain, hq, Nat.not_lt.mp hin,
          not_not.mp han, hauth,
          hadd, rfl, rfl, htransfer⟩

lemma Accepted.skips (h : Accepted m len r p q) : ∀ x ∈ xfrNames m len, x.Skips m := by
  have hadd := shapeAdditional_skips _ h.additional
  intro x hx
  rw [xfrNames, h.question] at hx
  dsimp only at hx
  rcases mem_cons.mp hx with rfl | hx
  · exact ⟨p, h.question⟩
  rcases shapeAuthority_ok h.answers h.authority with ⟨h252, rfl⟩ | ⟨h251, rr, hrr, -, rfl, hserial⟩
  · rw [if_pos h252] at hx
    exact hadd x hx
  obtain ⟨rnameAt, serialAt, hmname, hrname, -, -⟩ := soaRdataSerial_some hserial
  rw [if_neg h251, hrr] at hx
  dsimp only at hx
  rcases mem_cons.mp hx with rfl | hx
  · obtain ⟨n, hn, -, -⟩ := xfrShapeRr_some hrr
    exact ⟨n, hn⟩
  rcases mem_append.mp hx with hx | hx
  · rw [soaPlaces, hmname] at hx
    simp only [mem_cons, not_mem_nil, or_false] at hx
    rcases hx with rfl | rfl
    · exact ⟨rnameAt, hmname⟩
    · exact ⟨serialAt, hrname⟩
  · exact hadd x hx

lemma Accepted.serial (h : Accepted m len r p q) (hixfr : r.qtype = 251) :
    SoaSerialAt m len r.qEnd r.ixfrSerial := by
  have hqt : getU16 m p = 251 := h.qtype ▸ hixfr
  rcases shapeAuthority_ok h.answers h.authority with ⟨h252, -⟩ | ⟨-, rr, hrr, htype, -, hserial⟩
  · omega
  obtain ⟨n, hn, hle, rfl⟩ := xfrShapeRr_some hrr
  obtain ⟨rnameAt, serialAt, hmname, hrname, hend, hs⟩ := soaRdataSerial_some hserial
  obtain ⟨owner, howner⟩ := skipWireName_sound hn
  obtain ⟨mname, hm⟩ := skipWireName_sound hmname
  obtain ⟨rname, hr⟩ := skipWireName_sound hrname
  rw [h.qEnd]
  exact ⟨owner, mname, rname, n, rnameAt, serialAt, howner, htype, hle, hm, hr, hend, hs⟩

/-! ### The question -/

/-- A name without pointers is read label by label. -/
lemma questionNameLoop_spells {m : Buf} {len size p e : Nat} {n : Name} (h : Spells m len p n e) :
    ∀ {fuel fuel' wireLen : Nat} {text : Text}, questionNameCompressed m len fuel' p = false →
      len ≤ fuel + p →
      len ≤ fuel' + p → wireLen + (wire n).length ≤ 256 → text.length + 4 * (wire n).length ≤ size →
      questionNameLoop m len size fuel p wireLen text = .ok (e, text ++ labelsText n) := by
  induction h with
  | @root p hp h0 =>
    intro fuel fuel' wireLen text _ hf _ _ _
    rcases fuel with _ | fuel
    · omega
    rw [questionNameLoop, if_neg (by omega), if_pos h0]
    simp [labelsText]
  | @label p e l n hl hw hin hs ih =>
    intro fuel fuel' wireLen text hc hf hf' hwire hroom
    obtain ⟨hlen, hplain, -, hne, hslice⟩ := labelOctet hl hw
    have hmask : m p &&& 0xC0 ≠ 0xC0 := by simpa [isPointer] using hplain
    have hle : (m p).toNat ≤ 63 := hlen ▸ hl.2
    have hpos : 0 < l.length := length_pos_iff.mpr hl.1
    have htext := labelText_length_le l
    have hwpos := wire_length_pos n
    rcases fuel with _ | fuel
    · omega
    rcases fuel' with _ | fuel'
    · omega
    rw [questionNameCompressed, if_neg (by omega), if_neg hne, if_neg hmask,
      if_neg (by rw [gt_iff_lt, UInt8.lt_iff_toNat_lt]; simpa using hle), hlen] at hc
    rw [wire_length_cons] at hwire hroom
    have hcap : dnsLabelToText (size - text.length - 1) 0 l = some (labelText l) := by
      rw [dnsLabelToText_eq _ _ _ (Nat.zero_le _), if_pos (by omega)]
    rw [questionNameLoop, if_neg (by omega), if_neg hne, if_neg hmask, if_neg (by omega),
      if_neg (by omega)]
    dsimp only
    rw [hlen, hslice, if_pos (by omega), hcap]
    dsimp only
    rw [if_neg (by omega), ih hc (by omega) (by omega) (by omega) (by simp; omega), labelsText_cons]
    simp
  | @pointer p e n hp hptr hs ih =>
    intro fuel fuel' wireLen text hc hf hf' _ _
    rcases fuel' with _ | fuel'
    · omega
    have hmask : m p &&& 0xC0 = 0xC0 := by simpa [isPointer] using hptr
    have hne : m p ≠ 0 := fun h0 => by simp [h0] at hmask
    rw [questionNameCompressed, if_neg (by omega), if_neg hne, if_pos hmask] at hc
    cases hc

lemma Accepted.question_read (h : Accepted m len r p q) (hshort : NamePlace.Short m ⟨12, len⟩)
    (before : QuestionFast) :
    ∃ name qclass, parseQueryQuestionFast m len dnsNameTextSize before =
      ⟨true, name, r.qtype, qclass, r.qEnd⟩ := by
  obtain ⟨n, hn⟩ := skipWireName_sound h.question
  have hlen := hshort n p hn
  have hlt := hn.lt
  have hin := h.inside
  have hloop := @questionNameLoop_spells m len dnsNameTextSize 12 p n hn len len 1 [] h.plain
    (by omega) (by omega)
    (by omega) (by rw [dnsNameTextSize, length_nil]; omega)
  rw [parseQueryQuestionFast, if_neg (by simp [dnsNameTextSize]; omega), hloop]
  dsimp only
  rw [if_neg (by simp [dnsNameTextSize]), if_pos hin, h.qtype, h.qEnd]
  exact ⟨_, _, rfl⟩

/-- What is expected of a request whose shape is accepted: the question is read with the same type
and end, every name in it is decoded, and the serial of an IXFR request is that of its SOA. -/
structure RequestReads (m : Buf) (len : Nat) (r : XfrRequest) : Prop where
  question : ∀ before, ∃ name qclass,
    parseQueryQuestionFast m len dnsNameTextSize before = ⟨true, name, r.qtype, qclass, r.qEnd⟩
  names : ∀ x ∈ xfrNames m len, x.Decodes m
  serial : r.qtype = 251 → SoaSerialAt m len r.qEnd r.ixfrSerial

/-- The shape check and the readers agree on a request exactly when none of its names is longer than
255 octets: `skip_wire_name` does not count. -/
theorem xfrRequestShape_reads_iff {m : Buf} {len : Nat} {r : XfrRequest}
    (h : xfrRequestShape m len = .ok r) :
    RequestReads m len r ↔ ∀ x ∈ xfrNames m len, x.Short m := by
  obtain ⟨p, q, hacc⟩ := xfrRequestShape_ok h
  constructor
  · intro hreads x hx
    exact (hacc.skips x hx).decodes_iff.mp (hreads.names x hx)
  intro hshort
  refine ⟨hacc.question_read (hshort _ mem_cons_self), ?_, hacc.serial⟩
  intro x hx
  exact (hacc.skips x hx).decodes_iff.mpr (hshort x hx)

/-- An IXFR request for `a.` with the SOA of the client's version, its serial 5. -/
def ixfrRequest : List UInt8 :=
  [0, 1, 0, 0, 0, 1, 0, 0, 0, 1, 0, 0] ++ [1, 97, 0, 0, 251, 0, 1] ++
    [0xC0, 12, 0, 6, 0, 1, 0, 0, 0, 0, 0, 23] ++ [0xC0, 12, 0] ++ be32 5 ++ List.replicate 16 0

theorem ixfrRequest_reads :
    xfrRequestShape (bufOf ixfrRequest) ixfrRequest.length = .ok ⟨251, 19, 5⟩ ∧
    RequestReads (bufOf ixfrRequest) ixfrRequest.length ⟨251, 19, 5⟩ := by
  have hshape : xfrRequestShape (bufOf ixfrRequest) ixfrRequest.length = .ok ⟨251, 19, 5⟩ := by
    decide +kernel
  have hnames : ∀ x ∈ xfrNames (bufOf ixfrRequest) ixfrRequest.length,
      (expandWireNameToBuffer (bufOf ixfrRequest) x.stop x.start dnsNameTextSize).isSome =
        true := by decide +kernel
  exact ⟨hshape,
    (xfrRequestShape_reads_iff hshape).mpr fun x hx => NamePlace.short_of_expand (hnames x hx)⟩

/-- The IXFR request with an SOA whose owner has five labels of 63 octets. -/
def longIxfrRequest : List UInt8 :=
  [0, 1, 0, 0, 0, 1, 0, 0, 0, 1, 0, 0] ++ [1, 97, 0, 0, 251, 0, 1] ++
    ((List.replicate 5 (63 :: List.replicate 63 97)).flatten ++ [0]) ++
      [0, 6, 0, 1, 0, 0, 0, 0, 0, 23] ++
    [0xC0, 12, 0] ++ be32 5 ++ List.replicate 16 0

/-- The question is read and the shape check lets the request pass, but the owner of 321 octets is
not decoded. -/
theorem longIxfrRequest_unread :
    xfrRequestShape (bufOf longIxfrRequest) longIxfrRequest.length = .ok ⟨251, 19, 5⟩ ∧
      (parseQueryQuestionFast (bufOf longIxfrRequest) longIxfrRequest.length dnsNameTextSize
        ⟨false, [], 0, 0, 0⟩).ok = true ∧
      ⟨19, longIxfrRequest.length⟩ ∈ xfrNames (bufOf longIxfrRequest) longIxfrRequest.length ∧
      expandWireNameToBuffer (bufOf longIxfrRequest) longIxfrRequest.length 19
        dnsNameTextSize = none := by
  decide +kernel

end KariDns
