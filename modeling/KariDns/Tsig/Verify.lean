import KariDns.Tsig.Sign

/-! Checking the signature of a message (RFC 8945, `tsig_parse_rr` and `tsig_verify_packet_ex`).

The verifier looks for the TSIG record by walking over all records of the message, takes it off
again, restores the header it was signed with and digests what is left with its own copy of the
key's name.
-/

namespace KariDns

open Octets DomainName

/-! ### Walking over a message -/

/-- `skip_name_inplace`: the offset behind the name. -/
def skipNameInplace (m : Buf) (len : Nat) : Nat → Nat → Option Nat
  | 0, _ => none
  | fuel + 1, offset =>
    if offset ≥ len then none
    else if isPointer (m offset) then if offset + 2 > len then none else some (offset + 2)
    else if m offset &&& 0xC0 = 0 then
      if (m offset).toNat > 63 then none
      else if m offset = 0 then some (offset + 1)
      else skipNameInplace m len fuel (offset + 1 + (m offset).toNat)
    else none

/-- The loop over the questions. -/
def skipQuestions (m : Buf) (len : Nat) : Nat → Nat → Option Nat
  | 0, offset => some offset
  | k + 1, offset =>
    match skipNameInplace m len (len + 1) offset with
    | none => none
    | some e => if e + 4 > len then none else skipQuestions m len k (e + 4)

/-- The TSIG records seen so far: the place of the last one, their number, and whether that one
is the last record of the additional section. -/
structure TsigScan where
  offset : Nat
  rr : Nat
  count : Nat
  isLast : Bool

/-- The loop over the records, `k` of `total` still to come, `fixed` of them before the additional
section. The error tells a record that cannot be read from one that spoils a TSIG record. -/
def scanForTsig (m : Buf) (len total fixed : Nat) : Nat → TsigScan → Except Bool TsigScan
  | 0, s => .ok s
  | k + 1, s =>
    match skipNameInplace m len (len + 1) s.offset with
    | none => .error (s.count != 0)
    | some e =>
      if e + 10 > len then .error (s.count != 0)
      else if e + 10 + getU16 m (e + 8) > len then .error (s.count != 0 || getU16 m e == 250)
      else
        let i := total - (k + 1)
        let s' := if getU16 m e = 250 then
            ⟨e + 10 + getU16 m (e + 8), s.offset, s.count + 1, decide (i = total - 1 ∧ i ≥ fixed)⟩
          else { s with offset := e + 10 + getU16 m (e + 8) }
        scanForTsig m len total fixed k s'

/-! ### The TSIG record -/

/-- The loop of `extract_wire_name_to_buffer`, which follows no pointers. -/
def extractLoop (m : Buf) (limit bufSize : Nat) : Nat → Nat → Nat → Text → Option (Text × Nat)
  | 0, _, _, _ => none
  | fuel + 1, p, total, out =>
    if p ≥ limit then none
    else if m p &&& 0xC0 ≠ 0 then none
    else if total + 1 + (m p).toNat > 255 then none
    else if m p = 0 then
      let out := if out = [] then [46] else out
      if out.length ≥ bufSize then none else some (out, p + 1)
    else if p + 1 + (m p).toNat > limit ∨ out.length + 1 ≥ bufSize then none
    else
      match dnsLabelToText (bufSize - out.length - 1) 0 (slice m (p + 1) (m p).toNat) with
      | none => none
      | some t => extractLoop m limit bufSize fuel (p + 1 + (m p).toNat) (total + 1 + (m p).toNat)
        (out ++ t ++ [46])

/-- `extract_wire_name_to_buffer`: the text and the next offset. A name of 255 octets has at most
127 labels. -/
def extractWireNameToBuffer (m : Buf) (limit current bufSize : Nat) : Option (Text × Nat) :=
  extractLoop m limit bufSize 256 current 0 []

/-- `tsig_rr_t`. -/
structure TsigRr where
  rrOffset : Nat
  timersOffset : Nat
  keyName : Text
  algName : Text
  timeSigned : Nat
  fudge : Nat
  macSize : Nat
  mac : List UInt8
  origId : Nat
  error : Nat
  otherLen : Nat
  other : List UInt8

/-- The return value of `tsig_parse_rr`: 0, -1 or 1. -/
inductive TsigParse
  | absent
  | malformed
  | found (rr : TsigRr)

/-- The fields behind the algorithm name, which ends at `p`; RDATA ends at `rdataEnd`. -/
def tsigFields (m : Buf) (rrOffset p rdataEnd : Nat) (keyName algName : Text) : Option TsigRr :=
  if p + 10 > rdataEnd then none
  else
    let macSize := getU16 m (p + 8)
    if p + 10 + macSize + 6 > rdataEnd then none
    else
      let q := p + 10 + macSize
      let otherLen := getU16 m (q + 4)
      if q + 6 + otherLen > rdataEnd then none
      else some
        { rrOffset, timersOffset := p, keyName, algName, timeSigned := getU48 m p,
          fudge := getU16 m (p + 6),
          macSize, mac := slice m (p + 10) macSize, origId := getU16 m q, error :=
            getU16 m (q + 2), otherLen,
          other := slice m (q + 6) otherLen }

/-- The second half of `tsig_parse_rr`: the record at `rr`. -/
def readTsigRr (m : Buf) (len rr : Nat) : Option TsigRr :=
  match expandWireNameToBuffer m len rr dnsNameTextSize with
  | none => none
  | some (keyName, p) =>
    if p + 10 > len then none
    else if getU16 m (p + 2) ≠ 255 then none
    else
      let rdataEnd := p + 10 + getU16 m (p + 8)
      match extractWireNameToBuffer m rdataEnd (p + 10) dnsNameTextSize with
      | none => none
      | some (algName, q) => tsigFields m rr q rdataEnd keyName algName

/-- `tsig_parse_rr`. -/
def tsigParseRr (m : Buf) (len : Nat) : TsigParse :=
  if len < 12 then .absent
  else if getU16 m 10 = 0 then .absent
  else
    match skipQuestions m len (getU16 m 4) 12 with
    | none => .absent
    | some offset =>
      let fixed := getU16 m 6 + getU16 m 8
      let total := fixed + getU16 m 10
      match scanForTsig m len total fixed total ⟨offset, 0, 0, false⟩ with
      | .error bad => if bad then .malformed else .absent
      | .ok s =>
        if s.count = 0 then .absent
        else if s.count > 1 ∨ s.isLast = false then .malformed
        else
          match readTsigRr m len s.rr with
          | none => .malformed
          | some rr => .found rr

/-- `packet_has_tsig`. -/
def packetHasTsig (m : Buf) (len : Nat) : Bool :=
  match tsigParseRr m len with
  | .found _ => true
  | _ => false

/-! ### Verification -/

/-- The message without its TSIG record, under its original ID and with ARCOUNT reduced. -/
def tsigStripped (m : Buf) (rr : TsigRr) : List UInt8 :=
  slice (blit (blit m 0 (be16 rr.origId)) 10 (be16 (getU16 m 10 - 1))) 0 rr.rrOffset

/-- The octets `tsig_verify_packet_ex` hands to `HMAC`. -/
def tsigVerifyDigest (key : TsigKey) (ctx : TsigContext) (m : Buf) (rr : TsigRr) (kl al : Nat) :
    Option (List UInt8) :=
  let cap := (if ctx.priorMac = [] then 0 else ctx.priorMac.length + 2) + ctx.unsignedMsgs.length +
    rr.rrOffset + kl + 6 + al + 8 + 4 + rr.otherLen
  let message := ctx.lead ++ tsigStripped m rr
  let timers := slice m rr.timersOffset 8
  if ctx.isSubsequent then
    if message.length + 8 > cap then none else some (message ++ timers)
  else
    match tsigNames message.length cap key.name rr.algName with
    | none => none
    | some names =>
      if message.length + names.length + 8 + (4 + rr.otherLen) > cap then none
      else some (message ++ names ++ timers ++ be16 rr.error ++ be16 rr.otherLen ++ rr.other)

/-- The clock is within the fudge of the time of signing; the bounds saturate at 64 bits. -/
def tsigInTime (rr : TsigRr) (now : Nat) : Bool :=
  let upper := if 2 ^ 64 - 1 - rr.fudge < rr.timeSigned then 2 ^ 64 - 1
    else rr.timeSigned + rr.fudge
  let lower := if rr.timeSigned < rr.fudge then 0 else rr.timeSigned - rr.fudge
  ¬ (now > upper ∨ now < lower)

/-- `tsig_verify_packet_ex`: the return value, and what `mac_out` holds afterwards when the MAC was
right. -/
def tsigVerifyPacketEx (H : KeyedHash) (m : Buf) (len : Nat) (key : TsigKey) (ctx : TsigContext)
    (clock : Nat) : Int × Option (List UInt8) :=
  if len < 12 then (-1, none)
  else
    match tsigParseRr m len with
    | .absent => (-1, none)
    | .malformed => (-2, none)
    | .found rr =>
      match tsigAlgorithmFromName rr.algName with
      | none => (17, none)
      | some md =>
        if some md ≠ tsigAlgorithmFromName key.alg ∨
          domainNamesMatchCi rr.keyName key.name = false then (17, none)
        else if rr.macSize = 0 ∧ ctx.priorMac ≠ [] ∧ ctx.isSubsequent = false ∧
          (rr.error = 16 ∨ rr.error = 17) then
          (rr.error, none)
        else if rr.macSize > md.size ∨ rr.macSize < max (md.size / 2) 10 then (-2, none)
        else
          match wireNameLength key.name, wireNameLength rr.algName with
          | some kl, some al =>
            match tsigVerifyDigest key ctx m rr kl al with
            | none => (-1, none)
            | some digest =>
              let mac := H.mac md key.secretDecoded digest
              if mac.length < rr.macSize ∨ mac.take rr.macSize ≠ rr.mac then (16, none)
              else if tsigInTime rr (key.time clock) then (0, some rr.mac)
              else (18, some rr.mac)
          | _, _ => (-1, none)

end KariDns
