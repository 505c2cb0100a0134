import KariDns.Wire.Expand
import KariDns.Wire.Preparse

/-! Reading a record out of a message (`parse_resource_record`).

The types with a presentation form become text fields; every other type, and every RDATA a
text field cannot hold, is kept as octets. DNSSEC records have both: the octets that are
served and the fields that denial of existence reads (`decode_dnssec_rdata`).
-/

namespace KariDns

open Octets DomainName

/-! ### Fields in presentation form -/

/-- `format_type_name`: the two tables of the source hold the same mnemonics. -/
def formatTypeName (t : Nat) : Text :=
  match typeMnemonics.find? fun e => e.2 == t with
  | some e => ascii e.1
  | none => ascii "TYPE" ++ decimal t

/-- The base32hex digit of a value (RFC 4648 7). -/
def base32Digit (v : Nat) : UInt8 := if v < 10 then UInt8.ofNat (48 + v) else UInt8.ofNat (55 + v)

/-- The inner loop of `dns_base32hex_encode`: as many digits as there are groups of five bits. -/
def base32Digits (buffer : Nat) : Nat → Nat → Text × Nat
  | 0, bits => ([], bits)
  | fuel + 1, bits =>
    if bits ≥ 5 then
      let r := base32Digits buffer fuel (bits - 5)
      (base32Digit (buffer / 2 ^ (bits - 5) % 32) :: r.1, r.2)
    else ([], bits)

/-- `dns_base32hex_encode` into a buffer that is long enough. -/
def base32hexEncode : Nat → Nat → List UInt8 → Text
  | buffer, bits, [] => if bits > 0 then [base32Digit (buffer * 2 ^ (5 - bits) % 32)] else []
  | buffer, bits, b :: bs =>
    let buffer := (buffer * 256 + b.toNat) % 2 ^ 32
    let r := base32Digits buffer 2 (bits + 8)
    r.1 ++ base32hexEncode buffer r.2 bs

/-- An upper-case hexadecimal digit. -/
def hexDigit (v : Nat) : UInt8 := if v < 10 then UInt8.ofNat (48 + v) else UInt8.ofNat (55 + v)

/-- `dnssec_rdata_hex`. -/
def dnssecRdataHex (bs : List UInt8) : Text :=
  bs.flatMap fun b => [hexDigit (b.toNat / 16), hexDigit (b.toNat % 16)]

/-- The base64 digit of a value (RFC 4648 4). -/
def base64Digit (v : Nat) : UInt8 :=
  if v < 26 then UInt8.ofNat (65 + v)
  else if v < 52 then UInt8.ofNat (71 + v)
  else if v < 62 then UInt8.ofNat (v - 4)
  else if v = 62 then 43
  else 47

/-- `EVP_EncodeBlock`. -/
def evpEncodeBlock : List UInt8 → Text
  | [] => []
  | [a] => [base64Digit (a.toNat / 4), base64Digit (a.toNat % 4 * 16), 61, 61]
  | [a, b] =>
    [base64Digit (a.toNat / 4), base64Digit (a.toNat % 4 * 16 + b.toNat / 16),
      base64Digit (b.toNat % 16 * 4), 61]
  | a :: b :: c :: bs =>
    base64Digit (a.toNat / 4) :: base64Digit (a.toNat % 4 * 16 + b.toNat / 16) ::
      base64Digit (b.toNat % 16 * 4 + c.toNat / 64) :: base64Digit (c.toNat % 64) ::
        evpEncodeBlock bs

/-- `%0<width>u`. -/
def zeroPadded (width n : Nat) : Text := List.replicate (width - (decimal n).length) 48 ++ decimal n

/-- `dnssec_rdata_time`: seconds since the epoch as `YYYYMMDDHHMMSS`. -/
def dnssecRdataTime (t : Nat) : Text :=
  let z := t / 86400 + 719468
  let secs := t % 86400
  let era := z / 146097
  let doe := z - era * 146097
  let yoe := (doe - doe / 1460 + doe / 36524 - doe / 146096) / 365
  let doy := doe - (365 * yoe + yoe / 4 - yoe / 100)
  let mp := (5 * doy + 2) / 153
  let d := doy - (153 * mp + 2) / 5 + 1
  let m := if mp < 10 then mp + 3 else mp - 9
  let y := yoe + era * 400 + if m ≤ 2 then 1 else 0
  zeroPadded 4 (y % 10000) ++ zeroPadded 2 (m % 100) ++ zeroPadded 2 (d % 100) ++
    zeroPadded 2 (secs / 3600) ++ zeroPadded 2 (secs / 60 % 60) ++ zeroPadded 2 (secs % 60)

/-! ### DNSSEC records -/

/-- The end of a name in RDATA that uses no compression. -/
def fullNameEnd (m : Buf) (stop : Nat) : Nat → Nat → Option Nat
  | 0, _ => none
  | fuel + 1, p =>
    if p ≥ stop then none
    else if m p &&& 0xC0 ≠ 0 then none
    else if m p = 0 then some (p + 1)
    else fullNameEnd m stop fuel (p + 1 + (m p).toNat)

/-- `dnssec_rdata_name`: a name of RDATA, which must not be compressed. -/
def dnssecRdataName (rd : Buf) (rdlen p : Nat) : Option (Text × Nat) :=
  match fullNameEnd rd rdlen (rdlen + 1) p with
  | none => none
  | some _ => expandWireNameToBuffer rd rdlen p dnsNameTextSize

/-- The types of one window that are listed: not 0, OPT or a meta type. -/
def windowTypes (rd : Buf) (window p len : Nat) : List Nat :=
  ((List.range (len * 8)).filter fun k =>
      (rd (p + k / 8)).toNat / 2 ^ (7 - k % 8) % 2 = 1).map (window * 256 + ·)
    |>.filter fun t => ¬ (t = 0 ∨ t = 41 ∨ (249 ≤ t ∧ t ≤ 255))

/-- The loop of `dnssec_rdata_bitmap` over the windows, which must ascend. -/
def bitmapTypes (rd : Buf) (rdlen : Nat) : Nat → Option Nat → Nat → Option (List Nat)
  | 0, _, _ => none
  | fuel + 1, last, p =>
    if p ≥ rdlen then some []
    else if p + 2 > rdlen then none
    else
      let window := (rd p).toNat
      let len := (rd (p + 1)).toNat
      if last.any (window ≤ ·) ∨ len < 1 ∨ len > 32 ∨ p + 2 + len > rdlen then none
      else
        (bitmapTypes rd rdlen fuel (some window) (p + 2 + len)).map
          (windowTypes rd window (p + 2) len ++ ·)

/-- `dnssec_rdata_bitmap` behind `fields`: as many type names as the record has room for. -/
def dnssecRdataBitmap (rd : Buf) (rdlen p : Nat) (fields : List Text) : Option (List Text) :=
  (bitmapTypes rd rdlen (rdlen + 1) none p).map fun types =>
    fields ++ (types.map formatTypeName).take (maxRdata - fields.length)

/-- `decode_dnssec_rdata`: the text fields of RDATA `rd`, `none` when it is malformed. -/
def decodeDnssecRdata (type : Nat) (rd : Buf) (rdlen : Nat) : Option (List Text) :=
  if type = 46 then
    if rdlen < 18 then none
    else do
      let (signer, p) ← dnssecRdataName rd rdlen 18
      return [formatTypeName (getU16 rd 0), decimal (rd 2).toNat, decimal (rd 3).toNat,
        decimal (getU32 rd 4), dnssecRdataTime (getU32 rd 8), dnssecRdataTime (getU32 rd 12),
        decimal (getU16 rd 16), signer, evpEncodeBlock (slice rd p (rdlen - p))]
  else if type = 47 then do
    let (next, p) ← dnssecRdataName rd rdlen 0
    dnssecRdataBitmap rd rdlen p [next]
  else if type = 50 ∨ type = 51 then
    if rdlen < 5 then none
    else
      let saltLen := (rd 4).toNat
      let p := 5 + saltLen
      if p > rdlen ∨ (type = 51 ∧ p ≠ rdlen) then none
      else
        let fields := [decimal (rd 0).toNat, decimal (rd 1).toNat, decimal (getU16 rd 2),
          if saltLen = 0 then ascii "-" else dnssecRdataHex (slice rd 5 saltLen)]
        if type = 51 then some fields
        else
          let hashLen := (rd p).toNat
          if p ≥ rdlen ∨ hashLen = 0 ∨ p + 1 + hashLen > rdlen then none
          else
            dnssecRdataBitmap rd rdlen (p + 1 + hashLen)
              (fields ++ [base32hexEncode 0 0 (slice rd (p + 1) hashLen)])
  else if type = 48 ∨ type = 43 then
    if rdlen < 4 then none
    else
      let data := slice rd 4 (rdlen - 4)
      some [decimal (getU16 rd 0), decimal (rd 2).toNat, decimal (rd 3).toNat,
        if type = 48 then evpEncodeBlock data else dnssecRdataHex data]
  else some []

/-! ### RDATA with text fields -/

/-- A field of RDATA. -/
inductive WireField
  | name | u16 | u32 | addr4 | addr6 | chars
  deriving DecidableEq

/-- One field at `p` of RDATA that ends at `stop`: its text and the place behind it. A name may be
compressed and may use the whole packet, but must end within the RDATA. -/
def readField (m : Buf) (packetLen stop p : Nat) : WireField → Option (Text × Nat)
  | .name => (expandWireNameToBuffer m packetLen p dnsNameTextSize).filter fun r => r.2 ≤ stop
  | .u16 => if p + 2 > stop then none else some (decimal (getU16 m p), p + 2)
  | .u32 => if p + 4 > stop then none else some (decimal (getU32 m p), p + 4)
  | .addr4 => if p + 4 > stop then none else some (inetNtop4 (slice m p 4), p + 4)
  | .addr6 => if p + 16 > stop then none else some (inetNtop6 (slice m p 16), p + 16)
  | .chars =>
    if p ≥ stop ∨ p + 1 + (m p).toNat > stop then none
    else some (slice m (p + 1) (m p).toNat, p + 1 + (m p).toNat)

/-- Fields one behind the other. -/
def readFields (m : Buf) (packetLen stop : Nat) : List WireField → Nat → Option (List Text × Nat)
  | [], p => some ([], p)
  | f :: fs, p =>
    match readField m packetLen stop p f with
    | none => none
    | some (t, p') => (readFields m packetLen stop fs p').map fun (ts, e) => (t :: ts, e)

/-- What the reader asks of a type's RDATA: a length, exact or at least, and its fields. -/
structure RdataReader where
  length : Nat
  exact : Bool := false
  fields : List WireField

/-- NS, MD, MF, CNAME, MB, MG, MR, PTR, NSAP-PTR, DNAME. -/
def nameReader : RdataReader := { length := 0, fields := [.name] }

/-- MINFO, RP. -/
def twoNamesReader : RdataReader := { length := 0, fields := [.name, .name] }

/-- MX, AFSDB, RT, KX, LP. -/
def prefReader : RdataReader := { length := 3, fields := [.u16, .name] }

/-- The types whose RDATA becomes text fields, TXT and NAPTR apart. -/
def rdataReaders : List (Nat × RdataReader) := [
  (6, { length := 0, fields := [.name, .name, .u32, .u32, .u32, .u32, .u32] }),
  (1, { length := 4, exact := true, fields := [.addr4] }),
  (2, nameReader), (3, nameReader), (4, nameReader), (5, nameReader), (7, nameReader),
  (8, nameReader), (9, nameReader), (12, nameReader), (23, nameReader), (39, nameReader),
  (14, twoNamesReader), (17, twoNamesReader),
  (18, prefReader), (21, prefReader), (36, prefReader), (107, prefReader),
  (26, { length := 4, fields := [.u16, .name, .name] }),
  (33, { length := 7, fields := [.u16, .u16, .u16, .name] }),
  (15, prefReader),
  (28, { length := 16, exact := true, fields := [.addr6] })]

/-- The RDATA of a record as it is kept: text fields, or octets, or both. -/
structure ParsedRdata where
  rdata : List Text := []
  generic : Option (List UInt8) := none

/-- The RDATA of a type with a reader. What lies behind the last field is passed over. -/
def parseTyped (m : Buf) (packetLen p rdlen : Nat) (r : RdataReader) : Option ParsedRdata :=
  if rdlen < r.length ∨ (r.exact ∧ rdlen ≠ r.length) then none
  else (readFields m packetLen (p + rdlen) r.fields p).map fun (ts, _) => { rdata := ts }

/-- NAPTR. A NUL in a character-string cannot live in a text field: the octets are kept, and then
the replacement must be written in full and end the RDATA. -/
def parseNaptr (m : Buf) (packetLen p rdlen : Nat) : Option ParsedRdata :=
  if rdlen < 7 then none
  else do
    let (ts, q) ← readFields m packetLen (p + rdlen) [.u16, .u16, .chars, .chars, .chars] p
    let (replacement, _) ← readField m packetLen (p + rdlen) q .name
    if (ts.drop 2).any (·.contains 0) then
      if fullNameEnd m (p + rdlen) (rdlen + 1) q = some (p + rdlen) then
        some { generic := some (slice m p rdlen) }
      else none
    else some { rdata := ts ++ [replacement] }

/-- The character-strings of TXT up to the end of the RDATA. -/
def txtStrings (m : Buf) (stop : Nat) : Nat → Nat → Option (List Text)
  | 0, _ => none
  | fuel + 1, p =>
    if p ≥ stop then some []
    else
      match readField m 0 stop p .chars with
      | none => none
      | some (t, p') => (txtStrings m stop fuel p').map (t :: ·)

/-- TXT. Strings with a NUL, or more of them than a record has fields, are kept as octets. -/
def parseTxt (m : Buf) (p rdlen : Nat) : Option ParsedRdata :=
  (txtStrings m (p + rdlen) (rdlen + 1) p).map fun ts =>
    if ts.any (·.contains 0) ∨ ts.length > maxRdata then { generic := some (slice m p rdlen) }
    else { rdata := ts }

/-- Any other type: the octets, and the text fields of a DNSSEC record that is well formed. -/
def parseOther (m : Buf) (type p rdlen : Nat) : ParsedRdata :=
  { rdata := (decodeDnssecRdata type (fun i => m (p + i)) rdlen).getD []
    generic := some (slice m p rdlen) }

/-- The RDATA of a record of any type. -/
def parseRdata (m : Buf) (packetLen type p rdlen : Nat) : Option ParsedRdata :=
  match rdataReaders.lookup type with
  | some r => parseTyped m packetLen p rdlen r
  | none =>
    if type = 35 then parseNaptr m packetLen p rdlen
    else if type = 16 then parseTxt m p rdlen
    else some (parseOther m type p rdlen)

/-! ### The record -/

/-- `class_str` of a record read from a message. -/
def parsedClassStr (class_ : Nat) : Text :=
  if class_ = 1 then ascii "IN"
  else if class_ = classKaridnsExt.toNat then ascii "KARIDNS"
  else ascii "CH"

/-- The record with the header fields at `p`, before its cache is filled. -/
def parsedRecord (m : Buf) (owner : Text) (p : Nat) (rd : ParsedRdata) : DnsRecord :=
  let ttl := min (getU32 m (p + 4)) 0x7FFFFFFF
  { name := owner
    ttl := decimal ttl
    classStr := parsedClassStr (getU16 m (p + 2))
    classVal := UInt16.ofNat (getU16 m (p + 2))
    typeCode := UInt16.ofNat (getU16 m p)
    ttlValue := UInt32.ofNat ttl
    rdata := rd.rdata
    generic := rd.generic }

/-- `parse_resource_record`: the record and the offset behind it; the arena has memory enough for
the fields, `alloc` tells about the allocations of the cache. -/
def parseResourceRecord (alloc : Nat → Bool) (m : Buf) (packetLen offset : Nat) :
    Option (DnsRecord × Nat) :=
  match expandWireNameToBuffer m packetLen offset dnsNameTextSize with
  | none => none
  | some (owner, p) =>
    if p + 10 > packetLen then none
    else if p + 10 + getU16 m (p + 8) > packetLen then none
    else
      (parseRdata m packetLen (getU16 m p) (p + 10) (getU16 m (p + 8))).map fun rd =>
        (preparseCache alloc (parsedRecord m owner p rd), p + 10 + getU16 m (p + 8))

/-- A record that was read is one that was put together and then cached. -/
lemma parse_form {alloc : Nat → Bool} {rec : DnsRecord} {m : Buf} {len off next : Nat}
    (h : parseResourceRecord alloc m len off = some (rec, next)) :
    ∃ owner p prd, expandWireNameToBuffer m len off dnsNameTextSize = some (owner, p) ∧
      next = p + 10 + getU16 m (p + 8) ∧
        parseRdata m len (getU16 m p) (p + 10) (getU16 m (p + 8)) = some prd ∧
      rec = preparseCache alloc (parsedRecord m owner p prd) := by
  unfold parseResourceRecord at h
  split at h
  · cases h
  rename_i owner p howner
  split_ifs at h
  obtain ⟨prd, hprd, hpair⟩ := Option.map_eq_some_iff.mp h
  obtain ⟨rfl, rfl⟩ := Prod.mk.inj hpair
  exact ⟨owner, p, prd, howner, rfl, hprd, rfl⟩

end KariDns
