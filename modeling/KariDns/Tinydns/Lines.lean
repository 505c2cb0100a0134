import KariDns.Lib.BitPrefix
import KariDns.Tinydns.Fields

/-! What a line of tinydns data defines (`tinydns_process_line`).

The kind of a line tells the fields it has and the records it defines, in the order in which they
are made. Whether a record is kept is decided later, for each zone that reads the file, and some of
its checks are made only for the zone that keeps it: so a record stands here as its owner and what
making it gives.
-/

namespace KariDns

open Octets DomainName

/-- `parse_error_t`. -/
structure TinyError where
  message : String
  offset : Nat
  length : Nat

/-- A line that is not blank: its first character and its fields. -/
structure TinyLine where
  offset : Nat
  kind : UInt8
  fields : List TinyField

def TinyLine.f (l : TinyLine) (i : Nat) : TinyField := l.fields.getD i {}

variable (s : TinySettings) (l : TinyLine)

/-- An error at the start of the line. -/
def TinyLine.fail {α : Type} (l : TinyLine) (message : String) (length : Nat) :
    Except TinyError α :=
  .error ⟨message, l.offset, length⟩

/-- Something a line defines; `counted` tells whether a record outside of every zone is reported. -/
inductive TinyItem
  | record (owner : Text) (counted : Bool) (make : Except TinyError (Option TinyData))
  | location (make : Except TinyError LocationEntry)

/-- A record that can always be made. -/
def TinyItem.made (owner : Text) (d : TinyData) : TinyItem := .record owner true (.ok (some d))

/-- A PTR record that goes with an address. -/
def TinyItem.ptr (owner : Text) (d : TinyData) : TinyItem := .record owner false (.ok (some d))

/-- What a run of the parser is given besides the file: the serial of an SOA record that has none
(the file's time), and `dns_generic_rdata_check`. -/
structure TinySettings where
  defaultSerial : Nat
  genericRdataCheck : Nat → List UInt8 → Option String

/-! ### Times to live and SOA defaults -/

def ttlNs : Nat := 259200

def ttlPositive : Nat := 86400

def ttlNegative : Nat := 2560

def defaultSoaRefresh : Nat := 16384

def defaultSoaRetry : Nat := 2048

def defaultSoaExpire : Nat := 1048576

def defaultSoaMinimum : Nat := 2560

/-! ### The kinds of lines -/

/-- The name in a field. -/
def TinyLine.fqdn (i : Nat) (message : String) : Except TinyError Text :=
  match tinydnsDecodeFqdn (l.f i).text with
  | some t => .ok t
  | none => l.fail message (l.f i).len

/-- The A record of a name, if the field holds an address. -/
def addressItems (owner : Text) (ip : TinyField) (ttl : Nat) (ts lo : TinyField) : List TinyItem :=
  match tinydnsIp4Scan ip.text with
  | some a => [.made owner { typeCode := 1, ttl, ts, lo, rdata := [inetNtop4 a] }]
  | none => []

/-- `.` and `&`: an NS record, its address, and for `.` an SOA record. -/
def nsItems : Except TinyError (List TinyItem) := do
  let fqdn ← l.fqdn 0 "Invalid FQDN in tinydns record"
  match tinydnsExpandX (l.f 2).text ".ns." fqdn with
  | none => l.fail "Invalid NS target FQDN" (l.f 2).len
  | some x =>
    let ttl := (l.f 3).number ttlNs
    -- a TTL of exactly "0" is that of the SOA record too
    let soaTtl := if (l.f 3).text = [48] then 0 else ttlNegative
    let rname := (tinydnsJoinNames (ascii "hostmaster.") fqdn).getD (ascii "hostmaster.")
    let soa := TinyItem.made fqdn
      { typeCode := 6, ttl := soaTtl, ts := l.f 4, lo := l.f 5
        rdata := [x, rname, decimal s.defaultSerial, decimal defaultSoaRefresh,
          decimal defaultSoaRetry,
          decimal defaultSoaExpire, decimal defaultSoaMinimum] }
    let ns := TinyItem.made fqdn { typeCode := 2, ttl, ts := l.f 4, lo := l.f 5, rdata := [x] }
    return (if l.kind = 46 then [soa] else []) ++ ns :: addressItems x (l.f 1) ttl (l.f 4) (l.f 5)

/-- `+` and `=`: an A record, and for `=` its PTR record. -/
def hostItems : Except TinyError (List TinyItem) := do
  let owner ← l.fqdn 0 "Invalid FQDN in tinydns record"
  let ttl := (l.f 2).number ttlPositive
  match tinydnsIp4Scan (l.f 1).text with
  | none => return []
  | some ip =>
    let ptr :=
      TinyItem.ptr (ipv4PtrName ip)
        { typeCode := 12, ttl, ts := l.f 3, lo := l.f 4, rdata := [owner] }
    return addressItems owner (l.f 1) ttl (l.f 3) (l.f 4) ++ if l.kind = 61 then [ptr] else []

/-- `@`: an MX record and its address. -/
def mxItems : Except TinyError (List TinyItem) := do
  let fqdn ← l.fqdn 0 "Invalid FQDN in tinydns @ record"
  match tinydnsExpandX (l.f 2).text ".mx." fqdn with
  | none => l.fail "Invalid MX target FQDN" (l.f 2).len
  | some x =>
    let ttl := (l.f 4).number ttlPositive
    let mx := TinyItem.made fqdn
      { typeCode := 15, ttl, ts := l.f 5, lo := l.f 6, rdata := [decimal16 ((l.f 3).number 0), x] }
    return mx :: addressItems x (l.f 1) ttl (l.f 5) (l.f 6)

/-- A text in pieces of 127 octets, each as a C string. -/
def chunks127 : Nat → List UInt8 → List Text
  | 0, _ => []
  | fuel + 1, raw => if raw = [] then [] else cstrOf (raw.take 127) :: chunks127 fuel (raw.drop 127)

/-- `'`: a TXT record. -/
def txtItems : Except TinyError (List TinyItem) := do
  let fqdn ← l.fqdn 0 "Invalid FQDN in tinydns TXT record"
  let ttl := (l.f 2).number ttlPositive
  let raw := tinydnsDecodeBytes (l.f 1).text
  let make : Except TinyError (Option TinyData) :=
    if raw.length > maxRdata * 127 then
      l.fail "TXT record data exceeds maximum supported length (6096 bytes)" (l.f 1).len
    else
      .ok (some { typeCode := 16, ttl, ts := l.f 3, lo := l.f 4
                  rdata := if raw = [] then [[]] else chunks127 maxRdata raw })
  return [.record fqdn true make]

/-- `^` and `C`: a PTR or a CNAME record. -/
def targetItems : Except TinyError (List TinyItem) := do
  let fqdn ← l.fqdn 0 "Invalid FQDN in tinydns PTR/CNAME record"
  let target ← l.fqdn 1 "Invalid target FQDN in tinydns PTR/CNAME record"
  let ttl := (l.f 2).number ttlPositive
  let typeCode := if l.kind = 67 then 5 else 12
  return [.made fqdn { typeCode, ttl, ts := l.f 3, lo := l.f 4, rdata := [target] }]

/-- `parse_soa_serial_strict`, with its number for an error. -/
def parseSoaSerialStrict (t : Text) : Except Nat Nat :=
  if t = [] ∨ ¬ t.all isDigit then .error 1
  else if (scanDigits 0 t).1 > 0xFFFFFFFF then .error 2
  else .ok (scanDigits 0 t).1

/-- The serial of a `Z` line. -/
def soaSerial : Except TinyError Nat :=
  if (l.f 3).len = 0 then .ok s.defaultSerial
  else
    match if (l.f 3).len < 64 then parseSoaSerialStrict (l.f 3).text else .error 2 with
    | .ok serial => .ok serial
    | .error e =>
      .error ⟨if e = 2 then "SOA serial out of range (expected 0-4294967295)"
        else "Invalid SOA serial (expected a number 0-4294967295)", (l.f 3).offset, (l.f 3).len⟩

/-- `Z`: an SOA record. -/
def soaItems : Except TinyError (List TinyItem) := do
  let fqdn ← l.fqdn 0 "Invalid FQDN in tinydns Z record"
  match tinydnsDecodeFqdn (l.f 1).text, tinydnsDecodeFqdn (l.f 2).text with
  | some mname, some rname =>
    let serial ← soaSerial s l
    return [.made fqdn
      { typeCode := 6, ttl := (l.f 8).number ttlNegative, ts := l.f 9, lo := l.f 10
        rdata := [mname, rname, decimal serial, decimal ((l.f 4).number defaultSoaRefresh),
          decimal ((l.f 5).number defaultSoaRetry), decimal ((l.f 6).number defaultSoaExpire),
          decimal ((l.f 7).number defaultSoaMinimum)] }]
  | _, _ => l.fail "Invalid mname/rname in tinydns Z record" (l.f 1).len

/-- The types a generic record must not have. -/
def prohibitedType (t : Nat) : Bool := t ∈ [0, 2, 5, 6, 12, 15] || t > 65535 || isMetaRrtype t

/-- `:`: a record of any type, as octets. -/
def genericItems : Except TinyError (List TinyItem) := do
  let fqdn ← l.fqdn 0 "Invalid FQDN in tinydns generic record"
  if (l.f 1).len = 0 then l.fail "Missing type number in tinydns generic record" 1
  else
    let typeNum := (strtoull (l.f 1).rest).1
    if prohibitedType typeNum then
      l.fail "Prohibited or invalid RR type in tinydns generic record" (l.f 1).len
    else
      let ttl := (l.f 3).number ttlPositive
      let raw := tinydnsDecodeBytes (l.f 2).text
      let make : Except TinyError (Option TinyData) :=
        if raw.length > 65535 then l.fail "Generic RDATA exceeds 65535 bytes" (l.f 2).len
        else
          match s.genericRdataCheck typeNum raw with
          | some why => l.fail why (l.f 2).len
          | none =>
            .ok (some
              { typeCode := UInt16.ofNat typeNum, ttl, ts := l.f 4, lo := l.f 5, rdata := [],
                generic := some raw })
      return [.record fqdn true make]

/-- `3` and `6`: an AAAA record, and for `6` its PTR records. -/
def host6Items : Except TinyError (List TinyItem) := do
  let owner ← l.fqdn 0 "Invalid FQDN in tinydns 3/6 record"
  let ttl := (l.f 2).number ttlPositive
  match tinydnsDecodeIpv6Hex32 (l.f 1).text with
  | none => return []
  | some ip6 =>
    let aaaa :=
      TinyItem.made owner
        { typeCode := 28, ttl, ts := l.f 3, lo := l.f 4, rdata := [inetNtop6 ip6] }
    let ptr : TinyData := { typeCode := 12, ttl, ts := l.f 3, lo := l.f 4, rdata := [owner] }
    return aaaa ::
      if l.kind = 54 then
        [.ptr (tinydnsIpv6PtrName ip6 "ip6.arpa") ptr, .ptr (tinydnsIpv6PtrName ip6 "ip6.int") ptr]
      else []

/-- `S`: an SRV record and the address of its target, which comes first. -/
def srvItems : Except TinyError (List TinyItem) := do
  let owner ← l.fqdn 0 "Invalid FQDN in tinydns S record"
  let ttl := (l.f 6).number ttlPositive
  let target ← l.fqdn 2 "Invalid target FQDN in tinydns S record"
  let srv := TinyItem.made owner
    { typeCode := 33, ttl, ts := l.f 7, lo := l.f 8
      rdata := [decimal16 ((l.f 5).number 0), decimal16 ((l.f 4).number 0),
        decimal16 ((l.f 3).number 0), target] }
  return addressItems target (l.f 1) ttl (l.f 7) (l.f 8) ++ [srv]

/-- `N`: a NAPTR record. -/
def naptrItems : Except TinyError (List TinyItem) := do
  let owner ← l.fqdn 0 "Invalid FQDN in tinydns N record"
  let ttl := (l.f 7).number ttlPositive
  let string (i : Nat) : Text := cstrOf (tinydnsDecodeBytes (l.f i).text)
  let make : Except TinyError (Option TinyData) := do
    let replacement ← l.fqdn 6 "Invalid replacement FQDN in tinydns N record"
    return some
      { typeCode := 35, ttl, ts := l.f 8, lo := l.f 9
        rdata := [decimal16 ((l.f 1).number 0), decimal16 ((l.f 2).number 0), string 3, string 4,
          string 5, replacement] }
  return [.record owner true make]

/-- `_`: an SSHFP record, which is left out if the fingerprint cannot be read. -/
def sshfpItems : Except TinyError (List TinyItem) := do
  let owner ← l.fqdn 0 "Invalid FQDN in tinydns _ record"
  let ttl := (l.f 4).number ttlPositive
  let fp := (l.f 3).text
  let make : Option TinyData :=
    if (l.f 3).len > 0 ∧ (hexDecode 64 fp = none ∨ hexDecode 64 fp = some []) then none
    else
      some { typeCode := 44, ttl, ts := l.f 5, lo := l.f 6
             rdata := [decimal16 ((l.f 1).number 0), decimal16 ((l.f 2).number 0), fp] }
  return [.record owner true (.ok make)]

/-! ### Locations -/

/-- Digits as a number that stops growing at `limit`. -/
def cappedNumber (limit : Nat) (digits : Text) : Nat :=
  digits.foldl (fun v c => if v < limit then v * 10 + (c.toNat - 48) else v) 0

/-- Up to `n` octets between dots, and the text behind them. -/
def locationOctets : Nat → Text → List UInt8 × Text
  | 0, t => ([], t)
  | n + 1, t =>
    let digits := t.takeWhile isDigit
    if digits = [] then ([], t)
    else
      let octet := UInt8.ofNat (cappedNumber 1000 digits)
      match t.drop digits.length with
      | 46 :: r => (octet :: (locationOctets n r).1, (locationOctets n r).2)
      | r => ([octet], r)

/-- The length of a prefix: what stands behind a slash, or eight bits for each octet. -/
def locationBits (octets : Nat) : Text → Except TinyError Nat
  | 47 :: r =>
    if r = [] ∨ ¬ r.all isDigit ∨ cappedNumber 33 r > 32 then
      l.fail "Invalid location prefix length (expected /0 to /32)" 1
    else .ok (cappedNumber 33 r)
  | _ => .ok (octets * 8)

/-- An octet of a prefix without the bits behind its length. -/
def networkOctet (octets : List UInt8) (bits i : Nat) : UInt8 :=
  octets.getD i 0 &&& BitPrefix.mask (min 8 (bits - i * 8))

/-- `%`: a location. -/
def locationItem : TinyItem :=
  let (octets, rest) := locationOctets 4 (l.f 1).text
  .location ((locationBits l octets.length rest).map fun bits =>
    { code := ((l.f 0).text.getD 0 0, (l.f 0).text.getD 1 0)
      network :=
        (networkOctet octets bits 0, networkOctet octets bits 1, networkOctet octets bits 2,
          networkOctet octets bits 3)
      bits := UInt8.ofNat bits })

/-- What a line defines, in order (`tinydns_process_line`). -/
def lineItems : Except TinyError (List TinyItem) :=
  if l.kind = 46 ∨ l.kind = 38 then nsItems s l
  else if l.kind = 43 ∨ l.kind = 61 then hostItems l
  else if l.kind = 64 then mxItems l
  else if l.kind = 39 then txtItems l
  else if l.kind = 94 ∨ l.kind = 67 then targetItems l
  else if l.kind = 90 then soaItems s l
  else if l.kind = 58 then genericItems s l
  else if l.kind = 51 ∨ l.kind = 54 then host6Items l
  else if l.kind = 83 then srvItems l
  else if l.kind = 78 then naptrItems l
  else if l.kind = 95 then sshfpItems l
  else if l.kind = 37 then .ok [locationItem l]
  else l.fail "Unknown tinydns record type character" 1

/-! ### The lines of a file -/

/-- What is cut off at the end of a line. -/
def isTrimmed (c : UInt8) : Bool := c == 32 || c == 9 || c == 10 || c == 13

/-- The length of the line a text starts with, without blanks at its end. -/
def trimmedLen (t : Text) : Nat := ((t.takeWhile (· ≠ 10)).reverse.dropWhile isTrimmed).length

/-- The fields of a line from position `j` on; a field that is missing is empty. -/
def fieldsFrom (offset : Nat) (line : Text) (len : Nat) : Nat → Nat → List TinyField
  | 0, _ => []
  | n + 1, j =>
    if j ≥ len then ⟨offset + len, line.drop len, 0⟩ :: fieldsFrom offset line len n j
    else
      let k := (((line.drop j).take (len - j)).takeWhile (· ≠ 58)).length
      ⟨offset + j, line.drop j, k⟩ :: fieldsFrom offset line len n (j + k + 1)

/-- The line a text starts with, unless it is blank, a comment or turned off. -/
def lineAt (offset : Nat) (t : Text) : Option TinyLine :=
  match t with
  | [] => none
  | c :: _ =>
    if trimmedLen t = 0 ∨ c = 35 ∨ c = 45 then none
    else some ⟨offset, c, fieldsFrom offset t (trimmedLen t) 15 1⟩

def linesFrom : Nat → Nat → Text → List TinyLine
  | 0, _, _ => []
  | fuel + 1, offset, t =>
    if t = [] then []
    else
      let len := (t.takeWhile (· ≠ 10)).length
      (lineAt offset t).toList ++ linesFrom fuel (offset + len + 1) (t.drop (len + 1))

/-- The lines of a file. -/
def tinyLines (file : Text) : List TinyLine := linesFrom file.length 0 file

end KariDns
