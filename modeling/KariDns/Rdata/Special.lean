import KariDns.Rdata.Fields

/-! RDATA with a grammar of its own.

Address prefix lists (RFC 3123), well-known services (RFC 1035), ATM addresses, host identity
(RFC 8005) and service bindings (RFC 9460) in presentation form, each as the octets the record
writer stores or `none` where it gives up.
-/

namespace KariDns

open Octets DomainName

/-! ### APL -/

/-- An address without its trailing zero octets. -/
def trimZeros (a : List UInt8) : List UInt8 := (a.reverse.dropWhile (· == 0)).reverse

/-- One `[!]afi:address/prefix` item; the source works on a copy of at most 299 octets. -/
def aplItem (s : Text) : Option (List UInt8) := do
  let s := s.take 299
  let negate := s.head? = some 33
  let (afiText, rest) := splitAt 58 (if negate then s.tail else s)
  let afi ← parseU16 afiText
  let (addrText, prefixText) := splitAt 47 (← rest)
  let plen ← parseU8 (← prefixText)
  let addr ←
    if afi = 1 then if plen > 32 then none else inetPton4 addrText
    else if afi = 2 then if plen > 128 then none else inetPton6 addrText
    else none
  let addr := trimZeros addr
  return be16 afi ++
    [UInt8.ofNat plen, UInt8.ofNat ((if negate then 0x80 else 0) + addr.length)] ++ addr

/-! ### WKS -/

/-- `wks_services`: name, port and protocol, protocol 0 for TCP and UDP alike. -/
def wksServices : List (String × Nat × Nat) := [
  ("tcpmux", 1, 0), ("echo", 7, 0), ("discard", 9, 0), ("systat", 11, 0), ("daytime", 13, 0),
  ("netstat", 15, 0), ("qotd", 17, 0), ("chargen", 19, 0), ("ftp-data", 20, 0), ("ftp", 21, 0),
  ("ssh", 22, 0), ("telnet", 23, 0), ("smtp", 25, 0), ("time", 37, 0), ("rlp", 39, 0),
  ("nameserver", 42, 0), ("whois", 43, 0), ("nicname", 43, 0), ("tacacs", 49, 0),
  ("domain", 53, 0), ("bootps", 67, 0), ("bootpc", 68, 0), ("tftp", 69, 0), ("gopher", 70, 0),
  ("finger", 79, 0), ("http", 80, 0), ("www", 80, 0), ("kerberos", 88, 0), ("supdup", 95, 0),
  ("hostname", 101, 0), ("iso-tsap", 102, 0), ("csnet-ns", 105, 0), ("rtelnet", 107, 0),
  ("pop2", 109, 0), ("pop3", 110, 0), ("sunrpc", 111, 0), ("auth", 113, 0), ("sftp", 115, 0),
  ("uucp-path", 117, 0), ("nntp", 119, 0), ("ntp", 123, 0), ("netbios-ns", 137, 0),
  ("netbios-dgm", 138, 0), ("netbios-ssn", 139, 0), ("imap", 143, 0), ("snmp", 161, 0),
  ("snmp-trap", 162, 0), ("bgp", 179, 0), ("irc", 194, 0), ("ldap", 389, 0), ("https", 443, 0),
  ("submissions", 465, 0), ("exec", 512, 6), ("biff", 512, 17), ("login", 513, 6),
  ("who", 513, 17), ("shell", 514, 6), ("syslog", 514, 17), ("printer", 515, 0),
  ("talk", 517, 0), ("ntalk", 518, 0), ("route", 520, 0), ("timed", 525, 0), ("uucp", 540, 0),
  ("klogin", 543, 0), ("kshell", 544, 0), ("submission", 587, 0), ("ldaps", 636, 0),
  ("rsync", 873, 0), ("ftps-data", 989, 0), ("ftps", 990, 0), ("telnets", 992, 0),
  ("imaps", 993, 0), ("pop3s", 995, 0)]

/-- `dns_wks_protocol_from_text`. -/
def wksProtocolFromText (s : Text) : Option Nat :=
  if strcaseeq s (ascii "TCP") then some 6
  else if strcaseeq s (ascii "UDP") then some 17
  else parseU8 s

/-- `dns_wks_port_from_text`. -/
def wksPortFromText (proto : Nat) (s : Text) : Option Nat :=
  match parseU16 s with
  | some p => some p
  | none =>
    (wksServices.find? fun (name, _, p) =>
      (if p = 0 then proto == 6 || proto == 17 else p == proto) && strcaseeq (ascii name) s).map
      fun (_, port, _) => port

/-- Address, protocol and port bitmap. -/
def wksWire (addr proto : Text) (ports : List Text) : Option (List UInt8 × List UInt8) := do
  let a ← inetPton4 addr
  let p ← wksProtocolFromText proto
  let bits ← ports.mapM (wksPortFromText p)
  return (a ++ [UInt8.ofNat p], bitmapOctets bits)

/-! ### ATMA -/

/-- The loop over an ATM address: digits for E.164, hexadecimal for AESA, single dots between. -/
def atmaLoop (e164 : Bool) : Bool → Option Nat → Text → Option (List UInt8)
  | lastPeriod, hi, [] => if lastPeriod ∨ hi.isSome then none else some []
  | lastPeriod, hi, c :: t =>
    if c = 46 then if lastPeriod then none else atmaLoop e164 true hi t
    else if e164 then
      if isDigit c then (atmaLoop e164 false hi t).map (c :: ·) else none
    else
      match hexCharToVal c, hi with
      | none, _ => none
      | some v, none => atmaLoop e164 false (some v) t
      | some v, some h => (atmaLoop e164 false none t).map (UInt8.ofNat (h * 16 + v) :: ·)

/-- Format octet and address. -/
def atmaWire (s : Text) : Option (List UInt8) :=
  if s.head? = some 43 then (atmaLoop true true none s.tail).map (1 :: ·)
  else (atmaLoop false true none s).map (0 :: ·)

/-! ### HIP -/

/-- The base64 fields of the public key: up to a field with a dot or behind one that ends in
padding. -/
def hipKey : Text → List Text → Option (Text × List Text)
  | acc, [] => some (acc, [])
  | acc, t :: ts =>
    if 46 ∈ t then some (acc, t :: ts)
    else if acc.length + t.length ≥ 4096 then none
    else if t.getLast? = some 61 then some (acc ++ t, ts)
    else hipKey (acc ++ t) ts

/-! ### SVCB and HTTPS -/

/-- The pieces between commas; nothing follows a final comma. -/
def commaPieces (t : Text) : List Text :=
  let ps := splitOn 44 t
  if ps.getLast? = some [] then ps.dropLast else ps

/-- A text without the quotes around it. -/
def unquote (t : Text) : Text :=
  if t.length ≥ 2 ∧ t.head? = some 34 ∧ t.getLast? = some 34 then t.tail.dropLast else t

/-- The service parameter keys with a name, `mandatory` apart. -/
def svcKeyNames : List (String × Nat) :=
  [("alpn", 1), ("no-default-alpn", 2), ("port", 3), ("ipv4hint", 4), ("ech", 5), ("ipv6hint", 6)]

/-- The key a name denotes, `some none` for a name that is skipped. -/
def svcKey (t : Text) : Option (Option Nat) :=
  if strcaseeq t (ascii "mandatory") then some (some 0)
  else
    match svcKeyNames.find? fun e => strcaseeq t (ascii e.1) with
    | some e => some (some e.2)
    | none =>
      if strncaseeq t (ascii "key") 3 then
        let (v, rest) := strtol (t.drop 3)
        if rest ≠ [] ∨ v < 0 ∨ v > 65535 then none else some (some v.toNat)
      else some none

/-- A key in the value of `mandatory`. -/
def mandatoryKey (t : Text) : Option Nat :=
  if t.length ≥ 64 then none
  else
    match svcKeyNames.find? fun e => strcaseeq t (ascii e.1) with
    | some e => some e.2
    | none =>
      if strncaseeq t (ascii "key") 3 then
        let (v, rest) := strtol (t.drop 3)
        if rest ≠ [] ∨ v ≤ 0 ∨ v ≥ 65535 then none else some v.toNat
      else none

/-- The value of `mandatory`: at most 64 different keys. -/
def mandatoryKeys (v : Text) : Option (List Nat) := do
  let ks ← (commaPieces v).mapM mandatoryKey
  if ks.length > 64 ∨ ¬ ks.Nodup then none else some ks

/-- The wire form of the `alpn` value. -/
def alpnWire (v : Text) : Option (List UInt8) := do
  let ids := (commaPieces (unquote v)).map unquote
  if ids.any fun i => i.length > 255 then none
  let bs := ids.flatMap fun i => UInt8.ofNat i.length :: i
  if bs.length > 4096 then none else some bs

/-- The wire form of an address hint. -/
def hintWire (pton : Text → Option (List UInt8)) (v : Text) : Option (List UInt8) := do
  let addrs ← (commaPieces v).mapM fun p => if p.length ≥ 64 then none else pton p
  if addrs.flatten.length > 4096 then none else some addrs.flatten

/-- The wire form of the `ech` value. -/
def echWire (v : Text) : Option (List UInt8) := do
  if v.length = 0 ∨ v.length % 4 ≠ 0 ∨ (v.length + 3) / 4 * 3 > 4096 then none
  let bs ← evpDecodeBlock v
  if bs.length < base64Padding v then none else some (bs.take (bs.length - base64Padding v))

/-- The wire form of one value. -/
def svcValue (key : Nat) (v : Text) : Option (List UInt8) :=
  if key = 0 then (mandatoryKeys v).map fun ks => (ks.insertionSort (· ≤ ·)).flatMap be16
  else if key = 1 then alpnWire v
  else if key = 3 then (parseU16 v).map be16
  else if key = 4 then hintWire inetPton4 v
  else if key = 6 then hintWire inetPton6 v
  else if key = 5 then echWire v
  else if (unquote v).length > 4096 then none
  else some (unquote v)

/-- What the loop over the parameters has collected. -/
structure SvcState where
  params : List (Nat × List UInt8) := []
  mandatory : Option (List Nat) := none

/-- One turn of the loop over the parameters. -/
def svcStep (st : SvcState) (param : Text) : Option SvcState := do
  let (keyText, value) := splitAt 61 param
  let value := value.map unquote
  if value.any fun v => v.length ≥ 4096 ∧ (splitAt 61 param).2 ≠ some v then none
  match ← svcKey (keyText.take 63) with
  | none => some st
  | some key =>
    if key = 65535 ∨ st.params.length ≥ 64 ∨ key ∈ st.params.map Prod.fst then none
    let bs ←
      match value with
      | none => some []
      | some v => svcValue key v
    if (st.params.flatMap Prod.snd).length + bs.length > 8192 then none
    let mandatory ←
      match value with
      | some v => if key = 0 then (mandatoryKeys v).map some else some st.mandatory
      | none => some st.mandatory
    return { params := st.params ++ [(key, bs)], mandatory := mandatory }

/-- The parameters in increasing order of their keys; every key that `mandatory` lists is
there (RFC 9460 8). -/
def svcParams (rdata : List Text) : Option (List (Nat × List UInt8)) := do
  let st ← rdata.foldlM svcStep {}
  if (st.mandatory.getD []).any fun k => k ∉ st.params.map Prod.fst then none
  return st.params.insertionSort fun a b => a.1 ≤ b.1

end KariDns
