import KariDns.Libc
import KariDns.Wire.Script

/-! Comparing names in text form (`dns_utils.h`, `dns_utils.c`).

Inside the server a name is a C string in the form `nameText` gives it, in any mixture of
upper and lower case. Equality ignores case and a final dot, the hash agrees with it, and
`compareCanonicalName` is the order of RFC 4034 6.1.
-/

namespace KariDns

open Octets DomainName

/-- `dns_char_is_escaped`: an odd number of backslashes stands before the position; `s` is the
text before it. -/
def dnsCharIsEscaped (s : Text) : Bool := (s.reverse.takeWhile (· == 92)).length % 2 == 1

/-- `dns_name_len_no_root`: the length without a final dot that is not escaped. -/
def dnsNameLenNoRoot (t : Text) : Nat :=
  if t.getLast? = some 46 ∧ ¬ dnsCharIsEscaped t.dropLast then t.length - 1 else t.length

/-- `domain_names_match_ci`. -/
def domainNamesMatchCi (a b : Text) : Bool :=
  strcaseeq a b ||
    (dnsNameLenNoRoot a == dnsNameLenNoRoot b && strncaseeq a b (dnsNameLenNoRoot a))

/-- FNV-1a over text with letters in lower case. -/
def fnv1aText (t : Text) : UInt32 :=
  t.foldl (fun h c => (h ^^^ (lower c).toUInt32) * 16777619) 2166136261

/-- `dns_name_hash_ci`. -/
def dnsNameHashCi (t : Text) : UInt32 := fnv1aText (t.take (dnsNameLenNoRoot t))

/-- `calc_fnv1a_str`, which hashes a final dot too. -/
def calcFnv1aStr (t : Text) : UInt32 := fnv1aText t

/-- `strchr_unescaped (s, '.')`: the text behind the first dot that is not escaped. -/
def afterDot : Text → Option Text
  | [] => none
  | [c] => if c = 46 then some [] else none
  | c :: d :: rest =>
    if c = 92 then afterDot rest
    else if c = 46 then some (d :: rest)
    else afterDot (d :: rest)

/-- The names above a name, up to the last one that is not empty (`strchr_unescaped` again and
again). -/
def ancestorsFrom : Nat → Text → List Text
  | 0, _ => []
  | fuel + 1, t =>
    match afterDot t with
    | none => []
    | some [] => []
    | some parent => parent :: ancestorsFrom fuel parent

def ancestors (t : Text) : List Text := ancestorsFrom t.length t

/-- `domain_name_is_at_or_below`. -/
def domainNameIsAtOrBelow (name apex : Text) : Bool :=
  let nl := dnsNameLenNoRoot name
  let al := dnsNameLenNoRoot apex
  if al = 0 then true
  else if nl < al ∨ ¬ strncaseeq (name.drop (nl - al)) apex al then false
  else if nl = al then true
  else name.getD (nl - al - 1) 0 == 46 && !dnsCharIsEscaped (name.take (nl - al - 1))

/-! ### Canonical order -/

/-- Labels as left-justified octet strings, letters in lower case. -/
def compareLabel : Label → Label → Ordering
  | [], [] => .eq
  | [], _ :: _ => .lt
  | _ :: _, [] => .gt
  | a :: as, b :: bs => (compare (lower a).toNat (lower b).toNat).then (compareLabel as bs)

/-- Names by their labels, the one next to the root first. -/
def compareLabels : List Label → List Label → Ordering
  | [], [] => .eq
  | [], _ :: _ => .lt
  | _ :: _, [] => .gt
  | a :: as, b :: bs => (compareLabel a b).then (compareLabels as bs)

/-- The labels of a text without escapes, from the right; one final dot does not count, nor
does an empty label at the very front. -/
def plainLabels (t : Text) : List Label :=
  let t := if t.getLast? = some 46 then t.dropLast else t
  match splitOn 46 t with
  | [] :: rest => rest.reverse
  | labels => labels.reverse

/-- `strcmp`. -/
def strcmp : Text → Text → Ordering
  | [], [] => .eq
  | [], _ :: _ => .lt
  | _ :: _, [] => .gt
  | a :: as, b :: bs => (compare a.toNat b.toNat).then (strcmp as bs)

/-- `compare_canonical_name`: without escapes on the text itself, else on the wire form; names
that cannot be encoded come last. -/
def compareCanonicalName (s t : Text) : Ordering :=
  if (strchr 92 s).isNone && (strchr 92 t).isNone then compareLabels (plainLabels s) (plainLabels t)
  else
    match readName s, readName t with
    | some m, some n => compareLabels m.reverse n.reverse
    | none, none => strcmp s t
    | none, some _ => .gt
    | some _, none => .lt

end KariDns
