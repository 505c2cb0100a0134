import KariDns.Image.FileOrder
import KariDns.Server.ZoneIndex

/-! The members of a catalog zone (`catalog_process_membership`).

A catalog zone lists zones to serve: a PTR record one label below `zones.<catalog>` names a member,
and names below that label hold its properties. The list of members is built from the image of the
catalog and handed on; a catalog that does not pass the checks changes nothing.
-/

namespace KariDns

open Octets DomainName

/-- `catalog_member_id_t`. -/
structure CatalogMemberId where
  uniqueId : Text
  domain : Text
  groups : List Text
  cooTarget : Text
  deriving DecidableEq

/-- A text printed into a buffer of `cap` octets. -/
def printed (cap : Nat) (t : Text) : Text := t.take (cap - 1)

/-- The final dot is added if there is none. -/
def dotted (t : Text) : Text := if t ≠ [] ∧ dnsNameLenNoRoot t = t.length then t ++ [46] else t

/-- `normalize_domain_fqdn_local` into a buffer of `cap` octets. -/
def normalizeDomainFqdnLocal (cap : Nat) (t : Text) : Option Text :=
  if (dotted t).length + 1 > cap then none else some (dotted t)

/-- `catalog_prefix_is_single_label`, of the text in front of the dot. -/
def catalogPrefixIsSingleLabel (front : Text) : Bool :=
  front ≠ [] && !dnsCharIsEscaped front && (afterDot front).isNone

/-- `catalog_txt_first`: the first character-string as a C string. -/
def catalogTxtFirst (cap : Nat) (rr : ImageRr) : Option Text :=
  match rr.rdata with
  | [] => none
  | n :: rest =>
    if n.toNat > rest.length ∨ n.toNat + 1 > cap then none
    else some ((rest.take n.toNat).takeWhile (· ≠ 0))

/-- The text in front of `suffix`, if it is one label. -/
def memberLabel (suffix name : Text) : Option Text :=
  let front := name.take (name.length - suffix.length)
  if name.length > suffix.length ∧ strcaseeq (name.drop (name.length - suffix.length)) suffix ∧
      catalogPrefixIsSingleLabel front then some front
  else none

/-- Some version record starts with the string `2`. -/
def catalogVersionFound (img : ZoneImage) (domain : Text) : Bool :=
  (img.rrsOf (printed 256 (ascii "version." ++ domain)) 16).any fun rr =>
    catalogTxtFirst 8 rr = some (ascii "2")

/-- The configuration and the name of the view that a catalog is processed for. -/
structure CatalogView where
  cfg : ServerViews
  viewName : Text

def CatalogView.configured (v : CatalogView) (t : Text) : Bool :=
  findZoneConfigInView v.cfg v.viewName t

/-- What the first loop takes from a record: the label of a member node and the member. -/
def catalogCandidate (v : CatalogView) (suffix : Text) (r : Text × ImageRr) :
    Option (Text × Text) :=
  if r.2.type ≠ 12 then none
  else do
    let front ← memberLabel suffix r.1
    let target ← rrTarget r.2
    let member ← normalizeDomainFqdnLocal 256 target
    if v.configured member ∨ front.length ≥ 256 then none else some (front, member)

/-- The groups of a member, sorted by `strcmp`. -/
def catalogGroups (img : ZoneImage) (domain label : Text) : List Text :=
  ((img.rrsOf (printed 512 (ascii "group." ++ label ++ ascii ".zones." ++ domain)) 16).filterMap
    (catalogTxtFirst 256)).insertionSort
    fun s t => strcmp s t ≠ .gt

/-- The text of a `coo` target, as it is kept. -/
def catalogCooText (target : Option Text) : Text :=
  (normalizeDomainFqdnLocal 256 (printed 256 (target.getD []))).getD []

/-- A member with its properties; `none` for more than one `coo` record. -/
def catalogMember (img : ZoneImage) (domain : Text) (c : Text × Text) : Option CatalogMemberId :=
  match img.rrsOf (printed 512 (ascii "coo." ++ c.1 ++ ascii ".zones." ++ domain)) 12 with
  | [] => some ⟨c.1, c.2, catalogGroups img domain c.1, []⟩
  | [rr] => some ⟨c.1, c.2, catalogGroups img domain c.1, catalogCooText (rrTarget rr)⟩
  | _ => none

/-- `catalog_process_membership`: the list of members that is handed on, `none` if nothing is. -/
def catalogProcessMembership (img : ZoneImage) (v : CatalogView) (domain : Text) :
    Option (List CatalogMemberId) :=
  if ¬ catalogVersionFound img domain then none
  else
    let suffix := printed 256 (ascii ".zones." ++ domain)
    let desired := img.fileRrs.filterMap (catalogCandidate v suffix)
    if img.fileRrs.any fun r => r.2.type = 12 && (memberLabel suffix r.1).isSome &&
      decide ((img.rrsOf r.1 12).length > 1) then
      none
    else if ¬ desired.Pairwise fun a b => strcaseeq a.2 b.2 = false then none
    else desired.mapM (catalogMember img domain)

end KariDns
