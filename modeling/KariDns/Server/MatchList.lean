import KariDns.Net.Cidr

/-! Address match lists (`dns_tsig_acl.c`).

The elements of a list are gone through in order and the first that matches decides, for the
client or against it. A list inside a list matches where it decides for the client. The match
follows at most 33 lists into each other; the parser refuses lists that are deeper, so the bound
does not show.
-/

namespace KariDns

open Octets DomainName

/-- An address as a socket has it: `sin_family` and the octets. -/
structure Addr where
  family : Nat
  octets : List UInt8
  deriving DecidableEq, Repr

/-- `aml_subject_t`: who is asked about. -/
structure Subject where
  addr : Option Addr
  key : Option Text

/-- `aml_iface_t`. -/
structure Iface where
  family : Nat
  addr : List UInt8
  mask : List UInt8

/-- The elements that are no list. -/
inductive AmlKind
  | any
  | none
  | net (net : Cidr)
  | key (name : Text)
  | localhost
  | localnets

/-- `aml_elem_t`, once names are resolved; `neg` for `!`. -/
inductive AmlElem
  | item (neg : Bool) (kind : AmlKind)
  | list (neg : Bool) (elems : List AmlElem)

def AmlElem.neg : AmlElem → Bool
  | .item neg _ => neg
  | .list neg _ => neg

section Match

variable (ifaces : List Iface) (s : Subject)

/-- `aml_iface_match`: the address of an interface, or one of its network. -/
def amlIfaceMatch (nets : Bool) : Bool :=
  match s.addr with
  | none => false
  | some a =>
    ifaces.any fun v =>
      v.family = a.family && (List.range (if a.family = afInet then 4 else 16)).all fun k =>
      let m := if nets then v.mask.getD k 0 else 0xFF
      a.octets.getD k 0 &&& m == v.addr.getD k 0 &&& m

/-- `tsig_key_names_equal`. -/
def tsigKeyNamesEqual (a b : Text) : Bool := domainNamesMatchCi a b

def AmlKind.matches : AmlKind → Bool
  | .any => true
  | .none => false
  | .net c => s.addr.any fun a => cidrEntryMatch c a.family a.octets
  | .key name => s.key.any fun k => tsigKeyNamesEqual k name
  | .localhost => amlIfaceMatch ifaces s false
  | .localnets => amlIfaceMatch ifaces s true

/-- `aml_match_depth`, given how many lists more may be entered: what the first element that
matches says, `none` when none does. -/
def amlMatchDepth : Nat → List AmlElem → Option Bool
  | 0, _ => none
  | levels + 1, elems =>
    elems.findSome? fun e =>
      match e with
      | .item neg kind => if kind.matches ifaces s then some (!neg) else none
      | .list neg l => if amlMatchDepth levels l = some true then some (!neg) else none

/-- `aml_match`; `AML_MAX_DEPTH` is 32. -/
def amlMatch (elems : List AmlElem) : Option Bool := amlMatchDepth ifaces s 33 elems

/-! ### What a list says -/

/-- A list is for the subject where its first element that matches is not negated; a list inside
it matches if it is for the subject. -/
def AmlElem.allows : List AmlElem → Prop
  | [] => False
  | .item neg kind :: rest => (kind.matches ifaces s = true ∧ neg = false) ∨
    (kind.matches ifaces s = false ∧ allows rest)
  | .list neg l :: rest => (allows l ∧ neg = false) ∨ (¬ allows l ∧ allows rest)

/-- How deep lists stand in each other. -/
def AmlElem.depth : List AmlElem → Nat
  | [] => 1
  | .item _ _ :: rest => depth rest
  | .list _ l :: rest => max (depth l + 1) (depth rest)

variable {ifaces s}

lemma AmlElem.depth_pos : ∀ elems : List AmlElem, 1 ≤ AmlElem.depth elems
  | [] => by rw [AmlElem.depth]
  | .item _ _ :: rest => by
    rw [AmlElem.depth]
    exact depth_pos rest
  | .list _ l :: rest => by
    rw [AmlElem.depth]
    have := depth_pos rest
    omega

/-- With levels enough the match gives what the list says. -/
lemma amlMatchDepth_iff : ∀ (levels : Nat) (elems : List AmlElem), AmlElem.depth elems ≤ levels →
    (amlMatchDepth ifaces s levels elems = some true ↔ AmlElem.allows ifaces s elems)
  | 0, elems, h => absurd (AmlElem.depth_pos elems) (by omega)
  | levels + 1, [], _ => by simp [amlMatchDepth, AmlElem.allows]
  | levels + 1, .item neg kind :: rest, h => by
    rw [AmlElem.depth] at h
    have ih := amlMatchDepth_iff (levels + 1) rest h
    rw [amlMatchDepth] at ih
    rw [amlMatchDepth, AmlElem.allows, List.findSome?_cons, ← ih]
    cases neg <;> by_cases hm : kind.matches ifaces s = true <;> simp [hm]
  | levels + 1, .list neg l :: rest, h => by
    rw [AmlElem.depth] at h
    have hl := amlMatchDepth_iff levels l (by omega)
    have ih := amlMatchDepth_iff (levels + 1) rest (by omega)
    rw [amlMatchDepth] at ih
    rw [amlMatchDepth, AmlElem.allows, List.findSome?_cons, ← ih, ← hl]
    cases neg <;> by_cases hm : amlMatchDepth ifaces s levels l = some true <;> simp [hm]

end Match

/-- `aml_t`: a list that the parser took. -/
structure Aml where
  elems : List AmlElem
  depth_le : AmlElem.depth elems ≤ 32

/-- The list is for the subject. -/
def Aml.Allows (ifaces : List Iface) (l : Aml) (s : Subject) : Prop :=
  AmlElem.allows ifaces s l.elems

lemma amlMatch_iff (ifaces : List Iface) (l : Aml) (s : Subject) :
    amlMatch ifaces s l.elems = some true ↔ l.Allows ifaces s :=
  amlMatchDepth_iff 33 l.elems (by have := l.depth_le; omega)

/-! ### Keys that a list names -/

section Keys

variable (key : Text)

/-- `aml_key_listed_d`, given how many lists more may be entered; `neg` inside an odd number of
negations. -/
def amlKeyListedDepth : Nat → Bool → List AmlElem → Bool
  | 0, _, _ => false
  | levels + 1, neg, elems =>
    elems.any fun e =>
      match e with
      | .item n (.key name) => neg == n && tsigKeyNamesEqual key name
      | .item _ _ => false
      | .list n l => amlKeyListedDepth levels (neg != n) l

/-- `aml_key_listed`. -/
def amlKeyListed (elems : List AmlElem) : Bool := amlKeyListedDepth key 33 false elems

/-- The key is named inside an even number of negations, those of `neg` included. -/
def AmlElem.names : Bool → List AmlElem → Prop
  | _, [] => False
  | neg, .item n kind :: rest =>
    (neg = n ∧ ∃ name, kind = .key name ∧ tsigKeyNamesEqual key name = true) ∨ names neg rest
  | neg, .list n l :: rest => names (neg != n) l ∨ names neg rest

/-- The subject matches no element of the list and of the lists in it but keys. -/
def AmlElem.OnlyKeys (ifaces : List Iface) (s : Subject) : List AmlElem → Prop
  | [] => True
  | .item _ kind :: rest => ((∃ name, kind = .key name) ∨ kind.matches ifaces s = false) ∧
    OnlyKeys ifaces s rest
  | .list _ l :: rest => OnlyKeys ifaces s l ∧ OnlyKeys ifaces s rest

def AmlKind.isAny : AmlKind → Bool
  | .any => true
  | _ => false

/-- An `any` stands in the list or in one inside it. -/
def AmlElem.hasAny : List AmlElem → Bool
  | [] => false
  | .item _ kind :: rest => kind.isAny || hasAny rest
  | .list _ l :: rest => hasAny l || hasAny rest

/-- The first element that names the key, or is a list of which the same is true, is not negated. -/
def AmlElem.namesFirst : List AmlElem → Bool
  | [] => false
  | .item neg (.key name) :: rest => if tsigKeyNamesEqual key name then !neg else namesFirst rest
  | .item _ _ :: rest => namesFirst rest
  | .list neg l :: rest => if namesFirst l then !neg else namesFirst rest

variable {key}

lemma amlKeyListedDepth_iff :
    ∀ (levels : Nat) (neg : Bool) (elems : List AmlElem), AmlElem.depth elems ≤ levels →
    (amlKeyListedDepth key levels neg elems = true ↔ AmlElem.names key neg elems)
  | 0, _, elems, h => absurd (AmlElem.depth_pos elems) (by omega)
  | levels + 1, neg, [], _ => by simp [amlKeyListedDepth, AmlElem.names]
  | levels + 1, neg, .item n kind :: rest, h => by
    rw [AmlElem.depth] at h
    have ih := amlKeyListedDepth_iff (levels + 1) neg rest h
    rw [amlKeyListedDepth] at ih
    rw [amlKeyListedDepth, AmlElem.names, List.any_cons, Bool.or_eq_true, ih]
    cases kind <;> simp
  | levels + 1, neg, .list n l :: rest, h => by
    rw [AmlElem.depth] at h
    have hl := amlKeyListedDepth_iff levels (neg != n) l (by omega)
    have ih := amlKeyListedDepth_iff (levels + 1) neg rest (by omega)
    rw [amlKeyListedDepth] at ih
    rw [amlKeyListedDepth, AmlElem.names, List.any_cons, Bool.or_eq_true, ih, ← hl]

/-- A subject that matches keys only is judged by where the list names its key. -/
lemma AmlElem.OnlyKeys.allows_iff {ifaces : List Iface} {s : Subject} (hkey : s.key = some key) :
    ∀ {elems : List AmlElem}, AmlElem.OnlyKeys ifaces s elems → AmlElem.hasAny elems = false ∧
      (AmlElem.allows ifaces s elems ↔ AmlElem.namesFirst key elems = true)
  | [], _ => by simp [AmlElem.hasAny, AmlElem.allows, AmlElem.namesFirst]
  | .item neg kind :: rest, h => by
    rw [AmlElem.OnlyKeys] at h
    obtain ⟨hrest, hiff⟩ := AmlElem.OnlyKeys.allows_iff hkey h.2
    rcases h.1 with ⟨name, rfl⟩ | hm
    · rw [AmlElem.hasAny, hrest, AmlElem.allows, AmlElem.namesFirst, hiff, AmlKind.matches, hkey,
        Option.any_some]
      cases tsigKeyNamesEqual key name <;> simp [AmlKind.isAny]
    · rw [AmlElem.hasAny, hrest, AmlElem.allows, hm, hiff]
      cases kind <;> simp_all [AmlKind.matches, AmlKind.isAny, AmlElem.namesFirst]
  | .list neg l :: rest, h => by
    rw [AmlElem.OnlyKeys] at h
    obtain ⟨hl, hiff⟩ := AmlElem.OnlyKeys.allows_iff hkey h.1
    obtain ⟨hrest, hiff'⟩ := AmlElem.OnlyKeys.allows_iff hkey h.2
    rw [AmlElem.hasAny, hl, hrest, AmlElem.allows, AmlElem.namesFirst, hiff, hiff']
    cases AmlElem.namesFirst key l <;> simp

/-- Without an address, and where there are no interfaces, only `any` matches besides keys. -/
lemma AmlElem.onlyKeys_of_hasAny : ∀ {elems : List AmlElem}, AmlElem.hasAny elems = false →
    AmlElem.OnlyKeys [] ⟨none, some key⟩ elems
  | [], _ => by rw [AmlElem.OnlyKeys]; trivial
  | .item neg kind :: rest, h => by
    rw [AmlElem.hasAny, Bool.or_eq_false_iff] at h
    rw [AmlElem.OnlyKeys]
    refine ⟨?_, onlyKeys_of_hasAny h.2⟩
    cases kind with
    | key name => exact .inl ⟨name, rfl⟩
    | any => exact absurd h.1 (by decide)
    | _ => exact .inr rfl
  | .list neg l :: rest, h => by
    rw [AmlElem.hasAny, Bool.or_eq_false_iff] at h
    rw [AmlElem.OnlyKeys]
    exact ⟨onlyKeys_of_hasAny h.1, onlyKeys_of_hasAny h.2⟩

end Keys

/-- What is listed is matched: a request with a listed key that matches no address element. -/
def Aml.ListedMatch (l : Aml) (key : Text) : Prop :=
  amlKeyListed key l.elems = true → ∀ ifaces s, s.key = some key →
    AmlElem.OnlyKeys ifaces s l.elems →
    amlMatch ifaces s l.elems = some true

end KariDns
