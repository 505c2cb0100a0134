import KariDns.Query.Resolve

/-! One question asked of two views.

The resolver comes to the zones of a view by searches alone. Where two views find zones that
differ in their data only, the searches end alike, and so does everything that asks no search.
-/

namespace KariDns

open Octets DomainName

variable {σ : Type}

/-- The question, asked of other zones. -/
def Query.on (q : Query) (zones : Text → ZoneFound) : Query := { q with suffixZone := zones }

@[simp] lemma Query.on_first (q : Query)
    (zones : Text → ZoneFound) : (q.on zones).first = q.first := rfl

@[simp] lemma Query.on_more (q : Query) (zones : Text → ZoneFound) : (q.on zones).more = q.more :=
  rfl

@[simp] lemma Query.on_dnssecOk (q : Query)
    (zones : Text → ZoneFound) : (q.on zones).dnssecOk = q.dnssecOk := rfl

/-- The zone with another image. -/
def ZoneEntry.holding (e : ZoneEntry) (image : Option ZoneImage) : ZoneEntry := { e with image }

/-- What two searches find: zones that stand in a relation, or alike nothing. -/
inductive FoundRel (P : ZoneEntry → ZoneEntry → Prop) : ZoneFound → ZoneFound → Prop
  | none : FoundRel P .none .none
  | absent : FoundRel P .absent .absent
  | entry {e e' : ZoneEntry} (h : P e e') : FoundRel P (.entry e) (.entry e')

/-- The zone for a question is found without a look at the data of zones. -/
lemma findZone_rel {P : ZoneEntry → ZoneEntry → Prop}
    (hP : ∀ e e', P e e' → ∃ image, e' = e.holding image) {q : Query} {zones : Text → ZoneFound}
    (h : ∀ t, FoundRel P (q.suffixZone t) (zones t)) (t : Text) (type : UInt16) :
    FoundRel P (q.findZone t type) ((q.on zones).findZone t type) := by
  have ht := h t
  have hp := h (parentText t)
  simp only [Query.findZone, findZoneForQuery, Query.on]
  generalize q.suffixZone t = f, zones t = f' at ht ⊢
  cases ht with
  | none => exact .none
  | absent => exact .absent
  | entry he =>
    obtain ⟨image, rfl⟩ := hP _ _ he
    dsimp only [ZoneEntry.holding]
    split
    · exact .entry he
    generalize q.suffixZone (parentText t) = f, zones (parentText t) = f' at hp ⊢
    cases hp with
    | none => exact .entry he
    | absent => exact .absent
    | entry he' =>
      obtain ⟨image', rfl⟩ := hP _ _ he'
      dsimp only [ZoneEntry.holding]
      split
      · exact .entry he
      · exact .entry he'

/-! ### Further types -/

section Reframe

variable (q : Query) (e : ZoneEntry) (zones : Text → ZoneFound) (image : Option ZoneImage)

lemma furtherWildcard_on (S : Sink σ) (img : ZoneImage) (qname : Text) (type : UInt16) :
    ∀ (parents : List Text) (wc : Option Bool) (r : Resp σ),
      furtherWildcard S (q.on zones) (e.holding image) img qname type parents wc r =
        furtherWildcard S q e img qname type parents wc r
  | [], _, _ => rfl
  | parent :: rest, wc, r => by
    rw [furtherWildcard, furtherWildcard]
    simp only [furtherWildcard_on S img qname type rest]
    rfl

lemma furtherTypes_on (S : Sink σ) (img : ZoneImage) (qname : Text) (key : Option Nat) :
    ∀ (types : List UInt16) (j : Nat) (all wc : Bool) (r : Resp σ),
      furtherTypes S (q.on zones) (e.holding image) img qname key types j all wc r =
        furtherTypes S q e img qname key types j all wc r
  | [], _, _, _, _ => rfl
  | type :: rest, j, all, wc, r => by
    have hone : ∀ r, furtherType S (q.on zones) (e.holding image) img qname key type r =
        furtherType S q e img qname key type r := by
      intro r
      rw [furtherType, furtherType]
      simp only [furtherWildcard_on]
      rfl
    rw [furtherTypes, furtherTypes]
    simp only [hone, furtherTypes_on S img qname key rest]

end Reframe

end KariDns
