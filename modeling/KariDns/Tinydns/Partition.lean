import KariDns.Tinydns.Lines
import KariDns.Tinydns.Owned

/-! Reading a tinydns data file for the zones of a view (`parse_tinydns_data`).

Each zone reads the file on its own and keeps the records whose home it is. So the zones share the
records among them: every record whose owner is at or below some zone is kept by exactly one, and
the runs over all zones together give each of them once.
-/

namespace KariDns

open Octets DomainName List

/-! ### A run -/

/-- What a run leaves: the records and locations in `zone_arena_t`, and how many records were
outside of every zone, with the owner of the first. -/
structure TinyArena where
  records : List DnsRecord := []
  locations : List LocationEntry := []
  outOfZoneCount : Nat := 0
  firstOutOfZone : Option Text := none

def maxLocations : Nat := 4096

/-- A record is made if the zone owns it. -/
def takeItem (ctx : TinyContext) (a : TinyArena) : TinyItem → Except TinyError TinyArena
  | .record owner counted make =>
    let (owned, orphan) := tinydnsOwned ctx owner counted
    if owned then
      make.map fun
        | some d => { a with records := a.records ++ [tinydnsNewRecord owner d] }
        | none => a
    else if orphan then
      .ok { a with
        outOfZoneCount := a.outOfZoneCount + 1
        firstOutOfZone := if a.outOfZoneCount = 0 then some owner else a.firstOutOfZone }
    else .ok a
  | .location make =>
    if a.locations.length ≥ maxLocations then .ok a
    else make.map fun loc => { a with locations := a.locations ++ [loc] }

def takeLine (s : TinySettings) (ctx : TinyContext) (a : TinyArena)
    (l : TinyLine) : Except TinyError TinyArena := do
  let items ← lineItems s l
  items.foldlM (takeItem ctx) a

/-- `parse_tinydns_data`. -/
def parseTinydnsData (s : TinySettings) (ctx : TinyContext)
    (file : Text) : Except TinyError TinyArena := do
  let a ← (tinyLines file).foldlM (takeLine s ctx) {}
  return { a with records := a.records.map (preparseCache fun _ => true) }

/-! ### What a file defines -/

/-- The record an item defines, if it can be made. -/
def TinyItem.defined : TinyItem → Option DnsRecord
  | .record owner _ (.ok (some d)) => some (tinydnsNewRecord owner d)
  | _ => none

/-- The records a line defines. -/
def lineRecords (s : TinySettings) (l : TinyLine) : List DnsRecord :=
  match lineItems s l with
  | .ok items => items.filterMap TinyItem.defined
  | .error _ => []

/-- The records a file defines, in order. -/
def definedRecords (s : TinySettings) (file : Text) : List DnsRecord :=
  ((tinyLines file).flatMap (lineRecords s)).map (preparseCache fun _ => true)

/-- Nothing on the line is wrong. -/
def TinyItem.Ok : TinyItem → Prop
  | .record _ _ make => ∃ d, make = .ok d
  | .location make => ∃ loc, make = .ok loc

/-- Every line of the file is of a known kind, and all it defines can be made. -/
def WellFormed (s : TinySettings) (file : Text) : Prop :=
  ∀ l ∈ tinyLines file, ∃ items, lineItems s l = .ok items ∧ ∀ item ∈ items, item.Ok

/-! ### What a run keeps -/

section Runs

variable {ctx : TinyContext} {keeps : Text → Bool}
    (howned : ∀ owner counted, (tinydnsOwned ctx owner counted).1 = keeps owner)
include howned

lemma takeItem_records {a a' : TinyArena} {item : TinyItem} (h : takeItem ctx a item = .ok a') :
    a'.records = a.records ++ item.defined.toList.filter (keeps ·.name) := by
  cases item with
  | record owner counted make =>
    have hown := howned owner counted
    simp only [takeItem] at h
    by_cases hkeep : keeps owner = true
    · rw [if_pos (hown.trans hkeep)] at h
      cases make with
      | error e => cases h
      | ok d =>
        cases d with
        | none =>
          cases h
          simp [TinyItem.defined]
        | some d =>
          cases h
          have hname : keeps (tinydnsNewRecord owner d).name = true := hkeep
          simp [TinyItem.defined, hname]
    rw [if_neg (by rw [hown]; exact hkeep)] at h
    have hsame : a'.records = a.records := by
      split at h <;> cases h <;> rfl
    rw [hsame, filter_eq_nil_iff.mpr, append_nil]
    intro r hr
    cases make with
    | error e => simp [TinyItem.defined] at hr
    | ok d =>
      cases d with
      | none => simp [TinyItem.defined] at hr
      | some d =>
        obtain rfl : r = tinydnsNewRecord owner d := by simpa [TinyItem.defined, eq_comm] using hr
        exact hkeep
  | location make =>
    have hsame : a'.records = a.records := by
      simp only [takeItem] at h
      split at h
      · cases h
        rfl
      cases make with
      | error e => cases h
      | ok loc =>
        cases h
        rfl
    simp [hsame, TinyItem.defined]

lemma takeItems_records : ∀ {items : List TinyItem} {a a' : TinyArena}, items.foldlM
    (takeItem ctx) a = .ok a' →
    a'.records = a.records ++ (items.filterMap TinyItem.defined).filter (keeps ·.name)
  | [], a, a', h => by
    cases h
    simp
  | item :: items, a, a', h => by
    rw [foldlM_cons] at h
    cases hitem : takeItem ctx a item with
    | error e =>
      rw [hitem] at h
      cases h
    | ok b =>
      rw [hitem] at h
      rw [takeItems_records h, takeItem_records howned hitem, append_assoc, filterMap_cons]
      cases item.defined <;> simp [filter_cons]
      split <;> simp

lemma takeLines_records (s : TinySettings) : ∀ {lines : List TinyLine} {a a' : TinyArena},
    lines.foldlM (takeLine s ctx) a = .ok a' →
    a'.records = a.records ++ (lines.flatMap (lineRecords s)).filter (keeps ·.name)
  | [], a, a', h => by
    cases h
    simp
  | l :: lines, a, a', h => by
    rw [foldlM_cons, takeLine] at h
    cases hitems : lineItems s l with
    | error e =>
      rw [hitems] at h
      cases h
    | ok items =>
      rw [hitems] at h
      cases hline : items.foldlM (takeItem ctx) a with
      | error e =>
        simp only [bind, Except.bind, hline] at h
        cases h
      | ok b =>
        simp only [bind, Except.bind, hline] at h
        rw [takeLines_records s h, takeItems_records howned hline, flatMap_cons, filter_append,
          append_assoc]
        simp [lineRecords, hitems]

lemma parse_records {s : TinySettings} {file : Text} {a : TinyArena}
    (h : parseTinydnsData s ctx file = .ok a) :
    a.records = (definedRecords s file).filter (keeps ·.name) := by
  rw [parseTinydnsData] at h
  cases hrun : (tinyLines file).foldlM (takeLine s ctx) {} with
  | error e =>
    rw [hrun] at h
    cases h
  | ok b =>
    rw [hrun] at h
    cases h
    have hname : ∀ r : DnsRecord, (preparseCache (fun _ => true) r).name = r.name := by
      intro r
      unfold preparseCache
      split <;> rfl
    have hrecords := takeLines_records howned s hrun
    simp only [nil_append] at hrecords
    simp only [definedRecords, hrecords, filter_map]
    congr 1
    refine filter_congr fun r _ => ?_
    simp [hname]

end Runs

/-- A run over a well-formed file ends well, whatever it keeps. -/
lemma takeItem_ok (ctx : TinyContext) (a : TinyArena) {item : TinyItem} (h : item.Ok) :
    ∃ a', takeItem ctx a item = .ok a' := by
  cases item with
  | record owner counted make =>
    obtain ⟨d, rfl⟩ := h
    simp only [takeItem]
    split
    · exact ⟨_, rfl⟩
    split
    · exact ⟨_, rfl⟩
    · exact ⟨_, rfl⟩
  | location make =>
    obtain ⟨loc, rfl⟩ := h
    simp only [takeItem]
    split
    · exact ⟨_, rfl⟩
    · exact ⟨_, rfl⟩

lemma foldlM_ok {σ α ε : Type} {f : σ → α → Except ε σ} :
    ∀ {l : List α}, (∀ x ∈ l, ∀ st, ∃ st', f st x = .ok st') →
    ∀ st, ∃ st', l.foldlM f st = .ok st'
  | [], _, st => ⟨st, rfl⟩
  | x :: l, h, st => by
    obtain ⟨st₁, h₁⟩ := h x mem_cons_self st
    obtain ⟨st₂, h₂⟩ := foldlM_ok (fun y hy => h y (mem_cons_of_mem _ hy)) st₁
    refine ⟨st₂, ?_⟩
    rw [foldlM_cons, h₁]
    exact h₂

lemma parse_ok {s : TinySettings} {file : Text} (h : WellFormed s file) (ctx : TinyContext) :
    ∃ a, parseTinydnsData s ctx file = .ok a := by
  have hline : ∀ l ∈ tinyLines file, ∀ a, ∃ a', takeLine s ctx a l = .ok a' := by
    intro l hl a
    obtain ⟨items, hitems, hok⟩ := h l hl
    obtain ⟨a', ha'⟩ := foldlM_ok (fun item hitem st => takeItem_ok ctx st (hok item hitem)) a
    refine ⟨a', ?_⟩
    rw [takeLine, hitems]
    exact ha'
  obtain ⟨a, ha⟩ := foldlM_ok hline {}
  refine ⟨{ a with records := a.records.map (preparseCache fun _ => true) }, ?_⟩
  rw [parseTinydnsData, ha]
  rfl

/-- A run looks at its context only to decide what it owns. -/
lemma parse_congr {ctx ctx' : TinyContext} (h : tinydnsOwned ctx = tinydnsOwned ctx')
    (s : TinySettings) (file : Text) :
    parseTinydnsData s ctx file = parseTinydnsData s ctx' file := by
  have hitem : takeItem ctx = takeItem ctx' := by
    funext a item
    cases item with
    | record owner counted make => simp only [takeItem, h]
    | location make => rfl
  have hline : takeLine s ctx = takeLine s ctx' := by
    funext a l
    rw [takeLine, takeLine, hitem]
  rw [parseTinydnsData, parseTinydnsData, hline]

/-! ### The runs for all zones -/

/-- Records that go to at most one of the zones each are those of the zones put together. -/
lemma flatMap_filter_perm {α β : Type} (goes : α → β → Bool) (records : List β) :
    ∀ {zones : List α},
    (∀ r ∈ records, zones.Pairwise fun z z' => ¬ (goes z r = true ∧ goes z' r = true)) →
    (zones.flatMap fun z => records.filter (goes z)).Perm
      (records.filter fun r => zones.any fun z => goes z r)
  | [], _ => by simp
  | z :: zones, h => by
    have hrest := flatMap_filter_perm goes records fun r hr => (pairwise_cons.mp (h r hr)).2
    rw [flatMap_cons]
    refine (hrest.append_left _).trans ?_
    -- the zone's own records, and those of the others: none is both
    have hsplit :=
      filter_append_perm (goes z) (records.filter fun r => (z :: zones).any fun y => goes y r)
    rw [filter_filter, filter_filter] at hsplit
    refine List.Perm.trans (List.Perm.of_eq ?_) hsplit
    congr 1
    · refine filter_congr fun r _ => ?_
      cases hz : goes z r <;> simp [hz]
    refine filter_congr fun r hr => ?_
    have hone := (pairwise_cons.mp (h r hr)).1
    cases hz : goes z r with
    | false => simp [hz]
    | true =>
      simp only [Bool.not_true, Bool.false_and, any_eq_false]
      exact fun y hy hgoes => hone y hy ⟨hz, hgoes⟩

lemma home_any {zones : List Text} (owner : Text) :
    (zones.any fun z => decide (Home zones owner z)) = zones.any fun z =>
      domainNameIsAtOrBelow owner z := by
  rw [Bool.eq_iff_iff, any_eq_true, any_eq_true]
  constructor
  · rintro ⟨z, hz, hhome⟩
    exact ⟨z, hz, (of_decide_eq_true hhome).encloses⟩
  rintro ⟨z, hz, henc⟩
  obtain ⟨y, hy⟩ := exists_home hz henc
  exact ⟨y, hy.mem, decide_eq_true hy⟩

/-- For every view the configuration gives and every data file: a name at or below some zone has one
home; a run keeps the records whose home its zone is, whether it asks the index of the view or a
list of the same zones; and the runs for all zones give every record the file defines at or below
some zone once. -/
theorem tinydns_partition {blocks : List ZoneBlock} {v : ViewZones}
    (hread : ViewZones.read blocks = some v) {siblings : List Text}
    (hsiblings : ∀ z, z ∈ siblings ↔ z ∈ v.names) (s : TinySettings) (file : Text) :
    (∀ owner, (∃ z ∈ v.names, domainNameIsAtOrBelow owner z = true) → ∃! z, Home v.names owner z) ∧
    (∀ z ∈ v.names, tinydnsOwned (byIndex v z) = tinydnsOwned (bySiblings siblings z) ∧
      (∀ owner counted, (tinydnsOwned (byIndex v z) owner counted).1 =
        decide (Home v.names owner z)) ∧
      parseTinydnsData s (byIndex v z) file = parseTinydnsData s (bySiblings siblings z) file ∧
      ∀ a, parseTinydnsData s (byIndex v z) file = .ok a →
        a.records = (definedRecords s file).filter fun r => Home v.names r.name z) ∧
    (WellFormed s file → ∀ z ∈ v.names, ∃ a, parseTinydnsData s (byIndex v z) file = .ok a) ∧
    ∀ kept : Text → TinyArena,
      (∀ z ∈ v.names, parseTinydnsData s (byIndex v z) file = .ok (kept z)) →
      (v.names.flatMap fun z => (kept z).records).Perm
        ((definedRecords s file).filter fun r => v.names.any fun z =>
          domainNameIsAtOrBelow r.name z) := by
  have hv := ViewZones.read_sound hread
  have howned : ∀ z ∈ v.names, ∀ owner counted, (tinydnsOwned (byIndex v z) owner counted).1 =
      decide (Home v.names owner z) := by
    intro z hz owner counted
    rw [tinydnsOwned_byIndex hv hz]
    split
    · rename_i hhome
      exact (decide_eq_true hhome).symm
    · rename_i hhome
      exact (decide_eq_false hhome).symm
  have hsame : ∀ z ∈ v.names, tinydnsOwned
      (byIndex v z) = tinydnsOwned (bySiblings siblings z) := by
    intro z hz
    funext owner counted
    rw [tinydnsOwned_byIndex hv hz, tinydnsOwned_bySiblings hv hsiblings hz]
  have hrecords : ∀ z ∈ v.names, ∀ a, parseTinydnsData s (byIndex v z) file = .ok a →
      a.records = (definedRecords s file).filter fun r => Home v.names r.name z :=
    fun z hz a ha => parse_records (howned z hz) ha
  refine ⟨?_, fun z hz => ⟨hsame z hz, howned z hz, parse_congr (hsame z hz) s file, hrecords z hz⟩,
    fun hwf z _ => parse_ok hwf (byIndex v z), fun kept hkept => ?_⟩
  · rintro owner ⟨z, hz, henc⟩
    obtain ⟨y, hy⟩ := exists_home hz henc
    exact ⟨y, hy, fun x hx => hx.unique hv.distinct hy⟩
  have heach : (v.names.flatMap fun z => (kept z).records) =
      v.names.flatMap fun z => (definedRecords s file).filter fun r =>
        decide (Home v.names r.name z) :=
    flatMap_congr fun z hz => hrecords z hz (kept z) (hkept z hz)
  rw [heach]
  refine (flatMap_filter_perm (fun z r => decide (Home v.names r.name z))
    (definedRecords s file) ?_).trans ?_
  · intro r _
    refine hv.distinct.imp fun hne hboth => hne ?_
    rw [(of_decide_eq_true hboth.1).unique hv.distinct (of_decide_eq_true hboth.2)]
  · exact List.Perm.of_eq (filter_congr fun r _ => home_any r.name)

/-- A zone and one below it. -/
def nestedBlocks : List ZoneBlock :=
  [⟨ascii "example.test", false⟩, ⟨ascii "sub.Example.test.", false⟩]

/-- Records of both zones and of neither. -/
def nestedFile : Text :=
  ascii ".example.test:192.0.2.1:a\n=www.sub.example.test:192.0.2.2\n" ++
    ascii "'a\\.sub.example.test:text\n+other.test:192.0.2.3\n"

def nestedSettings : TinySettings := ⟨1, fun _ _ => none⟩

def nestedView : ViewZones := (ViewZones.read nestedBlocks).getD {}

/-- What a run for a zone of the view keeps of the file. -/
def nestedKept (z : Text) : TinyArena :=
  (parseTinydnsData nestedSettings (byIndex nestedView z) nestedFile).toOption.getD {}

lemma eq_ok_of_toOption {ε α : Type} {e : Except ε α} (h : e.toOption.isSome = true) (d : α) :
    e = .ok (e.toOption.getD d) := by
  cases e with
  | ok a => rfl
  | error x => cases h

theorem tinydns_partition_nested : (nestedView.names.flatMap fun z => (nestedKept z).records).Perm
      ((definedRecords nestedSettings nestedFile).filter fun r =>
        nestedView.names.any fun z => domainNameIsAtOrBelow r.name z) ∧
    nestedView.names.map (fun z => (nestedKept z).records.map (·.name)) =
      [[ascii "example.test.", ascii "example.test.", ascii "a.ns.example.test.",
        ascii "a\\.sub.example.test."],
        [ascii "www.sub.example.test."]] := by
  have hread : ViewZones.read nestedBlocks = some nestedView := by
    have hsome : (ViewZones.read nestedBlocks).isSome = true := by decide +kernel
    obtain ⟨v, hv⟩ := Option.isSome_iff_exists.mp hsome
    rw [nestedView, hv]
    rfl
  have hok : ∀ z ∈ nestedView.names,
      (parseTinydnsData nestedSettings (byIndex nestedView z) nestedFile).toOption.isSome =
        true := by
    decide +kernel
  have hkept : ∀ z ∈ nestedView.names, parseTinydnsData nestedSettings
      (byIndex nestedView z) nestedFile = .ok (nestedKept z) :=
    fun z hz => eq_ok_of_toOption (hok z hz) {}
  refine ⟨(tinydns_partition hread (fun _ => Iff.rfl) nestedSettings nestedFile).2.2.2
    nestedKept hkept, ?_⟩
  decide +kernel

end KariDns
