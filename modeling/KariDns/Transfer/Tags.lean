import KariDns.Transfer.Send
import KariDns.Transfer.Axfr
import Mathlib.Data.List.TakeWhile

/-! Tags and attributes at the receiver of an extended transfer.

A record that is read back has neither (`Arrives`). Tags come from the state markers, cut at 63
octets, attributes out of a wrapper. What an answer does to the zone is `xferEdit`.
-/

namespace KariDns

open Octets DomainName List Option

variable {isLast : Bool} {o : DnsRecord} {ancount : Nat}

/-! ### A record that is read back -/

/-- What the receiver relies on of a record that was sent. -/
structure Arrives (sent got : DnsRecord) : Prop where
  type : got.typeCode = sent.typeCode
  class_ : recClass got = recClass sent
  generic : recClass sent = classKaridnsExt.toNat → got.generic.getD [] = sent.generic.getD []
  locTag : got.bindLocationTag = none
  ecsTag : got.ecsSubnetTag = none
  loc : got.tinydnsLoc = (0, 0)
  ttd : got.tinydnsTtd = 0
  countdown : got.tinydnsTtlCountdown = false

lemma ext_iff_class {rec : DnsRecord} : rec.classVal = classKaridnsExt ↔
    recClass rec = classKaridnsExt.toNat := by
  rw [recClass]
  constructor
  · intro h
    rw [if_neg (by rw [h]; decide), h]
  intro h
  split_ifs at h
  all_goals first
    | exact absurd h (by decide)
    | exact UInt16.toNat_inj.mp h

lemma Arrives.ext {s g : DnsRecord} (h : Arrives s g) :
    g.classVal = classKaridnsExt ↔ s.classVal = classKaridnsExt := by
  rw [ext_iff_class, ext_iff_class, h.class_]

/-- Tags are not part of the wire form. -/
lemma parse_bare {alloc : Nat → Bool} {m : Buf} {len offset e : Nat} {rec : DnsRecord}
    (h : parseResourceRecord alloc m len offset = some (rec, e)) :
    rec.bindLocationTag = none ∧ rec.ecsSubnetTag = none := by
  obtain ⟨owner, p, prd, -, -, -, rfl⟩ := parse_form h
  constructor
  · rw [preparse_keeps DnsRecord.bindLocationTag fun _ _ _ => rfl]
    rfl
  · rw [preparse_keeps DnsRecord.ecsSubnetTag fun _ _ _ => rfl]
    rfl

/-! ### Tags -/

/-- The tag in force at the receiver for the tag `t` of the sender. -/
def heldTag (t : Text) : Option Text := if markerTag t = [] then none else some (markerTag t)

/-- A tag that a marker carries in full: `char [64]`, and an empty one clears the state. -/
def TagFits (t : Text) : Prop := t ≠ [] ∧ t.length ≤ 63 ∧ 0 ∉ t

instance (t : Text) : Decidable (TagFits t) := inferInstanceAs (Decidable (_ ∧ _ ∧ _))

lemma lower_eq_zero : ∀ {c : UInt8}, lower c = 0 ↔ c = 0 := by decide +kernel

lemma strcaseeq_length {a b : Text} (h : strcaseeq a b = true) : a.length = b.length := by
  have := congrArg List.length (beq_iff_eq.mp h)
  simpa using this

lemma strcaseeq_zero {a b : Text} (h : strcaseeq a b = true) : 0 ∈ a ↔ 0 ∈ b := by
  have hmem : ∀ t : Text, (0 : UInt8) ∈ t ↔ 0 ∈ t.map lower := by simp [lower_eq_zero]
  rw [hmem a, hmem b, beq_iff_eq.mp h]

lemma markerTag_eq_self {t : Text} : markerTag t = t ↔ t.length ≤ 63 ∧ 0 ∉ t := by
  rw [markerTag, cString]
  constructor
  · intro h
    have hlen := ( takeWhile_prefix (· != 0) (l := t.take 63)).length_le
    rw [h, length_take] at hlen
    have hshort : t.length ≤ 63 := by omega
    rw [take_of_length_le hshort, takeWhile_eq_self_iff] at h
    exact ⟨hshort, fun h0 => by simpa using h 0 h0⟩
  rintro ⟨hshort, hzero⟩
  rw [take_of_length_le hshort, takeWhile_eq_self_iff]
  intro c hc
  simp only [bne_iff_ne]
  rintro rfl
  exact hzero hc

lemma markerTag_length (t : Text) : (markerTag t).length = t.length ↔ markerTag t = t := by
  refine ⟨fun h => ?_, fun h => by rw [h]⟩
  have hpre : markerTag t <+: t := ( takeWhile_prefix _).trans ( take_prefix _ _)
  exact hpre.eq_of_length h

/-- An RR behind `xext_select` has its own tag at the receiver exactly when a marker carries it. -/
lemma heldTag_selected {tag : Option Text} {current : Text}
    (h : strcaseeq (tag.getD []) current = true) :
    tagsEqualCi tag (heldTag current) = true ↔ ∀ t ∈ tag, TagFits t := by
  cases tag with
  | none =>
    have hnil : current = [] := length_eq_zero_iff.mp (by simpa using (strcaseeq_length h).symm)
    subst hnil
    simp [heldTag, markerTag, cString, tagsEqualCi]
  | some t =>
    have hlen := strcaseeq_length h
    have hzero := strcaseeq_zero h
    simp only [getD_some] at h hlen hzero
    have hself : markerTag current = current ↔ t.length ≤ 63 ∧ 0 ∉ t := by
      rw [markerTag_eq_self, hlen, hzero]
    rw [heldTag]
    simp only [mem_some_iff, forall_eq', TagFits, ← hself]
    split
    · rename_i hnil
      simp only [tagsEqualCi, Bool.false_eq_true, false_iff, not_and]
      intro hne hcur
      rw [hnil] at hcur
      subst hcur
      exact hne (length_eq_zero_iff.mp hlen)
    rename_i hne
    simp only [tagsEqualCi]
    constructor
    · intro heq
      have hfull := (markerTag_length current).mp (by rw [← strcaseeq_length heq, hlen])
      refine ⟨?_, hfull⟩
      rintro rfl
      rw [hfull] at hne
      exact hne (length_eq_zero_iff.mp hlen.symm)
    · rintro ⟨-, hfull⟩
      rwa [hfull]

/-! ### Wrappers -/

lemma be64_value {n : Nat} (h : n < 2 ^ 64) :
    (be64 n).foldl (fun n b => n * 256 + b.toNat) 0 = n := by
  have hstep : ∀ k, n / 2 ^ (k + 8) * 256 + n / 2 ^ k % 2 ^ 8 = n / 2 ^ k := by
    intro k
    rw [Nat.pow_add, ← Nat.div_div_eq_div_mul]
    omega
  have htop : n / 2 ^ 56 % 2 ^ 8 = n / 2 ^ 56 := by omega
  simp only [be64, List.range, List.range.loop, map_cons, map_nil, foldl_cons, foldl_nil,
    UInt8.toNat_ofNat', Nat.zero_mul, Nat.zero_add, Nat.sub_zero, Nat.reduceSub, Nat.reduceMul,
    htop]
  rw [hstep 48, hstep 40, hstep 32, hstep 24, hstep 16, hstep 8, hstep 0, Nat.pow_zero, Nat.div_one]

/-- A time stamp is an `int64_t`. -/
lemma signed64_be64 {t : Int} (hlo : -2 ^ 63 ≤ t) (hhi : t < 2 ^ 63) :
    signed64 (be64 (t % 2 ^ 64).toNat) = t := by
  have hlt : (t % 2 ^ 64).toNat < 2 ^ 64 := by omega
  rw [signed64, be64_value hlt]
  split <;> omega

/-- The same location, time stamp and countdown. -/
structure SameTinydns (o z : DnsRecord) : Prop where
  loc : o.tinydnsLoc = z.tinydnsLoc
  ttd : o.tinydnsTtd = z.tinydnsTtd
  countdown : o.tinydnsTtlCountdown = z.tinydnsTtlCountdown

/-- An RR without attributes. -/
def PlainAttributes (o : DnsRecord) : Prop :=
  o.tinydnsLoc = (0, 0) ∧ o.tinydnsTtd = 0 ∧ o.tinydnsTtlCountdown = false

instance (o : DnsRecord) : Decidable (PlainAttributes o) := inferInstanceAs (Decidable (_ ∧ _ ∧ _))

lemma sameVisibility_iff {z : DnsRecord} : dnsRecordSameVisibility o z = true ↔ SameTinydns o z ∧
    tagsEqualCi o.bindLocationTag z.bindLocationTag = true ∧
      tagsEqualCi o.ecsSubnetTag z.ecsSubnetTag = true := by
  rw [dnsRecordSameVisibility, decide_eq_true_iff]
  exact ⟨fun ⟨a, b, c, d, e⟩ => ⟨⟨a, b, c⟩, d, e⟩, fun ⟨⟨a, b, c⟩, d, e⟩ => ⟨a, b, c, d, e⟩⟩

/-- The attributes of a wrapper are those of the RR inside. -/
lemma withTinydns_wrapRdata {inner : DnsRecord} {head rdata : List UInt8} (hhead : head.length = 8)
    (hlo : -2 ^ 63 ≤ o.tinydnsTtd) (hhi : o.tinydnsTtd < 2 ^ 63) :
    SameTinydns o (withTinydns inner (wrapRdata o head rdata)) := by
  match head, hhead with
  | [a, b, c, d, e, f, g, h], _ =>
    refine ⟨rfl, ?_, ?_⟩
    · exact (signed64_be64 hlo hhi).symm
    · cases hc : o.tinydnsTtlCountdown
        <;> simp [withTinydns, wrapRdata, be64, hc, List.range, List.range.loop]

lemma wrapRdata_length {o : DnsRecord} {head rdata : List UInt8} (hhead : head.length = 8) :
    (wrapRdata o head rdata).length = 21 + rdata.length := by
  simp [wrapRdata, hhead, be64]
  omega

lemma wrapRdata_rdlen {head rdata : List UInt8} (hhead : head.length = 8)
    (hlen : rdata.length < 65536) :
    u16At (wrapRdata o head rdata) 19 = rdata.length := by
  match head, hhead with
  | [a, b, c, d, e, f, g, h], _ =>
    rw [u16At]
    refine getU16_of_holds ?_ hlen
    rw [be16, holds_cons, holds_cons]
    exact ⟨rfl, rfl, holds_nil _ _⟩

/-- A wrapper that was made: its RDATA and what the receiver looks at first. -/
lemma wrapTinydnsRecord_generic {w : DnsRecord} (h : wrapTinydnsRecord o = some w) :
    w.typeCode = 65406 ∧ w.classVal = classKaridnsExt ∧
      ∃ head rdata, w.generic = some (wrapRdata o head rdata) ∧
      head.length = 8 ∧ rdata.length < 65536 := by
  rw [wrapTinydnsRecord] at h
  split at h
  · cases h
  rw [wrapTinydnsWire] at h
  split at h
  · cases h
  split at h
  · cases h
  dsimp only at h
  split at h
  · cases h
  · cases h
    exact ⟨rfl, rfl, _, _, rfl, slice_length _ _ _, by rw [slice_length]; exact getU16_lt _ _⟩

/-! ### Edits of a zone -/

/-- What the receiver does with an RR: nothing; put it behind the others; the newer SOA of a
difference in place of the older one; delete it; go back to the zone in use, at the older SOA of the
first difference; begin anew, at an SOA_SET. -/
inductive ZoneEdit
  | pass | append | replace | delete | restart | clear

/-- The edit that is made for `rec` falls on the RR `z`. -/
def ZoneEdit.hits (domain : Text) (rec z : DnsRecord) : ZoneEdit → Bool
  | .replace => isZoneSoa domain z
  | .delete => compareRecords z rec true
  | _ => false

/-- The edit for `x` of a list whose elements have the RRs `rr`. -/
def ZoneEdit.apply {α : Type} (rr : α → DnsRecord) (domain : Text) (inUse : List α) (x : α)
    (zone : List α) :
    ZoneEdit → List α
  | .pass => zone
  | .append => zone ++ [x]
  | .replace => replaceFirst (fun z => ZoneEdit.replace.hits domain (rr x) (rr z)) x zone
  | .delete => deleteFirst (fun z => ZoneEdit.delete.hits domain (rr x) (rr z)) zone
  | .restart => inUse
  | .clear => []

section Alike

variable {α β : Type} {R : α → β → Prop} {l : List α} {l' : List β} {x : α} {x' : β}
    {p : α → Bool} {p' : β → Bool}

lemma forall₂_replaceFirst (h : Forall₂ R l l') (hx : R x x')
    (hp : ∀ y ∈ l.zip l', p' y.2 = p y.1) :
    Forall₂ R (replaceFirst p x l) (replaceFirst p' x' l') := by
  induction h with
  | nil => exact .cons hx .nil
  | cons hz hrest ih =>
    rw [zip_cons_cons, forall_mem_cons] at hp
    rw [replaceFirst, replaceFirst, hp.1]
    split
    · exact .cons hx hrest
    · exact .cons hz (ih hp.2)

lemma forall₂_set (h : Forall₂ R l l') (hx : R x x') :
    ∀ k, Forall₂ R (l.set k x) (l'.set k x') := by
  induction h with
  | nil => exact fun _ => .nil
  | cons hz hrest ih =>
    intro k
    cases k with
    | zero => exact .cons hx hrest
    | succ k => exact .cons hz (ih k)

lemma forall₂_dropLast (h : Forall₂ R l l') : Forall₂ R l.dropLast l'.dropLast := by
  induction h with
  | nil => exact .nil
  | cons hz hrest ih =>
    cases hrest with
    | nil => exact .nil
    | cons => exact .cons hz ih

lemma forall₂_findIdx (h : Forall₂ R l l') (hp : ∀ y ∈ l.zip l', p' y.2 = p y.1) :
    l'.findIdx? p' = l.findIdx? p := by
  induction h with
  | nil => rfl
  | cons _ _ ih =>
    rw [zip_cons_cons, forall_mem_cons] at hp
    rw [findIdx?_cons, findIdx?_cons, hp.1, ih hp.2]

lemma forall₂_deleteFirst (h : Forall₂ R l l') (hp : ∀ y ∈ l.zip l', p' y.2 = p y.1) :
    Forall₂ R (deleteFirst p l) (deleteFirst p' l') := by
  rw [deleteFirst, deleteFirst, forall₂_findIdx h hp]
  cases l.findIdx? p with
  | none => exact h
  | some k =>
    have hlast := rel_reverse h
    rw [← head?_reverse, ← head?_reverse]
    generalize l.reverse = m, l'.reverse = m' at hlast
    cases hlast with
    | nil => exact h
    | cons hz _ => exact forall₂_dropLast (forall₂_set h hz k)

/-- An edit keeps two lists alike, if it falls on the same places of both. -/
lemma ZoneEdit.apply_alike {rr : α → DnsRecord} {rr' : β → DnsRecord} {domain : Text}
    {inUse : List α} {inUse' : List β} {edit : ZoneEdit} (h : Forall₂ R l l')
    (huse : Forall₂ R inUse inUse') (hx : edit ≠ .pass → R x x')
    (hhits : ∀ y ∈ l.zip l',
      edit.hits domain (rr' x') (rr' y.2) = edit.hits domain (rr x) (rr y.1)) :
    Forall₂ R (edit.apply rr domain inUse x l) (edit.apply rr' domain inUse' x' l') := by
  cases edit with
  | pass => exact h
  | append => exact rel_append h (.cons (hx nofun) .nil)
  | replace => exact forall₂_replaceFirst h (hx nofun) hhits
  | delete => exact forall₂_deleteFirst h hhits
  | restart => exact huse
  | clear => exact .nil

end Alike

/-! ### What the receiver does -/

section

variable {T : Type} {env : XferEnv T} {r r' : Receiver T} {rec z : DnsRecord}

/-- The RRs of the zone in use. -/
def XferEnv.inUse (env : XferEnv T) : List DnsRecord := (env.thaw.map (·.1)).getD []

/-- The RR of the zone that the receiver sees in an answer, perhaps out of a wrapper. -/
def xferSeen (env : XferEnv T) (alloc : Nat → Bool) (rec : DnsRecord) (r : Receiver T) :
    Option (DnsRecord × Bool × Receiver T) :=
  if rec.classVal = classKaridnsExt then
    match xferExtension env alloc rec r with
    | .record rec' wrappedSoa r' => some (rec', wrappedSoa, r')
    | _ => none
  else some (rec, false, r)

/-- The edit for an RR in the zone. Of the SOAs the opening one is put in, and one that does not
close a full transfer. -/
def zoneEdit (s : AxfrSession) (rec : DnsRecord) (bodySoa : Bool) : ZoneEdit :=
  if bodySoa then .append
  else if rec.typeCode = 6 then
    if s.soaCount = 0 then .append
    else if s.soaCount = 1 ∧ s.isIxfr then .restart
    else if s.isIxfr then if s.isDeleting then .replace else .pass
    else if domainNamesMatchCi s.initialSoaName rec.name ∧
      s.initialSoaSerial = strtoul32 (rec.rd 2) then .pass
    else .append
  else if s.soaCount ≠ 1 ∧ s.isIxfr ∧ s.isDeleting then .delete else .append

/-- The edit for an answer, and the RR it is made for. -/
def xferEdit (env : XferEnv T) (alloc : Nat → Bool) (rec : DnsRecord) (r : Receiver T) :
    ZoneEdit × DnsRecord :=
  if rec.classVal = classKaridnsExt ∧ rec.typeCode = 65409 then (.clear, rec)
  else
    match xferSeen env alloc rec r with
    | none => (.pass, rec)
    | some (rec', wrappedSoa, r') =>
      (if inZone env.domain rec' then
        zoneEdit r'.session rec' (rec'.typeCode == 6 && wrappedSoa && r'.session.soaSet.isSome)
          else .pass,
        withTags r'.session rec')

/-- What an RR of the zone does: the tags in force stay, and the zone is edited. -/
structure TakesRr (env : XferEnv T) (edit : ZoneEdit) (rec : DnsRecord)
    (r r' : Receiver T) : Prop where
  loc : r'.session.currentLocTag = r.session.currentLocTag
  ecs : r'.session.currentEcsTag = r.session.currentEcsTag
  records : r'.records = edit.apply id env.domain env.inUse rec r.records

lemma xferSoa_takes (htype : rec.typeCode = 6) (h : xferSoa env ancount isLast rec r = .next r') :
    TakesRr env (zoneEdit r.session rec false) rec r r' := by
  rw [xferSoa] at h
  rw [zoneEdit, if_neg (by decide), if_pos htype]
  dsimp only at h
  split at h
  · -- the opening SOA
    rename_i hfirst
    split at h
    · cases h
    split at h
    · cases h
    split at h
    · cases h
    cases h
    rw [if_pos (by omega)]
    exact ⟨rfl, rfl, rfl⟩
  rename_i hlater
  rw [if_neg (by omega)]
  split at h
  · -- the older SOA of the first difference
    rename_i hsecond
    split at h
    · cases h
    split at h
    · cases h
    rename_i records tables isTinydns hthaw
    cases h
    rw [if_pos ⟨by omega, hsecond.2⟩]
    exact ⟨rfl, rfl, by simp [ZoneEdit.apply, XferEnv.inUse, hthaw]⟩
  rename_i hsecond
  rw [if_neg fun hc => hsecond ⟨by omega, hc.2⟩]
  split at h
  · -- the newer SOA of a difference
    rename_i hdel
    cases h
    rw [if_pos hdel.1, if_pos hdel.2]
    exact ⟨rfl, rfl, rfl⟩
  rename_i hdel
  split at h
  · rename_i hix
    rw [if_pos hix, if_neg fun hc => hdel ⟨hix, hc⟩]
    split at h
    · cases h
      exact ⟨rfl, rfl, rfl⟩
    split at h
    · cases h
    · cases h
      exact ⟨rfl, rfl, rfl⟩
  rename_i hfull
  rw [if_neg hfull]
  split at h
  · rename_i hclose
    rw [if_pos hclose]
    split at h
    · cases h
    · cases h
      exact ⟨rfl, rfl, rfl⟩
  · rename_i hopen
    rw [if_neg hopen]
    cases h
    exact ⟨rfl, rfl, rfl⟩

lemma xferData_takes (env : XferEnv T) (htype : rec.typeCode ≠ 6) :
    TakesRr env (zoneEdit r.session rec false) rec r (xferData rec r) := by
  rw [zoneEdit, if_neg (by decide), if_neg htype, xferData]
  dsimp only
  by_cases hfirst : r.session.soaCount = 1 ∧ r.session.isIxfr = true
  · rw [if_neg fun hc => hc.1 hfirst.1, if_pos hfirst, if_neg (by simp)]
    exact ⟨rfl, rfl, rfl⟩
  rw [if_neg hfirst]
  by_cases hdel : r.session.isIxfr = true ∧ r.session.isDeleting = true
  · rw [if_pos hdel, if_pos ⟨fun hc => hfirst ⟨hc, hdel.1⟩, hdel⟩]
    exact ⟨rfl, rfl, rfl⟩
  · rw [if_neg hdel, if_neg fun hc => hdel hc.2]
    exact ⟨rfl, rfl, rfl⟩

lemma xferZoneRr_takes {wrappedSoa : Bool}
    (h : xferZoneRr env ancount isLast rec wrappedSoa r = .next r') :
    TakesRr env (if inZone env.domain rec then
        zoneEdit r.session rec (rec.typeCode == 6 && wrappedSoa && r.session.soaSet.isSome)
          else .pass)
      (withTags r.session rec) r r' := by
  rw [xferZoneRr] at h
  split at h
  · cases h
  split at h
  · rename_i hout
    rw [inZone, if_neg (by simp [hout])]
    split at h
    · cases h
    · cases h
      exact ⟨rfl, rfl, rfl⟩
  rename_i hin
  rw [inZone, if_pos (by simpa using hin)]
  dsimp only at h
  split at h
  · -- an apex SOA of a set
    rename_i hsoa hset
    rw [xferBodySoa] at h
    split at h
    · cases h
    cases h
    rw [hsoa, hset]
    exact ⟨rfl, rfl, rfl⟩
  rename_i hbody
  have hframe : (rec.typeCode == 6 && wrappedSoa && r.session.soaSet.isSome) = false := by
    cases hs : rec.typeCode == 6 && wrappedSoa with
    | false => rfl
    | true =>
      cases hset : r.session.soaSet with
      | none => rfl
      | some n => exact (hbody n.1 n.2 hs hset).elim
  rw [hframe]
  split at h
  · rename_i htype
    split at h
    · cases h
    · exact xferSoa_takes (show (withTags r.session rec).typeCode = 6 from htype) h
  · rename_i htype
    cases h
    exact xferData_takes env (show (withTags r.session rec).typeCode ≠ 6 from htype)

lemma xferWrap_cases {alloc : Nat → Bool} : xferWrap env alloc rec r = .reject ∨
    ∃ rec' wrappedSoa r', xferWrap env alloc rec r = .record rec' wrappedSoa r' ∧
      r'.records = r.records ∧ r'.session = r.session := by
  rw [xferWrap]
  dsimp only
  split
  · split
    · exact .inl rfl
    · exact .inr ⟨_, _, _, rfl, rfl, rfl⟩
  split
  · split
    · exact .inl rfl
    · exact .inr ⟨_, _, _, rfl, rfl, rfl⟩
  split
  · exact .inl rfl
  · exact .inr ⟨_, _, _, rfl, rfl, rfl⟩

lemma xferSoaSet_cases {data : List UInt8} : (xferSoaSet data r = .reject) ∨
    ∃ r', xferSoaSet data r = .consumed r' ∧ r'.records = [] ∧
      r'.session.currentLocTag = r.session.currentLocTag ∧
      r'.session.currentEcsTag = r.session.currentEcsTag := by
  rw [xferSoaSet]
  split
  · split
    · exact .inl rfl
    dsimp only
    split
    · exact .inl rfl
    · exact .inr ⟨_, rfl, rfl, rfl, rfl⟩
  · exact .inl rfl

/-- What a record of the private class can do: be refused, set a tag, clear the records (SOA_SET),
add to the tables, or show an RR. -/
inductive ExtEffect (rec : DnsRecord) (r : Receiver T) : ExtStep T → Prop
  | reject : ExtEffect rec r .reject
  | locTag : rec.typeCode = 65401 →
      ExtEffect rec r
        (.consumed
          { r with session := { r.session with currentLocTag := markerTag (rec.generic.getD []) } })
  | ecsTag : rec.typeCode = 65402 →
      ExtEffect rec r
        (.consumed
          { r with session := { r.session with currentEcsTag := markerTag (rec.generic.getD []) } })
  | soaSet {r' : Receiver T} : rec.typeCode = 65409 → r'.records = [] →
    r'.session.currentLocTag = r.session.currentLocTag →
      r'.session.currentEcsTag = r.session.currentEcsTag → ExtEffect rec r (.consumed r')
  | define {r' : Receiver T} : rec.typeCode ≠ 65401 → rec.typeCode ≠ 65402 → rec.typeCode ≠ 65409 →
    r'.records = r.records →
      r'.session.currentLocTag = r.session.currentLocTag →
        r'.session.currentEcsTag = r.session.currentEcsTag →
      ExtEffect rec r (.consumed r')
  | record {rec' : DnsRecord} {wrappedSoa : Bool} {r' : Receiver T} :
    rec.typeCode = 65406 ∨ rec' = rec →
      r'.records = r.records → r'.session = r.session → ExtEffect rec r (.record rec' wrappedSoa r')

lemma extEffect (alloc : Nat → Bool) : ExtEffect rec r (xferExtension env alloc rec r) := by
  rw [xferExtension]
  dsimp only
  split
  · rename_i htype
    split
    · exact .reject
    · exact .locTag htype
  rename_i hloc
  split
  · rename_i htype
    split
    · exact .reject
    · exact .ecsTag htype
  rename_i hecs
  split
  · rename_i htype
    split
    · exact .reject
    · exact .define hloc hecs (by rcases htype with h | h <;> rw [h] <;> decide) rfl rfl rfl
  split
  · rename_i htype
    split
    · exact .reject
    split
    · exact .reject
    · exact .define hloc hecs (by rw [htype]; decide) rfl rfl rfl
  split
  · rename_i htype
    rcases @xferSoaSet_cases T r (rec.generic.getD []) with heq | ⟨r', heq, hnil, hl, he⟩
    · rw [heq]
      exact .reject
    · rw [heq]
      exact .soaSet htype hnil hl he
  rename_i hset
  split
  · split
    · exact .reject
    split
    · exact .define hloc hecs hset rfl rfl rfl
    · exact .define hloc hecs hset rfl rfl rfl
  split
  · split
    · exact .reject
    · exact .define hloc hecs hset rfl rfl rfl
  split
  · rename_i htype
    rcases @xferWrap_cases T env r rec alloc with heq | ⟨rec', w, r', heq, hrec, hs⟩
    · rw [heq]
      exact .reject
    · rw [heq]
      exact .record (.inl htype) hrec hs
  · exact .record (.inr rfl) rfl rfl

/-- A record of the private class is no RR of a zone. -/
lemma xferZoneRr_private {wrappedSoa : Bool} (hclass : rec.classVal = classKaridnsExt) :
    xferZoneRr env ancount isLast rec wrappedSoa r = .reject .refused := by
  rw [xferZoneRr, if_pos (by rw [hclass]; decide)]

/-- What an answer does to the zone. -/
lemma xferRr_edit {alloc : Nat → Bool} (h : xferRr env alloc ancount isLast rec r = .next r') :
    r'.records = (xferEdit env alloc rec r).1.apply id env.domain env.inUse
      (xferEdit env alloc rec r).2 r.records := by
  rw [xferRr] at h
  rw [xferEdit, xferSeen]
  split at h
  · rename_i hclass
    have heffect := @extEffect T env r rec alloc
    rw [if_pos hclass]
    generalize xferExtension env alloc rec r = step at h heffect ⊢
    cases heffect with
    | reject => cases h
    | locTag htype | ecsTag htype =>
      cases h
      rw [if_neg (by simp [htype])]
      rfl
    | soaSet htype hnil =>
      cases h
      rw [if_pos ⟨hclass, htype⟩]
      exact hnil
    | define _ _ hset heq =>
      cases h
      rw [if_neg fun hc => hset hc.2]
      exact heq
    | record hrec heq hs =>
      rcases hrec with htype | rfl
      · rw [if_neg (by simp [htype])]
        dsimp only at h ⊢
        rw [← heq]
        exact (xferZoneRr_takes h).records
      · dsimp only at h
        rw [xferZoneRr_private hclass] at h
        cases h
  · rename_i hclass
    rw [if_neg fun hc => hclass hc.1, if_neg hclass]
    exact (xferZoneRr_takes h).records

lemma mem_replaceFirst {α : Type} {p : α → Bool} {x z : α} :
    ∀ {l : List α}, z ∈ replaceFirst p x l → z = x ∨ z ∈ l
  | [], h => .inl (by simpa [replaceFirst] using h)
  | y :: ys, h => by
    rw [replaceFirst] at h
    split at h
    · exact (mem_cons.mp h).imp_right (mem_cons_of_mem _)
    rcases mem_cons.mp h with rfl | h
    · exact .inr mem_cons_self
    · exact (mem_replaceFirst h).imp_right (mem_cons_of_mem _)

lemma mem_deleteFirst {α : Type} {p : α → Bool} {z : α} {l : List α}
    (h : z ∈ deleteFirst p l) : z ∈ l := by
  rw [deleteFirst] at h
  split at h
  · exact h
  split at h
  · exact h
  rename_i last hlast
  rcases mem_or_eq_of_mem_set (mem_of_mem_dropLast h) with hz | rfl
  · exact hz
  · exact mem_of_getLast? hlast

/-- An answer brings RRs at or below the apex into the zone, and those in use. -/
lemma xferRr_records {alloc : Nat → Bool} (h : xferRr env alloc ancount isLast rec r = .next r')
    (hz : z ∈ r'.records) :
    z ∈ r.records ∨ inZone env.domain z = true ∨ z ∈ env.inUse := by
  rw [xferRr_edit h] at hz
  have hpass : (xferEdit env alloc rec r).1 = .pass ∨ (xferEdit env alloc rec r).1 = .clear ∨
      inZone env.domain (xferEdit env alloc rec r).2 = true := by
    rw [xferEdit]
    split
    · exact .inr (.inl rfl)
    split
    · exact .inl rfl
    dsimp only
    split
    · exact .inr (.inr ‹_›)
    · exact .inl rfl
  generalize xferEdit env alloc rec r = e at hz hpass
  obtain ⟨edit, rec'⟩ := e
  cases edit with
  | pass => exact .inl hz
  | append =>
    refine (mem_append.mp hz).imp_right fun hz => .inl ?_
    rw [mem_singleton.mp hz]
    simpa using hpass
  | replace =>
    rcases mem_replaceFirst hz with rfl | hz
    · exact .inr (.inl (by simpa using hpass))
    · exact .inl hz
  | delete => exact .inl (mem_deleteFirst hz)
  | restart => exact .inr (.inr hz)
  | clear => cases hz

/-! ### The tags in force -/

/-- The receiver holds the tags the sender thinks are in force. -/
structure InForce (x : Xext) (r : Receiver T) : Prop where
  loc : r.session.currentLocTag = markerTag x.curLoc
  ecs : r.session.currentEcsTag = markerTag x.curEcs

lemma InForce.congr {x : Xext} (h : InForce x r)
    (hloc : r'.session.currentLocTag = r.session.currentLocTag)
    (hecs : r'.session.currentEcsTag = r.session.currentEcsTag) : InForce x r' :=
  ⟨hloc.trans h.loc, hecs.trans h.ecs⟩

end

end KariDns
