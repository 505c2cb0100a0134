import KariDns.Lib.ProbeTable
import Mathlib.Logic.Function.Basic

/-! Hash tables with open addressing, linear probing and tombstones.

A value that is taken out leaves a tombstone, so that walks go on behind it; a value that is put
in takes the first tombstone of its walk if its key is not there yet. As long as a cell is free
every walk ends, and the table is a map from keys to values.
-/

namespace TombTable

open List Option

open ProbeTable (slot)

variable {f i n s : Nat} {tomb : Option Nat}

variable {α κ : Type*}

/-- A cell of the table. -/
inductive Cell (α : Type*)
  | free
  | tomb
  | full (v : α)

def Cell.taken : Cell α → Bool
  | .free => false
  | _ => true

def Cell.isFull : Cell α → Bool
  | .full _ => true
  | _ => false

/-- How a walk ends: at a match, or at a free cell, and then with the first tombstone it met. -/
inductive Found (α : Type*)
  | hit (s : Nat) (v : α)
  | miss (s : Nat) (tomb : Option Nat)

/-- The walk from its `k`-th step on, `none` if it does not end in time. -/
def search (n : Nat) (t : Nat → Cell α) (h : Nat) (p : α → Bool) :
    Nat → Nat → Option Nat → Option (Found α)
  | 0, _, _ => none
  | fuel + 1, k, tomb =>
    match t (slot n h k) with
    | .free => some (.miss (slot n h k) tomb)
    | .tomb => search n t h p fuel (k + 1) (tomb <|> some (slot n h k))
    | .full v => if p v then some (.hit (slot n h k) v) else search n t h p fuel (k + 1) tomb

/-- The table with another cell in one place. -/
def put (t : Nat → Cell α) (s : Nat) (c : Cell α) (i : Nat) : Cell α := if i = s then c else t i

variable (t : Nat → Cell α)

@[simp]
lemma put_self (s : Nat) (c : Cell α) : put t s c s = c := if_pos rfl

lemma put_ne (c : Cell α) (h : i ≠ s) : put t s c i = t i := if_neg h

/-! ### Counting -/

/-- How many of the `n` cells are not free. -/
def used (n : Nat) (t : Nat → Cell α) : Nat := (List.range n).countP fun s => (t s).taken

/-- How many of the `n` cells hold a value. -/
def live (n : Nat) (t : Nat → Cell α) : Nat := (List.range n).countP fun s => (t s).isFull

lemma used_put (c : Cell α) (hs : s < n) :
    used n (put t s c) + (t s).taken.toNat = used n t + c.taken.toNat :=
  ProbeTable.countP_set Cell.taken t c hs

lemma live_put (c : Cell α) (hs : s < n) :
    live n (put t s c) + (t s).isFull.toNat = live n t + c.isFull.toNat :=
  ProbeTable.countP_set Cell.isFull t c hs

/-- A table that is not full has a free cell on every walk. -/
lemma exists_free {t : Nat → Cell α} (hroom : used n t < n) (h : Nat) :
    ∃ k < n, t (slot n h k) = .free ∧ ∀ j < k, t (slot n h j) ≠ .free := by
  let t' : Nat → Option Unit := fun s => if (t s).taken then some () else none
  have hnone : ∀ s, t' s = none ↔ t s = .free := by
    intro s
    cases hc : t s <;> simp [t', hc, Cell.taken]
  have hused : ProbeTable.used n t' = used n t := by
    refine countP_congr fun s _ => ?_
    cases hc : t s <;> simp [t', hc, Cell.taken]
  obtain ⟨k, hk⟩ := ProbeTable.firstFree_isSome (hused ▸ hroom) h
  obtain ⟨hlt, hfree, hbefore⟩ := ProbeTable.firstFree_some hk
  exact ⟨k, hlt, (hnone _).mp hfree, fun j hj => mt (hnone _).mpr (hbefore j hj)⟩

/-! ### Walks -/

/-- Nothing on the walk from `h` ends it before step `j`. -/
def Passes (n : Nat) (t : Nat → Cell α) (h : Nat) (p : α → Bool) (j : Nat) : Prop :=
  ∀ i < j, t (slot n h i) ≠ .free ∧ ∀ v, t (slot n h i) = .full v → p v = false

/-- What the end of a walk tells. -/
inductive Ends (n : Nat) (t : Nat → Cell α) (h : Nat) (p : α → Bool) : Found α → Prop
  | hit {j : Nat} {v : α} (hcell : t (slot n h j) = .full v) (hp : p v = true)
    (hpass : Passes n t h p j) :
      Ends n t h p (.hit (slot n h j) v)
  | miss {j : Nat} {tomb : Option Nat} (hcell : t (slot n h j) = .free) (hpass : Passes n t h p j)
      (htomb : ∀ s, tomb = some s → ∃ i < j, s = slot n h i ∧ t s = .tomb) :
        Ends n t h p (.miss (slot n h j) tomb)

variable {n : Nat} {t : Nat → Cell α} {h : Nat} {p : α → Bool}

lemma Passes.succ {j : Nat} (hpass : Passes n t h p j) (hfree : t (slot n h j) ≠ .free)
    (hno : ∀ v, t (slot n h j) = .full v → p v = false) : Passes n t h p (j + 1) := by
  intro i hi
  rcases Nat.lt_succ_iff_lt_or_eq.mp hi with hi | rfl
  · exact hpass i hi
  · exact ⟨hfree, hno⟩

lemma search_ends {r : Found α} : ∀ {fuel k : Nat} {tomb : Option Nat}, Passes n t h p k →
    (∀ s, tomb = some s → ∃ i < k, s = slot n h i ∧ t s = .tomb) →
    search n t h p fuel k tomb = some r → Ends n t h p r
  | 0, _, _, _, _, hs => by cases hs
  | fuel + 1, k, tomb, hpass, htomb, hs => by
    have hlater : ∀ s, tomb = some s → ∃ i < k + 1, s = slot n h i ∧ t s = .tomb := by
      intro s hsome
      obtain ⟨i, hi, heq⟩ := htomb s hsome
      exact ⟨i, by omega, heq⟩
    unfold search at hs
    cases hc : t (slot n h k) with
    | free =>
      rw [hc] at hs
      obtain rfl := some.inj hs
      exact .miss hc hpass htomb
    | tomb =>
      rw [hc] at hs
      refine search_ends (hpass.succ (by simp [hc]) (by simp [hc])) ?_ hs
      intro s hsome
      cases tomb with
      | some s' => exact hlater s hsome
      | none =>
        obtain rfl := some.inj hsome
        exact ⟨k, by omega, rfl, hc⟩
    | full v =>
      rw [hc] at hs
      dsimp only at hs
      split at hs
      · rename_i hp
        obtain rfl := some.inj hs
        exact .hit hc hp hpass
      rename_i hp
      refine search_ends (hpass.succ (by simp [hc]) ?_) hlater hs
      intro u hu
      rw [hc] at hu
      cases hu
      simpa using hp

/-- With enough time a walk ends. -/
lemma search_isSome {k : Nat} (hcell : t (slot n h k) = .free) :
    ∀ {fuel i : Nat} {tomb : Option Nat}, i ≤ k →
    k < i + fuel → ∃ r, search n t h p fuel i tomb = some r
  | 0, i, _, hi, hk => by omega
  | fuel + 1, i, tomb, hi, hk => by
    have hnext : t (slot n h i) ≠ .free → i + 1 ≤ k := by
      intro hne
      have : i ≠ k := by
        rintro rfl
        exact hne hcell
      omega
    unfold search
    cases hc : t (slot n h i) with
    | free => exact ⟨_, rfl⟩
    | tomb => exact search_isSome hcell (hnext (by simp [hc])) (by omega)
    | full v =>
      dsimp only
      split
      · exact ⟨_, rfl⟩
      · exact search_isSome hcell (hnext (by simp [hc])) (by omega)

/-- In a table that is not full every walk ends within `n` steps. -/
lemma search_spec (hroom : used n t < n) (h : Nat) (p : α → Bool) :
    ∃ r, search n t h p n 0 none = some r ∧ Ends n t h p r := by
  obtain ⟨k, hk, hfree, -⟩ := exists_free hroom h
  obtain ⟨r, hr⟩ := @search_isSome α n t h p k hfree n 0 none (by omega) (by omega)
  exact ⟨r, hr, search_ends (fun i hi => absurd hi (by omega)) (by simp) hr⟩

/-! ### Tables as maps -/

/-- The values of a table are where their keys lead, and keys are there once. -/
structure Keyed (n : Nat) (hash : κ → Nat) (key : α → κ) (t : Nat → Cell α) : Prop where
  reach : ∀ s < n, ∀ v, t s = .full v →
    ∃ k < n, slot n (hash (key v)) k = s ∧ ∀ j < k, t (slot n (hash (key v)) j) ≠ .free
  inj : ∀ s < n, ∀ s' < n, ∀ v v', t s = .full v → t s' = .full v' → key v = key v' → s = s'

/-- The map a table stands for. -/
def Represents (n : Nat) (key : α → κ) (t : Nat → Cell α) (M : κ → Option α) : Prop :=
  ∀ q v, M q = some v ↔ key v = q ∧ ∃ s < n, t s = .full v

variable {hash : κ → Nat} {key : α → κ} {M : κ → Option α}

lemma Represents.get (hrep : Represents n key t M) {v : α} (hs : s < n) (h : t s = .full v) :
    M (key v) = some v :=
  (hrep _ v).mpr ⟨rfl, s, hs, h⟩

lemma Ends.found {v : α} (hends : Ends n t h p (.hit s v)) (hn : 0 < n) :
    s < n ∧ t s = .full v ∧ p v = true := by
  cases hends with
  | @hit j _ hcell hp hpass => exact ⟨Nat.mod_lt _ hn, hcell, hp⟩

/-- A walk for a key that ends at a free cell has passed the value with this key. -/
lemma Ends.passed (hk : Keyed n hash key t) {q : κ} (hends : Ends n t (hash q) p (.miss f tomb)) :
    ∀ s < n, ∀ v, t s = .full v → key v = q → p v = false := by
  intro s hs v hfull hkey
  cases hends with
  | @miss j _ hcell hpass htomb =>
    obtain ⟨k, -, hslot, hbefore⟩ := hk.reach s hs v hfull
    rw [hkey] at hslot hbefore
    rcases Nat.lt_trichotomy k j with hkj | rfl | hjk
    · exact (hpass k hkj).2 v (hslot ▸ hfull)
    · rw [hslot, hfull] at hcell
      cases hcell
    · exact absurd hcell (hbefore j hjk)

/-- What a walk gives. -/
def Found.value : Found α → Option α
  | .hit _ v => some v
  | .miss _ _ => none

/-- A walk that asks for a key gives what the map has at it. -/
lemma Ends.get (hk : Keyed n hash key t) (hrep : Represents n key t M) (hn : 0 < n) {q : κ}
    {r : Found α} (hends : Ends n t (hash q) p r)
    (hp : ∀ v, M (key v) = some v → (p v = true ↔ key v = q)) : M q = r.value := by
  cases r with
  | hit s v =>
    obtain ⟨hs, hcell, hpv⟩ := hends.found hn
    have hM := hrep.get hs hcell
    rwa [(hp v hM).mp hpv] at hM
  | miss f tomb =>
    refine eq_none_iff_forall_ne_some.mpr fun v hv => ?_
    obtain ⟨hkey, s, hs, hcell⟩ := (hrep q v).mp hv
    have hno := hends.passed hk s hs v hcell hkey
    rw [(hp v (hrep.get hs hcell)).mpr hkey] at hno
    cases hno

/-- The free cell at the end of a walk is the first one, met within `n` steps. -/
lemma Ends.free_cell (hends : Ends n t h p (.miss f tomb)) (hroom : used n t < n) :
    ∃ k < n, f = slot n h k ∧ t (slot n h k) = .free ∧ (∀ j < k, t (slot n h j) ≠ .free) ∧
      ∀ s, tomb = some s → ∃ i < k, s = slot n h i ∧ t s = .tomb := by
  cases hends with
  | @miss j _ hcell hpass htomb =>
    obtain ⟨k, hkn, hfree, hbefore⟩ := exists_free hroom h
    obtain rfl : j = k := by
      rcases Nat.lt_trichotomy j k with hlt | heq | hlt
      · exact absurd hcell (hbefore j hlt)
      · exact heq
      · exact absurd hfree (hpass k hlt).1
    exact ⟨j, hkn, rfl, hcell, hbefore, htomb⟩

/-- The cell a value goes to after a walk for its key: the first tombstone, else the free cell. -/
lemma Ends.target (hends : Ends n t h p (.miss f tomb)) (hroom : used n t < n) :
    ∃ k < n, tomb.getD f = slot n h k ∧ (∀ v, t (slot n h k) ≠ .full v) ∧
      (∀ j < k, t (slot n h j) ≠ .free) ∧
      (t (slot n h k)).taken = tomb.isSome := by
  obtain ⟨k, hkn, rfl, hcell, hbefore, htomb⟩ := hends.free_cell hroom
  cases tomb with
  | none => exact ⟨k, hkn, rfl, by simp [hcell], hbefore, by rw [hcell]; rfl⟩
  | some s =>
    obtain ⟨i, hik, rfl, htombed⟩ := htomb s rfl
    exact ⟨i, by omega, rfl, by simp [htombed],
      fun j hj => hbefore j (by omega), by rw [htombed]; rfl⟩

/-- Cells that are taken stay taken. -/
lemma put_ne_free {c : Cell α} (hc : c ≠ .free) (hi : t i ≠ .free) : put t s c i ≠ .free := by
  unfold put
  split
  · exact hc
  · exact hi

lemma Keyed.put_reach (hk : Keyed n hash key t) {c : Cell α} (hc : c ≠ .free) (hi : i < n) {v : α}
    (hv : t i = .full v) :
    ∃ k < n, slot n (hash (key v)) k = i ∧
      ∀ j < k, put t s c (slot n (hash (key v)) j) ≠ .free := by
  obtain ⟨k, hkn, hslot, hbefore⟩ := hk.reach i hi v hv
  exact ⟨k, hkn, hslot, fun j hj => put_ne_free hc (hbefore j hj)⟩

/-- What is in a cell. -/
def Cell.value : Cell α → Option α
  | .full v => some v
  | _ => none

/-- One cell is written, which was empty or held the key, and no other cell holds it. -/
lemma Keyed.put (hk : Keyed n hash key t) (hrep : Represents n key t M) [DecidableEq κ] {q : κ}
    {c : Cell α} (hs : s < n) (hc : c ≠ .free) (hold : ∀ v, t s = .full v → key v = q)
    (hother : ∀ i < n, i ≠ s → ∀ v, t i = .full v → key v ≠ q)
    (hnew : ∀ e, c = .full e → key e = q ∧ ∃ k < n, slot n (hash q) k = s ∧
      ∀ j < k, t (slot n (hash q) j) ≠ .free) :
    Keyed n hash key (put t s c) ∧ Represents n key (put t s c) (Function.update M q c.value) := by
  have hcell : ∀ i u, TombTable.put t s c i = .full u ↔ (i = s ∧ c = .full u) ∨
      (i ≠ s ∧ t i = .full u) := by
    intro i u
    unfold TombTable.put
    split
    · rename_i hi
      simp [hi]
    · rename_i hi
      simp [hi]
  refine ⟨⟨?_, ?_⟩, ?_⟩
  · intro i hi u hu
    rw [hcell] at hu
    rcases hu with ⟨rfl, hu⟩ | ⟨-, hu⟩
    · obtain ⟨rfl, k, hkn, hslot, hbefore⟩ := hnew u hu
      exact ⟨k, hkn, hslot, fun j hj => put_ne_free hc (hbefore j hj)⟩
    · exact hk.put_reach hc hi hu
  · intro i hi i' hi' u u' hu hu' hsame
    rw [hcell] at hu hu'
    rcases hu with ⟨rfl, hu⟩ | ⟨hne, hu⟩ <;> rcases hu' with ⟨rfl, hu'⟩ | ⟨hne', hu'⟩
    · rfl
    · exact absurd (hsame.symm.trans (hnew u hu).1) (hother i' hi' hne' u' hu')
    · exact absurd (hsame.trans (hnew u' hu').1) (hother i hi hne u hu)
    · exact hk.inj i hi i' hi' u u' hu hu' hsame
  intro q' u
  rw [Function.update_apply]
  by_cases hq : q' = q
  · rw [if_pos hq, hq]
    constructor
    · intro hvalue
      have hfull : c = .full u := by
        cases c <;> cases hvalue
        rfl
      exact ⟨(hnew u hfull).1, s, hs, (hcell s u).mpr (.inl ⟨rfl, hfull⟩)⟩
    rintro ⟨hu, i, hi, hfull⟩
    rcases (hcell i u).mp hfull with ⟨-, rfl⟩ | ⟨hne, hfull⟩
    · rfl
    · exact absurd hu (hother i hi hne u hfull)
  rw [if_neg hq, hrep q' u]
  refine and_congr_right fun hu => exists_congr fun i => and_congr_right fun _ => ?_
  rw [hcell i u]
  constructor
  · intro hfull
    refine .inr ⟨?_, hfull⟩
    rintro rfl
    exact hq (hu.symm.trans (hold u hfull))
  · rintro (⟨-, hfull⟩ | ⟨-, hfull⟩)
    · exact absurd (hu.symm.trans (hnew u hfull).1) hq
    · exact hfull

/-- A value written over the value with its key. -/
lemma Keyed.replace (hk : Keyed n hash key t) (hrep : Represents n key t M) [DecidableEq κ]
    {s : Nat} (hs : s < n) {v e : α} (hv : t s = .full v) (hkey : key v = key e) :
    Keyed n hash key (TombTable.put t s (.full e)) ∧
      Represents n key (TombTable.put t s (.full e)) (Function.update M (key e) (some e)) := by
  refine hk.put hrep hs (by simp) ?_ ?_ ?_
  · intro u hu
    rw [hv] at hu
    cases hu
    exact hkey
  · exact fun i hi hne u hu hsame => hne (hk.inj i hi s hs u v hu hv (hsame.trans hkey.symm))
  · rintro _ ⟨⟩
    exact ⟨rfl, hkey ▸ hk.reach s hs v hv⟩

/-- A value put into a cell of its walk whose key is not there. -/
lemma Keyed.insert (hk : Keyed n hash key t) (hrep : Represents n key t M) [DecidableEq κ] {e : α}
    {k : Nat} (hkn : k < n) (hempty : ∀ v, t (slot n (hash (key e)) k) ≠ .full v)
    (hbefore : ∀ j < k, t (slot n (hash (key e)) j) ≠ .free) (hnew : M (key e) = none) :
    Keyed n hash key (TombTable.put t (slot n (hash (key e)) k) (.full e)) ∧
      Represents n key (TombTable.put t (slot n (hash (key e)) k) (.full e))
        (Function.update M (key e) (some e)) := by
  refine hk.put hrep (Nat.mod_lt _ (by omega)) (by simp) (fun v hv => absurd hv (hempty v)) ?_ ?_
  · intro i hi _ u hu hsame
    rw [← hsame, hrep.get hi hu] at hnew
    cases hnew
  · rintro _ ⟨⟩
    exact ⟨rfl, k, hkn, rfl, hbefore⟩

/-- A value taken out. -/
lemma Keyed.remove (hk : Keyed n hash key t) (hrep : Represents n key t M) [DecidableEq κ]
    (hs : s < n) {e : α} (he : t s = .full e) :
    Keyed n hash key (TombTable.put t s .tomb) ∧
      Represents n key (TombTable.put t s .tomb) (Function.update M (key e) none) := by
  refine hk.put hrep hs (by simp) ?_ ?_ (by simp)
  · intro u hu
    rw [he] at hu
    cases hu
    rfl
  · exact fun i hi hne u hu hsame => hne (hk.inj i hi s hs u e hu he hsame)

/-! ### Rebuilding -/

/-- A table without values. -/
def empty : Nat → Cell α := fun _ => .free

lemma keyed_empty (n : Nat) (hash : κ → Nat) (key : α → κ) : Keyed n hash key empty :=
  ⟨fun _ _ _ h => (by cases h), fun _ _ _ _ _ _ h => by cases h⟩

lemma represents_empty (n : Nat) (key : α → κ) : Represents n key empty fun _ => none :=
  fun _ _ => ⟨fun h => (by cases h), fun ⟨_, _, _, h⟩ => by cases h⟩

lemma used_empty (n : Nat) : used n (empty : Nat → Cell α) = 0 := by
  simp [used, empty, Cell.taken]

/-- Puts a value into the first free cell of its walk. -/
def place (n : Nat) (h : Nat) (t : Nat → Cell α) (v : α) : Option (Nat → Cell α) :=
  match search n t h (fun _ => false) n 0 none with
  | some (.miss s _) => some (put t s (.full v))
  | _ => none

/-- Puts values in, one behind the other. -/
def refill (n : Nat) (hash : α → Nat) (t : Nat → Cell α) (vs : List α) : Option (Nat → Cell α) :=
  vs.foldlM (fun t v => place n (hash v) t v) t

lemma update_some_iff [DecidableEq κ] {v w : α} {q : κ} (hnew : M (key v) = none) :
    Function.update M (key v) (some v) q = some w ↔ M q = some w ∨ (w = v ∧ key w = q) := by
  rw [Function.update_apply]
  split
  · rename_i hq
    rw [hq, hnew]
    simp +contextual [eq_comm]
  · rename_i hq
    exact ⟨.inl, fun h => h.elim id fun ⟨heq, hkey⟩ => absurd (heq ▸ hkey).symm hq⟩

/-- A value with a new key is put in. -/
lemma place_spec [DecidableEq κ] (hk : Keyed n hash key t) (hrep : Represents n key t M)
    (hroom : used n t < n) {v : α} (hnew : M (key v) = none) :
    ∃ t', place n (hash (key v)) t v = some t' ∧ Keyed n hash key t' ∧
      Represents n key t' (Function.update M (key v) (some v)) ∧ used n t' = used n t + 1 ∧
        live n t' = live n t + 1 := by
  obtain ⟨r, hr, hends⟩ := search_spec hroom (hash (key v)) (fun _ : α => false)
  cases r with
  | hit s u => cases (hends.found (by omega)).2.2
  | miss f tomb =>
    obtain ⟨k, hkn, rfl, hcell, hbefore, -⟩ := hends.free_cell hroom
    obtain ⟨hk', hrep'⟩ := hk.insert hrep hkn (by simp [hcell]) hbefore hnew
    have hlt : slot n (hash (key v)) k < n := Nat.mod_lt _ (by omega)
    have hused := used_put t (.full v) hlt
    have hlive := live_put t (.full v) hlt
    rw [hcell] at hused hlive
    exact ⟨_, by rw [place, hr], hk', hrep', hused, hlive⟩

/-- Values with new keys are put in. -/
lemma refill_spec [DecidableEq κ] :
    ∀ {vs : List α} {t : Nat → Cell α} {M : κ → Option α}, Keyed n hash key t →
    Represents n key t M → used n t + vs.length ≤ n → (∀ v ∈ vs, M (key v) = none) →
    vs.Pairwise (fun v v' => key v ≠ key v') →
    ∃ t', refill n (fun v => hash (key v)) t vs = some t' ∧ Keyed n hash key t' ∧
      (∀ q v, (key v = q ∧ ∃ s < n, t' s = .full v) ↔ (v ∈ vs ∧ key v = q) ∨ M q = some v) ∧
      used n t' = used n t + vs.length ∧ live n t' = live n t + vs.length
  | [], t, M, hk, hrep, _, _, _ => ⟨t, rfl, hk, fun q v => by simp [hrep q v], rfl, rfl⟩
  | v :: vs, t, M, hk, hrep, hroom, hnew, hdiff => by
    rw [length_cons] at hroom
    have hnone := hnew v (by simp)
    obtain ⟨t₁, hplace, hk', hrep', hused, hlive⟩ := place_spec hk hrep (by omega) hnone
    obtain ⟨hfirst, hdiff⟩ := pairwise_cons.mp hdiff
    obtain ⟨t', hrefill, hk'', hmem, hused', hlive'⟩ := refill_spec hk' hrep' (by omega)
      (fun w hw => by rw [Function.update_apply,
        if_neg (hfirst w hw).symm]; exact hnew w (by simp [hw])) hdiff
    refine ⟨t', ?_, hk'', fun q w => ?_, by simp; omega, by simp; omega⟩
    · simp only [refill, foldlM_cons, hplace, bind_eq_bind, bind_some]
      exact hrefill
    rw [hmem q w, update_some_iff hnone, mem_cons, or_and_right]
    tauto

/-- The values of a table in the order of the cells. -/
def values (n : Nat) (t : Nat → Cell α) : List α :=
  (List.range n).filterMap fun s => match t s with | .full v => some v | _ => none

lemma mem_values {v : α} : v ∈ values n t ↔ ∃ s < n, t s = .full v := by
  simp only [values, mem_filterMap, mem_range]
  refine exists_congr fun s => and_congr_right fun _ => ?_
  cases t s <;> simp

lemma values_length (n : Nat) (t : Nat → Cell α) : (values n t).length = live n t := by
  unfold values live
  induction List.range n with
  | nil => rfl
  | cons s l ih =>
    rw [filterMap_cons, countP_cons]
    cases t s <;> simp [Cell.isFull, ih]

/-- Different cells hold different keys. -/
lemma Keyed.values_keys (hk : Keyed n hash key t) : (values n t).Pairwise fun v v' =>
    key v ≠ key v' := by
  refine List.Pairwise.filterMap _
    (fun s s' (h : s < n ∧ s' < n ∧ s ≠ s') v hv v' hv' hsame => ?_) ?_
  · have hfull : ∀ {i u}, (match t i with | .full v => some v | _ => none) = some u →
        t i = .full u := by
      intro i u hu
      cases hc : t i with
      | full w =>
        rw [hc] at hu
        exact congrArg _ (some.inj hu)
      | _ =>
        rw [hc] at hu
        cases hu
    exact h.2.2 (hk.inj s h.1 s' h.2.1 v v' (hfull hv) (hfull hv') hsame)
  · have hnodup : (List.range n).Pairwise (· ≠ ·) := nodup_range
    exact hnodup.imp_of_mem fun ha hb hne => ⟨mem_range.mp ha, mem_range.mp hb, hne⟩

/-- The values moved to a table of another size, without the tombstones. -/
lemma rebuild_spec [DecidableEq κ] (hk : Keyed n hash key t) (hrep : Represents n key t M)
    {n' : Nat} (hroom : live n t ≤ n') :
    ∃ t', refill n' (fun v => hash (key v)) empty (values n t) = some t' ∧ Keyed n' hash key t' ∧
      Represents n' key t' M ∧ used n' t' = live n t ∧ live n' t' = live n t := by
  have hlive : live n' (empty : Nat → Cell α) = 0 := by simp [live, empty, Cell.isFull]
  obtain ⟨t', hrefill, hk', hmem, hused, hlive'⟩ :=
    refill_spec (keyed_empty n' hash key) (represents_empty n' key)
    (by rw [used_empty, values_length]; omega) (fun _ _ => rfl) hk.values_keys
  rw [used_empty, values_length, Nat.zero_add] at hused
  rw [hlive, values_length, Nat.zero_add] at hlive'
  refine ⟨t', hrefill, hk', fun q v => ?_, hused, hlive'⟩
  rw [hmem q v, mem_values, hrep q v]
  simp [and_comm]

end TombTable
