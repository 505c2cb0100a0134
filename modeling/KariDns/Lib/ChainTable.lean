import Mathlib.Data.List.Nodup
import Mathlib.Data.Finset.Card
import Mathlib.Logic.Function.Basic

/-! Records in an array, chained from a table of heads.

A hash table the way C programs write one: every cell of the array carries the number of the
next cell of its bucket, and a table holds the number of each bucket's first cell. Cells are
overwritten in place, new ones go to the end of the array and to the front of their chain.
`Chained` says that a walk along a bucket meets every value that belongs there; with it,
searching or sweeping a chain comes down to the array.
-/

namespace ChainTable

open List Option

variable {l : List Nat} {b k : Nat} {h : Option Nat}

variable {α : Type}

/-- A value and the number of the next cell of its chain. -/
structure Cell (α : Type) where
  val : α
  next : Option Nat

/-- An array of cells and the first cell of every bucket. -/
structure Table (α : Type) where
  cells : List (Cell α)
  head : Nat → Option Nat

/-- The cells a walk meets, at most `fuel` of them. -/
def walk (cells : List (Cell α)) : Nat → Option Nat → List Nat
  | 0, _ => []
  | _ + 1, none => []
  | fuel + 1, some k =>
    match cells[k]? with
    | none => []
    | some c => k :: walk cells fuel c.next

namespace Table

/-- The cells of a bucket in the order of its chain. -/
def chain (t : Table α) (b : Nat) : List Nat := walk t.cells t.cells.length (t.head b)

/-- The values in the order of the array. -/
def vals (t : Table α) : List α := t.cells.map Cell.val

/-- The value in a cell. -/
def get (t : Table α) (k : Nat) : Option α := t.cells[k]?.map Cell.val

/-- Overwrites a value; the links stay. -/
def set (t : Table α) (k : Nat) (v : α) : Table α :=
  { t with cells := t.cells.modify k fun c => { c with val := v } }

/-- A new cell at the end of the array and the front of its chain. -/
def push (t : Table α) (b : Nat) (v : α) : Table α :=
  { cells := t.cells ++ [⟨v, t.head b⟩]
    head := Function.update t.head b (some t.cells.length) }

/-- The first cell of a bucket whose value satisfies `p`. -/
def find (t : Table α) (b : Nat) (p : α → Bool) : Option Nat :=
  (t.chain b).find? fun k => (t.get k).any p

/-- Some cell of a bucket has a value that satisfies `p`. -/
def any (t : Table α) (b : Nat) (p : α → Bool) : Bool := (t.chain b).any fun k => (t.get k).any p

/-- Rewrites the values that satisfy `p` at the given cells, one after the other. -/
def sweep (p : α → Bool) (f : α → α) : List Nat → Table α → Table α
  | [], t => t
  | k :: ks, t =>
    match t.get k with
    | none => sweep p f ks t
    | some v => sweep p f ks (if p v then t.set k (f v) else t)

end Table

/-- Links every value with a bucket, from the last one to the first; `i` is the place of the first
value given. -/
def link (bucket : α → Option Nat) : Nat → List α → List (Cell α) × (Nat → Option Nat)
  | _, [] => ([], fun _ => none)
  | i, v :: vs =>
    let r := link bucket (i + 1) vs
    match bucket v with
    | none => (⟨v, none⟩ :: r.1, r.2)
    | some b => (⟨v, r.2 b⟩ :: r.1, Function.update r.2 b (some i))

/-- The table over an array of values. -/
def build (bucket : α → Option Nat) (vs : List α) : Table α :=
  let r := link bucket 0 vs
  ⟨r.1, r.2⟩

/-! ### Paths -/

/-- The cells `l` are linked one behind the other, from `h` to the end. -/
inductive Path (cells : List (Cell α)) : Option Nat → List Nat → Prop
  | nil : Path cells none []
  | cons {k : Nat} {c : Cell α} {l : List Nat} (hc : cells[k]? = some c)
    (hl : Path cells c.next l) :
      Path cells (some k) (k :: l)

lemma Path.lt {cells : List (Cell α)} (hp : Path cells h l) : ∀ k ∈ l, k < cells.length := by
  induction hp with
  | nil => exact fun k hk => (nomatch hk)
  | cons hc _ ih =>
    intro k hk
    rcases mem_cons.mp hk with rfl | hk
    · exact (List.getElem?_eq_some_iff.mp hc).1
    · exact ih k hk

lemma Path.walk {cells : List (Cell α)} (hp : Path cells h l) :
    ∀ {fuel : Nat}, l.length ≤ fuel → walk cells fuel h = l := by
  induction hp with
  | nil =>
    intro fuel _
    cases fuel <;> rfl
  | cons hc _ ih =>
    intro fuel hlen
    cases fuel with
    | zero => simp at hlen
    | succ fuel =>
      rw [ChainTable.walk, hc]
      exact congrArg _ (ih (by simpa using hlen))

lemma Path.length_le {cells : List (Cell α)} (hp : Path cells h l) (hn : l.Nodup) :
    l.length ≤ cells.length := by
  have hsub : l.toFinset ⊆ Finset.range cells.length := by
    intro k hk
    rw [List.mem_toFinset] at hk
    exact Finset.mem_range.mpr (hp.lt k hk)
  have hcard := Finset.card_le_card hsub
  rwa [toFinset_card_of_nodup hn, Finset.card_range] at hcard

/-- A path depends on the links only. -/
lemma Path.congr {cells cells' : List (Cell α)} {h : Option Nat} {l : List Nat}
    (hp : Path cells h l)
    (hlinks : ∀ k c, k ∈ l → cells[k]? = some c → ∃ c', cells'[k]? = some c' ∧ c'.next = c.next) :
      Path cells' h l := by
  induction hp with
  | nil => exact .nil
  | @cons k c l hc _ ih =>
    obtain ⟨c', hc', hnext⟩ := hlinks k c (by simp) hc
    refine .cons hc' (hnext ▸ ih fun k' c' hk' => hlinks k' c' (by simp [hk']))

/-! ### The invariant -/

/-- Every bucket is a path without repeats that meets all values that belong to it. -/
structure Chained (bucket : α → Option Nat) (t : Table α) : Prop where
  path : ∀ b, ∃ l, Path t.cells (t.head b) l ∧ l.Nodup
  complete : ∀ k v b, t.get k = some v → bucket v = some b → k ∈ t.chain b

section Chained

variable {bucket : α → Option Nat} {t : Table α}

lemma chain_of_path (hp : Path t.cells (t.head b) l) (hn : l.Nodup) : t.chain b = l :=
  hp.walk (hp.length_le hn)

lemma Chained.chain_path (h : Chained bucket t) (b : Nat) :
    Path t.cells (t.head b) (t.chain b) ∧ (t.chain b).Nodup := by
  obtain ⟨l, hp, hn⟩ := h.path b
  rw [chain_of_path hp hn]
  exact ⟨hp, hn⟩

lemma get_eq_vals (k : Nat) : t.get k = t.vals[k]? := by simp [Table.get, Table.vals]

variable {p : α → Bool}

/-- Searching a bucket for values that belong to it finds what the array holds. -/
lemma Chained.any_iff (h : Chained bucket t) (hp : ∀ v, p v = true → bucket v = some b) :
    t.any b p = true ↔ ∃ v ∈ t.vals, p v = true := by
  simp only [Table.any, List.any_eq_true, Option.any_eq_true]
  constructor
  · rintro ⟨k, -, v, hv, hpv⟩
    rw [get_eq_vals] at hv
    exact ⟨v, mem_of_getElem? hv, hpv⟩
  rintro ⟨v, hv, hpv⟩
  obtain ⟨k, hk⟩ := getElem?_of_mem hv
  rw [← get_eq_vals] at hk
  exact ⟨k, h.complete k v b hk (hp v hpv), v, hk, hpv⟩

lemma Chained.find_none (h : Chained bucket t) (hp : ∀ v, p v = true → bucket v = some b) :
    t.find b p = none ↔ ∀ v ∈ t.vals, p v = false := by
  have hany := h.any_iff hp
  rw [Table.find, find?_eq_none]
  constructor
  · intro hnone v hv
    by_contra hpv
    obtain ⟨k, hk, hkp⟩ := List.any_eq_true.mp (hany.mpr ⟨v, hv, by simpa using hpv⟩)
    exact hnone k hk hkp
  intro hall k hk hkp
  obtain ⟨v, hv, hpv⟩ := hany.mp (List.any_eq_true.mpr ⟨k, hk, hkp⟩)
  rw [hall v hv] at hpv
  cases hpv

lemma find_some (h : t.find b p = some k) : ∃ v, t.get k = some v ∧ p v = true := by
  have hp := find?_some h
  rwa [Option.any_eq_true] at hp

/-- The values by their places. -/
lemma map_range_get : (List.range t.vals.length).map t.get = t.vals.map some := by
  refine ext_getElem? fun k => ?_
  rw [getElem?_map, getElem?_map]
  by_cases hk : k < t.vals.length
  · rw [getElem?_range hk, getElem?_eq_getElem hk, map_some, get_eq_vals, getElem?_eq_getElem hk,
      map_some]
  · simp [hk]

/-- The values of a bucket that belong to it are those of the array. -/
lemma Chained.filterMap_perm (h : Chained bucket t) (hp : ∀ v, p v = true → bucket v = some b) :
    ((t.chain b).filterMap fun k => (t.get k).filter p).Perm (t.vals.filter p) := by
  have hperm : ((t.chain b).filter fun k => (t.get k).any p).Perm
      ((List.range t.vals.length).filter fun k => (t.get k).any p) := by
    refine (perm_ext_iff_of_nodup ((h.chain_path b).2.filter _) (nodup_range.filter _)).mpr
      fun k => ?_
    rw [mem_filter, mem_filter, mem_range, Option.any_eq_true]
    constructor
    · rintro ⟨-, v, hv, hpv⟩
      exact ⟨(List.getElem?_eq_some_iff.mp (get_eq_vals k ▸ hv)).1, v, hv, hpv⟩
    · rintro ⟨-, v, hv, hpv⟩
      exact ⟨h.complete k v b hv (hp v hpv), v, hv, hpv⟩
  have hdrop : ∀ l : List Nat, (l.filter fun k => (t.get k).any p).filterMap
    (fun k => (t.get k).filter p) =
      l.filterMap fun k => (t.get k).filter p := by
    intro l
    rw [filterMap_filter]
    congr 1
    funext k
    cases t.get k <;> simp [Option.filter]
  calc (t.chain b).filterMap (fun k => (t.get k).filter p)
      ~ (List.range t.vals.length).filterMap (fun k => (t.get k).filter p) := by
        rw [← hdrop, ← hdrop (List.range _)]
        exact hperm.filterMap _
    _ = ((List.range t.vals.length).map t.get).filterMap (·.filter p) := by rw [filterMap_map]; rfl
    _ = t.vals.filter p := by
        rw [map_range_get, filterMap_map, ← filterMap_eq_filter]
        rfl

/-- Counting in a bucket the values that belong to it counts them in the array. -/
lemma Chained.countP_eq (h : Chained bucket t) (hp : ∀ v, p v = true → bucket v = some b) :
    (t.chain b).countP (fun k => (t.get k).any p) = t.vals.countP p := by
  rw [countP_eq_length_filter (p := p), ← (h.filterMap_perm hp).length_eq,
    length_filterMap_eq_countP]
  simp only [Option.isSome_filter]

/-! ### Overwriting -/

lemma set_cells (k : Nat) (v : α) (i : Nat) :
    (t.set k v).cells[i]? = t.cells[i]?.map fun c => if k = i then { c with val := v } else c := by
  rw [Table.set, getElem?_modify]
  split
  · rfl
  · simp

lemma set_vals (k : Nat) (v : α) : (t.set k v).vals = t.vals.set k v := by
  refine ext_getElem? fun i => ?_
  rw [Table.vals, getElem?_map, set_cells, getElem?_set, Table.vals, length_map, getElem?_map]
  by_cases hki : k = i
  · subst hki
    by_cases hlt : k < t.cells.length
    · simp [hlt]
    · simp [hlt]
  · simp [hki]

lemma set_path {v : α} (hp : Path t.cells h l) : Path (t.set k v).cells h l := by
  refine hp.congr fun i c _ hc => ?_
  rw [set_cells, hc]
  refine ⟨_, rfl, ?_⟩
  split <;> rfl

/-- Overwriting does not change the chains. -/
lemma Chained.set_chain (h : Chained bucket t) (k : Nat) (v : α) (b : Nat) :
    (t.set k v).chain b = t.chain b :=
  have hpath := h.chain_path b
  chain_of_path (set_path hpath.1) hpath.2

/-- A value may be overwritten by one of the same bucket, or by one without a bucket. -/
lemma Chained.set (h : Chained bucket t) {v v' : α} (hv : t.get k = some v)
    (hb : bucket v' = bucket v ∨ bucket v' = none) : Chained bucket (t.set k v') := by
  refine ⟨fun b => ?_, fun i u b hu hub => ?_⟩
  · obtain ⟨l, hp, hn⟩ := h.path b
    exact ⟨l, set_path hp, hn⟩
  rw [h.set_chain]
  rw [get_eq_vals, set_vals, getElem?_set] at hu
  split at hu
  · rename_i hki
    subst hki
    split at hu
    · obtain rfl := some.inj hu
      rcases hb with hb | hb
      · exact h.complete k v b hv (hb ▸ hub)
      · rw [hb] at hub
        cases hub
    · cases hu
  · exact h.complete i u b (get_eq_vals i ▸ hu) hub

/-! ### Adding -/

lemma push_vals (b : Nat) (v : α) : (t.push b v).vals = t.vals ++ [v] := by
  simp [Table.push, Table.vals]

lemma push_path {v : α} (hp : Path t.cells h l) : Path (t.push b v).cells h l := by
  refine hp.congr fun k c hk hc => ⟨c, ?_, rfl⟩
  rw [Table.push, getElem?_append_left (hp.lt k hk), hc]

lemma Chained.push_head (h : Chained bucket t) (b : Nat) (v : α) (b' : Nat) :
    Path (t.push b v).cells ((t.push b v).head b')
      (if b' = b then t.cells.length :: t.chain b else t.chain b') ∧
      (if b' = b then t.cells.length :: t.chain b else t.chain b').Nodup := by
  by_cases hb : b' = b
  · subst hb
    obtain ⟨hp, hn⟩ := h.chain_path b'
    have hhead : (t.push b' v).head b' = some t.cells.length := Function.update_self _ _ _
    rw [if_pos rfl, hhead]
    refine ⟨.cons (c := ⟨v, t.head b'⟩) (by simp [Table.push]) (push_path hp),
      nodup_cons.mpr ⟨fun hmem => ?_, hn⟩⟩
    exact absurd (hp.lt _ hmem) (Nat.lt_irrefl _)
  obtain ⟨hp, hn⟩ := h.chain_path b'
  rw [if_neg hb]
  refine ⟨?_, hn⟩
  have hhead : (t.push b v).head b' = t.head b' := Function.update_of_ne hb _ _
  rw [hhead]
  exact push_path hp

lemma Chained.push (h : Chained bucket t) {v : α} (hv : bucket v = some b) :
    Chained bucket (t.push b v) := by
  refine ⟨fun b' => ⟨_, h.push_head b v b'⟩, fun k u b' hu hub => ?_⟩
  obtain ⟨hp, hn⟩ := h.push_head b v b'
  rw [chain_of_path hp hn]
  rw [get_eq_vals, push_vals] at hu
  by_cases hk : k < t.vals.length
  · rw [getElem?_append_left hk, ← get_eq_vals] at hu
    have hmem := h.complete k u b' hu hub
    split
    · rename_i hb
      exact mem_cons_of_mem _ (hb ▸ hmem)
    · exact hmem
  rw [getElem?_append_right (by omega)] at hu
  have hlen : t.vals.length = t.cells.length := by simp [Table.vals]
  obtain ⟨hz, rfl⟩ : k - t.vals.length = 0 ∧ v = u := by
    have hlt := (List.getElem?_eq_some_iff.mp hu).1
    have hz : k - t.vals.length = 0 := by simpa using hlt
    rw [hz] at hu
    exact ⟨hz, by simpa using hu⟩
  obtain rfl : b = b' := some.inj (hv.symm.trans hub)
  have hkeq : k = t.cells.length := by omega
  simp [hkeq]

/-! ### Sweeping -/

/-- A sweep that takes values out of their buckets. -/
lemma Chained.sweep {p : α → Bool} {f : α → α} (hb : ∀ v, bucket (f v) = none) :
    ∀ (ks : List Nat) {t : Table α}, Chained bucket t → Chained bucket (t.sweep p f ks)
  | [], _, ht => ht
  | k :: ks, t, ht => by
    rw [Table.sweep]
    cases hv : t.get k with
    | none => exact ht.sweep hb ks
    | some v =>
      dsimp only
      split
      · exact (ht.set hv (.inr (hb v))).sweep hb ks
      · exact ht.sweep hb ks

/-- What a sweep leaves in the array: the values it passed over are rewritten once. -/
lemma sweep_vals {p : α → Bool} {f : α → α} (hf : ∀ v, p (f v) = false) :
    ∀ (ks : List Nat) (t : Table α) (i : Nat),
    (t.sweep p f ks).vals[i]? =
      if i ∈ ks then t.vals[i]?.map fun v => if p v then f v else v else t.vals[i]?
  | [], t, i => by simp [Table.sweep]
  | k :: ks, t, i => by
    rw [Table.sweep]
    cases hv : t.get k with
    | none =>
      rw [sweep_vals hf ks t i]
      by_cases hik : i = k
      · subst hik
        rw [get_eq_vals] at hv
        simp [hv]
      · simp [hik]
    | some v =>
      have hvk : t.vals[k]? = some v := get_eq_vals k ▸ hv
      have hlt : k < t.vals.length := (List.getElem?_eq_some_iff.mp hvk).1
      dsimp only
      rw [sweep_vals hf ks _ i]
      by_cases hpv : p v = true
      · rw [if_pos hpv, set_vals, getElem?_set]
        by_cases hik : k = i
        · subst hik
          rw [hvk]
          simp [hlt, hpv, hf]
        · simp [hik, Ne.symm hik]
      rw [if_neg hpv]
      by_cases hik : k = i
      · subst hik
        rw [hvk]
        simp [hpv]
      · simp [Ne.symm hik]

/-- A sweep along a chain rewrites every value of the array that satisfies `p`, if all of them
belong to the bucket. -/
lemma Chained.sweep_chain (h : Chained bucket t) {f : α → α}
    (hp : ∀ v, p v = true → bucket v = some b) (hf : ∀ v, p (f v) = false) :
      (t.sweep p f (t.chain b)).vals = t.vals.map fun v => if p v then f v else v := by
  refine ext_getElem? fun k => ?_
  rw [sweep_vals hf, getElem?_map]
  split
  · rfl
  rename_i hk
  cases hv : t.vals[k]? with
  | none => rfl
  | some v =>
    have hpv : p v = false := by
      by_contra hpv
      exact hk (h.complete k v b (get_eq_vals k ▸ hv) (hp v (by simpa using hpv)))
    simp [hpv]

end Chained

/-! ### Building -/

/-- What linking leaves: the cells of every bucket in ascending order. -/
lemma link_spec (bucket : α → Option Nat) :
    ∀ (vs : List α) (i : Nat) (front : List (Cell α)), front.length = i →
    (link bucket i vs).1.map Cell.val = vs ∧
    ∀ b, ∃ l, Path (front ++ (link bucket i vs).1) ((link bucket i vs).2 b) l ∧ l.Nodup ∧
      (∀ k ∈ l, i ≤ k ∧ vs[k - i]?.bind bucket = some b) ∧ ∀ k v, vs[k]? = some v →
        bucket v = some b → i + k ∈ l
  | [], i, front, _ => ⟨rfl, fun b => ⟨[], .nil, .nil, by simp, by simp⟩⟩
  | v :: vs, i, front, hfront => by
    have hback : ∀ {k b}, i + 1 ≤ k ∧ vs[k - (i + 1)]?.bind bucket = some b → i ≤ k ∧
        (v :: vs)[k - i]?.bind bucket = some b := by
      rintro k b ⟨hlt, hv⟩
      rw [show k - i = k - (i + 1) + 1 by omega, getElem?_cons_succ]
      exact ⟨Nat.le_of_succ_le hlt, hv⟩
    rw [link]
    cases hb : bucket v with
    | none =>
      obtain ⟨hvals, hpath⟩ := link_spec bucket vs (i + 1) (front ++ [⟨v, none⟩]) (by simp [hfront])
      refine ⟨by simp [hvals], fun b => ?_⟩
      obtain ⟨l, hp, hn, hge, hmem⟩ := hpath b
      refine ⟨l, by simpa using hp, hn, fun k hk => hback (hge k hk), fun k u hu hub => ?_⟩
      cases k with
      | zero =>
        obtain rfl : v = u := by simpa using hu
        rw [hb] at hub
        cases hub
      | succ k =>
        have := hmem k u (by simpa using hu) hub
        rwa [Nat.add_assoc, Nat.add_comm 1 k] at this
    | some b₀ =>
      dsimp only
      obtain ⟨hvals, hpath⟩ :=
        link_spec bucket vs (i + 1) (front ++ [⟨v, (link bucket (i + 1) vs).2 b₀⟩])
          (by simp [hfront])
      refine ⟨by simp [hvals], fun b => ?_⟩
      obtain ⟨l, hp, hn, hge, hmem⟩ := hpath b
      have htail : ∀ k u, (v :: vs)[k + 1]? = some u → bucket u = some b → i + (k + 1) ∈ l :=
        fun k u hu hub => by
        have := hmem k u (by simpa using hu) hub
        rwa [Nat.add_assoc, Nat.add_comm 1 k] at this
      by_cases hbb : b = b₀
      · subst hbb
        refine ⟨i :: l, ?_,
          nodup_cons.mpr ⟨fun hmem => absurd (hge i hmem).1 (by omega), hn⟩, ?_, ?_⟩
        · rw [Function.update_self]
          refine .cons (c := ⟨v, (link bucket (i + 1) vs).2 b⟩) ?_ (by simpa using hp)
          rw [getElem?_append_right (by omega), hfront]
          simp
        · intro k hk
          rcases mem_cons.mp hk with rfl | hk
          · exact ⟨Nat.le_refl _, by simpa using hb⟩
          · exact hback (hge k hk)
        intro k u hu hub
        cases k with
        | zero => simp
        | succ k => exact mem_cons_of_mem _ (htail k u hu hub)
      refine ⟨l, ?_, hn, fun k hk => hback (hge k hk), fun k u hu hub => ?_⟩
      · rw [Function.update_of_ne hbb]
        simpa using hp
      cases k with
      | zero =>
        obtain rfl : v = u := by simpa using hu
        exact absurd (some.inj (hub.symm.trans hb)) hbb
      | succ k => exact htail k u hu hub

lemma build_vals (bucket : α → Option Nat) (vs : List α) : (build bucket vs).vals = vs :=
  (link_spec bucket vs 0 [] rfl).1

lemma chained_build (bucket : α → Option Nat) (vs : List α) : Chained bucket (build bucket vs) := by
  obtain ⟨hvals, hpath⟩ := link_spec bucket vs 0 [] rfl
  refine ⟨fun b => ?_, fun k v b hv hb => ?_⟩
  · obtain ⟨l, hp, hn, -⟩ := hpath b
    exact ⟨l, hp, hn⟩
  obtain ⟨l, hp, hn, -, hmem⟩ := hpath b
  rw [chain_of_path (t := build bucket vs) hp hn]
  rw [get_eq_vals, build_vals] at hv
  simpa using hmem k v hv hb

/-- A chain holds values of its bucket only. -/
lemma chain_build {vs : List α} (h : k ∈ (build bucket vs).chain b) :
    vs[k]?.bind bucket = some b := by
  obtain ⟨l, hp, hn, hge, -⟩ := (link_spec bucket vs 0 [] rfl).2 b
  rw [chain_of_path (t := build bucket vs) hp hn] at h
  exact (hge k h).2

end ChainTable
