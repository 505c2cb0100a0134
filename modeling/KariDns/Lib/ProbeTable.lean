import Mathlib.Data.List.Induction
import Mathlib.Data.List.Nodup

/-! Hash tables with open addressing and linear probing.

A table of `n` slots is a function from slot numbers. Insertion takes the first free slot
from the key's own slot on; a search walks the same way until it meets a match or a free
slot. A table filled from a list finds exactly the members of the list, as long as the list
is no longer than the table and what matches has the hash that is searched for.
-/

namespace ProbeTable

open List

variable {h k n : Nat}

variable {α : Type*} {t : Nat → Option α}

/-- The `k`-th slot of a walk that starts at `h`. -/
def slot (n h k : Nat) : Nat := (h + k) % n

/-- The first step of a walk that meets a free slot. -/
def firstFree (n : Nat) (t : Nat → Option α) (h : Nat) : Option Nat :=
  (List.range n).find? fun k => (t (slot n h k)).isNone

/-- Put `v` into the first free slot of its walk. -/
def insert (n : Nat) (t : Nat → Option α) (h : Nat) (v : α) (s : Nat) : Option α :=
  match firstFree n t h with
  | none => t s
  | some k => if s = slot n h k then some v else t s

/-- A table filled in the order of a list. -/
def build (n : Nat) (hash : α → Nat) (l : List α) : Nat → Option α :=
  l.foldl (fun t v => insert n t (hash v) v) fun _ => none

/-- The walk of a search from its `k`-th step on. -/
def walk (n : Nat) (t : Nat → Option α) (h : Nat) (p : α → Bool) : Nat → Nat → Option α
  | 0, _ => none
  | fuel + 1, k =>
    match t (slot n h k) with
    | none => none
    | some v => if p v then some v else walk n t h p fuel (k + 1)

/-- The first match of the walk, none once a slot is free. -/
def find (n : Nat) (t : Nat → Option α) (h : Nat) (p : α → Bool) : Option α := walk n t h p n 0

/-! ### What a table holds -/

/-- `v` stands on the walk from `h` with no free slot before it. -/
def Reachable (n : Nat) (t : Nat → Option α) (h : Nat) (v : α) : Prop :=
  ∃ k < n, t (slot n h k) = some v ∧ ∀ j < k, t (slot n h j) ≠ none

lemma firstFree_some (hk : firstFree n t h = some k) :
    k < n ∧ t (slot n h k) = none ∧ ∀ j < k, t (slot n h j) ≠ none := by
  obtain ⟨hfree, hmem, hbefore⟩ := find?_range_eq_some.mp hk
  refine ⟨mem_range.mp hmem, by simpa using hfree, fun j hj => ?_⟩
  have := hbefore j hj
  simpa [Option.isSome_iff_ne_none] using this

/-- Insertion changes nothing but one free slot. -/
lemma insert_eq (n : Nat) (t : Nat → Option α) (h : Nat) (v : α) {s : Nat} (hs : t s ≠ none) :
    insert n t h v s = t s := by
  unfold insert
  split
  · rfl
  rename_i k hk
  rw [if_neg]
  rintro rfl
  exact hs (firstFree_some hk).2.1

lemma Reachable.insert {t : Nat → Option α} {h' : Nat} {v v' : α} (hr : Reachable n t h v) :
    Reachable n (ProbeTable.insert n t h' v') h v := by
  obtain ⟨k, hk, hv, hbefore⟩ := hr
  refine ⟨k, hk, ?_, fun j hj => ?_⟩
  · rw [insert_eq n t h' v' (by simp [hv]), hv]
  · rw [insert_eq n t h' v' (hbefore j hj)]
    exact hbefore j hj

/-- With a free slot left, an inserted value can be reached. -/
lemma reachable_insert (v : α) (hk : firstFree n t h = some k) :
    Reachable n (ProbeTable.insert n t h v) h v := by
  obtain ⟨hlt, hfree, hbefore⟩ := firstFree_some hk
  refine ⟨k, hlt, by simp [ProbeTable.insert, hk], fun j hj => ?_⟩
  rw [insert_eq n t h v (hbefore j hj)]
  exact hbefore j hj

/-! ### Tables filled from a list -/

/-- How many of the `n` slots are taken. -/
def used (n : Nat) (t : Nat → Option α) : Nat := (List.range n).countP fun s => (t s).isSome

/-- Another value in one place, and how many places have some property. -/
lemma countP_set {β : Type*} {n s : Nat} (f : β → Bool) (t : Nat → β) (c : β) (hs : s < n) :
    (List.range n).countP (fun i => f (if i = s then c else t i)) + (f (t s)).toNat =
      (List.range n).countP (fun i => f (t i)) + (f c).toNat := by
  induction n with
  | zero => omega
  | succ n ih =>
    rw [range_succ, countP_append, countP_append, countP_singleton, countP_singleton]
    by_cases heq : n = s
    · -- the places before are as they were
      subst heq
      have hbelow : (List.range n).countP (fun i => f (if i = n then c else t i)) =
          (List.range n).countP fun i => f (t i) := by
        refine countP_congr fun i hi => ?_
        rw [if_neg (by have := mem_range.mp hi; omega)]
      rw [hbelow, if_pos rfl]
      cases f c <;> cases f (t n) <;> simp
    rw [if_neg heq]
    have := ih (by omega)
    omega

lemma used_insert_le (n : Nat) (t : Nat → Option α) (h : Nat) (v : α) :
    used n (ProbeTable.insert n t h v) ≤ used n t + 1 := by
  unfold used ProbeTable.insert
  split
  · omega
  · rename_i k hk
    have hs : slot n h k < n := Nat.mod_lt _ (Nat.zero_lt_of_lt (firstFree_some hk).1)
    have := countP_set Option.isSome t (some v) hs
    simp only [Option.isSome_some, Bool.toNat_true] at this
    omega

/-- A table with fewer values than slots has a free one on every walk. -/
lemma firstFree_isSome (hused : used n t < n) (h : Nat) : ∃ k, firstFree n t h = some k := by
  obtain ⟨s, hs, hfree⟩ : ∃ s < n, t s = none := by
    by_contra hall
    simp only [not_exists, not_and] at hall
    have hcount : used n t = n := by
      unfold used
      rw [countP_eq_length.mpr fun s hs => Option.isSome_iff_ne_none.mpr
        (hall s (mem_range.mp hs)), length_range]
    omega
  -- every slot is on the walk from `h`: `s` at step `s - h` modulo `n`
  have hstep : slot n h ((s + (n - h % n)) % n) = s := by
    unfold slot
    have hlt : h % n < n := Nat.mod_lt _ (by omega)
    rw [Nat.add_mod, Nat.mod_mod, ← Nat.add_mod]
    have hsum : h + (s + (n - h % n)) = s + n * (h / n + 1) := by
      have := Nat.div_add_mod h n
      rw [Nat.mul_add]
      omega
    rw [hsum, Nat.add_mul_mod_self_left, Nat.mod_eq_of_lt hs]
  refine Option.isSome_iff_exists.mp
    (find?_isSome.mpr ⟨(s + (n - h % n)) % n, mem_range.mpr (Nat.mod_lt _ (by omega)), ?_⟩)
  rw [hstep, hfree]
  rfl

lemma build_concat (n : Nat) (hash : α → Nat) (l : List α) (v : α) :
    build n hash (l ++ [v]) = ProbeTable.insert n (build n hash l) (hash v) v := by
  simp [build]

lemma used_build_le (n : Nat) (hash : α → Nat) (l : List α) :
    used n (build n hash l) ≤ l.length := by
  induction l using List.reverseRecOn with
  | nil => simp [used, build]
  | append_singleton l v ih =>
    rw [build_concat, length_append, length_singleton]
    exact Nat.le_trans (used_insert_le n _ _ _) (Nat.succ_le_succ ih)

/-- What a table holds was put there. -/
lemma mem_of_build {hash : α → Nat} {l : List α} {s : Nat} {v : α}
    (h : build n hash l s = some v) : v ∈ l := by
  induction l using List.reverseRecOn with
  | nil => simp [build] at h
  | append_singleton l w ih =>
    rw [build_concat, ProbeTable.insert] at h
    rw [mem_append]
    split at h
    · exact .inl (ih h)
    split at h
    · exact .inr (by simpa using h.symm)
    · exact .inl (ih h)

/-- Every member can be reached from its hash. -/
lemma reachable_build {n : Nat} {hash : α → Nat} {l : List α} (hlen : l.length ≤ n) {v : α}
    (hv : v ∈ l) :
    Reachable n (build n hash l) (hash v) v := by
  induction l using List.reverseRecOn with
  | nil => simp at hv
  | append_singleton l w ih =>
    rw [length_append, length_singleton] at hlen
    rw [build_concat]
    rcases mem_append.mp hv with hv | hv
    · exact (ih (by omega) hv).insert
    obtain rfl := mem_singleton.mp hv
    obtain ⟨k, hk⟩ :=
      firstFree_isSome (Nat.lt_of_le_of_lt (used_build_le n hash l) (by omega)) (hash v)
    exact reachable_insert v hk

/-! ### Searching -/

lemma walk_some {t : Nat → Option α} {p : α → Bool} {v : α} :
    ∀ {fuel k : Nat}, walk n t h p fuel k = some v → p v = true ∧ ∃ s, t s = some v
  | 0, _, hw => by cases hw
  | fuel + 1, k, hw => by
    rw [walk] at hw
    split at hw
    · cases hw
    rename_i u hu
    split at hw
    · rename_i hp
      cases hw
      exact ⟨hp, _, hu⟩
    · exact walk_some hw

/-- A walk that meets a match before any free slot returns a match. -/
lemma walk_isSome {t : Nat → Option α} {p : α → Bool} {v : α} (hp : p v = true)
    (hv : t (slot n h k) = some v) (hbefore : ∀ j < k, t (slot n h j) ≠ none) :
    ∀ {fuel i : Nat}, i ≤ k → k < i + fuel → ∃ u, walk n t h p fuel i = some u
  | 0, i, hi, hk => by omega
  | fuel + 1, i, hi, hk => by
    rw [walk]
    split
    · rename_i hnone
      rcases Nat.lt_or_eq_of_le hi with hlt | rfl
      · exact absurd hnone (hbefore i hlt)
      · rw [hv] at hnone
        cases hnone
    rename_i u hu
    split
    · exact ⟨u, rfl⟩
    rename_i hpu
    rcases Nat.lt_or_eq_of_le hi with hlt | rfl
    · exact walk_isSome hp hv hbefore hlt (by omega)
    rw [hv] at hu
    cases hu
    exact absurd hp hpu

/-- A search in a table filled from a list gives the member that matches. -/
lemma find_build {hash : α → Nat} {l : List α} {p : α → Bool} (hlen : l.length ≤ n)
    (hhash : ∀ v ∈ l, p v = true → hash v = h)
    (hone : ∀ v ∈ l, ∀ u ∈ l, p v = true → p u = true → v = u) :
    find n (build n hash l) h p = l.find? p := by
  cases hfind : l.find? p with
  | none =>
    rw [find?_eq_none] at hfind
    cases hw : find n (build n hash l) h p with
    | none => rfl
    | some v =>
      obtain ⟨hp, s, hs⟩ := walk_some hw
      exact absurd hp (hfind v (mem_of_build hs))
  | some v =>
    have hp := find?_some hfind
    have hv := mem_of_find?_eq_some hfind
    obtain ⟨k, hk, hslot, hbefore⟩ := @reachable_build _ n hash l hlen v hv
    rw [hhash v hv hp] at hslot hbefore
    obtain ⟨u, hu⟩ := walk_isSome hp hslot hbefore (Nat.zero_le k) (show k < 0 + n by omega)
    obtain ⟨hpu, s, hs⟩ := walk_some hu
    rw [find, hu, hone v hv u (mem_of_build hs) hp hpu]

end ProbeTable
