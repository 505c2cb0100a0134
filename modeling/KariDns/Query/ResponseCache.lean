import KariDns.Lib.Octets
import Mathlib.Data.List.FinRange
import Mathlib.Logic.Function.Basic

/-! The cache of response bodies all workers share (`rcache_*` in `dns_query_engine.c`).

The table is a row of sets. A set has an index of eight entries and a data area of 128 words; a
body is laid down behind the one before it, or at the start of the area if it does not fit there,
and the entries whose words it takes are cleared. A word is given by its eight octets in memory,
since words are only ever filled and read with `memcpy`.

The calls considered are made one after the other, so the sequence number of a set is even whenever
a call begins.
-/

namespace KariDns

open Octets List

variable {log : List RcacheStore} {c : Rcache} {set : RcacheSet} {s : RcacheStore} {tag : UInt64}

/-! ### Sets -/

/-- `RCACHE_SET_ENTRIES`. -/
abbrev rcacheSetEntries : Nat := 8

/-- `RCACHE_SET_WORDS`. -/
abbrev rcacheSetWords : Nat := 128

/-- `RCACHE_BODY_MAX`. -/
abbrev rcacheBodyMax : Nat := 496

/-- `rcache_ent_t`; the tag is 0 in an entry that is free. -/
structure RcacheEnt where
  tag : UInt64 := 0
  gen : UInt64 := 0
  counts : Nat := 0
  metaWord : Nat := 0
  off : Nat := 0

/-- `meta >> 16`. -/
def RcacheEnt.qtype (e : RcacheEnt) : Nat := e.metaWord >>> 16

/-- `meta & 0xFFFF`. -/
def RcacheEnt.len (e : RcacheEnt) : Nat := e.metaWord &&& 65535

/-- The words an entry's body takes. -/
def RcacheEnt.words (e : RcacheEnt) : Nat := (e.len + 7) / 8

/-- `rcache_set_t`. -/
structure RcacheSet where
  seq : Nat := 0
  head : Nat := 0
  next : Nat := 0
  ent : Fin rcacheSetEntries → RcacheEnt := fun _ => {}
  data : Buf := fun _ => 0

/-- The sections of a body, as they are counted in the header. -/
structure RcacheCounts where
  an : UInt16
  ns : UInt16
  ar : UInt16
  deriving DecidableEq, Repr

/-- `(uint64_t)an | ((uint64_t)ns << 16) | ((uint64_t)ar << 32)`. -/
def RcacheCounts.pack (c : RcacheCounts) : Nat :=
  c.an.toNat ||| c.ns.toNat <<< 16 ||| c.ar.toNat <<< 32

/-- The three counts of a packed word. -/
def RcacheCounts.unpack (n : Nat) : RcacheCounts :=
  ⟨UInt16.ofNat n, UInt16.ofNat (n >>> 16), UInt16.ofNat (n >>> 32)⟩

/-- One call of `rcache_store`. -/
structure RcacheStore where
  tag : UInt64
  gen : UInt64
  qtype : UInt16
  body : List UInt8
  counts : RcacheCounts
  deriving DecidableEq, Repr

/-- A body `rcache_store` lays down. -/
def RcacheStore.Cacheable (s : RcacheStore) : Prop :=
  s.body.length ≠ 0 ∧ s.body.length ≤ rcacheBodyMax

instance : DecidablePred RcacheStore.Cacheable := fun _ => inferInstanceAs (Decidable (_ ∧ _))

/-- `(len + 7) / 8`. -/
def RcacheStore.words (s : RcacheStore) : Nat := (s.body.length + 7) / 8

/-! ### Words -/

/-- The loop of `rcache_store` over the words of a body: each word is zero behind the last octet. -/
def storeWords (d : Buf) (off : Nat) : Nat → List UInt8 → Buf
  | 0, _ => d
  | n + 1, body =>
    storeWords (blit d (8 * off) (body.take 8 ++ List.replicate (8 - body.length) 0))
      (off + 1) n (body.drop 8)

/-- The loop of `rcache_lookup` over the words of a body of `len` octets. -/
def loadWords (d : Buf) (off : Nat) : Nat → Nat → List UInt8
  | 0, _ => []
  | n + 1, len => slice d (8 * off) (min len 8) ++ loadWords d (off + 1) n (len - 8)

/-! ### Store and lookup -/

/-- The entry is of the same key as the store, or its words are among those the store takes. -/
def RcacheEnt.displaced (e : RcacheEnt) (tag : UInt64) (off words : Nat) : Prop :=
  e.tag = tag ∨ e.off < off + words ∧ off < e.off + e.words

instance (e : RcacheEnt) (tag : UInt64) (off words : Nat) : Decidable (e.displaced tag off words) :=
  inferInstanceAs (Decidable (_ ∨ _))

/-- One turn of the loop of `rcache_store` over the index: the entry is cleared if it is displaced,
and the first free one is remembered. -/
def rcacheClearStep (tag : UInt64) (off words : Nat)
    (st : (Fin rcacheSetEntries → RcacheEnt) × Option (Fin rcacheSetEntries))
    (i : Fin rcacheSetEntries) :
    (Fin rcacheSetEntries → RcacheEnt) × Option (Fin rcacheSetEntries) :=
  let e := st.1 i
  let t := if e.tag ≠ 0 ∧ e.displaced tag off words then 0 else e.tag
  (Function.update st.1 i { e with tag := t }, if t = 0 then st.2 <|> some i else st.2)

/-- Where a body of `words` words is laid down. -/
def RcacheSet.place (set : RcacheSet) (words : Nat) : Nat :=
  if set.head + words > rcacheSetWords then 0 else set.head

/-- The entry `rcache_store` writes. -/
def RcacheStore.entry (s : RcacheStore) (off : Nat) : RcacheEnt where
  tag := s.tag
  gen := s.gen
  counts := s.counts.pack
  metaWord := s.qtype.toNat <<< 16 ||| s.body.length
  off := off

/-- `rcache_store` in the set of its tag. -/
def RcacheSet.store (set : RcacheSet) (s : RcacheStore) : RcacheSet :=
  if ¬ s.Cacheable then set
  else if set.seq % 2 = 1 then set
  else
    let words := s.words
    let off := set.place words
    let (ent, free) :=
      (List.finRange rcacheSetEntries).foldl (rcacheClearStep s.tag off words) (set.ent, none)
    let slot := free.getD (Fin.ofNat rcacheSetEntries set.next)
    { seq := (set.seq + 2) % 2 ^ 32
      head := off + words
      next := if free.isSome then set.next else (set.next + 1) % 2 ^ 32
      ent := Function.update ent slot (s.entry off)
      data := storeWords set.data off words s.body }

/-- `rcache_lookup` in the set of its tag: the body and its counts. -/
def RcacheSet.lookup (set : RcacheSet) (tag gen : UInt64) (qtype : UInt16) (room : Nat) :
    Option (List UInt8 × RcacheCounts) :=
  if set.seq % 2 = 1 then none
  else
    match (List.finRange rcacheSetEntries).find? fun i =>
        (set.ent i).tag = tag ∧ (set.ent i).gen = gen ∧ (set.ent i).qtype = qtype.toNat with
    | none => none
    | some i =>
      let e := set.ent i
      if e.len = 0 ∨ e.len > rcacheBodyMax ∨ e.len > room ∨
        e.off + e.words > rcacheSetWords then none
      else some (loadWords set.data e.off e.words e.len, RcacheCounts.unpack e.counts)

/-! ### The table -/

/-- `g_rcache` with `g_rcache_sets`, once it is set up. -/
structure Rcache where
  n : Nat
  pos : 0 < n
  fits : n ≤ 4294967295
  sets : Fin n → RcacheSet

/-- `sizeof(rcache_set_t)`. -/
def rcacheSetSize : Nat := 16 + rcacheSetEntries * 32 + rcacheSetWords * 8

/-- `response_cache_init`, `none` where it leaves no table. -/
def responseCacheInit (bytes : Nat) : Option Rcache :=
  if h : bytes / rcacheSetSize = 0 ∨ bytes / rcacheSetSize > 4294967295 then none
  else some ⟨bytes / rcacheSetSize, Nat.pos_of_ne_zero fun h0 => h (.inl h0),
    Nat.not_lt.mp fun hgt => h (.inr hgt), fun _ => {}⟩

lemma rcacheSet_lt {n : Nat} (hn : 0 < n) (tag : UInt64) : ((tag.toNat >>> 32) * n) >>> 32 < n := by
  have ht : tag.toNat >>> 32 < 2 ^ 32 := by
    rw [Nat.shiftRight_eq_div_pow]
    have := tag.toNat_lt
    omega
  rw [Nat.shiftRight_eq_div_pow, Nat.div_lt_iff_lt_mul (by decide), Nat.mul_comm n]
  exact Nat.mul_lt_mul_of_pos_right ht hn

/-- `rcache_set_of`; the product fits in 64 bits. -/
def Rcache.setOf (c : Rcache) (tag : UInt64) : Fin c.n :=
  ⟨((tag.toNat >>> 32) * c.n) >>> 32, rcacheSet_lt c.pos tag⟩

/-- `rcache_store`. -/
def rcacheStore (c : Rcache) (s : RcacheStore) : Rcache :=
  { c with sets := Function.update c.sets (c.setOf s.tag) ((c.sets (c.setOf s.tag)).store s) }

/-- `rcache_lookup`. -/
def rcacheLookup (c : Rcache) (tag gen : UInt64) (qtype : UInt16) (room : Nat) :
    Option (List UInt8 × RcacheCounts) :=
  (c.sets (c.setOf tag)).lookup tag gen qtype room

/-- A call of the cache. -/
inductive RcacheCall
  | store (s : RcacheStore)
  | lookup (tag gen : UInt64) (qtype : UInt16) (room : Nat)

/-- The table after a call; a lookup leaves it as it is. -/
def rcacheCall (c : Rcache) : RcacheCall → Rcache
  | .store s => rcacheStore c s
  | .lookup .. => c

/-- The table after a sequence of calls. -/
def rcacheRun (c : Rcache) (calls : List RcacheCall) : Rcache := calls.foldl rcacheCall c

/-- The stores among some calls. -/
def storesOf (calls : List RcacheCall) : List RcacheStore :=
  calls.filterMap fun | .store s => some s | .lookup .. => none

/-- The store is made under this tag, generation and type. -/
def RcacheStore.hasKey (s : RcacheStore) (tag gen : UInt64) (qtype : UInt16) : Bool :=
  decide (s.tag = tag ∧ s.gen = gen ∧ s.qtype = qtype)

/-- The entry is in use. -/
def RcacheEnt.Live (e : RcacheEnt) : Prop := e.tag ≠ 0

/-- The words of the entries in use lie inside the set, no two in the same place. -/
structure RcacheSet.Apart (set : RcacheSet) : Prop where
  inside : ∀ i, (set.ent i).Live → (set.ent i).off + (set.ent i).words ≤ rcacheSetWords
  disjoint : ∀ i j, i ≠ j → (set.ent i).Live → (set.ent j).Live →
    (set.ent i).off + (set.ent i).words ≤ (set.ent j).off ∨
      (set.ent j).off + (set.ent j).words ≤ (set.ent i).off

/-! ### Packed fields -/

lemma shiftLeft_or {a b i : Nat} (h : b < 2 ^ i) : a <<< i ||| b = a * 2 ^ i + b := by
  rw [← Nat.shiftLeft_add_eq_or_of_lt h, Nat.shiftLeft_eq]

lemma RcacheCounts.unpack_pack (c : RcacheCounts) : RcacheCounts.unpack c.pack = c := by
  have han := c.an.toNat_lt
  have hns := c.ns.toNat_lt
  have har := c.ar.toNat_lt
  have hlow : c.an.toNat ||| c.ns.toNat <<< 16 = c.ns.toNat * 2 ^ 16 + c.an.toNat := by
    rw [Nat.or_comm]
    exact shiftLeft_or han
  have hpack : c.pack = c.ar.toNat * 2 ^ 32 + (c.ns.toNat * 2 ^ 16 + c.an.toNat) := by
    unfold pack
    rw [hlow, Nat.or_comm]
    exact shiftLeft_or (by omega)
  have h1 : UInt16.ofNat c.pack = c.an := by
    apply UInt16.toNat_inj.mp
    rw [UInt16.toNat_ofNat', hpack]
    omega
  have h2 : UInt16.ofNat (c.pack >>> 16) = c.ns := by
    apply UInt16.toNat_inj.mp
    rw [UInt16.toNat_ofNat', Nat.shiftRight_eq_div_pow, hpack]
    omega
  have h3 : UInt16.ofNat (c.pack >>> 32) = c.ar := by
    apply UInt16.toNat_inj.mp
    rw [UInt16.toNat_ofNat', Nat.shiftRight_eq_div_pow, hpack]
    omega
  rw [unpack, h1, h2, h3]

section entry

variable {s : RcacheStore} (hs : s.Cacheable) (off : Nat)
include hs

lemma RcacheStore.metaWord_entry :
    (s.entry off).metaWord = s.qtype.toNat * 2 ^ 16 + s.body.length := by
  have hle : s.body.length ≤ 496 := hs.2
  exact shiftLeft_or (by omega)

lemma RcacheStore.len_entry : (s.entry off).len = s.body.length := by
  have hle : s.body.length ≤ 496 := hs.2
  have hmask := Nat.and_two_pow_sub_one_eq_mod (s.entry off).metaWord 16
  rw [RcacheEnt.len, show 65535 = 2 ^ 16 - 1 from rfl, hmask, metaWord_entry hs]
  omega

lemma RcacheStore.qtype_entry : (s.entry off).qtype = s.qtype.toNat := by
  have hle : s.body.length ≤ 496 := hs.2
  rw [RcacheEnt.qtype, Nat.shiftRight_eq_div_pow, metaWord_entry hs]
  omega

lemma RcacheStore.words_entry : (s.entry off).words = s.words := by
  rw [RcacheEnt.words, len_entry hs, RcacheStore.words]

end entry

/-! ### Words -/

lemma storeWords_outside (n : Nat) (d : Buf) (off : Nat) (body : List UInt8) {i : Nat}
    (hi : i < 8 * off ∨ 8 * (off + n) ≤ i) : storeWords d off n body i = d i := by
  induction n generalizing d off body with
  | zero => rfl
  | succ n ih =>
    rw [storeWords, ih _ _ _ (by omega)]
    rcases hi with hlt | hge
    · exact blit_lt hlt
    refine blit_ge ?_
    simp only [length_append, length_take, length_replicate]
    omega

lemma loadWords_congr (n : Nat) {d d' : Buf} {off : Nat} (len : Nat)
    (h : AgreeOn (8 * off) (8 * (off + n)) d d') :
    loadWords d off n len = loadWords d' off n len := by
  induction n generalizing off len with
  | zero => rfl
  | succ n ih =>
    have hword : slice d (8 * off) (min len 8) = slice d' (8 * off) (min len 8) :=
      slice_congr fun i h1 h2 => h i h1 (by omega)
    have hrest : AgreeOn (8 * (off + 1)) (8 * (off + 1 + n)) d d' :=
      fun i h1 h2 => h i (by omega) (by omega)
    rw [loadWords, loadWords, hword, ih _ hrest]

/-- What was stored is read back. -/
lemma loadWords_storeWords (n : Nat) (d : Buf) (off : Nat) (body : List UInt8)
    (hn : body.length ≤ 8 * n) :
    loadWords (storeWords d off n body) off n body.length = body := by
  induction n generalizing d off body with
  | zero =>
    have hnil : body = [] := eq_nil_of_length_eq_zero (by omega)
    rw [hnil]
    rfl
  | succ n ih =>
    have hfirst : slice (storeWords d off (n + 1) body) (8 * off) (min body.length 8) =
        body.take 8 := by
      have hpart :=
        (holds_append.mp
          (holds_blit d (8 * off) (body.take 8 ++ List.replicate (8 - body.length) 0))).1
      rw [Holds, length_take, Nat.min_comm] at hpart
      refine (slice_congr fun i _ h2 => ?_).trans hpart
      exact storeWords_outside n _ (off + 1) _ (.inl (by omega))
    have hrest := ih (blit d (8 * off) (body.take 8 ++ List.replicate (8 - body.length) 0))
      (off + 1) (body.drop 8)
      (by rw [length_drop]; omega)
    rw [length_drop] at hrest
    rw [loadWords, hfirst, storeWords, hrest, take_append_drop]

/-! ### The index -/

/-- An entry behind the loop over the index. -/
def RcacheEnt.cleared (e : RcacheEnt) (tag : UInt64) (off words : Nat) : RcacheEnt :=
  { e with tag := if e.tag ≠ 0 ∧ e.displaced tag off words then 0 else e.tag }

lemma RcacheEnt.Live.of_cleared {e : RcacheEnt} {off words : Nat}
    (h : (e.cleared tag off words).Live) :
    e.Live ∧ e.cleared tag off words = e ∧ ¬ e.displaced tag off words := by
  unfold Live cleared at h
  by_cases hc : e.tag ≠ 0 ∧ e.displaced tag off words
  · exact absurd (if_pos hc) h
  have htag : e.tag ≠ 0 := by
    rwa [if_neg hc] at h
  exact ⟨htag, by rw [cleared, if_neg hc], fun hd => hc ⟨htag, hd⟩⟩

lemma rcacheClear_ent (tag : UInt64) (off words : Nat) (l : List (Fin rcacheSetEntries))
    (hl : l.Nodup) (ent : Fin rcacheSetEntries → RcacheEnt) (free : Option (Fin rcacheSetEntries))
    (i : Fin rcacheSetEntries) :
    (l.foldl (rcacheClearStep tag off words) (ent, free)).1 i =
      if i ∈ l then (ent i).cleared tag off words else ent i := by
  induction l generalizing ent free with
  | nil => simp
  | cons j l ih =>
    obtain ⟨hj, hl⟩ := nodup_cons.mp hl
    rw [foldl_cons, rcacheClearStep, ih hl]
    by_cases hij : i = j
    · subst hij
      simp [hj, RcacheEnt.cleared]
    · simp [hij]

/-- What `rcache_store` leaves in a set nobody else is writing to: some entry is the new one, the
others are cleared if they are displaced. -/
lemma RcacheSet.store_eq (hs : s.Cacheable) (hseq : set.seq % 2 = 0) :
    ∃ slot : Fin rcacheSetEntries,
      (set.store s).seq % 2 = 0 ∧ (set.store s).head = set.place s.words + s.words ∧
      (set.store s).data = storeWords set.data (set.place s.words) s.words s.body ∧
      ∀ i, (set.store s).ent i = if i = slot then s.entry (set.place s.words)
        else (set.ent i).cleared s.tag (set.place s.words) s.words := by
  have hclear := rcacheClear_ent s.tag (set.place s.words) s.words (List.finRange rcacheSetEntries)
    (nodup_finRange _) set.ent none
  unfold store
  rw [if_neg (not_not.mpr hs), if_neg (by omega)]
  refine ⟨((List.finRange rcacheSetEntries).foldl
    (rcacheClearStep s.tag (set.place s.words) s.words)
    (set.ent, none)).2.getD (Fin.ofNat rcacheSetEntries set.next), ?_, rfl, rfl, fun i => ?_⟩
  · simp only
    omega
  · simp only [Function.update_apply, hclear i, mem_finRange, if_true]

/-! ### The invariant -/

/-- The last of some stores that is of this tag. -/
def lastOfTag (log : List RcacheStore) (tag : UInt64) : Option RcacheStore :=
  (log.filter (·.tag = tag)).getLast?

lemma lastOfTag_concat (log : List RcacheStore) (s : RcacheStore) (tag : UInt64) :
    lastOfTag (log ++ [s]) tag = if s.tag = tag then some s else lastOfTag log tag := by
  unfold lastOfTag
  by_cases h : s.tag = tag <;> simp [filter_append, h]

/-- An entry in use is that of the last store of its tag, and the body of that store stands in its
words. `log` is the list of the stores that were laid down in the set. -/
structure RcacheSet.Laid (set : RcacheSet) (log : List RcacheStore) : Prop where
  seq : set.seq % 2 = 0
  head : set.head ≤ rcacheSetWords
  apart : set.Apart
  last : ∀ i, (set.ent i).Live → ∃ s, lastOfTag log (set.ent i).tag = some s ∧ s.Cacheable ∧
    set.ent i = s.entry (set.ent i).off ∧
      loadWords set.data (set.ent i).off s.words s.body.length = s.body

lemma RcacheSet.laid_empty : ({} : RcacheSet).Laid [] where
  seq := rfl
  head := by decide
  apart := ⟨fun _ h => absurd rfl h, fun _ _ _ h => absurd rfl h⟩
  last := fun _ h => absurd rfl h

lemma RcacheSet.place_le (set : RcacheSet) (hs : s.Cacheable) :
    set.place s.words + s.words ≤ rcacheSetWords := by
  have hle : s.body.length ≤ 496 := hs.2
  unfold place RcacheStore.words
  split <;> simp only [rcacheSetWords] at * <;> omega

/-- A body that is laid down keeps the invariant. -/
lemma RcacheSet.Laid.store (h : set.Laid log) (hs : s.Cacheable) :
    (set.store s).Laid (log ++ [s]) := by
  obtain ⟨slot, hseq, hhead, hdata, hent⟩ := RcacheSet.store_eq hs h.seq
  have hfit := set.place_le hs
  generalize set.place s.words = off at hhead hdata hent hfit
  -- an entry in use is the new one, or an old one that is not displaced
  have hold : ∀ i, i ≠ slot → ((set.store s).ent i).Live →
      (set.store s).ent i = set.ent i ∧ (set.ent i).Live ∧
        ¬ (set.ent i).displaced s.tag off s.words := by
    intro i hi hlive
    rw [hent i, if_neg hi] at hlive ⊢
    obtain ⟨h1, h2, h3⟩ := hlive.of_cleared
    exact ⟨h2, h1, h3⟩
  have hnew : (set.store s).ent slot = s.entry off := (hent slot).trans (if_pos rfl)
  have hnewoff : ((set.store s).ent slot).off = off := by
    rw [hnew]
    rfl
  have hnewwords : ((set.store s).ent slot).words = s.words := by
    rw [hnew, RcacheStore.words_entry hs]
  have hbeside : ∀ i, i ≠ slot → ((set.store s).ent i).Live →
      ((set.store s).ent i).off + ((set.store s).ent i).words ≤ off ∨
        off + s.words ≤ ((set.store s).ent i).off := by
    intro i hi hlive
    obtain ⟨heq, -, hdis⟩ := hold i hi hlive
    have hrange := (not_or.mp hdis).2
    rw [heq]
    omega
  refine ⟨hseq, hhead ▸ hfit, ⟨fun i hi => ?_, fun i j hij hi hj => ?_⟩, fun i hi => ?_⟩
  · by_cases his : i = slot
    · rw [his, hnewoff, hnewwords]
      exact hfit
    obtain ⟨heq, hlive, -⟩ := hold i his hi
    rw [heq]
    exact h.apart.inside i hlive
  · by_cases his : i = slot
    · have := hbeside j (fun hjs => hij (his.trans hjs.symm)) hj
      rw [his, hnewoff, hnewwords]
      omega
    by_cases hjs : j = slot
    · have := hbeside i his hi
      rw [hjs, hnewoff, hnewwords]
      omega
    obtain ⟨hei, hli, -⟩ := hold i his hi
    obtain ⟨hej, hlj, -⟩ := hold j hjs hj
    rw [hei, hej]
    exact h.apart.disjoint i j hij hli hlj
  by_cases his : i = slot
  · refine ⟨s, ?_, hs, ?_, ?_⟩
    · rw [his, hnew]
      exact (lastOfTag_concat log s s.tag).trans (if_pos rfl)
    · rw [his, hnewoff, hnew]
    · rw [his, hnewoff, hdata]
      exact loadWords_storeWords _ _ _ _ (by unfold RcacheStore.words; omega)
  have hside := hbeside i his hi
  obtain ⟨heq, hlive, hdis⟩ := hold i his hi
  obtain ⟨s', hlast, hs', hentry, hload⟩ := h.last i hlive
  have hwords : (set.ent i).words = s'.words := by
    rw [hentry]
    exact RcacheStore.words_entry hs' _
  rw [heq] at hside ⊢
  refine ⟨s', ?_, hs', hentry, ?_⟩
  · rw [lastOfTag_concat, if_neg fun ht => hdis (.inl ht.symm), hlast]
  rw [hdata]
  have hsame : AgreeOn (8 * (set.ent i).off) (8 * ((set.ent i).off + s'.words))
      (storeWords set.data off s.words s.body) set.data :=
    fun k h1 h2 => storeWords_outside _ _ _ _ (by omega)
  exact (loadWords_congr _ _ hsame).trans hload

/-- A hit is on the last store of the tag. -/
lemma RcacheSet.Laid.lookup (h : set.Laid log) {gen : UInt64} {qtype : UInt16} {room : Nat}
    {hit : List UInt8 × RcacheCounts} (htag : tag ≠ 0)
    (hhit : set.lookup tag gen qtype room = some hit) :
    ∃ s, lastOfTag log tag = some s ∧ s.hasKey tag gen qtype ∧ hit = (s.body, s.counts) := by
  unfold RcacheSet.lookup at hhit
  rw [if_neg (by have := h.seq; omega)] at hhit
  cases hfind : (List.finRange rcacheSetEntries).find? fun i =>
      (set.ent i).tag = tag ∧ (set.ent i).gen = gen ∧ (set.ent i).qtype = qtype.toNat with
  | none =>
    rw [hfind] at hhit
    cases hhit
  | some i =>
    rw [hfind] at hhit
    obtain ⟨ht, hg, hq⟩ : (set.ent i).tag = tag ∧ (set.ent i).gen = gen ∧
        (set.ent i).qtype = qtype.toNat := by
      simpa using find?_some hfind
    obtain ⟨s, hlast, hs, hentry, hload⟩ := h.last i (fun h0 => htag (ht.symm.trans h0))
    have hlen : (set.ent i).len = s.body.length := by
      rw [hentry]
      exact RcacheStore.len_entry hs _
    have hwords : (set.ent i).words = s.words := by
      rw [hentry]
      exact RcacheStore.words_entry hs _
    have hcounts : RcacheCounts.unpack (set.ent i).counts = s.counts := by
      rw [hentry]
      exact RcacheCounts.unpack_pack _
    have hqtype : s.qtype = qtype := by
      rw [hentry, RcacheStore.qtype_entry hs] at hq
      exact UInt16.toNat_inj.mp hq
    have hkey : s.tag = tag ∧ s.gen = gen := by
      rw [hentry] at ht hg
      exact ⟨ht, hg⟩
    refine ⟨s, ht ▸ hlast, ?_, ?_⟩
    · simp [RcacheStore.hasKey, hkey.1, hkey.2, hqtype]
    simp only at hhit
    split at hhit
    · cases hhit
    · rw [hwords, hlen, hload, hcounts] at hhit
      exact (Option.some.inj hhit).symm

/-! ### Runs -/

/-- The stores laid down in one set of the table. -/
def laidIn (c : Rcache) (log : List RcacheStore) (k : Fin c.n) : List RcacheStore :=
  log.filter fun s => s.Cacheable ∧ c.setOf s.tag = k

/-- Every set of the table keeps its invariant for the stores it was given. -/
def Rcache.Laid (c : Rcache) (log : List RcacheStore) : Prop :=
  ∀ k, (c.sets k).Laid (laidIn c log k)

lemma responseCacheInit_laid {bytes : Nat} (h : responseCacheInit bytes = some c) : c.Laid [] := by
  unfold responseCacheInit at h
  split at h
  · cases h
  · cases h
    exact fun k => RcacheSet.laid_empty

lemma Rcache.Laid.store (h : c.Laid log) (s : RcacheStore) :
    (rcacheStore c s).Laid (log ++ [s]) := by
  intro (k : Fin c.n)
  have hlog : laidIn c (log ++ [s]) k = laidIn c log k ++ if s.Cacheable ∧ c.setOf s.tag = k then
      [s] else [] := by
    by_cases hk : s.Cacheable ∧ c.setOf s.tag = k <;> simp [laidIn, filter_append, hk]
  change (Function.update c.sets (c.setOf s.tag) _ k).Laid (laidIn c (log ++ [s]) k)
  rw [hlog]
  by_cases hk : k = c.setOf s.tag
  · subst hk
    rw [Function.update_self]
    by_cases hs : s.Cacheable
    · rw [if_pos ⟨hs, rfl⟩]
      exact (h _).store hs
    · rw [if_neg fun hc => hs hc.1, append_nil, RcacheSet.store, if_pos hs]
      exact h _
  · rw [Function.update_of_ne hk, if_neg fun hc => hk hc.2.symm, append_nil]
    exact h k

lemma Rcache.Laid.run (h : c.Laid log) (calls : List RcacheCall) :
    (rcacheRun c calls).Laid (log ++ storesOf calls) := by
  induction calls generalizing c log with
  | nil => simpa [rcacheRun, storesOf] using h
  | cons call calls ih =>
    cases call with
    | store s =>
      have hrest := ih (h.store s)
      rwa [append_assoc] at hrest
    | lookup tag gen qtype room => exact ih h

/-- The last store of a tag, if its generation and type are those asked for, is the last store of
that key. -/
lemma lastOfTag_key {gen : UInt64} {qtype : UInt16}
    (hlast : lastOfTag (laidIn c log (c.setOf tag)) tag = some s) (hkey : s.hasKey tag gen qtype) :
      (log.filter fun s => s.Cacheable ∧ s.hasKey tag gen qtype).getLast? = some s := by
  have htag : lastOfTag (laidIn c log (c.setOf tag)) tag =
      (log.filter fun s => s.Cacheable ∧ s.tag = tag).getLast? := by
    unfold lastOfTag laidIn
    rw [filter_filter]
    congr 2
    funext s
    by_cases ht : s.tag = tag <;> simp [ht]
  rw [htag, getLast?_eq_some_iff] at hlast
  obtain ⟨before, hlast⟩ := hlast
  have hsub : (log.filter fun s => s.Cacheable ∧ s.hasKey tag gen qtype) =
      (log.filter fun s => s.Cacheable ∧ s.tag = tag).filter (·.hasKey tag gen qtype) := by
    rw [filter_filter]
    congr 1
    funext s
    by_cases ht : s.tag = tag <;> by_cases hs : s.Cacheable <;> simp [ht, hs, RcacheStore.hasKey]
  rw [hsub, hlast]
  simp [filter_append, hkey]

/-- Whatever calls are made one after the other: a hit under a tag that is not the mark of a free
entry returns the octets and counts of the last store of that tag, generation and type whose body
can be kept, and the words of the entries in use stay apart and inside their set. -/
theorem rcacheLookup_last_store {bytes : Nat} {c : Rcache} (hc : responseCacheInit bytes = some c)
    (calls : List RcacheCall) :
    (∀ k, ((rcacheRun c calls).sets k).Apart) ∧
      ∀ (tag gen : UInt64) (qtype : UInt16) (room : Nat) (hit : List UInt8 × RcacheCounts),
        tag ≠ 0 → rcacheLookup (rcacheRun c calls) tag gen qtype room = some hit →
        ((storesOf calls).filter fun s => s.Cacheable ∧ s.hasKey tag gen qtype).getLast?.map
          (fun s => (s.body, s.counts)) = some hit := by
  have hlaid := (responseCacheInit_laid hc).run calls
  rw [nil_append] at hlaid
  refine ⟨fun k => (hlaid k).apart, fun tag gen qtype room hit htag hhit => ?_⟩
  obtain ⟨s, hlast, hkey, rfl⟩ := (hlaid _).lookup htag hhit
  rw [lastOfTag_key hlast hkey]
  rfl

/-- A table of one set. -/
def oneSet : Rcache := ⟨1, by decide, by decide, fun _ => {}⟩

/-- A body of three octets, and one under the same key that is too large. -/
def smallThenLarge : List RcacheCall :=
  [.store ⟨9, 1, 1, [1, 2, 3], ⟨1, 0, 0⟩⟩, .store ⟨9, 1, 1, List.replicate 497 0, ⟨2, 0, 0⟩⟩]

/-- Two stores of one key, the first of which is replaced, and its lookup. -/
theorem rcacheLookup_replaced :
    rcacheLookup
      (rcacheRun oneSet [.store ⟨9, 1, 1, [1, 2, 3], ⟨1, 0, 0⟩⟩, .store ⟨9, 1, 1, [4], ⟨2, 1, 0⟩⟩])
        9 1 1 512 = some ([4], ⟨2, 1, 0⟩) ∧
      ((storesOf [.store ⟨9, 1, 1, [1, 2, 3], ⟨1, 0, 0⟩⟩, .store ⟨9, 1, 1, [4], ⟨2, 1, 0⟩⟩]).filter
        fun s => s.Cacheable ∧
          s.hasKey 9 1 1).getLast?.map (fun s => (s.body, s.counts)) = some ([4], ⟨2, 1, 0⟩) := by
  have hhit : rcacheLookup (rcacheRun oneSet
      [.store ⟨9, 1, 1, [1, 2, 3], ⟨1, 0, 0⟩⟩, .store ⟨9, 1, 1, [4], ⟨2, 1, 0⟩⟩]) 9 1 1 512 =
        some ([4], ⟨2, 1, 0⟩) := by decide +kernel
  have hinit : responseCacheInit 1296 = some oneSet := rfl
  exact ⟨hhit, (rcacheLookup_last_store hinit _).2 9 1 1 512 _ (by decide) hhit⟩

/-- A body that is too large is not kept, and does not take the place of the one before it. -/
theorem rcacheLookup_behind_large : responseCacheInit 1296 = some oneSet ∧
      rcacheLookup (rcacheRun oneSet smallThenLarge) 9 1 1 512 = some ([1, 2, 3], ⟨1, 0, 0⟩) ∧
      ((storesOf smallThenLarge).filter (·.hasKey 9 1 1)).getLast?.map
        (fun s => (s.body.length, s.counts)) =
        some (497, ⟨2, 0, 0⟩) :=
  ⟨rfl, by decide +kernel, by decide +kernel⟩

end KariDns
