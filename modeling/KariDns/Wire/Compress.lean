import KariDns.Name.Text

/-! Name compression.

`compressName` writes a name into a packet. For each suffix of the name, longest first, it
probes a hash table of the places where suffixes were written before; a hit is written as a
pointer, a miss as a label whose place is then entered in the table. Entries of abandoned
writes stay in the table, so every hit is compared octet by octet with the packet
(`suffixEquals`). The source counts offsets in 16 bits, the model in natural numbers: no
offset leaves the buffer (`compressLabels_le`), and no caller's buffer is longer than 65535 octets.
-/

namespace KariDns

open Octets DomainName List Option

/-- `compress_entry_t`. -/
structure CompressEntry where
  hash : UInt32
  offset : Nat
  generation : Nat
  deriving DecidableEq

/-- `compress_ctx_t`: the table is indexed modulo `compressHashSize`. -/
structure CompressCtx where
  table : Nat → CompressEntry
  currentGeneration : Nat

def compressHashSize : Nat := 4096

def maxProbeDepth : Nat := 8

/-- `compress_ctx_init`. -/
def compressCtxInit : CompressCtx := ⟨fun _ => ⟨0, 0, 0⟩, 1⟩

/-- The pointer loop of `suffix_equals`: every target must lie below the start of the run of
labels that led to it. Returns the new start and the place of the next octet to compare. -/
def followPointers (m : Buf) : Nat → Nat → Nat → Option (Nat × Nat)
  | 0, _, _ => none
  | fuel + 1, offset, p =>
    if isPointer (m p) then
      let next := pointerTarget m p
      if next ≥ offset then none else followPointers m fuel next next
    else some (offset, p)

/-- `suffix_equals` with `p` inside the run of labels that starts at `offset`. Targets fall,
so `offset + 1` jumps are never used up. -/
def suffixEqualsFrom (m : Buf) : Nat → Nat → Name → Bool
  | offset, p, [] =>
    match followPointers m (offset + 1) offset p with
    | none => false
    | some (_, p) => m p == 0
  | offset, p, l :: n =>
    match followPointers m (offset + 1) offset p with
    | none => false
    | some (offset, p) =>
      m p == UInt8.ofNat l.length &&
      (slice m (p + 1) l.length).map lower == l.map lower &&
      suffixEqualsFrom m offset (p + 1 + l.length) n

/-- `suffix_equals`: the packet holds the name `n` at `offset`, ASCII case aside. -/
def suffixEquals (m : Buf) (offset : Nat) (n : Name) : Bool := suffixEqualsFrom m offset offset n

/-- One FNV-1a step. -/
def fnvStep (h : UInt32) (c : UInt8) : UInt32 := (h ^^^ c.toUInt32) * 16777619

/-- The hash of a suffix: from the root side, each label from its last octet to its length. -/
def nameHash : Name → UInt32
  | [] => 2166136261
  | l :: n => fnvStep ((l.reverse.map lower).foldl fnvStep (nameHash n)) (UInt8.ofNat l.length)

/-- The slot of the `k`-th probe. -/
def probeSlot (hash : UInt32) (k : Nat) : Nat :=
  (hash.toNat % compressHashSize + k) % compressHashSize

/-- Step 1: search the table for an earlier place of the suffix `n`. -/
def findSuffix (m : Buf) (offset : Nat) (ctx : CompressCtx) (n : Name) : Nat → Nat → Option Nat
  | 0, _ => none
  | left + 1, k =>
    let entry := ctx.table (probeSlot (nameHash n) k)
    if entry.generation ≠ ctx.currentGeneration then none
    else if entry.offset ≥ offset ∨ entry.offset ≥ 0x4000 then
      findSuffix m offset ctx n left (k + 1)
    else if entry.hash = nameHash n ∧ suffixEquals m entry.offset n then some entry.offset
    else findSuffix m offset ctx n left (k + 1)

/-- Step 3: enter the place of a label just written. -/
def registerSuffix (ctx : CompressCtx) (hash : UInt32) (offset : Nat) : Nat → Nat → CompressCtx
  | 0, _ => ctx
  | left + 1, k =>
    let entry := ctx.table (probeSlot hash k)
    if entry.generation = ctx.currentGeneration ∧ entry.hash = hash ∧ entry.offset = offset then ctx
    else if entry.generation ≠ ctx.currentGeneration then
      { ctx with
        table := Function.update ctx.table (probeSlot hash k)
          ⟨hash, offset, ctx.currentGeneration⟩ }
    else registerSuffix ctx hash offset left (k + 1)

/-- A packet under construction: its octets, the write offset and the compression context. -/
structure Packet where
  buf : Buf
  offset : Nat
  ctx : CompressCtx

/-- The loop of `compress_name` over the labels still to write. The flag is the return value 0;
a failed call keeps what it wrote and where it stopped. -/
def compressLabels (maxLen : Nat) : Name → Packet → Bool × Packet
  | [], w =>
    if w.offset + 1 > maxLen then (false, w)
    else (true, { w with buf := blit w.buf w.offset [0], offset := w.offset + 1 })
  | l :: n, w =>
    match findSuffix w.buf w.offset w.ctx (l :: n) maxProbeDepth 0 with
    | some target =>
      if w.offset + 2 > maxLen then (false, w)
      else (true, { w with
        buf := blit w.buf w.offset (pointerWire target), offset := w.offset + 2 })
    | none =>
      if w.offset + 1 + l.length > maxLen then (false, w)
      else compressLabels maxLen n {
        buf := blit w.buf w.offset (labelWire l)
        offset := w.offset + 1 + l.length
        ctx := if w.offset < 0x4000 then
          registerSuffix w.ctx (nameHash (l :: n)) w.offset maxProbeDepth 0
          else w.ctx }

/-- `compress_name`. -/
def compressName (maxLen : Nat) (n : Name) (w : Packet) : Bool × Packet :=
  if n.length > 127 then (false, w) else compressLabels maxLen n w

/-! ### Which octets a comparison reads -/

/-- The octets that the pointer loop reads. -/
def pointersTouch (m : Buf) : Nat → Nat → Nat → List Nat
  | 0, _, _ => []
  | fuel + 1, offset, p =>
    if isPointer (m p) then
      p :: (p + 1) ::
        if pointerTarget m p ≥ offset then []
        else pointersTouch m fuel (pointerTarget m p) (pointerTarget m p)
    else [p]

/-- The octets that `suffix_equals` reads when it accepts. -/
def suffixTouch (m : Buf) : Nat → Nat → Name → List Nat
  | offset, p, [] => pointersTouch m (offset + 1) offset p
  | offset, p, l :: n =>
    pointersTouch m (offset + 1) offset p ++
      match followPointers m (offset + 1) offset p with
      | none => []
      | some (offset', p') =>
        List.range' (p' + 1) l.length ++ suffixTouch m offset' (p' + 1 + l.length) n

/-- Octets that are settled: before the write offset and not set aside by `hold`. -/
def Settled (hold : Nat → Bool) (offset i : Nat) : Prop := i < offset ∧ hold i = false

instance (hold : Nat → Bool) (offset i : Nat) : Decidable (Settled hold offset i) :=
  inferInstanceAs (Decidable (_ ∧ _))

/-- No place that `compress_name` points to was recognised with the help of octets that are not
settled. `hold` marks octets before the write offset that are still to be filled in. -/
def compressClean (hold : Nat → Bool) (maxLen : Nat) : Name → Packet → Bool
  | [], _ => true
  | l :: n, w =>
    match findSuffix w.buf w.offset w.ctx (l :: n) maxProbeDepth 0 with
    | some target => (suffixTouch w.buf target target (l :: n)).all fun i => Settled hold w.offset i
    | none => w.offset + 1 + l.length > maxLen || compressClean hold maxLen n {
        buf := blit w.buf w.offset (labelWire l)
        offset := w.offset + 1 + l.length
        ctx := if w.offset < 0x4000 then
          registerSuffix w.ctx (nameHash (l :: n)) w.offset maxProbeDepth 0
          else w.ctx }

lemma followPointers_le {m : Buf} : ∀ {fuel offset p offset' p' : Nat}, offset ≤ p →
    followPointers m fuel offset p = some (offset', p') →
    offset' ≤ p' ∧ isPointer (m p') = false
  | fuel + 1, offset, p, offset', p', hle, h => by
    unfold followPointers at h
    split at h
    · simp only at h
      split at h
      · cases h
      · exact followPointers_le (Nat.le_refl _) h
    rename_i hptr
    obtain ⟨rfl, rfl⟩ := Prod.mk.inj (some.inj h)
    exact ⟨hle, by simpa using hptr⟩

/-- The pointer loop stays on the name: what reads where it stops reads where it began. -/
lemma reads_of_followPointers {m : Buf} {S : Nat → Prop} : ∀ {fuel offset p offset' p' e : Nat}
    {n : Name}, offset ≤ p → followPointers m fuel offset p = some (offset', p') →
    (∀ i ∈ pointersTouch m fuel offset p, S i) → Reads m S offset' p' n e →
    ∃ e', Reads m S offset p n e'
  | fuel + 1, offset, p, offset', p', e, n, hle, h, htouch, hr => by
    unfold followPointers at h
    unfold pointersTouch at htouch
    split at h
    · rename_i hptr
      simp only [hptr, if_true] at h htouch
      split at h
      · cases h
      rename_i hlt
      rw [if_neg hlt] at htouch
      simp only [mem_cons, forall_eq_or_imp] at htouch
      obtain ⟨e', hr'⟩ := reads_of_followPointers (Nat.le_refl _) h htouch.2.2 hr
      exact ⟨_, .pointer htouch.1 htouch.2.1 hptr (by omega) (by omega) hr'⟩
    · obtain ⟨rfl, rfl⟩ := Prod.mk.inj (some.inj h)
      exact ⟨e, hr⟩

/-- The pointer loop reads the octet it stops at. -/
lemma mem_pointersTouch {m : Buf} : ∀ {fuel offset p offset' p' : Nat},
    followPointers m fuel offset p = some (offset', p') → p' ∈ pointersTouch m fuel offset p
  | fuel + 1, offset, p, offset', p', h => by
    unfold followPointers at h
    unfold pointersTouch
    split at h
    · rename_i hptr
      simp only [hptr, if_true] at h ⊢
      split at h
      · cases h
      rename_i hlt
      rw [if_neg hlt]
      exact mem_cons_of_mem _ (mem_cons_of_mem _ (mem_pointersTouch h))
    rename_i hptr
    obtain ⟨rfl, rfl⟩ := Prod.mk.inj (some.inj h)
    simp [hptr]

/-- `suffix_equals` accepts a place only if the name stands there, spelled with the octets that
were read. -/
lemma reads_of_suffixEqualsFrom {m : Buf} {S : Nat → Prop} : ∀ {n : Name} {offset p : Nat},
    (∀ l ∈ n, LabelOk l) → offset ≤ p → suffixEqualsFrom m offset p n = true →
    (∀ i ∈ suffixTouch m offset p n, S i) → ∃ n' e, Same n' n ∧ Reads m S offset p n' e
  | [], offset, p, _, hle, h, htouch => by
    unfold suffixEqualsFrom at h
    unfold suffixTouch at htouch
    split at h
    · cases h
    rename_i offset' p' hf
    obtain ⟨e, hr⟩ := reads_of_followPointers hle hf htouch
      (Reads.root (htouch p' (mem_pointersTouch hf)) (by simpa using h))
    exact ⟨[], e, Same.refl _, hr⟩
  | l :: n, offset, p, hok, hle, h, htouch => by
    unfold suffixEqualsFrom at h
    unfold suffixTouch at htouch
    split at h
    · cases h
    rename_i offset' p' hf
    simp only [hf, mem_append, or_imp, forall_and] at htouch
    obtain ⟨hptrs, hlabel, hafter⟩ := htouch
    simp only [Bool.and_eq_true, beq_iff_eq] at h
    obtain ⟨⟨hlen, hlab⟩, hrest⟩ := h
    obtain ⟨hle', -⟩ := followPointers_le hle hf
    have hl := hok l mem_cons_self
    obtain ⟨n', e, hsame, hr⟩ := reads_of_suffixEqualsFrom
      (fun k hk => hok k (mem_cons_of_mem _ hk)) (by omega) hrest hafter
    -- the label as the packet spells it
    set k := slice m (p' + 1) l.length with hk
    have hklen : k.length = l.length := by simp [hk]
    have hwire : Holds m p' (labelWire k) := by
      rw [labelWire, holds_cons, hklen]
      exact ⟨hlen, holds_slice _ _ _⟩
    have hin : ∀ i, p' ≤ i → i < p' + 1 + k.length → S i := by
      intro i hlo hhi
      rcases Nat.eq_or_lt_of_le hlo with rfl | hlt
      · exact hptrs _ (mem_pointersTouch hf)
      · exact hlabel i (mem_range'_1.mpr ⟨hlt, by omega⟩)
    rw [← hklen] at hr
    obtain ⟨e', hr'⟩ :=
      reads_of_followPointers hle hf hptrs (Reads.label (LabelOk.of_fold hlab hl) hwire hin hr)
    exact ⟨k :: n', e', same_cons.mpr ⟨hlab, hsame⟩, hr'⟩

/-! ### What `compress_name` writes -/

lemma findSuffix_spec {m : Buf} {offset : Nat} {ctx : CompressCtx} {n : Name} :
    ∀ {left k target : Nat}, findSuffix m offset ctx n left k = some target →
      target < offset ∧ target < 0x4000 ∧ suffixEquals m target n = true
  | left + 1, k, target, h => by
    unfold findSuffix at h
    simp only at h
    split_ifs at h with h1 h2 h3
    · exact findSuffix_spec h
    · obtain rfl := some.inj h
      rw [not_or] at h2
      exact ⟨by omega, by omega, h3.2⟩
    · exact findSuffix_spec h

/-- A write never touches the octets before its offset, whether it succeeds or not. -/
lemma compressLabels_frame {maxLen : Nat} : ∀ {n : Name} {w w' : Packet} {ok : Bool},
    compressLabels maxLen n w = (ok, w') →
    AgreeOn 0 w.offset w.buf w'.buf ∧ w.offset ≤ w'.offset
  | [], w, w', ok, h => by
    unfold compressLabels at h
    split at h <;> obtain ⟨rfl, rfl⟩ := Prod.mk.inj h
    · exact ⟨fun _ _ _ => rfl, Nat.le_refl _⟩
    · exact ⟨fun i _ hi => (blit_lt hi).symm, Nat.le_succ _⟩
  | l :: n, w, w', ok, h => by
    unfold compressLabels at h
    split at h
    · split at h <;> obtain ⟨rfl, rfl⟩ := Prod.mk.inj h
      · exact ⟨fun _ _ _ => rfl, Nat.le_refl _⟩
      · exact ⟨fun i _ hi => (blit_lt hi).symm, by simp⟩
    split at h
    · obtain ⟨rfl, rfl⟩ := Prod.mk.inj h
      exact ⟨fun _ _ _ => rfl, Nat.le_refl _⟩
    obtain ⟨hag, hle⟩ := compressLabels_frame h
    simp only at hag hle
    refine ⟨fun i h0 hi => ?_, by omega⟩
    rw [← hag i h0 (by omega), blit_lt hi]

/-- A write ends within the buffer, also where it stops for want of room. -/
lemma compressLabels_le {maxLen : Nat} : ∀ {n : Name} {w : Packet}, w.offset ≤ maxLen →
    (compressLabels maxLen n w).2.offset ≤ maxLen
  | [], w, hw => by
    unfold compressLabels
    split
    · exact hw
    · exact not_lt.mp ‹_›
  | l :: n, w, hw => by
    unfold compressLabels
    split
    · split
      · exact hw
      · exact not_lt.mp ‹_›
    split
    · exact hw
    · exact compressLabels_le (not_lt.mp ‹_›)

/-- A name written with clean pointers reads back at the place it was written, from octets that
are settled. -/
lemma compressLabels_reads {hold : Nat → Bool} {maxLen : Nat} : ∀ {n : Name} {w w' : Packet},
    (∀ l ∈ n, LabelOk l) → (∀ i, w.offset ≤ i → hold i = false) →
    compressLabels maxLen n w = (true, w') → compressClean hold maxLen n w = true →
    ∃ n', Same n' n ∧ Reads w'.buf (Settled hold w'.offset) w'.offset w.offset n' w'.offset
  | [], w, w', _, hhold, h, _ => by
    unfold compressLabels at h
    split at h
    · cases h
    obtain ⟨-, rfl⟩ := Prod.mk.inj h
    refine ⟨[], Same.refl _, .root ⟨by simp, hhold _ (Nat.le_refl _)⟩ ?_⟩
    exact (holds_cons.mp (holds_blit w.buf w.offset [0])).1
  | l :: n, w, w', hok, hhold, h, hclean => by
    unfold compressLabels at h
    unfold compressClean at hclean
    split at h
    · rename_i target hfind
      simp only [hfind, List.all_eq_true, decide_eq_true_eq] at hclean
      obtain ⟨hlt, h14, heq⟩ := findSuffix_spec hfind
      obtain ⟨n', e, hsame, hr⟩ := reads_of_suffixEqualsFrom hok (Nat.le_refl _) heq hclean
      split at h
      · cases h
      obtain ⟨-, rfl⟩ := Prod.mk.inj h
      have hnew : ∀ i, w.offset ≤ i → i < w.offset + 2 → Settled hold (w.offset + 2) i :=
        fun i hlo hhi => ⟨hhi, hhold i hlo⟩
      have hold' : Reads (blit w.buf w.offset (pointerWire target))
          (Settled hold (w.offset + 2)) target target n' e :=
        (hr.congr fun i hi => (blit_lt hi.1).symm).mono fun i hi => ⟨Nat.lt_add_right 2 hi.1, hi.2⟩
      exact ⟨n', hsame, .jump (hnew _ (Nat.le_refl _) (by omega)) (hnew _ (by omega) (by omega)) h14
        (holds_blit _ _ _) (Nat.lt_add_right 2 hlt) hlt hold'⟩
    rename_i hfind
    simp only [hfind] at hclean
    split at h
    · cases h
    rename_i hroom
    simp only [hroom, decide_false, Bool.false_or] at hclean
    obtain ⟨n', hsame, hr⟩ := compressLabels_reads (fun k hk => hok k (mem_cons_of_mem _ hk))
      (fun i hi => hhold i (by dsimp only at hi; omega)) h hclean
    obtain ⟨hag, hle⟩ := compressLabels_frame h
    simp only at hag hle hr
    have hl := hok l mem_cons_self
    have hwire : Holds w'.buf w.offset (labelWire l) := by
      refine (holds_blit w.buf w.offset (labelWire l)).congr fun i _ hi => hag i (Nat.zero_le _) ?_
      rw [labelWire_length] at hi
      omega
    refine ⟨l :: n', same_cons.mpr ⟨rfl, hsame⟩, .label hl hwire (fun i hlo hhi => ?_) hr⟩
    exact ⟨by omega, hhold i hlo⟩

end KariDns
