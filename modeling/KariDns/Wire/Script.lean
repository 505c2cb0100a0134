import KariDns.Wire.Compress

/-! Writing records as scripts.

No writer of records looks at what it has written, so the stores of one record form a list
of actions that depends on the record alone. An action is a room check, a checked store, a
name in one of the forms the writers know, or the decision to give up; `run` performs a list
of actions on an output buffer and stops at the first that fails. What a failed run wrote
past the caller's offset stays in the buffer, and what it entered in the compression table
stays in the table. The action that fails stores nothing here, where some writers of the source
leave octets past the offset (hex and base64 digits, the bitmap of WKS, HIP, ATMA, locators):
`Write.past` stands for them where packets are built step by step.
-/

namespace KariDns

open Octets DomainName List Option

variable {r : Bool × Out} {bs : List UInt8} {maxLen : Nat} {w : Out} {t : Text}

/-- The output of a writer: the buffer, the write offset and the caller's compression
context, `none` for a null pointer. -/
structure Out where
  buf : Buf
  offset : Nat
  ctx : Option CompressCtx

/-- Store `bs` at the write offset. -/
def Out.put (w : Out) (bs : List UInt8) : Out :=
  { w with buf := blit w.buf w.offset bs, offset := w.offset + bs.length }

@[simp] lemma Out.put_offset (w : Out)
    (bs : List UInt8) : (w.put bs).offset = w.offset + bs.length := rfl

@[simp] lemma Out.put_ctx (w : Out) (bs : List UInt8) : (w.put bs).ctx = w.ctx := rfl

@[simp] lemma Out.put_buf (w : Out) (bs : List UInt8) : (w.put bs).buf = blit w.buf w.offset bs :=
  rfl

lemma Out.put_put (w : Out) (as bs : List UInt8) : (w.put as).put bs = w.put (as ++ bs) := by
  simp [Out.put, blit_blit, Nat.add_assoc]

@[simp] lemma Out.put_nil (w : Out) : w.put [] = w := by
  simp [Out.put]

/-! ### Names from text -/

/-- The loop of `write_uncompressed_name_ext` without `downcase`. -/
def writeNameLoop (maxLen : Nat) : Nat → Text → Out → Bool × Out
  | 0, _, w => (false, w)
  | fuel + 1, t, w =>
    match parseLabel [] t with
    | none => (false, w)
    | some (l, next) =>
      if l ≠ [] ∧ w.offset + l.length + 1 > maxLen then (false, w)
      else
        let w' := if l = [] then w else w.put (labelWire l)
        match next with
        | none => (true, w')
        | some rest => writeNameLoop maxLen fuel rest w'

/-- `write_uncompressed_name_ext (buf, offset, max_len, name, false)`. -/
def writeUncompressedNameExt (maxLen : Nat) (t : Text) (w : Out) : Bool × Out :=
  match writeNameLoop maxLen (t.length + 1) t w with
  | (false, w') => (false, w')
  | (true, w') =>
    if w'.offset + 1 > maxLen then (false, w')
    else if w'.offset + 1 - w.offset > 255 then (false, w'.put [0])
    else (true, w'.put [0])

/-- The label loop of `write_dns_name_str` into its 256-octet scratch buffer. -/
def wireLabels : Nat → Text → Nat → Option Name
  | 0, _, _ => none
  | fuel + 1, t, wLen =>
    match parseLabel [] t with
    | none => none
    | some (l, next) =>
      if l ≠ [] ∧ wLen + l.length + 1 > 255 then none
      else
        let wLen' := if l = [] then wLen else wLen + l.length + 1
        match next with
        | none => if wLen' + 1 > 255 then none else some (keepLabel l [])
        | some rest => (wireLabels fuel rest wLen').map (keepLabel l)

/-- `compress_name` on an output with a context. -/
def packName (maxLen : Nat) (n : Name) (w : Out) (ctx : CompressCtx) : Bool × Out :=
  match compressName maxLen n ⟨w.buf, w.offset, ctx⟩ with
  | (ok, p) => (ok, ⟨p.buf, p.offset, some p.ctx⟩)

/-- `write_dns_name_str`. -/
def writeDnsNameStr (maxLen : Nat) (t : Text) (w : Out) : Bool × Out :=
  match w.ctx with
  | none => writeUncompressedNameExt maxLen t w
  | some ctx =>
    match wireLabels (t.length + 1) t 0 with
    | none => (false, w)
    | some n => packName maxLen n w ctx

/-! ### Actions -/

/-- One action of a writer. -/
inductive Act
  /-- `if (offset + n > max_res_len) return -1` -/
  | need (n : Nat)
  /-- a room check and the stores it guards -/
  | put (bs : List UInt8)
  /-- a room check and the copy of a name already in wire form -/
  | copyName (n : Name)
  /-- `write_uncompressed_name_ext` -/
  | textName (t : Text)
  /-- `write_dns_name_str` -/
  | dnsName (t : Text)
  /-- `compress_name` -/
  | packName (n : Name)
  /-- `return -1` -/
  | fail

abbrev Script := List Act

/-- Perform one action. -/
def Act.exec (maxLen : Nat) (w : Out) : Act → Bool × Out
  | .need n => (w.offset + n ≤ maxLen, w)
  | .put bs => if w.offset + bs.length > maxLen then (false, w) else (true, w.put bs)
  | .copyName n =>
    if w.offset + (wire n).length > maxLen then (false, w) else (true, w.put (wire n))
  | .textName t => writeUncompressedNameExt maxLen t w
  | .dnsName t => writeDnsNameStr maxLen t w
  | .packName n =>
    match w.ctx with
    | none => (false, w)
    | some ctx => KariDns.packName maxLen n w ctx
  | .fail => (false, w)

/-- Perform a script; the flag is the return value 0. -/
def run (maxLen : Nat) : Script → Out → Bool × Out
  | [], w => (true, w)
  | a :: s, w =>
    match a.exec maxLen w with
    | (false, w') => (false, w')
    | (true, w') => run maxLen s w'

/-- Go on with a value or give up. -/
def orFail {α : Type} (o : Option α) (k : α → Script) : Script :=
  match o with
  | none => [.fail]
  | some a => k a

@[simp] lemma orFail_none {α : Type} (k : α → Script) : orFail none k = [.fail] := rfl

@[simp] lemma orFail_some {α : Type} (a : α) (k : α → Script) : orFail (some a) k = k a := rfl

@[simp] lemma run_nil (maxLen : Nat) (w : Out) : run maxLen [] w = (true, w) := rfl

lemma run_cons (maxLen : Nat) (a : Act) (s : Script) (w : Out) : run maxLen (a :: s) w =
      if (a.exec maxLen w).1 then run maxLen s (a.exec maxLen w).2 else a.exec maxLen w := by
  rw [run]
  rcases a.exec maxLen w with ⟨_ | _, w'⟩ <;> rfl

lemma run_append (maxLen : Nat) : ∀ (s t : Script) (w : Out), run maxLen (s ++ t) w =
      if (run maxLen s w).1 then run maxLen t (run maxLen s w).2 else run maxLen s w
  | [], t, w => by simp
  | a :: s, t, w => by
    rw [cons_append, run_cons, run_cons]
    by_cases h : (a.exec maxLen w).1
    · simp only [h, if_true]
      exact run_append maxLen s t _
    · simp [h]

lemma exec_need_pos {n : Nat} (h : w.offset + n ≤ maxLen) :
    Act.exec maxLen w (.need n) = (true, w) := by
  rw [Act.exec, decide_eq_true h]

lemma exec_need_neg {n : Nat} (h : ¬ w.offset + n ≤ maxLen) :
    Act.exec maxLen w (.need n) = (false, w) := by
  rw [Act.exec, decide_eq_false h]

lemma exec_put (h : w.offset + bs.length ≤ maxLen) :
    Act.exec maxLen w (.put bs) = (true, w.put bs) := by
  rw [Act.exec, if_neg (Nat.not_lt.mpr h)]

/-! ### Names from text: what is written -/

/-- The labels of a name without the root label. -/
def labelsWire (n : Name) : List UInt8 := n.flatMap labelWire

lemma wire_eq_labelsWire : ∀ n : Name, wire n = labelsWire n ++ [0]
  | [] => rfl
  | l :: n => by
    rw [wire_cons, wire_eq_labelsWire n]
    simp [labelsWire]

lemma labelsWire_keepLabel (l : Label) (n : Name) :
    labelsWire (keepLabel l n) = (if l = [] then [] else labelWire l) ++ labelsWire n := by
  unfold keepLabel
  split <;> simp [labelsWire]

/-- The name a text denotes, when it is short enough for the wire. -/
def readName (t : Text) : Option Name :=
  (parseName t).filter fun n => (wire n).length ≤ 255

lemma readName_valid {n : Name} (h : readName t = some n) : Valid n := by
  obtain ⟨hp, hlen⟩ := filter_eq_some_iff.mp h
  exact ⟨parseName_labelOk hp, by simpa using hlen⟩

lemma readName_nameText {n : Name} (h : Valid n) : readName (nameText n) = some n := by
  rw [readName, parseName_nameText h.labels, filter_some, if_pos (by simpa using h.short)]

/-- A result that either stored `bs` or, for want of room, failed without touching the table;
`none` stands for a text that has no wire form. -/
def Outcome (maxLen : Nat) (w : Out) (o : Option (List UInt8)) (r : Bool × Out) : Prop :=
  match o with
  | none => r.1 = false ∧ r.2.ctx = w.ctx
  | some bs =>
    if w.offset + bs.length ≤ maxLen then r = (true, w.put bs) else r.1 = false ∧ r.2.ctx = w.ctx

lemma outcome_none : Outcome maxLen w none r ↔ r.1 = false ∧ r.2.ctx = w.ctx := Iff.rfl

lemma outcome_fits (h : w.offset + bs.length ≤ maxLen) :
    Outcome maxLen w (some bs) r ↔ r = (true, w.put bs) := by
  simp [Outcome, h]

lemma outcome_full (h : ¬ w.offset + bs.length ≤ maxLen) :
    Outcome maxLen w (some bs) r ↔ r.1 = false ∧ r.2.ctx = w.ctx := by
  simp [Outcome, h]

/-- What follows a store that fits. -/
lemma Outcome.append {as : List UInt8} {o : Option (List UInt8)}
    (h : Outcome maxLen (w.put as) o r) :
    Outcome maxLen w (o.map (as ++ ·)) r := by
  cases o with
  | none => exact h
  | some bs =>
    simp only [Outcome, Out.put_offset, Out.put_ctx, Out.put_put, map_some, length_append,
      Nat.add_assoc] at h ⊢
    exact h

/-- A store that does not fit leaves no room for more. -/
lemma Outcome.full {w' : Out} {as : List UInt8} (o : Option (List UInt8))
    (h : ¬ w.offset + as.length ≤ maxLen) (hctx : w'.ctx = w.ctx) :
      Outcome maxLen w (o.map (as ++ ·)) (false, w') := by
  cases o with
  | none => exact ⟨rfl, hctx⟩
  | some bs =>
    rw [map_some, outcome_full (by rw [length_append]; omega)]
    exact ⟨rfl, hctx⟩

/-- The octets of a label as it is collected: none for an empty one. -/
def labelPiece (l : Label) : List UInt8 := if l = [] then [] else labelWire l

lemma map_keepLabel (l : Label) (o : Option Name) :
    (o.map (keepLabel l)).map labelsWire = (o.map labelsWire).map (labelPiece l ++ ·) := by
  cases o with
  | none => rfl
  | some n => simp [labelsWire_keepLabel, labelPiece]

lemma writeNameLoop_outcome : ∀ {fuel : Nat} {t : Text} {w : Out}, t.length < fuel →
    w.offset ≤ maxLen →
    Outcome maxLen w ((parseName t).map labelsWire) (writeNameLoop maxLen fuel t w)
  | fuel + 1, t, w, hf, hw => by
    rw [parseName_eq, writeNameLoop]
    match hp : parseLabel [] t with
    | none => exact ⟨rfl, rfl⟩
    | some (l, next) =>
      have hput : (if l = [] then w else w.put (labelWire l)) = w.put (labelPiece l) := by
        unfold labelPiece
        split <;> simp
      have hroom : (l ≠ [] ∧ w.offset + l.length + 1 > maxLen) ↔
          ¬ w.offset + (labelPiece l).length ≤ maxLen := by
        unfold labelPiece
        split
        · simp [*]
        · simp [*]
          omega
      have hlast : labelsWire (keepLabel l []) = labelPiece l ++ [] := labelsWire_keepLabel l []
      simp only [hput, hroom]
      by_cases hfit : w.offset + (labelPiece l).length ≤ maxLen
      · rw [if_neg (not_not.mpr hfit)]
        cases next with
        | none =>
          simp only [map_some, hlast, append_nil]
          exact (outcome_fits hfit).mpr rfl
        | some rest =>
          have hlt := parseLabel_rest_lt hp
          simp only [map_keepLabel]
          exact (writeNameLoop_outcome (show rest.length < fuel by omega) hfit).append
      rw [if_pos hfit]
      cases next with
      | none =>
        simp only [map_some, hlast]
        exact Outcome.full (some []) hfit rfl
      | some rest =>
        simp only [map_keepLabel]
        exact Outcome.full _ hfit rfl

/-- `write_uncompressed_name_ext` stores the wire form of the name or nothing that counts. -/
lemma writeUncompressedNameExt_outcome {maxLen : Nat} {t : Text} {w : Out}
    (hw : w.offset ≤ maxLen) :
    Outcome maxLen w ((readName t).map wire) (writeUncompressedNameExt maxLen t w) := by
  have hloop := writeNameLoop_outcome (Nat.lt_add_one t.length) hw
  unfold writeUncompressedNameExt readName
  generalize writeNameLoop maxLen (t.length + 1) t w = r at hloop
  obtain ⟨ok, w'⟩ := r
  cases hp : parseName t with
  | none =>
    rw [hp] at hloop
    obtain ⟨rfl, hctx⟩ := hloop
    exact ⟨rfl, hctx⟩
  | some n =>
    rw [hp, map_some] at hloop
    have hwire : (wire n).length = (labelsWire n).length + 1 := by simp [wire_eq_labelsWire]
    by_cases hfit : w.offset + (labelsWire n).length ≤ maxLen
    · obtain ⟨rfl, rfl⟩ := Prod.mk.inj ((outcome_fits hfit).mp hloop)
      have hoff : (w.put (labelsWire n)).offset = w.offset + (labelsWire n).length := rfl
      by_cases hshort : (wire n).length ≤ 255
      · rw [filter_some, if_pos (by simpa using hshort), map_some]
        by_cases hend : (w.put (labelsWire n)).offset + 1 > maxLen
        · simp only [if_pos hend]
          exact (outcome_full (by omega)).mpr ⟨rfl, rfl⟩
        · simp only [if_neg hend]
          rw [if_neg (by omega), outcome_fits (by omega), Out.put_put, wire_eq_labelsWire]
      rw [filter_some, if_neg (by simpa using hshort), map_none, outcome_none]
      dsimp only
      split_ifs
      · exact ⟨rfl, rfl⟩
      · exact ⟨rfl, rfl⟩
      · omega
    obtain ⟨rfl, hctx⟩ := (outcome_full hfit).mp hloop
    rw [filter_some]
    split
    · rw [map_some, outcome_full (by omega)]
      exact ⟨rfl, hctx⟩
    · exact ⟨rfl, hctx⟩

/-- The scratch wire form of `write_dns_name_str` is the name the text denotes. -/
lemma wireLabels_eq : ∀ {fuel : Nat} {t : Text} {wLen : Nat}, t.length < fuel → wLen ≤ 255 →
    wireLabels fuel t wLen = (parseName t).filter fun n => wLen + (wire n).length ≤ 255
  | fuel + 1, t, wLen, hf, hw => by
    rw [parseName_eq, wireLabels]
    match hp : parseLabel [] t with
    | none => rfl
    | some (l, next) =>
      have hlen : ∀ n, (wire (keepLabel l n)).length = (labelPiece l).length + (wire n).length := by
        intro n
        simp [wire_eq_labelsWire, labelsWire_keepLabel, labelPiece]
      have hnext : (if l = [] then wLen else wLen + l.length + 1) = wLen +
          (labelPiece l).length := by
        unfold labelPiece
        split <;> simp [labelWire_length, Nat.add_assoc]
      have hroom : (l ≠ [] ∧ wLen + l.length + 1 > 255) ↔ ¬ wLen + (labelPiece l).length ≤ 255 := by
        unfold labelPiece
        split
        · simp [*]
        · simp [*]
          omega
      have hpos : ∀ n : Name, 0 < (wire n).length := wire_length_pos
      simp only [hroom, hnext]
      by_cases hfit : wLen + (labelPiece l).length ≤ 255
      · rw [if_neg (not_not.mpr hfit)]
        cases next with
        | none =>
          have := hlen []
          simp only [wire_nil, length_singleton] at this
          simp only [filter_some, this, ← Nat.add_assoc]
          split_ifs with h1 h2 h2 <;> simp at h2 ⊢ <;> omega
        | some rest =>
          have hlt := parseLabel_rest_lt hp
          simp only [wireLabels_eq (show rest.length < fuel by omega) hfit]
          cases parseName rest with
          | none => rfl
          | some n =>
            simp only [filter_some, map_some, hlen, Nat.add_assoc]
            split_ifs <;> rfl
      rw [if_pos hfit]
      symm
      cases next with
      | none =>
        have := hpos []
        simp only [filter_some, hlen]
        exact if_neg (by simp; omega)
      | some rest =>
        dsimp only
        cases parseName rest with
        | none => rfl
        | some n =>
          have := hpos n
          simp only [map_some, filter_some, hlen]
          exact if_neg (by simp; omega)

lemma writeDnsNameStr_none (h : w.ctx = none) :
    writeDnsNameStr maxLen t w = writeUncompressedNameExt maxLen t w := by
  rw [writeDnsNameStr, h]

lemma writeDnsNameStr_some {ctx : CompressCtx} (h : w.ctx = some ctx) : writeDnsNameStr maxLen t w =
      match readName t with
      | none => (false, w)
      | some n => packName maxLen n w ctx := by
  rw [writeDnsNameStr, h]
  have hw := wireLabels_eq (Nat.lt_add_one t.length) (Nat.zero_le 255)
  simp only [Nat.zero_add] at hw
  simp only [hw, readName]

end KariDns
