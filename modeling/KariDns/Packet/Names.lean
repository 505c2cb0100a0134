import KariDns.Wire.Expand
import KariDns.Wire.RdataActs

/-! The names in a packet.

A mark says where a name was written, where it ends and which name was meant. `runMarks` and
`recordMarks` collect the marks of a write, `runClean` and `recordClean` say that no pointer
of the write was taken on the word of octets that are not settled: octets at or past the
write offset, left there by an abandoned write, and the two octets kept free for RDLENGTH.
The marks of a clean write are good, and stay good for as long as nothing before their end is
overwritten.
-/

namespace KariDns

open Octets DomainName List Option

variable {hasCtx : Bool} {m : Buf} {ks : List NameMark} {n : Name} {e maxLen p : Nat}
    {hold : Nat → Bool} {w : Out}
  {rdata s : Script}

/-! ### Marks -/

/-- A name in the packet: its place, the offset behind it and the name that was meant. -/
structure NameMark where
  start : Nat
  stop : Nat
  name : Name
  deriving DecidableEq

/-- The name an action is meant to write. -/
def Act.meant : Act → Option Name
  | .copyName n | .packName n => some n
  | .textName t | .dnsName t => readName t
  | .need _ | .put _ | .fail => none

/-- The name an action hands to `compress_name`. -/
def Act.packed : Act → Option Name
  | .packName n => some n
  | .dnsName t => readName t
  | _ => none

/-- The mark of an action performed from offset `start` to offset `stop`. -/
def Act.marks (a : Act) (start stop : Nat) : List NameMark :=
  (a.meant.map fun n => ⟨start, stop, n⟩).toList

/-- The marks of a run. -/
def runMarks (maxLen : Nat) : Script → Out → List NameMark
  | [], _ => []
  | a :: s, w =>
    a.marks w.offset (a.exec maxLen w).2.offset ++
      if (a.exec maxLen w).1 then runMarks maxLen s (a.exec maxLen w).2 else []

/-- An action's pointers are clean. -/
def Act.clean (hold : Nat → Bool) (maxLen : Nat) (w : Out) (a : Act) : Bool :=
  match w.ctx, a.packed with
  | some ctx, some n => compressClean hold maxLen n ⟨w.buf, w.offset, ctx⟩
  | _, _ => true

/-- All pointers of a run are clean. -/
def runClean (hold : Nat → Bool) (maxLen : Nat) : Script → Out → Bool
  | [], _ => true
  | a :: s, w =>
    a.clean hold maxLen w && (!(a.exec maxLen w).1 || runClean hold maxLen s (a.exec maxLen w).2)

/-- The name that was meant reads at the mark, ASCII case aside, from settled octets before the
mark's end. -/
def NameMark.Good (hold : Nat → Bool) (m : Buf) (k : NameMark) : Prop :=
  Valid k.name ∧ ∃ n, Same n k.name ∧ Reads m (Settled hold k.stop) k.stop k.start n k.stop

lemma NameMark.Good.congr {hold : Nat → Bool} {m m' : Buf} {k : NameMark}
    (hag : ∀ i, Settled hold k.stop i → m i = m' i) (h : k.Good hold m) : k.Good hold m' := by
  obtain ⟨hv, n, hsame, hr⟩ := h
  exact ⟨hv, n, hsame, hr.congr hag⟩

lemma NameMark.Good.mono {hold' : Nat → Bool} {k : NameMark}
    (hS : ∀ i, hold i = false → hold' i = false) (h : k.Good hold m) : k.Good hold' m := by
  obtain ⟨hv, n, hsame, hr⟩ := h
  exact ⟨hv, n, hsame, hr.mono fun i hi => ⟨hi.1, hS i hi.2⟩⟩

/-! ### One action -/

section

variable (hv : Valid n) (hhold : ∀ i, w.offset ≤ i → hold i = false)

include hv hhold

/-- A name stored in full reads at its place. -/
lemma reads_put : (NameMark.mk w.offset (w.put (wire n)).offset n).Good hold
    (w.put (wire n)).buf := by
  refine ⟨hv, n, Same.refl n, reads_wire _ hv.labels (holds_blit _ _ _) fun i hlo hhi => ?_⟩
  exact ⟨hhi, hhold i hlo⟩

lemma reads_packName {ctx : CompressCtx} (hok : (packName maxLen n w ctx).1 = true)
    (hclean : compressClean hold maxLen n ⟨w.buf, w.offset, ctx⟩ = true) :
    (NameMark.mk w.offset (packName maxLen n w ctx).2.offset n).Good hold
      (packName maxLen n w ctx).2.buf := by
  unfold packName compressName at hok ⊢
  split_ifs at hok ⊢
  exact ⟨hv, compressLabels_reads hv.labels hhold (Prod.ext hok rfl) hclean⟩

/-- What a successful clean call of `compress_name` marks is good. -/
lemma packName_good (hok : (Act.exec maxLen w (.packName n)).1 = true)
    (hclean : Act.clean hold maxLen w (.packName n) = true) :
    (NameMark.mk w.offset (Act.exec maxLen w (.packName n)).2.offset n).Good hold
      (Act.exec maxLen w (.packName n)).2.buf := by
  cases hc : w.ctx with
  | none =>
    rw [Act.exec, hc] at hok
    cases hok
  | some ctx =>
    have hexec : Act.exec maxLen w (.packName n) = packName maxLen n w ctx := by
      rw [Act.exec, hc]
    rw [hexec] at hok ⊢
    exact reads_packName hv hhold hok (by simpa [Act.clean, Act.packed, hc] using hclean)

/-- An action without compression that succeeds has stored the name it means in full. -/
lemma good_of_outcome {r : Bool × Out} (hok : r.1 = true) (h : Outcome maxLen w (some (wire n)) r) :
    (NameMark.mk w.offset r.2.offset n).Good hold r.2.buf := by
  by_cases hfit : w.offset + (wire n).length ≤ maxLen
  · obtain rfl := (outcome_fits hfit).mp h
    exact reads_put hv hhold
  · rw [((outcome_full hfit).mp h).1] at hok
    cases hok

end

/-- What a successful clean action marks is good. -/
lemma exec_good {a : Act} (hw : w.offset ≤ maxLen) (hhold : ∀ i, w.offset ≤ i → hold i = false)
    (hmeant : a.meant = some n) (hv : Valid n) (hok : (a.exec maxLen w).1 = true)
    (hclean : a.clean hold maxLen w = true) :
    (NameMark.mk w.offset (a.exec maxLen w).2.offset n).Good hold (a.exec maxLen w).2.buf := by
  -- without compression the action's emission is the name in full
  have hplain : a.plain w.ctx.isSome = true → a.emission = some (wire n) →
      (NameMark.mk w.offset (a.exec maxLen w).2.offset n).Good hold (a.exec maxLen w).2.buf :=
    fun hp he => good_of_outcome hv hhold hok (he ▸ exec_plain hw hp)
  cases a with
  | need k => cases hmeant
  | put bs => cases hmeant
  | fail => cases hmeant
  | copyName k =>
    obtain rfl : k = n := some.inj hmeant
    exact hplain rfl rfl
  | textName t =>
    have hread : readName t = some n := hmeant
    exact hplain rfl (by simp [Act.emission, hread])
  | dnsName t =>
    have hread : readName t = some n := hmeant
    cases hc : w.ctx with
    | none => exact hplain (by simp [Act.plain, hc]) (by simp [Act.emission, hread])
    | some ctx =>
      have hexec : Act.exec maxLen w (.dnsName t) = packName maxLen n w ctx := by
        rw [Act.exec, writeDnsNameStr_some hc, hread]
      rw [hexec] at hok ⊢
      exact reads_packName hv hhold hok (by simpa [Act.clean, Act.packed, hc, hread] using hclean)
  | packName k =>
    obtain rfl : k = n := some.inj hmeant
    exact packName_good hv hhold hok hclean

/-! ### Runs -/

/-- The names an action means are valid. -/
def Act.NamesOk (a : Act) : Prop := ∀ n, a.meant = some n → Valid n

/-- What an action wrote stands from `p` to `q`. -/
def Act.LaidAt (hold : Nat → Bool) (m : Buf) (p q : Nat) (a : Act) : Prop :=
  match a with
  | .need _ => q = p
  | .put bs => Holds m p bs ∧ q = p + bs.length
  | .fail => False
  | a => ∃ n, a.meant = some n ∧ (NameMark.mk p q n).Good hold m

/-- What the actions of a script wrote stands one behind the other from `p` to `e`; the marks are
those of its names. -/
inductive LaidOut (hold : Nat → Bool) (m : Buf) : Script → List NameMark → Nat → Nat → Prop
  | nil {p : Nat} : LaidOut hold m [] [] p p
  | cons {a : Act} {s : Script} {ks : List NameMark} {p q e : Nat} : p ≤ q → a.LaidAt hold m p q →
      LaidOut hold m s ks q e → LaidOut hold m (a :: s) (a.marks p q ++ ks) p e

lemma LaidOut.le (h : LaidOut hold m s ks p e) : p ≤ e := by
  induction h with
  | nil => exact Nat.le_refl _
  | cons hle _ _ ih => exact Nat.le_trans hle ih

/-- The marks of a layout are good and lie in it. -/
lemma LaidOut.good (h : LaidOut hold m s ks p e) : ∀ k ∈ ks, k.stop ≤ e ∧ k.Good hold m := by
  induction h with
  | nil => simp
  | @cons a s ks p q e _ hat hrest ih =>
    intro k hk
    rcases mem_append.mp hk with hk | hk
    · obtain ⟨n, hmeant, rfl⟩ := map_eq_some_iff.mp (mem_toList.mp hk)
      refine ⟨hrest.le, ?_⟩
      cases a with
      | need _ => cases hmeant
      | put _ => cases hmeant
      | fail => cases hmeant
      | _ =>
        obtain ⟨n', hmeant', hgood⟩ := hat
        rw [hmeant] at hmeant'
        cases hmeant'
        exact hgood
    · exact ih k hk

lemma Act.LaidAt.congr {hold : Nat → Bool} {m m' : Buf} {a : Act} {p q : Nat}
    (hhold : ∀ i, p ≤ i → hold i = false) (hag : ∀ i, Settled hold q i → m i = m' i)
    (h : a.LaidAt hold m p q) : a.LaidAt hold m' p q := by
  cases a with
  | need _ => exact h
  | put bs =>
    obtain ⟨hbs, rfl⟩ := h
    exact ⟨hbs.congr fun i hlo hhi => hag i ⟨hhi, hhold i hlo⟩, rfl⟩
  | fail => exact h
  | _ =>
    obtain ⟨n, hmeant, hgood⟩ := h
    exact ⟨n, hmeant, hgood.congr hag⟩

/-- A layout stays where the settled octets stay. -/
lemma LaidOut.congr {hold : Nat → Bool} {m m' : Buf} {s : Script} {ks : List NameMark} {p e : Nat}
    (hhold : ∀ i, p ≤ i → hold i = false) (hag : ∀ i, Settled hold e i → m i = m' i)
    (h : LaidOut hold m s ks p e) :
    LaidOut hold m' s ks p e := by
  induction h with
  | nil => exact .nil
  | cons hle hat hrest ih =>
    refine .cons hle (hat.congr hhold fun i hi => hag i ⟨Nat.lt_of_lt_of_le hi.1 hrest.le, hi.2⟩) ?_
    exact ih (fun i hi => hhold i (Nat.le_trans hle hi)) hag

lemma LaidOut.mono {hold' : Nat → Bool} (hS : ∀ i, hold i = false → hold' i = false)
    (h : LaidOut hold m s ks p e) :
    LaidOut hold' m s ks p e := by
  induction h with
  | nil => exact .nil
  | @cons a s ks p q e hle hat _ ih =>
    refine .cons hle ?_ ih
    cases a with
    | need _ => exact hat
    | put _ => exact hat
    | fail => exact hat
    | _ =>
      obtain ⟨n, hmeant, hgood⟩ := hat
      exact ⟨n, hmeant, hgood.mono hS⟩

/-- A successful clean action leaves what it is meant to write. -/
lemma exec_laidAt {a : Act} (hname : a.NamesOk) (hw : w.offset ≤ maxLen)
    (hhold : ∀ i, w.offset ≤ i → hold i = false) (hok : (a.exec maxLen w).1 = true)
    (hclean : a.clean hold maxLen w = true) :
    a.LaidAt hold (a.exec maxLen w).2.buf w.offset (a.exec maxLen w).2.offset := by
  -- a name action that succeeds has a name to write
  have hmark : ∀ {n : Name}, a.meant = some n → ∃ n, a.meant = some n ∧
      (NameMark.mk w.offset (a.exec maxLen w).2.offset n).Good hold (a.exec maxLen w).2.buf :=
    fun hm => ⟨_, hm, exec_good hw hhold hm (hname _ hm) hok hclean⟩
  have hemits : a.plain w.ctx.isSome = true → a.emission ≠ none := by
    intro hp hnone
    have hout := exec_plain hw hp
    rw [hnone] at hout
    rw [hout.1] at hok
    cases hok
  cases a with
  | need k => rfl
  | put bs =>
    have hout := exec_plain hw (show (Act.put bs).plain w.ctx.isSome = true from rfl)
    by_cases hfit : w.offset + bs.length ≤ maxLen
    · rw [(outcome_fits hfit).mp hout]
      exact ⟨holds_blit _ _ _, rfl⟩
    · rw [((outcome_full hfit).mp hout).1] at hok
      cases hok
  | fail => cases hok
  | copyName n => exact hmark rfl
  | packName n => exact hmark rfl
  | textName t =>
    cases hread : readName t with
    | none => exact absurd (by simp [Act.emission, hread]) (hemits rfl)
    | some n => exact hmark hread
  | dnsName t =>
    cases hread : readName t with
    | some n => exact hmark hread
    | none =>
      cases hc : w.ctx with
      | none => exact absurd (by simp [Act.emission, hread]) (hemits (by simp [Act.plain, hc]))
      | some ctx =>
        rw [Act.exec, writeDnsNameStr_some hc, hread] at hok
        cases hok

/-- A successful clean run leaves the layout of its script, with the marks of the run. The
induction is on the script: later actions do not touch what lies before their offset. -/
lemma run_laidOut {hold : Nat → Bool} {maxLen : Nat} : ∀ {s : Script} {w : Out},
    AllActs Act.NamesOk s → w.offset ≤ maxLen → (∀ i, w.offset ≤ i → hold i = false) →
    (run maxLen s w).1 = true → runClean hold maxLen s w = true →
    LaidOut hold (run maxLen s w).2.buf s (runMarks maxLen s w) w.offset (run maxLen s w).2.offset
  | [], w, _, _, _, _, _ => .nil
  | a :: s, w, hnames, hw, hhold, hok, hclean => by
    obtain ⟨hname, hnames⟩ := (acts_cons _ _).mp hnames
    rw [run_cons] at hok ⊢
    rw [runClean, Bool.and_eq_true] at hclean
    rw [runMarks]
    split at hok
    · rename_i hexec
      rw [if_pos hexec, if_pos hexec]
      have hgrow : Grows w (a.exec maxLen w).2 := exec_grows a
      have hrest : Grows (a.exec maxLen w).2 (run maxLen s (a.exec maxLen w).2).2 := run_grows s _
      have hhold' : ∀ i, (a.exec maxLen w).2.offset ≤ i → hold i = false :=
        fun i hi => hhold i (Nat.le_trans hgrow.le hi)
      refine .cons hgrow.le ?_
        (run_laidOut hnames (exec_le hw hexec) hhold' hok (by simpa [hexec] using hclean.2))
      exact (exec_laidAt hname hw hhold hexec hclean.1).congr hhold fun i hi =>
        hrest.agree i (Nat.zero_le _) hi.1
    · rename_i hexec
      exact absurd hok hexec

/-! ### Records -/

/-- Nothing is set aside. -/
def noHold : Nat → Bool := fun _ => false

/-- The two octets at `p` are set aside. -/
def lengthHold (p i : Nat) : Bool := p ≤ i && i < p + 2

/-- The marks of a record. -/
def recordMarks (maxLen : Nat) (head rdata : Script) (w : Out) : List NameMark :=
  runMarks maxLen head w ++
    runMarks maxLen rdata
      { (run maxLen head w).2 with offset := (run maxLen head w).2.offset + 2 }

/-- The pointers of a record are clean; those of the RDATA must not rest on RDLENGTH. -/
def recordClean (maxLen : Nat) (head rdata : Script) (w : Out) : Bool :=
  runClean noHold maxLen head w &&
    (!(run maxLen head w).1 ||
      runClean (lengthHold (run maxLen head w).2.offset) maxLen rdata
        { (run maxLen head w).2 with offset := (run maxLen head w).2.offset + 2 })

lemma recordHead_offset {maxLen : Nat} {owner : Script} {type class_ ttl : Nat} {w : Out}
    (h : (run maxLen (recordHead owner type class_ ttl) w).1 = true) : w.offset ≤ maxLen := by
  by_contra hw
  rw [recordHead, cons_append, run, exec_need_neg (by omega)] at h
  cases h

lemma recordHead_namesOk {owner : Script} {type class_ ttl : Nat} (h : AllActs Act.NamesOk owner) :
    AllActs Act.NamesOk (recordHead owner type class_ ttl) := by
  simp [recordHead, h, Act.NamesOk, Act.meant]

/-- The two runs of a record that was written. -/
lemma writeRecord_parts {head : Script} {u : Out}
    (h : writeRecord maxLen head rdata w = (true, u)) :
    ∃ v v' : Out, run maxLen head w = (true, v) ∧
      run maxLen rdata { v with offset := v.offset + 2 } = (true, v') ∧ v.offset + 2 ≤ v'.offset ∧
      u = { v' with buf := blit v'.buf v.offset (be16 (v'.offset - v.offset - 2)) } := by
  unfold writeRecord at h
  split at h
  · cases h
  rename_i v hv
  have hgrow := @run_grows maxLen rdata { v with offset := v.offset + 2 }
  split at h
  · cases h
  rename_i v' hv'
  rw [hv'] at hgrow
  exact ⟨v, v', hv, hv', hgrow.le, (Prod.mk.inj h).2.symm⟩

/-- The layout of a record: head, RDLENGTH and RDATA. -/
structure RecordLaid (m : Buf) (head rdata : Script) (marks : List NameMark)
    (p q e : Nat) : Prop where
  headLaid : ∃ ks ks', marks = ks ++ ks' ∧ LaidOut noHold m head ks p q ∧
    LaidOut noHold m rdata ks' (q + 2) e
  length : Holds m q (be16 (e - q - 2))

/-- A successful clean record leaves its layout. The octets of RDLENGTH change after the RDATA was
written, but no name was read through them. -/
lemma writeRecord_laid {owner : Script} {type class_ ttl : Nat} {u : Out}
    (howner : AllActs Act.NamesOk owner) (hrdata : AllActs Act.NamesOk rdata)
    (hok : writeRecord maxLen (recordHead owner type class_ ttl) rdata w = (true, u))
    (hclean : recordClean maxLen (recordHead owner type class_ ttl) rdata w = true) :
    RecordLaid u.buf (recordHead owner type class_ ttl) rdata
      (recordMarks maxLen (recordHead owner type class_ ttl) rdata w) w.offset
      (run maxLen (recordHead owner type class_ ttl) w).2.offset u.offset := by
  obtain ⟨v, v', hhead, hrd, hle, rfl⟩ := writeRecord_parts hok
  have hoff := @recordHead_offset maxLen owner type class_ ttl w
  have hroom := @recordHead_room maxLen owner type class_ ttl w
  have hlaid := @run_laidOut noHold maxLen _ w (@recordHead_namesOk owner type class_ ttl howner)
  have hgrow := @run_grows maxLen rdata { v with offset := v.offset + 2 }
  have hnames :=
    @run_laidOut (lengthHold v.offset) maxLen rdata { v with offset := v.offset + 2 } hrdata
  rw [recordClean, Bool.and_eq_true, hhead] at hclean
  rw [recordMarks]
  rw [hhead] at hoff hroom hlaid ⊢
  rw [hrd] at hgrow hnames
  dsimp only at *
  have hfree : ∀ i, v.offset + 2 ≤ i → lengthHold v.offset i = false := by
    intro i hi
    simp [lengthHold]
    omega
  refine ⟨⟨_, _, rfl, ?_, ?_⟩, holds_blit _ _ _⟩
  · -- names of the head lie before RDLENGTH
    refine (hlaid (hoff rfl) (fun _ _ => rfl) rfl hclean.1).congr (fun _ _ => rfl) fun i hi => ?_
    rw [blit_lt hi.1]
    exact hgrow.agree i (Nat.zero_le _) (by have := hi.1; dsimp only; omega)
  have hlaid' := hnames (hroom rfl) hfree rfl (by simpa using hclean.2)
  refine (hlaid'.congr hfree fun i hi => ?_).mono fun _ _ => rfl
  have hout : i < v.offset ∨ v.offset + 2 ≤ i := by
    have := hi.2
    simp [lengthHold] at this
    omega
  rcases hout with hlt | hge
  · rw [blit_lt hlt]
  · rw [blit_ge (by simpa using hge)]

/-- The marks of a successful clean record are good. -/
lemma writeRecord_good {owner : Script} {type class_ ttl : Nat} (howner : AllActs Act.NamesOk owner)
    (hrdata : AllActs Act.NamesOk rdata)
    (hok : (writeRecord maxLen (recordHead owner type class_ ttl) rdata w).1 = true)
    (hclean : recordClean maxLen (recordHead owner type class_ ttl) rdata w = true) :
    ∀ k ∈ recordMarks maxLen (recordHead owner type class_ ttl) rdata w,
      k.Good noHold (writeRecord maxLen (recordHead owner type class_ ttl) rdata w).2.buf := by
  obtain ⟨ks, ks', hmarks, hhead, hrd⟩ :=
    (writeRecord_laid howner hrdata (Prod.ext hok rfl) hclean).headLaid
  rw [hmarks]
  intro k hk
  rcases mem_append.mp hk with hk | hk
  · exact (hhead.good k hk).2
  · exact (hrd.good k hk).2

/-! ### The scripts of a record -/

lemma dnsName_namesOk (t : Text) : (Act.dnsName t).NamesOk := fun _ h => readName_valid h

lemma textName_namesOk (t : Text) : (Act.textName t).NamesOk := fun _ h => readName_valid h

lemma cachedName_namesOk (h : Valid n) : AllActs Act.NamesOk (cachedName hasCtx n) := by
  cases hasCtx <;> simpa [cachedName, Act.NamesOk, Act.meant] using h

lemma ownerScript_namesOk {rec : DnsRecord} (h : rec.WiresOk) (owner : Option Text) :
    AllActs Act.NamesOk (ownerScript hasCtx rec owner) := by
  unfold ownerScript
  split
  · simpa using dnsName_namesOk _
  split
  · rename_i n hn
    exact cachedName_namesOk (h.owner n hn)
  · simpa using dnsName_namesOk _

lemma fullRdataScript_namesOk {rec : DnsRecord} (h : rec.WiresOk) :
    AllActs Act.NamesOk (fullRdataScript hasCtx rec) := by
  have hbasic : Basic Act.NamesOk :=
    ⟨fun _ _ h => (nomatch h), textName_namesOk, fun _ h => (nomatch h)⟩
  have hcopy : ∀ n ∈ rec.cache.names, (Act.copyName n).NamesOk := fun n hn k hk => by
    obtain rfl : n = k := some.inj hk
    exact h.names n hn
  unfold fullRdataScript
  split
  · simpa using hbasic.put _
  · refine (acts_ite _ _).mpr ⟨fun _ => acts_nil, fun _ => rdata_acts hbasic hcopy fun _ => ?_⟩
    exact ⟨dnsName_namesOk, hcopy, hcopy, fun _ _ h => nomatch h⟩

end KariDns
