import KariDns.Directory.Index

/-! The zone that holds a name (`zdir_find_suffix`), and directories over whole runs.

A query name is cut at its unescaped dots, label by label, until what is left is the key of a
zone; the root zone comes last. `zdir_run` puts the directory's parts together: after any
sequence of operations it is a map, and the search gives the longest suffix in the map.
-/

namespace KariDns

open Octets DomainName TombTable List

/-- The loop of `zdir_find_suffix`: the element of the first suffix that has one, `some none` when
there is none. -/
def findSuffixFrom (find : Text → Nat → Option (Option ZdirElem)) :
    Nat → Text → Nat → Option (Option ZdirElem)
  | 0, _, _ => some none
  | fuel + 1, cursor, remaining =>
    if remaining = 0 then some none
    else
      match find cursor remaining with
      | none => none
      | some (some e) => some (some e)
      | some none =>
        match afterDot cursor with
        | none => some none
        | some rest =>
          let dot := cursor.length - rest.length - 1
          if dot ≥ remaining then some none
          else findSuffixFrom find fuel rest (remaining - (dot + 1))

/-- One lookup: in the table, else among the zones shared from other views. -/
def zdirFindKey (tab : Option ZdirTab) (shared : UInt32 → Text → Nat → Option ZdirElem) (key : Text)
    (klen : Nat) : Option (Option ZdirElem) :=
  let hash := calcFnv1aStrn key klen
  ((tab.map fun t => zdirTabFind t hash key klen).getD (some none)).map fun hit =>
    hit <|> shared hash key klen

/-- `zdir_find_suffix`; `shared` is `zdir_ivdb_find`, which finds nothing in a view that shares no
zones. -/
def zdirFindSuffix (tab : Option ZdirTab) (shared : UInt32 → Text → Nat → Option ZdirElem)
    (qname : Text) : Option (Option ZdirElem) :=
  match findSuffixFrom (zdirFindKey tab shared) (qname.length + 1) qname (zoneKeyLen qname) with
  | some none => zdirFindKey tab shared [] 0
  | r => r

/-- What the search for the longest suffix gives. -/
def IsLongest (M : Text → Option ZdirElem) (key : Text) (r : Option ZdirElem) : Prop :=
  (∃ s e, r = some e ∧ CutSuffix key s ∧ M (s.map lower) = some e ∧
    ∀ s', CutSuffix key s' → s.length < s'.length → M (s'.map lower) = none) ∨
  (r = none ∧ ∀ s, CutSuffix key s → M (s.map lower) = none)

section Search

variable {M : Text → Option ZdirElem} {find : Text → Nat → Option (Option ZdirElem)}

/-- The loop gives the longest suffix that is not the root, if there is one. -/
lemma findSuffixFrom_spec {key : Text}
    (hfind : ∀ c k, k ≤ c.length → find c k = some (M ((c.take k).map lower))) :
    ∀ {fuel : Nat} {cursor : Text} {remaining : Nat}, remaining < fuel → remaining ≤ cursor.length →
      CutSuffix key (cursor.take remaining) →
      (∀ s, CutSuffix key s → remaining < s.length → M (s.map lower) = none) →
      ∃ r, findSuffixFrom find fuel cursor remaining = some r ∧
        ((∃ s e, r = some e ∧ CutSuffix key s ∧ M (s.map lower) = some e ∧
            ∀ s', CutSuffix key s' → s.length < s'.length → M (s'.map lower) = none) ∨
          (r = none ∧ ∀ s, CutSuffix key s → s ≠ [] → M (s.map lower) = none))
  | 0, _, _, hfuel, _, _, _ => by omega
  | fuel + 1, cursor, remaining, hfuel, hrem, hself, hbefore => by
    unfold findSuffixFrom
    split
    · rename_i hzero
      refine ⟨none, rfl, .inr ⟨rfl, fun s hs hne => hbefore s hs ?_⟩⟩
      rw [hzero]
      exact length_pos_of_ne_nil hne
    rename_i hpos
    rw [hfind cursor remaining hrem]
    have hlen : (cursor.take remaining).length = remaining := by
      rw [length_take]
      omega
    cases hM : M ((cursor.take remaining).map lower) with
    | some e =>
      refine ⟨some e, rfl, .inl ⟨_, e, rfl, hself, hM, fun s' hs' hlt => hbefore s' hs' ?_⟩⟩
      rwa [hlen] at hlt
    | none =>
      dsimp only
      -- a suffix of the key that is in the map is a shorter suffix of what is left
      have hinner : ∀ s, CutSuffix key s → M (s.map lower) ≠ none →
          CutSuffix (cursor.take remaining) s ∧ s ≠ cursor.take remaining := by
        intro s hs hin
        refine ⟨hself.nested hs ?_, fun h => hin (h ▸ hM)⟩
        rw [hlen]
        exact Nat.le_of_not_lt fun hlt => hin (hbefore s hs hlt)
      -- so where no unescaped dot is left, nothing but the root is
      have hlast : NoDot (cursor.take remaining) → ∀ s, CutSuffix key s → s ≠ [] →
          M (s.map lower) = none := by
        intro hno s hs hne
        by_contra hin
        obtain ⟨hcut, hother⟩ := hinner s hs hin
        exact hother (hno.cutSuffix hcut hne)
      cases hdot : afterDot cursor with
      | none => exact ⟨none, rfl, .inr ⟨rfl, hlast ((afterDot_none hdot).take remaining)⟩⟩
      | some rest =>
        obtain ⟨q, hq, hqesc, hqno⟩ := afterDot_some hdot
        have hoff : cursor.length - rest.length - 1 = q.length := by
          rw [hq, length_append, length_cons]
          omega
        dsimp only
        rw [hoff]
        split
        · rename_i hge
          refine ⟨none, rfl, .inr ⟨rfl, hlast ?_⟩⟩
          -- the text looked at ends before the dot
          rw [hq, take_append_of_le_length hge]
          exact hqno.take remaining
        rename_i hlt
        have hsplit : cursor.take remaining = q ++ 46 ::
            rest.take (remaining - (q.length + 1)) := by
          rw [hq, take_append, take_of_length_le (by omega),
            show remaining - q.length = (remaining - (q.length + 1)) + 1 by omega, take_succ_cons]
        have hrest : remaining - (q.length + 1) ≤ rest.length := by
          rw [hq, length_append, length_cons] at hrem
          omega
        refine findSuffixFrom_spec hfind (by omega) hrest ?_ fun s hs hgt => ?_
        · rcases hself with hnil | ⟨p, hkey, hp⟩
          · simp [hsplit] at hnil
          refine .inr ⟨p ++ q ++ [46], by rw [hkey, hsplit]; simp, .inr ⟨p ++ q, rfl, ?_⟩⟩
          rw [escaped_behind hp.unescaped]
          exact hqesc
        by_contra hin
        obtain ⟨hcut, hother⟩ := hinner s hs hin
        rw [hsplit, cutSuffix_label hqno hqesc (ne_nil_of_length_pos (by omega))] at hcut
        rcases hcut with heq | hcut
        · exact hother (heq.trans hsplit.symm)
        · have := cutSuffix_length hcut
          rw [length_take] at this
          omega

/-- The whole search: the root zone comes last. -/
lemma zdirFindSuffix_spec {d : Zdir} {credit : Nat} (h : d.Indexes credit M) (qname : Text) :
    ∃ r, zdirFindSuffix d.tab (fun _ _ _ => none) qname = some r ∧
      IsLongest M (zoneKey qname) r := by
  have hfind : ∀ c k, k ≤ c.length →
      zdirFindKey d.tab (fun _ _ _ => none) c k = some (M ((c.take k).map lower)) := by
    intro c k hk
    unfold zdirFindKey
    cases ht : d.tab with
    | none =>
      obtain ⟨-, -, rfl⟩ := h.none ht
      rfl
    | some t => simp [zdirTabFind_spec h ht hk]
  obtain ⟨r, hloop, hr⟩ := findSuffixFrom_spec hfind
    (show zoneKeyLen qname < qname.length + 1 by have := zoneKeyLen_le qname; omega)
    (zoneKeyLen_le qname)
    (.inr ⟨[], zoneKey_eq_take qname, .inl rfl⟩) fun s hs hlt =>
      absurd (cutSuffix_length hs) (Nat.not_le.mpr hlt)
  unfold zdirFindSuffix
  rw [hloop]
  rcases hr with ⟨s, e, rfl, hsuf, hM, hlong⟩ | ⟨rfl, hnone⟩
  · exact ⟨some e, rfl, .inl ⟨s, e, rfl, hsuf, hM, hlong⟩⟩
  refine ⟨M [], by simpa using hfind [] 0 (by simp), ?_⟩
  cases hroot : M [] with
  | some e =>
    refine .inl ⟨[], e, rfl, .inl rfl, hroot, fun s hs hlt => hnone s hs ?_⟩
    exact ne_nil_of_length_pos hlt
  | none =>
    refine .inr ⟨rfl, fun s hs => ?_⟩
    by_cases hne : s = []
    · rw [hne]
      exact hroot
    · exact hnone s hs hne

end Search

/-! ### Runs -/

/-- What is done to a directory. -/
inductive ZdirOp
  | reserve (extra : Nat) (memory : Bool)
  | insert (e : ZdirElem)
  | remove (e : ZdirElem)

/-- What an operation returns. -/
inductive ZdirAnswer
  | reserved (ok : Bool)
  | replaced (old : Option ZdirElem)
  | removed (found : Bool)

def Zdir.step (d : Zdir) : ZdirOp → Option (ZdirAnswer × Zdir)
  | .reserve extra memory => (zdirReserve memory d extra).map fun (ok, d) => (.reserved ok, d)
  | .insert e => (zdirInsert d e).map fun (old, d) => (.replaced old, d)
  | .remove e => (zdirRemove d e).map fun (found, d) => (.removed found, d)

/-- A run; `none` if a probe loop does not end. -/
def Zdir.run (d : Zdir) : List ZdirOp → Option (List ZdirAnswer × Zdir)
  | [] => some ([], d)
  | op :: ops => do
    let (answer, d) ← d.step op
    let (answers, d) ← d.run ops
    return (answer :: answers, d)

/-- The elements that may still be inserted: as many as the last reserve that succeeded was for. -/
def ZdirOp.credit (op : ZdirOp) (credit : Nat) : ZdirAnswer → Nat
  | .reserved true => match op with | .reserve extra _ => extra | _ => credit
  | .replaced _ => credit - 1
  | _ => credit

/-- An insertion has a reserve left, and the name of its zone at most 255 characters. -/
def ZdirOp.allowed (credit : Nat) : ZdirOp → Bool
  | .insert e => 0 < credit ∧ e.name.length ≤ 255
  | _ => true

/-- Each insertion of a run is preceded by a reserve. -/
def orderly : Nat → Zdir → List ZdirOp → Bool
  | _, _, [] => true
  | credit, d, op :: ops =>
    op.allowed credit &&
      match d.step op with
      | none => true
      | some (answer, d') => orderly (op.credit credit answer) d' ops

/-- The map after an operation. -/
def mapStep (M : Text → Option ZdirElem) : ZdirOp → Text → Option ZdirElem
  | .reserve _ _ => M
  | .insert e => Function.update M e.key (some e)
  | .remove e => if M e.key = some e then Function.update M e.key none else M

/-- The answer of a map to an operation. -/
def MapAnswers (M : Text → Option ZdirElem) : ZdirOp → ZdirAnswer → Prop
  | .reserve _ _, .reserved _ => True
  | .insert e, .replaced old => old = if M e.key = some e then none else M e.key
  | .remove e, .removed found => found = decide (M e.key = some e)
  | _, _ => False

/-- The answers of a map to a sequence of operations. -/
def MapRun : (Text → Option ZdirElem) → List ZdirOp → List ZdirAnswer → Prop
  | _, [], answers => answers = []
  | M, op :: ops, answers => ∃ answer rest, answers = answer :: rest ∧ MapAnswers M op answer ∧
    MapRun (mapStep M op) ops rest

/-- One operation does to the directory what it does to the map. -/
lemma zdir_step {d : Zdir} {credit : Nat} {M : Text → Option ZdirElem} (h : d.Indexes credit M)
    {op : ZdirOp} (hop : op.allowed credit = true) :
    ∃ answer d', d.step op = some (answer, d') ∧ MapAnswers M op answer ∧
      d'.Indexes (op.credit credit answer) (mapStep M op) := by
  cases op with
  | reserve extra memory =>
    obtain ⟨ok, d', hd, h'⟩ := zdirReserve_spec h memory extra
    refine ⟨.reserved ok, d', by rw [Zdir.step, hd]; rfl, trivial, ?_⟩
    cases ok with
    | true => exact h'
    | false => exact h'
  | insert e =>
    obtain ⟨hpos, hname⟩ : 0 < credit ∧ e.name.length ≤ 255 := by simpa [ZdirOp.allowed] using hop
    obtain ⟨n, rfl⟩ : ∃ n, credit = n + 1 := ⟨credit - 1, by omega⟩
    obtain ⟨d', hd, h'⟩ := zdirInsert_spec h hname
    exact ⟨.replaced (if M e.key = some e then none else M e.key),
      d', by rw [Zdir.step, hd]; rfl, rfl, h'⟩
  | remove e =>
    obtain ⟨d', hd, h'⟩ := zdirRemove_spec h e
    exact ⟨.removed (decide (M e.key = some e)), d', by rw [Zdir.step, hd]; rfl, rfl, h'⟩

lemma zdir_steps : ∀ {ops : List ZdirOp} {d : Zdir} {credit : Nat} {M : Text → Option ZdirElem},
    d.Indexes credit M → orderly credit d ops = true →
    ∃ answers d' credit', d.run ops = some (answers, d') ∧ MapRun M ops answers ∧
      d'.Indexes credit' (ops.foldl mapStep M)
  | [], d, credit, M, h, _ => ⟨[], d, credit, rfl, rfl, h⟩
  | op :: ops, d, credit, M, h, horder => by
    rw [orderly, Bool.and_eq_true] at horder
    obtain ⟨answer, d₁, hstep, hans, h₁⟩ := zdir_step h horder.1
    rw [hstep] at horder
    obtain ⟨answers, d', credit', hrun, hmap, h'⟩ := zdir_steps h₁ horder.2
    refine ⟨answer :: answers, d', credit', ?_, ⟨answer, answers, rfl, hans, hmap⟩, h'⟩
    simp [Zdir.run, hstep, hrun]

/-- After every sequence of operations the directory is a map: all probe loops ended, the answers
are those of the map, at least half of the cells are free, tombstones counted as taken, a name is
looked up by its key, and the search for a query name gives the longest suffix in the map. -/
theorem zdir_run {ops : List ZdirOp} (horder : orderly 0 Zdir.new ops = true) :
    ∃ answers d, Zdir.new.run ops = some (answers, d) ∧ MapRun (fun _ => none) ops answers ∧
      (∀ t, d.tab = some t → used t.cap t.slot * 2 ≤ t.cap) ∧
      (∀ name, zdirLookup d name =
        some (ops.foldl mapStep (fun _ => none) ((zoneKey name).map lower))) ∧
      ∀ qname, ∃ r, zdirFindSuffix d.tab (fun _ _ _ => none) qname = some r ∧
        IsLongest (ops.foldl mapStep fun _ => none) (zoneKey qname) r := by
  obtain ⟨answers, d, credit, hrun, hmap, h⟩ := zdir_steps Zdir.indexes_new horder
  refine ⟨answers, d, hrun, hmap, fun t ht => ?_, zdirLookup_spec h, zdirFindSuffix_spec h⟩
  obtain ⟨-, -, hused, -, hroom, -⟩ := h.some t ht
  omega

/-- Three zones, two of them inside the first; one of these is replaced and the other taken out. -/
def nestedZones : List ZdirOp :=
  [.reserve 3 true, .insert ⟨0, ascii "example."⟩, .insert ⟨1, ascii "Sub.example."⟩,
    .insert ⟨2, ascii "b.example."⟩,
    .reserve 1 true, .insert ⟨3, ascii "sub.EXAMPLE."⟩, .remove ⟨2, ascii "b.example."⟩]

def nestedMap : Text → Option ZdirElem := nestedZones.foldl mapStep fun _ => none

/-- What the search finds for a name after the operations. -/
def nestedFind (qname : String) : Option (Option ZdirElem) :=
  (Zdir.new.run nestedZones).bind fun p => zdirFindSuffix p.2.tab (fun _ _ _ => none) (ascii qname)

/-- Below the zone that was replaced the new one is found, below the one that was taken out the
outer one. -/
theorem zdir_run_nested : orderly 0 Zdir.new nestedZones = true ∧
    ∃ answers d, Zdir.new.run nestedZones = some (answers, d) ∧
      zdirLookup d (ascii "SUB.example") = some (some ⟨3, ascii "sub.EXAMPLE."⟩) ∧
      zdirLookup d (ascii "b.example.") = some none ∧
      IsLongest nestedMap (zoneKey (ascii "www.x.sub.example.")) (some ⟨3, ascii "sub.EXAMPLE."⟩) ∧
      IsLongest nestedMap (zoneKey (ascii "www.B.example.")) (some ⟨0, ascii "example."⟩) ∧
      IsLongest nestedMap (zoneKey (ascii "example.org.")) none := by
  have horder : orderly 0 Zdir.new nestedZones = true := by decide +kernel
  obtain ⟨answers, d, hrun, -, -, hlookup, hsuffix⟩ := zdir_run horder
  have hsub : nestedZones.foldl mapStep (fun _ => none)
    ((zoneKey (ascii "SUB.example")).map lower) =
      some ⟨3, ascii "sub.EXAMPLE."⟩ := by decide +kernel
  have hgone : nestedZones.foldl mapStep (fun _ => none)
      ((zoneKey (ascii "b.example.")).map lower) = none := by
    decide +kernel
  have hfind : ∀ {qname : String} {r : Option ZdirElem}, nestedFind qname = some r →
      IsLongest nestedMap (zoneKey (ascii qname)) r := by
    intro qname r h
    rw [nestedFind, hrun] at h
    obtain ⟨r', hr', hlongest⟩ := hsuffix (ascii qname)
    obtain rfl : r' = r := Option.some.inj (hr'.symm.trans h)
    exact hlongest
  refine ⟨horder, answers, d, hrun, by rw [hlookup, hsub], by rw [hlookup, hgone], hfind ?_,
    hfind ?_, hfind ?_⟩
  · decide +kernel
  · decide +kernel
  · decide +kernel

end KariDns
