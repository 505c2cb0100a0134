import KariDns.Libc

/-! The files `$INCLUDE` may name (`resolve_include_path` in `dns_zone_parser.c`).

A path is normalized by its text alone and must then begin with one of the two directories opened at
startup. What a path denotes is read from a working directory, component by component; `..` in `/`
stays there.
-/

namespace KariDns

open Octets DomainName List Option

/-! ### Normalizing -/

/-- What stands between the slashes of a path. -/
def pathComponents (t : Text) : List Text := (splitOn 47 t).filter (· ≠ [])

def isAbsolute (t : Text) : Bool := t.head? = some 47

/-- `.` -/
def dot : Text := [46]

/-- `..` -/
def dotDot : Text := [46, 46]

/-- `PATH_MAX` -/
def pathMax : Nat := 4096

/-- The loop of `include_path_normalize`; the components kept so far, the last one first. 256 is
`INCLUDE_PATH_COMPONENTS_MAX`. -/
def keepComponents (isAbs : Bool) : List Text → List Text → Option (List Text)
  | kept, [] => some kept.reverse
  | kept, c :: cs =>
    if c = dot then keepComponents isAbs kept cs
    else if c = dotDot ∧ kept ≠ [] ∧ kept.head? ≠ some dotDot then keepComponents isAbs kept.tail cs
    else if c = dotDot ∧ isAbs then none
    else if kept.length ≥ 256 then none
    else keepComponents isAbs (c :: kept) cs

/-- The components written behind `out`, with slashes between them. -/
def writeComponents (first : Bool) : List Text → Text → Option Text
  | [], out => some out
  | c :: cs, out =>
    if out.length + c.length + 2 > pathMax then none
    else writeComponents false cs (out ++ (if first then [] else [47]) ++ c)

/-- `include_path_normalize` into a buffer of `PATH_MAX` octets. -/
def includePathNormalize (t : Text) : Option Text :=
  match keepComponents (isAbsolute t) [] (pathComponents t) with
  | none => none
  | some comps => (writeComponents true comps (if isAbsolute t then [47] else [])).map fun out =>
    if out = [] then dot else out

/-- `strncmp (path, root, strlen (root)) == 0`, and the path ends there or goes on with a slash. -/
def beginsWith (path root : Text) : Bool :=
  root.isPrefixOf path && (path[root.length]? = none || path[root.length]? = some 47)

/-- `include_path_within`. -/
def includePathWithin (path root : Text) : Bool :=
  if isAbsolute path ≠ isAbsolute root then false
  else if root = dot then !beginsWith path dotDot
  else if root = [47] then 47 ∉ path.tail
  else beginsWith path root

/-- The directories of a `parse_context_t`: that of the zone file, and `options { directory }`. -/
structure IncludeDirs where
  baseDir : Text
  directory : Option Text

/-- The directories opened at startup. -/
def IncludeDirs.roots (d : IncludeDirs) : List Text :=
  d.baseDir :: (d.directory.filter (· ≠ [])).toList

/-- The argument behind the directory it is read from. -/
def IncludeDirs.joined (d : IncludeDirs) (path : Text) : Text :=
  if isAbsolute path then path else (d.directory.filter (· ≠ [])).getD d.baseDir ++ [47] ++ path

/-- `resolve_include_path`: the path, or the message of the error. -/
def resolveIncludePath (d : IncludeDirs) (path : Text) : Except Text Text :=
  if path = [] then .error (ascii "$INCLUDE requires a filename")
  else if (d.joined path).length ≥ pathMax then .error (ascii "$INCLUDE path too long")
  else
    match (includePathNormalize (d.joined path)).filter fun norm =>
        d.roots.any fun root => (includePathNormalize root).any (includePathWithin norm) with
    | some norm => .ok norm
    | none => .error ((ascii "$INCLUDE '" ++ path.take 200 ++
        ascii "' is outside the directories opened at startup (zone file dir" ++
        (if (d.directory.filter (· ≠ [])).isSome then ascii ", directory" else []) ++
        ascii "): the sandboxed server can read only below them").take 511)

/-! ### What a path denotes -/

/-- From a directory, given by the names that lead to it from `/`, through one component. -/
def enter (place : List Text) (c : Text) : List Text :=
  if c = dot then place else if c = dotDot then place.dropLast else place ++ [c]

/-- The place a path denotes for a process in the directory `cwd`. -/
def placeOf (cwd : List Text) (t : Text) : List Text :=
  (pathComponents t).foldl enter (if isAbsolute t then [] else cwd)

/-- The tree of `dir` holds what `path` denotes, wherever the process stands. -/
def InTree (dir path : Text) : Prop := ∀ cwd, placeOf cwd dir <+: placeOf cwd path

/-- One component more of a way: so many directories up, and down again by names. -/
def turn (way : Nat × List Text) (c : Text) : Nat × List Text :=
  if c = dot then way
  else if c = dotDot then if way.2 = [] then (way.1 + 1, []) else (way.1, way.2.dropLast)
  else (way.1, way.2 ++ [c])

/-- The way that a path leads. -/
def travel (t : Text) : Nat × List Text := (pathComponents t).foldl turn (0, [])

/-- The directory is made of `..` only, and the path climbs higher. -/
def Outclimbs (path dir : Text) : Prop :=
  isAbsolute path = false ∧ isAbsolute dir = false ∧ (travel dir).2 = [] ∧ 0 < (travel dir).1 ∧
    (travel dir).1 < (travel path).1

instance (path dir : Text) : Decidable (Outclimbs path dir) := inferInstanceAs (Decidable (_ ∧ _))

/-- The way of the directory goes at least as far up, or is the beginning of that of the path. -/
def Contains (dir path : Text) : Prop :=
  if isAbsolute dir then (travel dir).2 = [] ∨ isAbsolute path = true ∧
    (travel dir).2 <+: (travel path).2
  else isAbsolute path = false ∧ ((travel dir).2 = [] ∧ (travel path).1 ≤ (travel dir).1 ∨
    (travel dir).1 = (travel path).1 ∧ (travel dir).2 <+: (travel path).2)

/-! ### Texts and components -/

lemma not_mem_splitOn {c : UInt8} : ∀ {t p : Text}, p ∈ splitOn c t → c ∉ p
  | [], p, h => by
    obtain rfl := mem_singleton.mp h
    simp
  | d :: t, p, h => by
    have ih := @not_mem_splitOn c t
    rw [splitOn] at h
    split at h
    · rcases mem_cons.mp h with rfl | h
      · simp
      · exact ih h
    rename_i hd
    cases hs : splitOn c t with
    | nil =>
      rw [hs] at h
      obtain rfl := mem_singleton.mp h
      simpa using Ne.symm hd
    | cons q qs =>
      rw [hs] at h ih
      rcases mem_cons.mp h with rfl | h
      · simpa [Ne.symm hd] using ih mem_cons_self
      · exact ih (mem_cons_of_mem _ h)

/-- A component: not empty, and without a slash. -/
def IsComponent (c : Text) : Prop := c ≠ [] ∧ 47 ∉ c

lemma isComponent_of_mem {t c : Text} (h : c ∈ pathComponents t) : IsComponent c := by
  obtain ⟨hs, hne⟩ := mem_filter.mp h
  exact ⟨by simpa using hne, not_mem_splitOn hs⟩

/-- Every component behind a slash. -/
def slashed (cs : List Text) : Text := cs.flatMap (47 :: ·)

/-- The text of normalized components. -/
def pathText (isAbs : Bool) : List Text → Text
  | [] => if isAbs then [47] else dot
  | c :: cs => (if isAbs then [47] else []) ++ c ++ slashed cs

lemma writeComponents_later :
    ∀ {cs : List Text} {out r : Text}, writeComponents false cs out = some r → r = out ++ slashed cs
  | [], out, r, h => by
    obtain rfl := some.inj h
    simp [slashed]
  | c :: cs, out, r, h => by
    rw [writeComponents] at h
    split at h
    · cases h
    · rw [writeComponents_later h]
      simp [slashed]

lemma writeComponents_first {cs : List Text} {c out r : Text}
    (h : writeComponents true (c :: cs) out = some r) :
    r = out ++ c ++ slashed cs := by
  rw [writeComponents] at h
  split at h
  · cases h
  · rw [writeComponents_later h, if_pos rfl, append_nil]

lemma splitOn_slashed :
    ∀ {cs : List Text} {c : Text}, 47 ∉ c → (∀ d ∈ cs, 47 ∉ d) →
      splitOn 47 (c ++ slashed cs) = c :: cs
  | [], c, hc, _ => by simpa [slashed] using splitOn_none hc
  | d :: ds, c, hc, hds => by
    have hrest := splitOn_slashed (hds d mem_cons_self) fun e he => hds e (mem_cons_of_mem _ he)
    rw [show slashed (d :: ds) = 47 :: (d ++ slashed ds) by simp [slashed], splitOn_append _ hc,
      hrest]

section PathText

variable {isAbs : Bool} {cs ds : List Text}

lemma isAbsolute_pathText (h : ∀ c ∈ cs, IsComponent c) :
    isAbsolute (pathText isAbs cs) = isAbs := by
  cases cs with
  | nil => cases isAbs <;> rfl
  | cons c cs =>
    cases isAbs with
    | true => rfl
    | false =>
      obtain ⟨hne, hslash⟩ := h c mem_cons_self
      obtain ⟨x, c, rfl⟩ := exists_cons_of_ne_nil hne
      simp only [pathText, isAbsolute, Bool.false_eq_true, if_false, nil_append, cons_append,
        head?_cons, some.injEq, decide_eq_false_iff_not]
      rintro rfl
      exact hslash mem_cons_self

lemma pathComponents_pathText (h : ∀ c ∈ cs, IsComponent c) (hsome : cs ≠ [] ∨ isAbs = true) :
    pathComponents (pathText isAbs cs) = cs := by
  have hkeep : cs.filter (· ≠ []) = cs := filter_eq_self.mpr fun c hc => by simpa using (h c hc).1
  cases cs with
  | nil =>
    obtain rfl := hsome.resolve_left (by simp)
    decide
  | cons c cs =>
    have hsplit := splitOn_slashed (h c mem_cons_self).2 fun d hd => (h d (mem_cons_of_mem _ hd)).2
    cases isAbs with
    | true => simpa [pathComponents, pathText, splitOn, hsplit] using hkeep
    | false => simpa [pathComponents, pathText, hsplit] using hkeep

lemma append_slashed_inj {c d x y : Text} (hc : 47 ∉ c) (hd : 47 ∉ d)
    (hx : x = [] ∨ x.head? = some 47) (hy : y = [] ∨ y.head? = some 47) (h : c ++ x = d ++ y) :
      c = d ∧ x = y := by
  have hstop : ∀ {e z : Text}, 47 ∉ e → (z = [] ∨ z.head? = some 47) →
      (e ++ z).takeWhile (· ≠ 47) = e := by
    intro e z he hz
    have hall : ∀ a ∈ e, decide (a ≠ 47) = true := fun a ha => by
      simp only [ne_eq, decide_eq_true_eq]
      rintro rfl
      exact he ha
    rw [takeWhile_append_of_pos hall]
    cases z with
    | nil => simp
    | cons a z =>
      obtain rfl : a = 47 := by simpa using hz
      simp
  have heq : c = d := by rw [← hstop hc hx, h, hstop hd hy]
  subst heq
  exact ⟨rfl, append_cancel_left h⟩

lemma slashed_head (cs : List Text) : slashed cs = [] ∨ (slashed cs).head? = some 47 := by
  cases cs with
  | nil => exact .inl rfl
  | cons c cs => exact .inr rfl

lemma slashed_starts : ∀ {ds cs : List Text} {rest : Text}, (∀ d ∈ ds, 47 ∉ d) →
    (∀ c ∈ cs, 47 ∉ c) →
    (rest = [] ∨ rest.head? = some 47) → slashed cs = slashed ds ++ rest → ds <+: cs
  | [], _, _, _, _, _, _ => nil_prefix
  | d :: ds, [], _, _, _, _, h => by simp [slashed] at h
  | d :: ds, c :: cs, rest, hds, hcs, hrest, h => by
    have hcons : c ++ slashed cs = d ++ (slashed ds ++ rest) := by simpa [slashed] using h
    have hhead : slashed ds ++ rest = [] ∨ (slashed ds ++ rest).head? = some 47 := by
      cases ds with
      | nil => simpa [slashed] using hrest
      | cons _ _ => exact .inr rfl
    obtain ⟨rfl, htail⟩ :=
      append_slashed_inj (hcs c mem_cons_self) (hds d mem_cons_self) (slashed_head cs) hhead hcons
    exact (prefix_cons_inj c).mpr (slashed_starts (fun e he => hds e (mem_cons_of_mem _ he))
      (fun e he => hcs e (mem_cons_of_mem _ he)) hrest htail)

lemma beginsWith_eq {path root : Text} (h : beginsWith path root = true) :
    ∃ rest, path = root ++ rest ∧ (rest = [] ∨ rest.head? = some 47) := by
  rw [beginsWith, Bool.and_eq_true, isPrefixOf_iff_prefix] at h
  obtain ⟨⟨rest, rfl⟩, hend⟩ := h
  refine ⟨rest, rfl, ?_⟩
  rw [getElem?_append_right (Nat.le_refl _), Nat.sub_self, ← List.head?_eq_getElem?] at hend
  simpa using hend

/-- The test of the prefix sees whole components. -/
lemma prefix_of_beginsWith (hcs : ∀ c ∈ cs, IsComponent c) (hds : ∀ d ∈ ds, IsComponent d ∧ d ≠ dot)
    (hne : ds ≠ []) (h : beginsWith (pathText isAbs cs) (pathText isAbs ds) = true) :
      ds <+: cs := by
  obtain ⟨rest, heq, hrest⟩ := beginsWith_eq h
  refine slashed_starts (fun d hd => (hds d hd).1.2) (fun c hc => (hcs c hc).2) hrest ?_
  obtain ⟨d, ds, rfl⟩ := exists_cons_of_ne_nil hne
  obtain ⟨⟨hdne, hdslash⟩, hdot⟩ := hds d mem_cons_self
  cases cs with
  | nil =>
    -- neither `/` nor `.` begins with a component
    exfalso
    cases isAbs with
    | true => simp [pathText, hdne] at heq
    | false =>
      obtain ⟨x, d, rfl⟩ := exists_cons_of_ne_nil hdne
      obtain ⟨hx, htail⟩ : (46 : UInt8) = x ∧ [] = d ++ slashed ds ++ rest := by
        simpa [pathText, dot] using heq
      obtain rfl : d = [] := by
        simpa using (append_eq_nil_iff.mp (append_eq_nil_iff.mp htail.symm).1).1
      exact hdot (by rw [← hx]; rfl)
  | cons c cs =>
    cases isAbs with
    | true => simpa [pathText, slashed] using heq
    | false => simpa [pathText, slashed] using congrArg (47 :: ·) heq

end PathText

/-! ### Ways -/

/-- The components that a way is written with. -/
def spelled (way : Nat × List Text) : List Text := List.replicate way.1 dotDot ++ way.2

/-- The names of a way are names. -/
def PlainWay (way : Nat × List Text) : Prop := ∀ c ∈ way.2, c ≠ dot ∧ c ≠ dotDot

lemma PlainWay.turn {way : Nat × List Text} (h : PlainWay way) (c : Text) :
    PlainWay (turn way c) := by
  unfold KariDns.turn
  split_ifs with hdot hup hnil
  · exact h
  · simp [PlainWay]
  · exact fun d hd => h d (mem_of_mem_dropLast hd)
  · intro d hd
    rcases mem_append.mp hd with hd | hd
    · exact h d hd
    · obtain rfl := mem_singleton.mp hd
      exact ⟨hdot, hup⟩

lemma PlainWay.foldl {cs : List Text} : ∀ {way : Nat × List Text}, PlainWay way → PlainWay
    (cs.foldl KariDns.turn way) := by
  induction cs with
  | nil => exact id
  | cons c cs ih => exact fun h => ih (h.turn c)

lemma travel_plain (t : Text) : PlainWay (travel t) := PlainWay.foldl (by simp [PlainWay])

lemma travel_spelled {way : Nat × List Text} (h : PlainWay way) :
    (spelled way).foldl turn (0, []) = way := by
  obtain ⟨u, names⟩ := way
  have hup : ∀ u k, (List.replicate u dotDot).foldl turn (k, []) = (k + u, []) := by
    intro u
    induction u with
    | zero => exact fun _ => rfl
    | succ u ih =>
      intro k
      rw [replicate_succ, foldl_cons, show turn (k, []) dotDot = (k + 1, []) from rfl, ih]
      congr 1
      omega
  have hdown : ∀ {cs ds : List Text}, (∀ c ∈ cs, c ≠ dot ∧ c ≠ dotDot) →
      cs.foldl turn (u, ds) = (u, ds ++ cs) := by
    intro cs
    induction cs with
    | nil => simp
    | cons c cs ih =>
      intro ds hcs
      obtain ⟨h1, h2⟩ := hcs c mem_cons_self
      rw [foldl_cons, turn, if_neg h1, if_neg h2, ih fun d hd => hcs d (mem_cons_of_mem _ hd),
        append_assoc]
      rfl
  rw [spelled, foldl_append, hup, Nat.zero_add, hdown h, nil_append]

/-- The way leads to the place. The induction is on the components. -/
lemma foldl_enter_turn (place : List Text) : ∀ (cs : List Text) (way : Nat × List Text),
    cs.foldl enter (place.take (place.length - way.1) ++ way.2) =
      place.take (place.length - (cs.foldl turn way).1) ++ (cs.foldl turn way).2
  | [], _ => rfl
  | c :: cs, way => by
    have hstep : enter (place.take (place.length - way.1) ++ way.2) c =
        place.take (place.length - (turn way c).1) ++ (turn way c).2 := by
      unfold enter turn
      split_ifs with hdot hup hnil
      · rfl
      · rw [hnil, append_nil, append_nil, dropLast_eq_take, take_take, length_take]
        congr 1
        omega
      · rw [dropLast_append_of_ne_nil hnil]
      · rw [append_assoc]
    rw [foldl_cons, hstep, foldl_enter_turn place cs, foldl_cons]

lemma placeOf_eq (cwd : List Text) (t : Text) : placeOf cwd t =
    (if isAbsolute t then [] else cwd).take
      ((if isAbsolute t then [] else cwd).length - (travel t).1) ++ (travel t).2 := by
  have hway := foldl_enter_turn (if isAbsolute t then [] else cwd) (pathComponents t) (0, [])
  rwa [Nat.sub_zero, take_length, append_nil] at hway

/-- The loop keeps the components of the way. -/
lemma keepComponents_spelled {isAbs : Bool} : ∀ {cs kept comps : List Text} {way : Nat × List Text},
    keepComponents isAbs kept cs = some comps → kept.reverse = spelled way → PlainWay way →
    comps = spelled (cs.foldl turn way) ∧ ∀ c ∈ comps, c ∈ kept ∨ c ∈ cs
  | [], kept, comps, way, h, hkept, _ => by
    obtain rfl := some.inj h
    exact ⟨hkept, fun c hc => .inl (mem_reverse.mp hc)⟩
  | c :: cs, kept, comps, way, h, hkept, hplain => by
    rw [keepComponents] at h
    rw [foldl_cons]
    -- the head of what is kept is the last name
    have hlast : ∀ {names n}, way.2 = names ++ [n] →
        kept = n :: (List.replicate way.1 dotDot ++ names).reverse := by
      intro names n hn
      rw [← reverse_reverse kept, hkept, spelled, hn]
      simp
    split_ifs at h with hdot hpop hroot hmax
    · obtain ⟨hcomps, hmem⟩ := keepComponents_spelled h hkept hplain
      rw [turn, if_pos hdot]
      exact ⟨hcomps, fun d hd => (hmem d hd).imp_right (mem_cons_of_mem _)⟩
    · -- the last name and the `..` behind it go away
      obtain ⟨rfl, hne, hhead⟩ := hpop
      rcases eq_nil_or_concat way.2 with hnil | ⟨names, n, hn⟩
      · obtain ⟨k, ks, rfl⟩ := exists_cons_of_ne_nil hne
        have hmem : k ∈ List.replicate way.1 dotDot := by
          rw [spelled, hnil, append_nil] at hkept
          simp [← hkept]
        exact absurd (by rw [head?_cons, eq_of_mem_replicate hmem]) hhead
      rw [concat_eq_append] at hn
      have hturn : turn way dotDot = (way.1, names) := by
        rw [turn, if_neg (by decide), if_pos rfl, if_neg (by simp [hn]), hn, dropLast_concat]
      have hkept' : kept.tail.reverse = spelled (way.1, names) := by simp [hlast hn, spelled]
      obtain ⟨hcomps, hmem⟩ := keepComponents_spelled h hkept' (hturn ▸ hplain.turn dotDot)
      rw [hturn]
      exact ⟨hcomps, fun d hd => (hmem d hd).imp mem_of_mem_tail (mem_cons_of_mem _)⟩
    have hkept' : (c :: kept).reverse = spelled (turn way c) := by
      rw [reverse_cons, hkept, turn, if_neg hdot]
      by_cases hup : c = dotDot
      · subst hup
        rcases eq_nil_or_concat way.2 with hnil | ⟨names, n, hn⟩
        · simp [spelled, hnil, replicate_succ']
        -- a name would have gone away with it
        rw [concat_eq_append] at hn
        exact absurd ⟨rfl, by simp [hlast hn], by simpa [hlast hn] using (hplain n
          (by simp [hn])).2⟩ hpop
      · rw [if_neg hup, spelled, spelled, append_assoc]
    obtain ⟨hcomps, hmem⟩ := keepComponents_spelled h hkept' (hplain.turn c)
    refine ⟨hcomps, fun d hd => ?_⟩
    rcases hmem d hd with hd | hd
    · exact (mem_cons.mp hd).elim (fun heq => .inr (by simp [heq])) .inl
    · exact .inr (mem_cons_of_mem _ hd)

/-- A path and what it is normalized to. -/
structure Normalized (t r : Text) : Prop where
  text : r = pathText (isAbsolute t) (spelled (travel t))
  components : ∀ c ∈ spelled (travel t), IsComponent c

lemma includePathNormalize_some {t r : Text} (h : includePathNormalize t = some r) :
    Normalized t r := by
  unfold includePathNormalize at h
  split at h
  · cases h
  rename_i comps hcomps
  obtain ⟨rfl, hmem⟩ :=
    keepComponents_spelled hcomps (show [].reverse = spelled (0, []) from rfl) (by simp [PlainWay])
  obtain ⟨out, hout, rfl⟩ := map_eq_some_iff.mp h
  have hcomp : ∀ c ∈ spelled (travel t), IsComponent c :=
    fun c hc => isComponent_of_mem ((hmem c hc).resolve_left (by simp))
  refine ⟨?_, hcomp⟩
  change writeComponents true (spelled (travel t)) _ = some out at hout
  cases hs : spelled (travel t) with
  | nil =>
    rw [hs] at hout
    obtain rfl := some.inj hout
    cases isAbsolute t <;> rfl
  | cons c cs =>
    rw [hs] at hout hcomp
    rw [writeComponents_first hout]
    exact if_neg (by simp [(hcomp c mem_cons_self).1])

section Within

variable {d r raw norm : Text}

lemma Normalized.isAbsolute_eq (h : Normalized raw norm) : isAbsolute norm = isAbsolute raw := by
  rw [h.text, isAbsolute_pathText h.components]

lemma Normalized.travel_eq (h : Normalized raw norm) : travel norm = travel raw := by
  by_cases hsome : spelled (travel raw) ≠ [] ∨ isAbsolute raw = true
  · rw [travel, h.text, pathComponents_pathText h.components hsome,
      travel_spelled (travel_plain raw)]
  obtain ⟨hnil, habs⟩ := not_or.mp hsome
  have hway := travel_spelled (travel_plain raw)
  rw [not_not.mp hnil] at hway
  rw [h.text, not_not.mp hnil, Bool.eq_false_iff.mpr habs, ← hway]
  rfl

lemma Normalized.ne_dot (h : Normalized d r) :
    ∀ c ∈ spelled (travel d), IsComponent c ∧ c ≠ dot := by
  intro c hc
  refine ⟨h.components c hc, ?_⟩
  rcases mem_append.mp hc with hc | hc
  · rw [eq_of_mem_replicate hc]
    decide
  · exact (travel_plain d c hc).1

/-- The path is the same place, for every directory. -/
lemma inTree_normalized (h : Normalized raw norm) : InTree d norm ↔ InTree d raw :=
  forall_congr' fun cwd => by rw [placeOf_eq cwd norm, h.travel_eq, h.isAbsolute_eq, ← placeOf_eq]

lemma replicate_starts {x n : Text} {ns ms : List Text} (hn : n ≠ x)
    (hms : ∀ m ∈ ms, m ≠ x) : ∀ {u v : Nat},
    List.replicate u x ++ n :: ns <+: List.replicate v x ++ ms → u = v ∧ n :: ns <+: ms
  | 0, 0, h => ⟨rfl, h⟩
  | 0, v + 1, h => absurd (cons_prefix_cons.mp h).1 hn
  | u + 1, 0, h => by
    have hx : x ∈ ms := h.subset (by simp)
    exact absurd rfl (hms x hx)
  | u + 1, v + 1, h => by
    obtain ⟨heq, hpre⟩ := replicate_starts hn hms (cons_prefix_cons.mp h).2
    exact ⟨by rw [heq], hpre⟩

/-- A name longer than all of theirs is none of them. -/
lemma exists_fresh (as bs : List Text) : ∃ fresh : Text, fresh ∉ as ∧ fresh ∉ bs := by
  have hlong : ∀ {names : List Text}, names <:+: as ++ bs →
      (97 :: (as ++ bs).flatten) ∉ names := by
    intro names hsub hmem
    have hle := (sublist_flatten_of_mem (hsub.subset hmem)).length_le
    rw [length_cons] at hle
    omega
  exact ⟨_, hlong (prefix_append _ _).isInfix, hlong (suffix_append _ _).isInfix⟩

/-- One way up and down leads to the start of another from every directory: it goes at least as far
up and not down, or as far up and down to the start of the other. -/
lemma take_prefix_iff {names ms : List Text} (u v : Nat) :
    (∀ cwd : List Text, cwd.take (cwd.length - u) ++ names <+: cwd.take (cwd.length - v) ++ ms) ↔
      names = [] ∧ v ≤ u ∨ u = v ∧ names <+: ms := by
  obtain ⟨fresh, hdir, hpath⟩ := exists_fresh names ms
  constructor
  · intro h
    rcases Nat.lt_trichotomy u v with hlt | rfl | hgt
    · -- the last directory but `u` is not reached from `v` further up
      have hmem : fresh ∈
          List.take (List.length (List.replicate v fresh) - u) (List.replicate v fresh) := by
        simp
        omega
      have hin := (h _).subset (mem_append_left _ hmem)
      exact absurd (by simpa using hin) hpath
    · exact .inr ⟨rfl, by simpa using h []⟩
    · refine .inl ⟨?_, Nat.le_of_lt hgt⟩
      have hbad := h (List.replicate u fresh)
      have hlen : min (u - v) u = u - v - 1 + 1 := by omega
      cases names with
      | nil => rfl
      | cons n ns =>
        rw [length_replicate, Nat.sub_self, take_replicate, take_replicate, hlen,
          replicate_succ] at hbad
        exact absurd (cons_prefix_cons.mp hbad).1 (ne_of_mem_of_not_mem mem_cons_self hdir)
  · rintro (⟨rfl, hle⟩ | ⟨rfl, hpre⟩) cwd
    · rw [append_nil]
      exact (take_prefix_take_left (by omega)).trans (prefix_append _ _)
    · exact (prefix_append_right_inj _).mpr hpre

/-- What lies in a tree, by the two ways. -/
lemma inTree_iff (dir path : Text) : InTree dir path ↔ Contains dir path := by
  obtain ⟨fresh, hdir, hpath⟩ := exists_fresh (travel dir).2 (travel path).2
  simp only [InTree, placeOf_eq, Contains]
  generalize travel dir = way at hdir ⊢
  generalize travel path = way' at hpath ⊢
  obtain ⟨u, names⟩ := way
  obtain ⟨v, ms⟩ := way'
  dsimp only at hdir hpath ⊢
  cases isAbsolute dir with
  | true =>
    simp only [if_true, take_nil, nil_append]
    cases isAbsolute path with
    | true =>
      simp only [if_true, take_nil, nil_append]
      refine ⟨fun h => .inr ⟨trivial, h []⟩, ?_⟩
      rintro (rfl | ⟨-, h⟩) _
      · exact nil_prefix
      · exact h
    | false =>
      simp only [Bool.false_eq_true, if_false, false_and, or_false]
      refine ⟨fun h => ?_, fun h cwd => by simp [h]⟩
      -- names cannot lead into the working directory
      have hbad := h (List.replicate (v + 1) fresh)
      rw [length_replicate, show v + 1 - v = 1 by omega] at hbad
      cases names with
      | nil => rfl
      | cons n ns =>
        exact absurd (by simpa using (cons_prefix_cons.mp hbad).1)
          (ne_of_mem_of_not_mem mem_cons_self hdir)
  | false =>
    simp only [Bool.false_eq_true, if_false]
    cases isAbsolute path with
    | true =>
      simp only [if_true, take_nil, nil_append, Bool.true_eq_false, false_and, iff_false]
      intro h
      have hmem :
          fresh ∈ List.take (List.length (List.replicate (u + 1) fresh) - u)
            (List.replicate (u + 1) fresh) := by
        simp
      exact hpath ((h _).subset (mem_append_left _ hmem))
    | false =>
      simp only [Bool.false_eq_true, if_false, true_and]
      exact take_prefix_iff u v

/-- A directory with components lets in what begins with them. -/
lemma Normalized.prefix_of_within (hd : Normalized d r) (hn : Normalized raw norm)
    (hsome : spelled (travel d) ≠ []) (h : includePathWithin norm r = true) :
      spelled (travel d) <+: spelled (travel raw) := by
  have hcomps : pathComponents r = spelled (travel d) := by
    rw [hd.text, pathComponents_pathText hd.components (.inl hsome)]
  have hdot : r ≠ dot := by
    rintro rfl
    exact (hd.ne_dot dot (by rw [← hcomps]; decide)).2 rfl
  have hslash : r ≠ [47] := by
    rintro rfl
    exact hsome (by rw [← hcomps]; decide)
  rw [includePathWithin, hd.isAbsolute_eq, hn.isAbsolute_eq] at h
  split at h
  · cases h
  rename_i habs
  rw [hn.text, hd.text, not_not.mp habs] at h
  exact prefix_of_beginsWith hn.components hd.ne_dot hsome h

/-- The working directory lets in what does not climb. -/
lemma Normalized.climbs_of_within (hn : Normalized raw norm) (hrel : isAbsolute raw = false)
    (h : includePathWithin norm dot = true) : (travel raw).1 = 0 := by
  rw [includePathWithin, if_neg (by rw [hn.isAbsolute_eq, hrel]; decide), if_pos rfl,
    Bool.not_eq_true'] at h
  rcases hway : travel raw with ⟨v, ms⟩
  cases v with
  | zero => rfl
  | succ v =>
    have htext : norm = dotDot ++ slashed (List.replicate v dotDot ++ ms) := by
      rw [hn.text, hrel, hway]
      rfl
    have hbegins : beginsWith norm dotDot = true := by
      rw [htext, beginsWith, Bool.and_eq_true, isPrefixOf_iff_prefix]
      refine ⟨prefix_append _ _, ?_⟩
      rw [getElem?_append_right (Nat.le_refl _), Nat.sub_self, ← List.head?_eq_getElem?]
      rcases slashed_head (List.replicate v dotDot ++ ms) with hs | hs <;> simp [hs]
    rw [hbegins] at h
    cases h

/-- What a directory lets in it holds, unless it is made of `..` only and the path climbs higher. -/
lemma contains_of_within (hd : Normalized d r) (hn : Normalized raw norm)
    (h : includePathWithin norm r = true) :
    Outclimbs raw d ∨ Contains d raw := by
  have hsame : isAbsolute raw = isAbsolute d := by
    by_contra hne
    rw [includePathWithin, hd.isAbsolute_eq, hn.isAbsolute_eq, if_pos hne] at h
    cases h
  have hpre := hd.prefix_of_within hn
  have hclimb := hn.climbs_of_within
  have hdir := hd.text
  have hplain := travel_plain d
  have hplain' := travel_plain raw
  rw [Outclimbs, Contains, hsame]
  generalize travel d = way at hpre hdir hplain ⊢
  generalize travel raw = way' at hpre hclimb hplain' ⊢
  obtain ⟨u, _ | ⟨n, ns⟩⟩ := way
  · cases habs : isAbsolute d with
    | true => exact .inr (by simp)
    | false =>
      cases u with
      | zero =>
        rw [habs] at hdir hsame
        obtain rfl : r = dot := hdir
        have hv : way'.1 = 0 := hclimb hsame h
        exact .inr (by simp [hv])
      | succ u =>
        by_cases hlt : u + 1 < way'.1
        · exact .inl ⟨rfl, rfl, rfl, Nat.succ_pos u, hlt⟩
        · exact .inr (by simp; omega)
  right
  obtain ⟨hu, hns⟩ := replicate_starts (hplain n mem_cons_self).2 (fun m hm => (hplain' m hm).2)
    (hpre (by simp [spelled]) h)
  obtain rfl : u = way'.1 := hu
  cases isAbsolute d <;> simp [hns]

end Within

/-- A directory above which a path climbs does not hold it. -/
lemma Outclimbs.not_contains {path dir : Text} (h : Outclimbs path dir) : ¬ Contains dir path := by
  obtain ⟨-, hdir, -, -, hlt⟩ := h
  rw [Contains, hdir]
  simp only [Bool.false_eq_true, if_false]
  omega

/-- A path that is returned is in the tree of one of the directories, exactly if the joined path
climbs above no directory that is made of `..` only, unless the other directory holds it. -/
theorem resolveIncludePath_inTree_iff (d : IncludeDirs) {path norm : Text}
    (h : resolveIncludePath d path = .ok norm) :
    (∃ root ∈ d.roots, InTree root norm) ↔
      ∀ root ∈ d.roots, Outclimbs (d.joined path) root →
        ∃ other ∈ d.roots, other ≠ root ∧ Contains other (d.joined path) := by
  obtain ⟨hraw, root, hroot, r, hr, hwithin⟩ : includePathNormalize (d.joined path) = some norm ∧
      ∃ root ∈ d.roots, ∃ r, includePathNormalize root = some r ∧
        includePathWithin norm r = true := by
    unfold resolveIncludePath at h
    split at h
    · cases h
    split at h
    · cases h
    split at h
    · rename_i norm' hfilter
      cases h
      obtain ⟨hraw, hany⟩ := filter_eq_some_iff.mp hfilter
      obtain ⟨root, hroot, hin⟩ := List.any_eq_true.mp hany
      obtain ⟨r, hr, hwithin⟩ := (Option.any_eq_true _ _).mp hin
      exact ⟨hraw, root, hroot, r, hr, hwithin⟩
    · cases h
  have hn := includePathNormalize_some hraw
  have hcontains : ∀ root, InTree root norm ↔ Contains root (d.joined path) :=
    fun root => (inTree_normalized hn).trans (inTree_iff _ _)
  simp only [hcontains]
  constructor
  · rintro ⟨other, hother, hhold⟩ climbed - hclimbed
    refine ⟨other, hother, ?_, hhold⟩
    rintro rfl
    exact hclimbed.not_contains hhold
  intro hall
  rcases contains_of_within (includePathNormalize_some hr) hn hwithin with hclimbed | hhold
  · obtain ⟨other, hother, -, hhold⟩ := hall root hroot hclimbed
    exact ⟨other, hother, hhold⟩
  · exact ⟨root, hroot, hhold⟩

/-- With a zone file in `..`, below the directory `/etc/zones`. -/
theorem resolveIncludePath_sub : ∃ root ∈ [ascii "..", ascii "/etc/zones"],
    InTree root (ascii "/etc/zones/sub/db") := by
  have hpath : resolveIncludePath ⟨ascii "..", some (ascii "/etc/zones")⟩ (ascii "./x/../sub//db") =
      .ok (ascii "/etc/zones/sub/db") := by
    decide +kernel
  have hstays : ∀ root ∈ [ascii "..", ascii "/etc/zones"],
      ¬ Outclimbs (ascii "/etc/zones/./x/../sub//db") root := by decide +kernel
  exact (resolveIncludePath_inTree_iff _ hpath).mpr fun root hroot hout =>
    absurd hout (hstays root hroot)

/-- In `..` the path `../etc/x` climbs out: from `/a/b` it is `/etc/x`, and the tree is that of
`/a`. -/
theorem resolveIncludePath_climbs_out :
    resolveIncludePath ⟨ascii "..", none⟩ (ascii "../etc/x") = .ok (ascii "../../etc/x") ∧
      ∀ root ∈ (⟨ascii "..", none⟩ : IncludeDirs).roots,
        ¬ placeOf [ascii "a", ascii "b"] root <+: placeOf [ascii "a", ascii "b"]
          (ascii "../../etc/x") := by
  refine ⟨by decide +kernel, ?_⟩
  decide +kernel

end KariDns
