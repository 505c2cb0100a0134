import KariDns.Libc
import Mathlib.Data.List.TakeWhile

/-! The lexer of zone files (`parse_zone_buffer` in `dns_zone_parser.c`).

Fields are collected until a record ends: at the end of a line outside parentheses, or at the end of
the text. What becomes of the fields of a record is a parameter.
-/

namespace KariDns

open DomainName List

/-! ### Tokens -/

/-- `IS_SPACE` -/
def isBlank (c : UInt8) : Bool := c = 32 || c = 9

/-- `IS_NEWLINE` -/
def isNewline (c : UInt8) : Bool := c = 10 || c = 13

/-- What is left to read, `in_parens` and `line_no`. -/
structure LexState where
  rest : Text
  parens : Bool
  line : Nat
  deriving DecidableEq

/-- Where the lexer goes: to the next token, or to the record. -/
inductive LexNext where
  | find (s : LexState)
  | process (s : LexState)

def LexNext.state : LexNext → LexState
  | .find s => s
  | .process s => s

/-- What the octet `c` does between tokens, or as the delimiter behind one; `none` if a token begins
with it. `tag` tells of a `$LOCATION-TAG` or `$ECS-SUBNET-TAG` line. -/
def separator (tag parens : Bool) (line : Nat) (c : UInt8) (t : Text) :
    Option (Except String LexNext) :=
  if isBlank c || tag && (c = 123 || c = 125) then
    some (.ok (.find ⟨t.dropWhile isBlank, parens, line⟩))
  else if isNewline c then
    let s : LexState := ⟨t, parens, if c = 10 then line + 1 else line⟩
    some (.ok (if parens then .find s else .process s))
  else if c = 40 then
    some (if parens then .error "Nested parentheses are not allowed in zone file records"
      else .ok (.find ⟨t, true, line⟩))
  else if c = 41 then
    some (if parens then .ok (.find ⟨t, false, line⟩)
      else .error "Unmatched ')' with no preceding '(' in zone file record")
  else if c = 59 then
    if tag then some (.ok (.find ⟨t, parens, line⟩))
    else
      match t.dropWhile (· ≠ 10) with
      -- a comment that ends the text
      | [] => some (.ok (.process ⟨[], parens, line⟩))
      | nl => some (.ok (.find ⟨nl, parens, line⟩))
  else none

/-- The octets `bs` go before a token. -/
def prepend (bs : Text) (r : Except String (Text × Text × Nat)) :
    Except String (Text × Text × Nat) :=
  r.map fun (token, rest) => (bs ++ token, rest)

/-- A token: its octets, what is left, and the line. -/
def scanToken (tag : Bool) : Bool → Nat → Text → Except String (Text × Text × Nat)
  | quoted, line, [] =>
    if quoted then .error "Unterminated quoted string (missing closing '\"' at end of file)"
    else .ok ([], [], line)
  | quoted, line, c :: t =>
    if c = 92 then
      match t with
      | [] => prepend [92] (scanToken tag quoted line [])
      | d :: t => prepend [92, d] (scanToken tag quoted (if d = 10 then line + 1 else line) t)
    else if c = 34 then prepend [34] (scanToken tag (!quoted) line t)
    else if !quoted && (separator tag false line c t).isSome then .ok ([], c :: t, line)
    else if quoted && isNewline c then
      .error "Unterminated quoted string (closing '\"' missing before end of line)"
    else prepend [c] (scanToken tag quoted line t)

/-- A field as a C string, without the quotes around it. -/
def fieldOf (token : Text) : Text :=
  let t := token.takeWhile (· ≠ 0)
  if t.head? = some 34 then (if t.tail.getLast? = some 34 then t.tail.dropLast else t.tail) else t

/-- The message for a parenthesis that is open at the end. -/
def unclosed : String := "Unbalanced parenthesis: '(' was never closed before end of file"

/-- `STATE_FIND_TOKEN`: the fields up to the end of the record. Every round takes at least one
octet. -/
def findToken (tag : Bool) : Nat → LexState → List Text → Except String (List Text × LexState)
  | 0, _, _ => .error ""
  | fuel + 1, s, fields =>
    match s.rest with
    | [] => if s.parens then .error unclosed else .ok (fields, s)
    | c :: t =>
      match separator tag s.parens s.line c t with
      | some (.error e) => .error e
      | some (.ok (.process s')) => .ok (fields, s')
      | some (.ok (.find s')) => findToken tag fuel s' fields
      | none =>
        match scanToken tag false s.line (c :: t) with
        | .error e => .error e
        | .ok (token, rest, line) =>
          if fields.length ≥ 512 then
            .error "Too many fields in a single record (exceeds MAX_FIELDS)"
          else findToken tag fuel ⟨rest, s.parens, line⟩ (fields ++ [fieldOf token])

/-! ### Lines and records -/

/-- A word that white space or the end of the text follows. -/
def beginsWithWord (word t : Text) : Bool :=
  word.length ≤ t.length && strncaseeq t word word.length && t[word.length]?.all isBlank

/-- `is_tag_def_line`. -/
def isTagDefLine (t : Text) : Bool :=
  beginsWithWord (ascii "$LOCATION-TAG") (t.dropWhile isBlank) ||
    beginsWithWord (ascii "$ECS-SUBNET-TAG") (t.dropWhile isBlank)

/-- What is done with records: the owner of the last one, and `PROCESS_RECORD` with the line and the
fields of one. -/
structure RecordSink (σ : Type) where
  prevOwner : σ → Option Text
  process : σ → Nat → List Text → Except String σ

variable {σ : Type}

/-- `STATE_START_LINE` as long as there is text: what has become of the records, and `in_parens` at
the end. -/
def zoneLoop (P : RecordSink σ) : Nat → σ → LexState → Except String (σ × Bool)
  | 0, _, _ => .error ""
  | fuel + 1, st, s =>
    if s.rest = [] then .ok (st, s.parens)
    else
      let owner := if s.rest.head?.any isBlank then (P.prevOwner st).toList else []
      match findToken (isTagDefLine s.rest) (2 * s.rest.length + 1) s owner with
      | .error e => .error e
      | .ok (fields, s') =>
        if fields = [] then zoneLoop P fuel st s'
        else
          match P.process st s.line fields with
          | .error e => .error e
          | .ok st' => zoneLoop P fuel st' s'

/-- `parse_zone_buffer`. -/
def parseZoneBuffer (P : RecordSink σ) (st : σ) (text : Text) : Except String σ :=
  if text = [] then .error ""
  else (zoneLoop P (2 * text.length + 1) st ⟨text, false, 1⟩).map Prod.fst

/-! ### A reader of the text -/

/-- Where a reader of zone text stands: before a record, in one outside quotes, in quotes, behind a
backslash, or in a comment. -/
inductive ReadMode
  | start
  | plain
  | quoted
  | escaped (quoted : Bool)
  | comment
  deriving DecidableEq

/-- The reader knows if a parenthesis is open, and if the record is one of tags. -/
structure Reader where
  mode : ReadMode
  parens : Bool
  tag : Bool
  deriving DecidableEq

/-- The end of a line ends the record outside parentheses. -/
def Reader.lineEnd (r : Reader) : Reader := { r with mode := if r.parens then .plain else .start }

/-- An octet outside quotes and comments. -/
def Reader.readPlain (r : Reader) (c : UInt8) : Reader :=
  if c = 92 then { r with mode := .escaped false }
  else if c = 34 then { r with mode := .quoted }
  else if isNewline c then r.lineEnd
  else if c = 40 then { r with mode := .plain, parens := true }
  else if c = 41 then { r with mode := .plain, parens := false }
  else if c = 59 && !r.tag then { r with mode := .comment }
  else { r with mode := .plain }

/-- The octet `c`, which `t` follows. -/
def Reader.read (r : Reader) (c : UInt8) (t : Text) : Reader :=
  match r.mode with
  | .start => { r with tag := isTagDefLine (c :: t) }.readPlain c
  | .plain => r.readPlain c
  | .quoted =>
    if c = 92 then { r with mode := .escaped true }
    else if c = 34 then { r with mode := .plain } else r
  | .escaped quoted => { r with mode := if quoted then .quoted else .plain }
  | .comment => if c = 10 then r.lineEnd else r

/-- The reader behind a text. -/
def Reader.after (r : Reader) : Text → Reader
  | [] => r
  | c :: t => (r.read c t).after t

/-- The reader at the end of a zone text. -/
def readerAtEnd (text : Text) : Reader := Reader.after ⟨.start, false, false⟩ text

/-! ### A final newline -/

/-- The text with a newline behind it. -/
def LexState.longer (s : LexState) : LexState := { s with rest := s.rest ++ [10] }

def LexNext.longer : LexNext → LexNext
  | .find s => .find s.longer
  | .process s => .process s.longer

/-- The reader where the lexer goes on. -/
def LexNext.reader (tag : Bool) : LexNext → Reader
  | .find s => ⟨.plain, s.parens, tag⟩
  | .process s => ⟨.start, s.parens, tag⟩

/-- An octet that lines of tags read like the others. -/
def Ordinary (c : UInt8) : Prop := c ≠ 59 ∧ c ≠ 123 ∧ c ≠ 125

/-- The text is read alike as one of a line of tags or not. -/
def ReadAlike (tag tag' : Bool) (t : Text) : Prop := tag = tag' ∨ ∀ c ∈ t, Ordinary c

section Longer

variable {tag tag' parens quoted : Bool} {line line' : Nat} {c : UInt8} {t t' token rest : Text}
    {s s' : LexState}
  {fields fields' : List Text}

lemma ReadAlike.suffix (h : ReadAlike tag tag' t) (hs : t' <:+ t) : ReadAlike tag tag' t' :=
  h.imp_right fun hc c hm => hc c (hs.subset hm)

lemma dropWhile_longer (p : UInt8 → Bool) (hp : p 10 = false) :
    (t ++ [10]).dropWhile p = t.dropWhile p ++ [10] := by
  rw [dropWhile_append]
  split
  · rename_i hnil
    rw [List.isEmpty_iff.mp hnil]
    simp [hp]
  · rfl

lemma after_blanks :
    ∀ t : Text, Reader.after ⟨.plain, parens, tag⟩ t =
      Reader.after ⟨.plain, parens, tag⟩ (t.dropWhile isBlank)
  | [] => rfl
  | c :: t => by
    rw [dropWhile_cons]
    split
    · rename_i hc
      have hread : Reader.read ⟨.plain, parens, tag⟩ c t = ⟨.plain, parens, tag⟩ := by
        simp only [isBlank, Bool.or_eq_true, decide_eq_true_eq] at hc
        rcases hc with rfl | rfl <;> cases tag <;> rfl
      rw [Reader.after, hread, after_blanks t]
    · rfl

/-- A comment ends at the end of its line. -/
lemma after_comment : ∀ t : Text, Reader.after ⟨.comment, parens, tag⟩ t =
    if t.dropWhile (· ≠ 10) = [] then ⟨.comment, parens, tag⟩
    else Reader.after ⟨.plain, parens, tag⟩ (t.dropWhile (· ≠ 10))
  | [] => rfl
  | c :: t => by
    by_cases hc : c = 10
    · subst hc
      rfl
    · have hread : Reader.read ⟨.comment, parens, tag⟩ c t = ⟨.comment, parens, tag⟩ := if_neg hc
      rw [Reader.after, hread, after_comment t, dropWhile_cons_of_pos (by simpa using hc)]

/-- A separator does the same, and the reader goes on where the lexer does; but a comment which
ended the text now ends at the newline. -/
lemma separator_longer (htag : tag = tag' ∨ Ordinary c) :
    (separator tag' parens line c
      (t ++ [10]) = (separator tag parens line c t).map (Except.map LexNext.longer) ∧
      ∀ next, separator tag parens line c t = some (.ok next) →
        (∀ s, next = .process s → s.parens = false) ∧
        Reader.after ⟨.plain, parens, tag⟩ (c :: t) = (next.reader tag).after next.state.rest) ∨
    (c = 59 ∧ Reader.after ⟨.plain, parens, tag⟩ (c :: t) = ⟨.comment, parens, tag⟩ ∧
      separator tag parens line c t = some (.ok (.process ⟨[], parens, line⟩)) ∧
      separator tag' parens line c (t ++ [10]) = some (.ok (.find ⟨[10], parens, line⟩))) := by
  have hbrace : (tag && (c = 123 || c = 125)) = (tag' && (c = 123 || c = 125)) := by
    rcases htag with rfl | ⟨-, h1, h2⟩
    · rfl
    · simp [h1, h2]
  have hread : Reader.after ⟨.plain, parens, tag⟩
      (c :: t) = (Reader.readPlain ⟨.plain, parens, tag⟩ c).after t := rfl
  rw [hread]
  unfold separator
  rw [← hbrace]
  by_cases h1 : (isBlank c || tag && (c = 123 || c = 125)) = true
  · have hplain : Reader.readPlain ⟨.plain, parens, tag⟩ c = ⟨.plain, parens, tag⟩ := by
      simp only [isBlank, Bool.or_eq_true, decide_eq_true_eq, Bool.and_eq_true] at h1
      rcases h1 with (rfl | rfl) | ⟨rfl, rfl | rfl⟩ <;> rfl
    rw [if_pos h1, if_pos h1, dropWhile_longer _ rfl, hplain]
    refine .inl ⟨rfl, fun next h => ?_⟩
    cases h
    exact ⟨fun _ => nofun, after_blanks t⟩
  rw [if_neg h1, if_neg h1]
  by_cases h2 : isNewline c = true
  · have hline : Reader.readPlain ⟨.plain, parens, tag⟩ c =
        Reader.lineEnd ⟨.plain, parens, tag⟩ := by
      simp only [isNewline, Bool.or_eq_true, decide_eq_true_eq] at h2
      rcases h2 with rfl | rfl <;> rfl
    rw [if_pos h2, if_pos h2, hline]
    refine .inl ⟨by cases parens <;> rfl, fun next h => ?_⟩
    cases parens <;> cases h
    · exact ⟨fun _ h => by cases h; rfl, rfl⟩
    · exact ⟨fun _ => nofun, rfl⟩
  rw [if_neg h2, if_neg h2]
  by_cases h3 : c = 40
  · rw [if_pos h3, if_pos h3]
    subst h3
    refine .inl ⟨by cases parens <;> rfl, fun next h => ?_⟩
    cases parens <;> cases h
    exact ⟨fun _ => nofun, rfl⟩
  rw [if_neg h3, if_neg h3]
  by_cases h4 : c = 41
  · rw [if_pos h4, if_pos h4]
    subst h4
    refine .inl ⟨by cases parens <;> rfl, fun next h => ?_⟩
    cases parens <;> cases h
    exact ⟨fun _ => nofun, rfl⟩
  rw [if_neg h4, if_neg h4]
  by_cases h5 : c = 59
  · rw [if_pos h5, if_pos h5]
    obtain rfl := htag.resolve_right fun h => h.1 h5
    subst h5
    cases tag with
    | true =>
      refine .inl ⟨rfl, fun next h => ?_⟩
      cases h
      exact ⟨fun _ => nofun, rfl⟩
    | false =>
      have hcomment := @after_comment false parens t
      rw [if_neg (by decide), if_neg (by decide), dropWhile_longer _ (by decide)]
      cases hd : t.dropWhile (· ≠ 10) with
      | nil =>
        rw [hd] at hcomment
        exact .inr ⟨rfl, hcomment, rfl, rfl⟩
      | cons d ds =>
        rw [hd] at hcomment
        refine .inl ⟨rfl, fun next h => ?_⟩
        cases h
        exact ⟨fun _ => nofun, hcomment⟩
  · rw [if_neg h5, if_neg h5]
    exact .inl ⟨rfl, fun next h => by cases h⟩

lemma separator_suffix {next : LexNext} (h : separator tag parens line c t = some (.ok next)) :
    next.state.rest <:+ t := by
  unfold separator at h
  split_ifs at h
  · cases h
    exact dropWhile_suffix _
  all_goals try (cases h <;> exact suffix_refl _)
  have hdrop := dropWhile_suffix (l := t) (· ≠ 10)
  cases hd : t.dropWhile (· ≠ 10) with
  | nil =>
    rw [hd] at h
    cases h
    exact nil_suffix
  | cons d ds =>
    rw [hd] at h hdrop
    cases h
    exact hdrop

lemma separator_isSome_longer (htag : tag = tag' ∨ Ordinary c) :
    (separator tag' parens line c (t ++ [10])).isSome = (separator tag parens line c t).isSome := by
  rcases @separator_longer tag tag' parens line c t htag with ⟨h, -⟩ | ⟨-, -, h, h'⟩
  · rw [h, Option.isSome_map]
  · rw [h, h']
    rfl

lemma scanToken_newline : scanToken tag false line [10] = .ok ([], [10], line) := by
  cases tag <;> rfl

lemma prepend_ok {bs : Text} {r : Except String (Text × Text × Nat)}
    (h : prepend bs r = .ok (token, rest, line)) :
    ∃ token', token = bs ++ token' ∧ r = .ok (token', rest, line) := by
  cases r with
  | error e => cases h
  | ok r =>
    obtain ⟨token', r⟩ := r
    cases h
    exact ⟨token', rfl, rfl⟩

/-- The reader of a token. -/
def Reader.inToken (quoted parens tag : Bool) : Reader :=
  ⟨if quoted then .quoted else .plain, parens, tag⟩

/-- A token that ended with the text now ends at the newline. -/
lemma scanToken_longer :
    ∀ {quoted : Bool} {line : Nat} {t token rest : Text}, ReadAlike tag tag' t →
    ((Reader.inToken quoted parens tag).after t).mode ≠ .escaped false →
    scanToken tag quoted line t = .ok (token, rest, line') → rest <:+ t ∧
      (Reader.inToken quoted parens tag).after t = Reader.after ⟨.plain, parens, tag⟩ rest ∧
      scanToken tag' quoted line (t ++ [10]) = .ok (token, rest ++ [10], line')
  | quoted, line, [], token, rest, _, _, h => by
    cases quoted with
    | true => cases h
    | false =>
      cases h
      exact ⟨suffix_refl _, rfl, scanToken_newline⟩
  | quoted, line, c :: t, token, rest, halike, hend, h => by
    have htag : tag = tag' ∨ Ordinary c := halike.imp_right fun hc => hc c mem_cons_self
    have hcons : t <:+ c :: t := suffix_cons _ _
    rw [cons_append, scanToken.eq_def]
    rw [scanToken.eq_def] at h
    dsimp only at h ⊢
    -- the octets `bs` go before the token of what is left
    have hnext : ∀ {bs t₁ : Text} {q : Bool} {n : Nat}, t₁ <:+ c :: t → t₁.length ≤ t.length →
        (Reader.inToken quoted parens tag).after (c :: t) = (Reader.inToken q parens tag).after t₁ →
        prepend bs (scanToken tag q n t₁) = .ok (token, rest, line') →
        rest <:+ c :: t ∧ (Reader.inToken quoted parens tag).after
          (c :: t) = Reader.after ⟨.plain, parens, tag⟩ rest ∧
          prepend bs (scanToken tag' q n (t₁ ++ [10])) = .ok (token, rest ++ [10], line') := by
      intro bs t₁ q n hsuf hlen hread hbs
      obtain ⟨token, rfl, hscan⟩ := prepend_ok hbs
      rw [hread] at hend ⊢
      obtain ⟨hrest, hafter, hlong⟩ := scanToken_longer (halike.suffix hsuf) hend hscan
      exact ⟨hrest.trans hsuf, hafter, by rw [hlong]; rfl⟩
    by_cases h1 : c = 92
    · rw [if_pos h1] at h ⊢
      subst h1
      cases t with
      | nil =>
        cases quoted with
        | true => cases h
        | false => exact absurd rfl hend
      | cons d t =>
        exact hnext ((suffix_cons _ _).trans hcons) (Nat.le_succ _) (by cases quoted <;> rfl) h
    rw [if_neg h1] at h ⊢
    by_cases h2 : c = 34
    · rw [if_pos h2] at h ⊢
      subst h2
      exact hnext hcons (Nat.le_refl _) (by cases quoted <;> rfl) h
    rw [if_neg h2, separator_isSome_longer htag]
    rw [if_neg h2] at h
    split_ifs at h ⊢ with h3 h4
    · cases h
      obtain rfl : quoted = false := by simpa using (Bool.and_eq_true_iff.mp h3).1
      exact ⟨suffix_refl _, rfl, rfl⟩
    · refine hnext hcons (Nat.le_refl _) ?_ h
      rw [Reader.after]
      congr 1
      cases quoted with
      | true => exact (if_neg h1).trans (if_neg h2)
      | false =>
        -- no separator
        have hnone : separator tag false line c t = none := by simpa using h3
        unfold separator at hnone
        split_ifs at hnone with h5 h6 h7 h8 h9 h10
        · split at hnone <;> cases hnone
        · simp [Reader.inToken, Reader.read, Reader.readPlain, h1, h2, h6, h7, h8, h9]
termination_by _ _ t => t.length

/-- How the record that ended in `s'` ends with a newline behind the text, at whose end the reader
is `last`: in an open parenthesis there was a comment, and now there is an error. -/
def EndsLonger (tag : Bool) (last : Reader) (fields : List Text) (s' : LexState)
    (r : Except String (List Text × LexState)) : Prop :=
  (s'.parens = true ∧ s'.rest = [] ∧ last.parens = true ∧ last.mode = .comment ∧
    r = .error unclosed) ∨
    (s'.parens = false ∧ ∃ s'', r = .ok (fields, s'') ∧
      (s'' = s'.longer ∧ last = Reader.after ⟨.start, false, tag⟩ s'.rest ∨
        s'.rest = [] ∧ s''.rest = [] ∧ s''.parens = false ∧ last.parens = false))

lemma findToken_longer (fuel : Nat) :
    ∀ {fuel' : Nat} {s : LexState} {fields : List Text}, fuel ≤ fuel' →
    ReadAlike tag tag' s.rest → (Reader.after ⟨.plain, s.parens, tag⟩ s.rest).mode ≠
      .escaped false →
    findToken tag fuel s fields = .ok (fields', s') →
    EndsLonger tag (Reader.after ⟨.plain, s.parens, tag⟩ s.rest) fields' s'
      (findToken tag' (fuel' + 2) s.longer fields) := by
  induction fuel with
  | zero => exact fun _ _ _ h => by cases h
  | succ fuel ih =>
    intro fuel' s fields hfuel halike hend h
    rcases fuel' with _ | fuel'
    · omega
    obtain ⟨rest, parens, line⟩ := s
    rw [findToken] at h
    cases rest with
    | nil =>
      cases parens with
      | true => cases h
      | false =>
        cases h
        exact .inr ⟨rfl, ⟨[], false, line + 1⟩, by cases tag' <;> rfl, .inr ⟨rfl, rfl, rfl, rfl⟩⟩
    | cons c t =>
      have htag : tag = tag' ∨ Ordinary c := halike.imp_right fun hc => hc c mem_cons_self
      have hcons : t <:+ c :: t := suffix_cons _ _
      -- the rounds that follow, on what is left
      have hnext : ∀ {s₁ : LexState} {fields₁ : List Text}, s₁.rest <:+ c :: t →
          Reader.after ⟨.plain, parens, tag⟩
            (c :: t) = Reader.after ⟨.plain, s₁.parens, tag⟩ s₁.rest →
          findToken tag fuel s₁ fields₁ = .ok (fields', s') →
          EndsLonger tag (Reader.after ⟨.plain, parens, tag⟩ (c :: t)) fields' s'
            (findToken tag' (fuel' + 2) s₁.longer fields₁) := by
        intro s₁ fields₁ hsuf hread hfind
        dsimp only at hend
        rw [hread] at hend ⊢
        exact ih (by omega) (halike.suffix hsuf) hend hfind
      dsimp only at h ⊢
      rw [LexState.longer, findToken]
      dsimp only [cons_append]
      rcases @separator_longer tag tag' parens line c t
        htag with ⟨hsep, hgo⟩ | ⟨rfl, hcomment, hsep, hsep'⟩
      · rw [hsep]
        cases hs : separator tag parens line c t with
        | none =>
          rw [hs] at h
          cases hscan : scanToken tag false line (c :: t) with
          | error e =>
            rw [hscan] at h
            cases h
          | ok r =>
            obtain ⟨token, rest, line'⟩ := r
            obtain ⟨hsuf, hafter, hlong⟩ :=
              @scanToken_longer tag tag' parens _ false _ _ _ _ halike hend hscan
            rw [hscan] at h
            rw [← cons_append, hlong]
            dsimp only at h ⊢
            split at h
            · cases h
            · rw [if_neg ‹_›]
              exact @hnext ⟨rest, parens, line'⟩ _ hsuf hafter h
        | some r =>
          rw [hs] at h
          cases r with
          | error e => cases h
          | ok next =>
            have hsuf := (separator_suffix hs).trans hcons
            obtain ⟨hclosed, hafter⟩ := hgo _ hs
            cases next with
            | find s₁ => exact hnext hsuf hafter h
            | process s₁ =>
              cases h
              have hflag := hclosed s' rfl
              rw [LexNext.reader, hflag] at hafter
              exact .inr ⟨hflag, s'.longer, rfl, .inl ⟨rfl, hafter⟩⟩
      · rw [hsep] at h
        cases h
        rw [hsep', hcomment]
        cases parens with
        | true => exact .inl ⟨rfl, rfl, rfl, rfl, by cases tag' <;> rfl⟩
        | false =>
          exact .inr ⟨rfl, ⟨[], false, line + 1⟩, by cases tag' <;> rfl, .inr ⟨rfl, rfl, rfl, rfl⟩⟩

lemma beginsWithWord_longer {word : Text}
    (hword : ∀ c ∈ [10, 59, 123, 125], lower c ∉ word.map lower) :
    beginsWithWord word (t ++ [10]) = beginsWithWord word t ∨ ∀ c ∈ t, Ordinary c := by
  unfold beginsWithWord strncaseeq
  rcases Nat.lt_trichotomy word.length t.length with hlt | heq | hgt
  · rw [take_append_of_le_length (Nat.le_of_lt hlt), getElem?_append_left hlt]
    left
    rw [decide_eq_true (Nat.le_of_lt hlt), decide_eq_true (by rw [length_append]; omega)]
  · rw [heq, take_length]
    by_cases hmap : (t.map lower == (word.take t.length).map lower) = true
    · right
      rw [← heq, take_length, beq_iff_eq] at hmap
      intro c hc
      have hmem := mem_map_of_mem (f := lower) hc
      rw [hmap] at hmem
      refine ⟨?_, ?_, ?_⟩ <;> rintro rfl <;> exact hword _ (by simp) hmem
    left
    rw [take_left, Bool.eq_false_iff.mpr hmap]
    simp
  left
  rw [decide_eq_false (show ¬ word.length ≤ t.length by omega), Bool.false_and, Bool.false_and]
  by_contra hne
  simp only [Bool.not_eq_false, Bool.and_eq_true, decide_eq_true_eq, length_append,
    length_singleton] at hne
  obtain ⟨⟨hlen, hmap⟩, -⟩ := hne
  rw [take_of_length_le (by simp; omega), take_length, beq_iff_eq] at hmap
  exact hword 10 (by simp) (by rw [← hmap]; simp)

/-- The line is one of tags with the newline too, or has nothing in it that is read otherwise
there. -/
lemma isTagDefLine_longer : isTagDefLine (t ++ [10]) = isTagDefLine t ∨ ∀ c ∈ t, Ordinary c := by
  have hplain : (∀ c ∈ t.dropWhile isBlank, Ordinary c) → ∀ c ∈ t, Ordinary c := by
    intro h c hc
    rw [← takeWhile_append_dropWhile (p := isBlank) (l := t), mem_append] at hc
    rcases hc with hc | hc
    · have hblank := mem_takeWhile_imp hc
      refine ⟨?_, ?_, ?_⟩ <;> rintro rfl <;> cases hblank
    · exact h c hc
  unfold isTagDefLine
  rw [dropWhile_longer _ rfl]
  rcases @beginsWithWord_longer (t.dropWhile isBlank) (ascii "$LOCATION-TAG")
    (by decide +kernel) with h1 | h1
  · rcases @beginsWithWord_longer (t.dropWhile isBlank) (ascii "$ECS-SUBNET-TAG")
      (by decide +kernel) with h2 | h2
    · exact .inl (by rw [h1, h2])
    · exact .inr (hplain h2)
  · exact .inr (hplain h1)

lemma zoneLoop_end (P : RecordSink σ) {fuel : Nat} {st : σ} (h : s.rest = []) :
    zoneLoop P (fuel + 1) st s = .ok (st, s.parens) := by
  rw [zoneLoop, if_pos h]

/-- Before a record the reader looks if it is one of tags. -/
lemma after_start {x : Bool} (h : t ≠ []) :
    Reader.after ⟨.start, false, x⟩ t = Reader.after ⟨.plain, false, isTagDefLine t⟩ t := by
  obtain ⟨c, t, rfl⟩ := exists_cons_of_ne_nil h
  rfl

/-- The loop over the lines with a newline behind the text. -/
lemma zoneLoop_longer (P : RecordSink σ) (fuel : Nat) :
    ∀ {fuel' : Nat} {st st' : σ} {s : LexState} {x : Bool},
    fuel ≤ fuel' → s.parens = false →
      (Reader.after ⟨.start, false, x⟩ s.rest).mode ≠ .escaped false →
    zoneLoop P fuel st s = .ok (st', parens) →
    zoneLoop P (fuel' + 2) st s.longer = (if parens then .error unclosed else .ok (st', false)) ∧
      (Reader.after ⟨.start, false, x⟩ s.rest).parens = parens ∧
      (parens = true → (Reader.after ⟨.start, false, x⟩ s.rest).mode = .comment) := by
  induction fuel with
  | zero => exact fun _ _ _ h => by cases h
  | succ fuel ih =>
    intro fuel' st st' s x hfuel hclosed hend h
    rcases fuel' with _ | fuel'
    · omega
    obtain ⟨rest, p, line⟩ := s
    obtain rfl : p = false := hclosed
    by_cases hnil : rest = []
    · subst hnil
      cases h
      exact ⟨rfl, rfl, fun h => by cases h⟩
    dsimp only at hend ⊢
    rw [after_start hnil] at hend ⊢
    have halike : ReadAlike (isTagDefLine rest) (isTagDefLine (rest ++ [10])) rest :=
      isTagDefLine_longer.imp_left Eq.symm
    rw [zoneLoop, if_neg hnil] at h
    rw [LexState.longer, zoneLoop, if_neg (by simp), head?_append_of_ne_nil _ hnil]
    dsimp only at h ⊢
    generalize (if rest.head?.any isBlank = true then (P.prevOwner st).toList
      else []) = owner at h ⊢
    cases hfind : findToken (isTagDefLine rest) (2 * rest.length + 1) ⟨rest, false, line⟩ owner with
    | error e =>
      rw [hfind] at h
      cases h
    | ok r =>
      obtain ⟨fields, s'⟩ := r
      rw [hfind] at h
      dsimp only at h
      have hlong := findToken_longer (2 * rest.length + 1) (Nat.le_refl _) halike hend hfind
      have hmore : 2 * List.length (rest ++ [10]) + 1 = 2 * rest.length + 1 + 2 := by
        rw [length_append]
        rfl
      rw [hmore]
      rcases hlong with ⟨hopen, hstop, hlast, hcomment, herr⟩ | ⟨hclosed, s'', hok, hs''⟩
      · -- the text is at its end, with the parenthesis open
        rw [show findToken _ _ ⟨rest ++ [10], false, line⟩ owner = _ from herr]
        have hflag : ∀ {st₁ : σ}, zoneLoop P fuel st₁ s' = .ok (st', parens) → parens = true := by
          intro st₁ hloop
          cases fuel with
          | zero => cases hloop
          | succ fuel =>
            rw [zoneLoop_end P hstop, hopen] at hloop
            cases hloop
            rfl
        obtain rfl : parens = true := by
          split at h
          · exact hflag h
          split at h
          · cases h
          · exact hflag h
        exact ⟨rfl, hlast, fun _ => hcomment⟩
      rw [show findToken _ _ ⟨rest ++ [10], false, line⟩ owner = _ from hok]
      dsimp only at hs'' ⊢
      generalize Reader.after ⟨.plain, false, isTagDefLine rest⟩ rest = last at hend hs'' ⊢
      have hrest : ∀ {st₁ : σ}, zoneLoop P fuel st₁ s' = .ok (st', parens) →
          zoneLoop P (fuel' + 2) st₁ s'' = (if parens then .error unclosed else .ok (st', false)) ∧
            last.parens = parens ∧ (parens = true → last.mode = .comment) := by
        intro st₁ hloop
        rcases hs'' with ⟨rfl, rfl⟩ | ⟨hnil', hnil'', hclosed'', hlast⟩
        · exact ih (show fuel ≤ fuel' by omega) hclosed hend hloop
        cases fuel with
        | zero => cases hloop
        | succ fuel =>
          rw [zoneLoop_end P hnil', hclosed] at hloop
          cases hloop
          rw [zoneLoop_end P hnil'', hclosed'']
          exact ⟨rfl, hlast, fun h => by cases h⟩
      split at h
      · rw [if_pos ‹_›]
        exact hrest h
      rw [if_neg ‹_›]
      split at h
      · cases h
      · exact hrest h

end Longer

/-- A sink that keeps the fields of every record. -/
def fieldSink : RecordSink (List (List Text)) :=
  ⟨fun _ => none, fun st _ fields => .ok (st ++ [fields])⟩

/-- A text of one record. -/
lemma parseZoneBuffer_one (P : RecordSink σ) (st : σ) {text : Text} {fields : List Text}
    {s' : LexState}
    (hfind : findToken (isTagDefLine text) (2 * text.length + 1) ⟨text, false, 1⟩
      [] = .ok (fields, s'))
    (hown : text.head?.any isBlank = false) (hne : fields ≠ []) (hend : s'.rest = [])
    (htext : text ≠ []) :
    parseZoneBuffer P st text = P.process st 1 fields := by
  obtain ⟨n, hn⟩ := Nat.exists_eq_succ_of_ne_zero (show 2 * text.length ≠ 0 by simpa using htext)
  rw [parseZoneBuffer, if_neg htext, zoneLoop, if_neg htext]
  dsimp only
  rw [hown, if_neg (by decide), hfind]
  dsimp only
  rw [if_neg hne, hn]
  cases P.process st 1 fields with
  | error e => rfl
  | ok st' =>
    dsimp only
    rw [zoneLoop_end P hend]
    rfl

end KariDns
