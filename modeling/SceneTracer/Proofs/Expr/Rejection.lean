import SceneTracer.Error
import SceneTracer.Proofs.Expr.Parsing

namespace SceneTracer

/-!
# Where parsing fails

Tokens are read as long as some program starts with them. The first that cannot be read on is a
closing delimiter without a partner: the innermost region that is open in front of it is of the
other kind, or none is open. Tokens without such a delimiter can always be read on, and are no
program only if they end too early.

* `LeavesOpen` — the regions that a list of tokens leaves open, as a grammar.
* `leavesOpen_iff` — `bracketsAfter?` finds just these.
* `IsMismatch` — a closing delimiter without a partner.
* `Expr.parseFrom_append_of_bracketsAfter?` — the parser keeps the regions that are open.
* `Expr.parse_fails_at_first_dead_token` — the code and the place of every error.
-/

/-! ### Open regions -/

/-- The tokens leave regions of the kinds `kinds` open, innermost first: in front of the opening
delimiters of these, between them and behind the last, all delimiters have their partners. -/
inductive LeavesOpen : List Bracket → List Token → Prop
  | nested {ts : List Token} (h : Nested ts) : LeavesOpen [] ts
  | opened {kinds : List Bracket} {ts inner : List Token} (kind : Bracket)
      (h : LeavesOpen kinds ts) (hinner : Nested inner) :
      LeavesOpen (kind :: kinds) (ts ++ kind.opener :: inner)

/-- Nested tokens may follow each other. -/
theorem Nested.append {ts us : List Token} (h : Nested ts) (hus : Nested us) :
    Nested (ts ++ us) := by
  induction h with
  | nil => exact hus
  | leaf h _ ih => exact .leaf h ih
  | region kind hbody _ _ ih => simpa using Nested.region kind hbody ih

section Regions

variable {kinds inside : List Bracket} {ts us : List Token} {kind : Bracket}

/-- Nothing is left open just if the tokens are nested. -/
theorem leavesOpen_nil_iff : LeavesOpen [] ts ↔ Nested ts := by
  constructor
  · rintro ⟨h⟩
    exact h
  · exact .nested

namespace LeavesOpen

/-- What is nested does not change which regions are open. -/
theorem append_nested (h : LeavesOpen kinds ts) (hus : Nested us) :
    LeavesOpen kinds (ts ++ us) := by
  cases h with
  | nested hts => exact .nested (hts.append hus)
  | opened kind h hinner => simpa using LeavesOpen.opened kind h (hinner.append hus)

/-- A token that stands for an expression does not change which regions are open. -/
theorem append_leaf (h : LeavesOpen kinds ts) {t : Token} {e : Expr} (ht : t.role = .leaf e) :
    LeavesOpen kinds (ts ++ [t]) :=
  h.append_nested (.leaf (Token.ne_delimiter_of_role ht) .nil)

/-- An opening bracket leaves one more region open. -/
theorem append_opener (h : LeavesOpen kinds ts) (kind : Bracket) :
    LeavesOpen (kind :: kinds) (ts ++ [kind.opener]) := .opened kind h .nil

/-- A closing delimiter is the partner of the opening one of the innermost region. -/
theorem append_closer (h : LeavesOpen (kind :: kinds) ts) :
    LeavesOpen kinds (ts ++ [kind.closer]) := by
  cases h with
  | opened _ h hinner => simpa using h.append_nested (.region kind hinner .nil)

end LeavesOpen

/-! ### Finding the open regions -/

/-- An opening bracket puts its region in front. -/
@[simp] theorem bracketsAfter?_opener :
    bracketsAfter? inside (kind.opener :: ts) = bracketsAfter? (kind :: inside) ts := by
  rw [bracketsAfter?, Bracket.role_opener]

/-- A closing bracket takes away the innermost region if it is of its kind. -/
@[simp] theorem bracketsAfter?_closer :
    bracketsAfter? (kind :: inside) (kind.closer :: ts) = bracketsAfter? inside ts := by
  rw [bracketsAfter?, Bracket.role_closer]
  exact if_pos rfl

/-- Any other closing bracket fits nothing. -/
theorem bracketsAfter?_mismatch (h : inside.head? ≠ some kind) :
    bracketsAfter? inside (kind.closer :: ts) = none := by
  rw [bracketsAfter?, Bracket.role_closer]
  cases inside with
  | nil => rfl
  | cons inner outer => exact if_neg fun heq => h (congrArg some heq)

/-- Tokens are scanned from the left. -/
theorem bracketsAfter?_append (inside : List Bracket) (ts us : List Token) :
    bracketsAfter? inside (ts ++ us)
      = (bracketsAfter? inside ts).bind fun kinds => bracketsAfter? kinds us := by
  fun_induction bracketsAfter? inside ts with
  | case1 inside => rfl
  | case2 _ t ts _ ht ih | case3 _ t ts _ ht ih | case4 t ts _ _ ht ih =>
    simpa [bracketsAfter?, ht] using ih
  | case5 t ts kind ht inner outer hne => simp [bracketsAfter?, ht, hne]
  | case6 t ts kind ht => simp [bracketsAfter?, ht]

/-- Nested tokens leave the regions that there are. -/
theorem bracketsAfter?_of_nested (h : Nested ts) (inside : List Bracket) :
    bracketsAfter? inside ts = some inside := by
  induction h generalizing inside with
  | nil => rfl
  | leaf h _ ih =>
    obtain ⟨e, he⟩ := Token.exists_leaf h
    simpa [bracketsAfter?, he] using ih inside
  | region kind _ _ ihb ih =>
    rw [bracketsAfter?_opener, bracketsAfter?_append, ihb]
    simpa using ih inside

/-- The scan finds the regions that are left open. -/
theorem bracketsAfter?_of_leavesOpen (h : LeavesOpen kinds ts) :
    bracketsAfter? [] ts = some kinds := by
  induction h with
  | nested h => exact bracketsAfter?_of_nested h []
  | opened kind _ hinner ih =>
    rw [bracketsAfter?_append, ih]
    simpa using bracketsAfter?_of_nested hinner _

/-- What is found behind some tokens is open behind all of them. -/
theorem leavesOpen_append {front : List Token} (hfront : LeavesOpen inside front)
    (h : bracketsAfter? inside ts = some kinds) : LeavesOpen kinds (front ++ ts) := by
  fun_induction bracketsAfter? inside ts generalizing front with
  | case1 inside =>
    cases h
    simpa using hfront
  -- Each token is moved from the front of what is left to the end of what has been read.
  | case2 inside t ts e ht ih => simpa using ih (hfront.append_leaf ht) h
  | case3 inside t ts kind ht ih =>
    obtain rfl := Token.eq_opener_of_role ht
    simpa using ih (hfront.append_opener kind) h
  | case4 t ts inner outer ht ih =>
    obtain rfl := Token.eq_closer_of_role ht
    simpa using ih hfront.append_closer h
  | case5 | case6 => cases h

/-- The regions that are found are those that are open. -/
theorem leavesOpen_iff : LeavesOpen kinds ts ↔ bracketsAfter? [] ts = some kinds :=
  ⟨bracketsAfter?_of_leavesOpen, fun h => leavesOpen_append (.nested .nil) h⟩

/-- Open regions can be closed. -/
theorem bracketsAfter?_closers (inside : List Bracket) :
    bracketsAfter? inside (inside.map Bracket.closer) = some [] := by
  induction inside with
  | nil => rfl
  | cons kind outer ih => simpa using ih

/-! ### Delimiters without partners -/

/-- The token `t` closes a region of the kind `kind`, but `front`, behind which it stands, leaves
the regions `kinds` open, of which the innermost is of another kind, or none. All closing delimiters
in `front` have partners. -/
structure IsMismatch (front : List Token) (t : Token) (kinds : List Bracket) (kind : Bracket) :
    Prop where
  leavesOpen : LeavesOpen kinds front
  closes : t = kind.closer
  unmatched : kinds.head? ≠ some kind

/-- Behind a mismatch no regions are found. -/
theorem IsMismatch.bracketsAfter?_eq_none {front : List Token} {t : Token}
    (h : IsMismatch front t kinds kind) (back : List Token) :
    bracketsAfter? [] (front ++ t :: back) = none := by
  rw [bracketsAfter?_append, leavesOpen_iff.mp h.leavesOpen, h.closes]
  exact bracketsAfter?_mismatch h.unmatched

/-- If no regions are found, there is a closing delimiter without a partner. -/
theorem exists_mismatch (h : bracketsAfter? inside ts = none) :
    ∃ front kind back kinds, ts = front ++ kind.closer :: back ∧
      bracketsAfter? inside front = some kinds ∧ kinds.head? ≠ some kind := by
  fun_induction bracketsAfter? inside ts with
  | case1 => cases h
  | case2 _ t ts _ ht ih | case3 _ t ts _ ht ih | case4 t ts _ _ ht ih =>
    obtain ⟨front, kind, back, kinds, rfl, hfront, hkind⟩ := ih h
    exact ⟨t :: front, kind, back, kinds, rfl, by simpa [bracketsAfter?, ht] using hfront, hkind⟩
  | case5 t ts kind ht inner outer hne =>
    obtain rfl := Token.eq_closer_of_role ht
    exact ⟨[], kind, ts, inner :: outer, rfl, rfl, by simpa using hne⟩
  | case6 t ts kind ht =>
    obtain rfl := Token.eq_closer_of_role ht
    exact ⟨[], kind, ts, [], rfl, rfl, by simp⟩

end Regions

namespace Expr

/-! ### The regions of the parser -/

/-- The place of the last of some tokens, or `last` if there is none. -/
def lastPosition (last : Position) (us : List LocatedToken) : Position :=
  us.foldl (fun _ t => t.position) last

/-- **The parser keeps the regions that are open.** Tokens behind which some regions are open are
read to where the parser has just these regions on its stack. -/
theorem parseFrom_append_of_bracketsAfter? {regions : List OpenRegion} {kinds : List Bracket}
    {us : List LocatedToken}
    (h : bracketsAfter? (regions.map (·.kind)) (us.map (·.token)) = some kinds)
    (body : List Expr) (last : Position) (vs : List LocatedToken) :
    ∃ regions' body', regions'.map (·.kind) = kinds ∧
      parseFrom regions body last (us ++ vs) =
        parseFrom regions' body' (lastPosition last us) vs := by
  induction us generalizing regions body last with
  | nil =>
    cases h
    exact ⟨regions, body, rfl, rfl⟩
  | cons t us ih =>
    rw [List.map_cons, bracketsAfter?] at h
    rw [List.cons_append, parseFrom]
    cases ht : t.token.role with
    | leaf e =>
      rw [ht] at h
      exact ih h (e :: body) t.position
    | opens kind =>
      rw [ht] at h
      have hopen : bracketsAfter? ((⟨kind, body⟩ :: regions : List OpenRegion).map (·.kind))
          (us.map (·.token)) = some kinds := h
      exact ih hopen [] t.position
    | closes kind =>
      rw [ht] at h
      cases regions with
      | nil => cases h
      | cons region outer =>
        -- The parser closes a region where the scan does, and stops where the scan does.
        by_cases hkind : region.kind = kind
        · simp only [List.map_cons, if_pos hkind] at h
          simp only [if_pos hkind]
          exact ih h _ t.position
        · simp only [List.map_cons, if_neg hkind] at h
          cases h

/-- At the start of a text, the parser has no regions on its stack. -/
theorem parseFrom_nil_append_of_leavesOpen {us : List LocatedToken} {kinds : List Bracket}
    (h : LeavesOpen kinds (us.map (·.token))) (last : Position) (vs : List LocatedToken) :
    ∃ regions body, regions.map (·.kind) = kinds ∧
      parseFrom [] [] last (us ++ vs) = parseFrom regions body (lastPosition last us) vs := by
  have hopen : bracketsAfter? (([] : List OpenRegion).map (·.kind)) (us.map (·.token)) =
      some kinds := leavesOpen_iff.mp h
  exact parseFrom_append_of_bracketsAfter? hopen [] last vs

/-- A closing delimiter without a partner is where parsing stops. -/
theorem parse_of_mismatch {front back : List LocatedToken} {t : LocatedToken}
    {kinds : List Bracket} {kind : Bracket}
    (h : IsMismatch (front.map (·.token)) t.token kinds kind) :
    parse (front ++ t :: back) = .error ⟨t.position, .unexpectedCloser kind kinds.head?⟩ := by
  have hne : front ++ t :: back ≠ [] := by simp
  obtain ⟨last, hparse⟩ := parse_eq_parseFrom hne
  obtain ⟨regions, body, hregions, hread⟩ := parseFrom_nil_append_of_leavesOpen h.leavesOpen last
    (t :: back)
  have hunmatched := h.unmatched
  rw [hparse, hread, parseFrom, h.closes, Bracket.role_closer]
  -- The parser has the open regions on its stack, with the innermost on top.
  cases regions with
  | nil =>
    cases hregions
    rfl
  | cons region outer =>
    cases hregions
    exact if_neg fun hkind => hunmatched (congrArg some hkind)

/-- Tokens behind which a region is open end too early. -/
theorem parse_of_leavesOpen {ts : List LocatedToken} {kinds : List Bracket} {kind : Bracket}
    (h : LeavesOpen (kind :: kinds) (ts.map (·.token))) :
    ∃ front t, ts = front ++ [t] ∧ parse ts = .error ⟨t.position, .unexpectedEnd kind⟩ := by
  have hne : ts ≠ [] := by
    rintro rfl
    cases leavesOpen_iff.mp h
  -- A region is open, so there is a last token, and the fault is reported there.
  obtain ⟨front, t, rfl⟩ : ∃ front t, ts = front ++ [t] :=
    ⟨ts.dropLast, ts.getLast hne, (List.dropLast_concat_getLast hne).symm⟩
  obtain ⟨last, hparse⟩ := parse_eq_parseFrom hne
  obtain ⟨regions, body, hregions, hread⟩ := parseFrom_nil_append_of_leavesOpen h last []
  rw [List.append_nil] at hread
  refine ⟨front, t, rfl, ?_⟩
  rw [hparse, hread]
  cases regions with
  | nil => cases hregions
  | cons region outer =>
    cases hregions
    simp [parseFrom, lastPosition]

/-! ### Programs and their beginnings -/

/-- Tokens without a mismatch can be read on: an integer and the closing delimiters that are missing
make a program of them. -/
theorem exists_parse_append {ts : List LocatedToken} {kinds : List Bracket}
    (h : LeavesOpen kinds (ts.map (·.token))) :
    ∃ more es, more ≠ [] ∧ parse (ts ++ more) = .ok es := by
  let more : List LocatedToken :=
    ⟨.start, .integer 0⟩ :: kinds.map fun kind => ⟨.start, kind.closer⟩
  have hclosed : LeavesOpen [] ((ts ++ more).map (·.token)) := by
    have hmore : more.map (·.token) = .integer 0 :: kinds.map Bracket.closer := by simp [more]
    rw [leavesOpen_iff, List.map_append, hmore, bracketsAfter?_append, leavesOpen_iff.mp h]
    exact bracketsAfter?_closers kinds
  obtain ⟨es, hes⟩ := exists_parse_iff.mpr ⟨by simp [more], leavesOpen_nil_iff.mp hclosed⟩
  exact ⟨more, es, List.cons_ne_nil _ _, hes⟩

/-- No program starts with a mismatch. -/
theorem parse_ne_ok_of_mismatch {front : List Token} {t : Token} {kinds : List Bracket}
    {kind : Bracket} (h : IsMismatch front t kinds kind) {us : List LocatedToken}
    (hus : front ++ [t] <+: us.map (·.token)) (es : List Expr) : parse us ≠ .ok es := by
  intro hparse
  obtain ⟨-, hnested⟩ := exists_parse_iff.mp ⟨es, hparse⟩
  obtain ⟨back, hback⟩ := hus
  have hnone := h.bracketsAfter?_eq_none back
  rw [List.append_cons, hback, bracketsAfter?_of_nested hnested []] at hnone
  cases hnone

/-- Every list of tokens has a first mismatch or leaves some regions open. -/
theorem exists_mismatch_or_leavesOpen (ts : List LocatedToken) :
    (∃ front t back kinds kind, ts = front ++ t :: back ∧
      IsMismatch (front.map (·.token)) t.token kinds kind) ∨
    ∃ kinds, LeavesOpen kinds (ts.map (·.token)) := by
  match hfound : bracketsAfter? [] (ts.map (·.token)) with
  | some kinds => exact Or.inr ⟨kinds, leavesOpen_iff.mpr hfound⟩
  | none =>
    obtain ⟨front, kind, back, kinds, hts, hfront, hkind⟩ := exists_mismatch hfound
    obtain ⟨front, rest, rfl, rfl, hrest⟩ := List.map_eq_append_iff.mp hts
    obtain ⟨t, back, rfl, ht, -⟩ := List.map_eq_cons_iff.mp hrest
    exact Or.inl ⟨front, t, back, kinds, kind, rfl, leavesOpen_iff.mpr hfront, ht, hkind⟩

/-- Rejected tokens without a mismatch leave a region open. -/
theorem exists_leavesOpen_of_parse_eq_error {ts : List LocatedToken} {e : ParseError}
    (h : parse ts = .error e) (hts : ts ≠ []) {kinds : List Bracket}
    (hopen : LeavesOpen kinds (ts.map (·.token))) : ∃ kind outer, kinds = kind :: outer := by
  refine List.exists_cons_of_ne_nil ?_
  rintro rfl
  obtain ⟨es, hes⟩ := exists_parse_iff.mpr ⟨hts, leavesOpen_nil_iff.mp hopen⟩
  rw [hes] at h
  cases h

/-- **Parsing fails at the first token that no program goes on with.** If a list of tokens is
rejected, then

* the empty list is so at the start of the text, as an empty program, and every other with the code
  of unbalanced delimiters;
* if there is a closing delimiter without a partner, the first of these is where the error is: some
  program starts with the tokens in front of it, and none with these and the delimiter;
* if there is none, the list is the beginning of a longer program, a region is open behind it, and
  the error is at its last token. -/
theorem parse_fails_at_first_dead_token {ts : List LocatedToken} {e : ParseError}
    (h : parse ts = .error e) :
    (ts = [] → e = ⟨⟨1, 1⟩, .emptyProgram⟩ ∧ e.fault.code = "P002") ∧
    (ts ≠ [] → e.fault.code = "P001") ∧
    (∀ front t back kinds kind, ts = front ++ t :: back →
      IsMismatch (front.map (·.token)) t.token kinds kind →
      e = ⟨t.position, .unexpectedCloser kind kinds.head?⟩ ∧
      (∃ more es, parse (front ++ more) = .ok es) ∧
      ∀ us es, front.map (·.token) ++ [t.token] <+: us.map (·.token) → parse us ≠ .ok es) ∧
    (ts ≠ [] →
      (∀ front t back kinds kind, ts = front ++ t :: back →
        ¬ IsMismatch (front.map (·.token)) t.token kinds kind) →
      (∃ more es, more ≠ [] ∧ parse (ts ++ more) = .ok es) ∧
      ∃ front t kind kinds, ts = front ++ [t] ∧
        LeavesOpen (kind :: kinds) (ts.map (·.token)) ∧ e = ⟨t.position, .unexpectedEnd kind⟩) := by
  -- The two ways of failing exclude each other, and each gives one fault.
  have hmismatch : ∀ front t back kinds kind, ts = front ++ t :: back →
      IsMismatch (front.map (·.token)) t.token kinds kind →
      e = ⟨t.position, .unexpectedCloser kind kinds.head?⟩ := by
    rintro front t back kinds kind rfl hwrong
    rw [parse_of_mismatch hwrong] at h
    exact (Except.error.inj h).symm
  have hend : ∀ kind outer, LeavesOpen (kind :: outer) (ts.map (·.token)) →
      ∃ front t, ts = front ++ [t] ∧ e = ⟨t.position, .unexpectedEnd kind⟩ := by
    intro kind outer hopen
    obtain ⟨front, t, hts, hparse⟩ := parse_of_leavesOpen hopen
    rw [hparse] at h
    exact ⟨front, t, hts, (Except.error.inj h).symm⟩
  refine ⟨?_, fun hts => ?_, ?_, fun hts hnone => ?_⟩
  · rintro rfl
    cases h
    exact ⟨rfl, rfl⟩
  · rcases exists_mismatch_or_leavesOpen ts with
      ⟨front, t, back, kinds, kind, heq, hwrong⟩ | ⟨kinds, hopen⟩
    · rw [hmismatch front t back kinds kind heq hwrong]
      rfl
    · obtain ⟨kind, outer, rfl⟩ := exists_leavesOpen_of_parse_eq_error h hts hopen
      obtain ⟨front, t, -, rfl⟩ := hend kind outer hopen
      rfl
  · intro front t back kinds kind heq hwrong
    obtain ⟨more, es, -, hmore⟩ := exists_parse_append hwrong.leavesOpen
    exact ⟨hmismatch front t back kinds kind heq hwrong, ⟨more, es, hmore⟩,
      fun us es hus => parse_ne_ok_of_mismatch hwrong hus es⟩
  · rcases exists_mismatch_or_leavesOpen ts with
      ⟨front, t, back, kinds, kind, heq, hwrong⟩ | ⟨kinds, hopen⟩
    · exact absurd hwrong (hnone front t back kinds kind heq)
    · obtain ⟨kind, outer, rfl⟩ := exists_leavesOpen_of_parse_eq_error h hts hopen
      obtain ⟨front, t, heq, he⟩ := hend kind outer hopen
      exact ⟨exists_parse_append hopen, front, t, kind, outer, heq, hopen, he⟩

/-- An array that a brace closes, in a function that is closed behind it, and a function that is not
closed. -/
theorem parse_fails_at_first_dead_token_regions :
    let front : List LocatedToken :=
      [⟨⟨1, 1⟩, .beginFunction⟩, ⟨⟨1, 3⟩, .integer 1⟩, ⟨⟨2, 1⟩, .beginArray⟩, ⟨⟨2, 3⟩, .integer 2⟩]
    let wrong : LocatedToken := ⟨⟨2, 5⟩, .endFunction⟩
    let back : List LocatedToken := [⟨⟨3, 1⟩, .endArray⟩, ⟨⟨3, 3⟩, .endFunction⟩]
    let early : List LocatedToken := [⟨⟨1, 1⟩, .integer 1⟩, ⟨⟨1, 3⟩, .beginFunction⟩]
    parse (front ++ wrong :: back)
      = .error ⟨⟨2, 5⟩, .unexpectedCloser .function (some .array)⟩ ∧
    (∃ more es, parse (front ++ more) = .ok es) ∧
    (∀ more es, parse (front ++ wrong :: more) ≠ .ok es) ∧
    parse early = .error ⟨⟨1, 3⟩, .unexpectedEnd .function⟩ ∧
    ∃ more es, more ≠ [] ∧ parse (early ++ more) = .ok es := by
  intro front wrong back early
  have hwrong : parse (front ++ wrong :: back)
      = .error ⟨⟨2, 5⟩, .unexpectedCloser .function (some .array)⟩ := rfl
  have hearly : parse early = .error ⟨⟨1, 3⟩, .unexpectedEnd .function⟩ := rfl
  have hmismatch : IsMismatch (front.map (·.token)) wrong.token [.array, .function] .function :=
    ⟨leavesOpen_iff.mpr rfl, rfl, by decide⟩
  -- No token of the shorter program is a closing bracket without its region.
  have hnone : ∀ front t back kinds kind, early = front ++ t :: back →
      ¬ IsMismatch (front.map (·.token)) t.token kinds kind := by
    intro front t back kinds kind heq hmismatch
    have hfound := hmismatch.bracketsAfter?_eq_none (back.map (·.token))
    rw [← List.map_cons, ← List.map_append, ← heq] at hfound
    cases hfound
  obtain ⟨-, hviable, hdead⟩ :=
    (parse_fails_at_first_dead_token hwrong).2.2.1 front wrong back _ _ rfl hmismatch
  obtain ⟨hmore, -⟩ := (parse_fails_at_first_dead_token hearly).2.2.2 (by simp [early]) hnone
  refine ⟨hwrong, hviable, fun more es => hdead _ es ?_, hearly, hmore⟩
  rw [List.map_append, List.map_cons]
  exact ⟨more.map (·.token), by simp⟩

end Expr

end SceneTracer
