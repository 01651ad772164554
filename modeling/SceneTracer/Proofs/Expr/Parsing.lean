import SceneTracer.Expr.Flatten

namespace SceneTracer

/-!
# Parsing undoes flattening

The programs that the parser accepts are the lists of tokens in which every delimiter has its
partner, and the expressions it gives are those that are written with just these tokens.

* `Nested` — the lists of tokens in which delimiters are nested and matched by kind, as a grammar.
* `Expr.region_induction` — induction over lists of expressions, by the tokens that they start with.
* `Expr.flattenList_of_parseFrom` — the reading neither loses nor adds a token, whatever regions are
  open: what they hold is written in front of what is read.
* `Expr.parseFrom_append` — the tokens of a list of expressions put these on top of the open region.
* `Expr.exists_parse_iff` — programs are the lists of tokens that leave no region open.
* `Expr.parse_inverts_flatten` — both directions for whole programs.
-/

/-- Lists of tokens in which delimiters are nested, each closed by its own kind. -/
inductive Nested : List Token → Prop
  | nil : Nested []
  | leaf {t : Token} {ts : List Token} (h : ∀ kind : Bracket, t ≠ kind.opener ∧ t ≠ kind.closer)
      (rest : Nested ts) : Nested (t :: ts)
  | region (kind : Bracket) {inner ts : List Token} (body : Nested inner) (rest : Nested ts) :
      Nested (kind.opener :: (inner ++ kind.closer :: ts))

/-! ### Roles of tokens -/

/-- The opening bracket of a region opens it. -/
@[simp] theorem Bracket.role_opener (kind : Bracket) : kind.opener.role = .opens kind := by
  cases kind <;> rfl

/-- Its closing bracket closes it. -/
@[simp] theorem Bracket.role_closer (kind : Bracket) : kind.closer.role = .closes kind := by
  cases kind <;> rfl

@[simp] theorem Bracket.isCloser_opener (kind : Bracket) : kind.opener.isCloser = false := by
  cases kind <;> rfl

@[simp] theorem Bracket.isCloser_closer (kind : Bracket) : kind.closer.isCloser = true := by
  cases kind <;> rfl

/-- Only the opening bracket of a region opens it. -/
theorem Token.eq_opener_of_role {t : Token} {kind : Bracket} (h : t.role = .opens kind) :
    t = kind.opener := by
  cases t <;> cases h <;> rfl

/-- Only its closing bracket closes it. -/
theorem Token.eq_closer_of_role {t : Token} {kind : Bracket} (h : t.role = .closes kind) :
    t = kind.closer := by
  cases t <;> cases h <;> rfl

/-- A token that is an expression by itself is no delimiter. -/
theorem Token.ne_delimiter_of_role {t : Token} {e : Expr} (h : t.role = .leaf e) (kind : Bracket) :
    t ≠ kind.opener ∧ t ≠ kind.closer := by
  constructor <;> rintro rfl <;> simp at h

/-- A token that is no delimiter is an expression by itself. -/
theorem Token.exists_leaf {t : Token}
    (h : ∀ kind : Bracket, t ≠ kind.opener ∧ t ≠ kind.closer) : ∃ e, t.role = .leaf e := by
  match ht : t.role with
  | .leaf e => exact ⟨e, rfl⟩
  | .opens kind => exact absurd (Token.eq_opener_of_role ht) (h kind).1
  | .closes kind => exact absurd (Token.eq_closer_of_role ht) (h kind).2

namespace Expr

/-- The tokens of a region are its brackets and the tokens between them. -/
@[simp] theorem flatten_enclose (kind : Bracket) (body : List Expr) :
    (kind.enclose body).flatten = kind.opener :: (flattenList body ++ [kind.closer]) := by
  cases kind <;> rfl

/-- A region counts once, and so does all that is in it. -/
@[simp] theorem size_enclose (kind : Bracket) (body : List Expr) :
    (kind.enclose body).size = 1 + sizeList body := by
  cases kind <;> simp [Bracket.enclose, size]

/-- A token that stands for an expression by itself is all its tokens. -/
theorem flatten_of_role {t : Token} {e : Expr} (h : t.role = .leaf e) : e.flatten = [t] := by
  cases t <;> cases h <;> rfl

/-- Such an expression counts once. -/
theorem size_of_role {t : Token} {e : Expr} (h : t.role = .leaf e) : e.size = 1 := by
  cases t <;> cases h <;> simp [size]

/-- Such a token closes nothing. -/
theorem isCloser_of_role {t : Token} {e : Expr} (h : t.role = .leaf e) : t.isCloser = false := by
  cases t <;> cases h <;> rfl

/-- Induction over lists of expressions: the first is a single token, or a region with a body. -/
@[elab_as_elim] theorem region_induction {motive : List Expr → Prop} (nil : motive [])
    (leaf : ∀ (t : Token) (e : Expr) (es : List Expr), t.role = .leaf e → motive es →
      motive (e :: es))
    (region : ∀ (kind : Bracket) (body es : List Expr), motive body → motive es →
      motive (kind.enclose body :: es))
    (es : List Expr) : motive es := by
  induction es using list_induction with
  | nil => exact nil
  | cons e es hbodies ih =>
    -- The two kinds of region are one case, and all other expressions are the other.
    cases e with
    | function body => exact region .function body es (hbodies body (Or.inl rfl)) ih
    | array items => exact region .array items es (hbodies items (Or.inr rfl)) ih
    | integer value => exact leaf (.integer value) _ es rfl ih
    | real value => exact leaf (.real value) _ es rfl ih
    | boolean value => exact leaf (.boolean value) _ es rfl ih
    | string text => exact leaf (.string text) _ es rfl ih
    | identifier name => exact leaf (.identifier name) _ es rfl ih
    | binder name => exact leaf (.binder name) _ es rfl ih
    | operator op => exact leaf (.operator op) _ es rfl ih

/-! ### What expressions are written with -/

/-- Every token but the closing delimiters stands for one expression. -/
theorem sizeList_add_closers (es : List Expr) :
    sizeList es + (flattenList es).countP Token.isCloser = (flattenList es).length := by
  induction es using region_induction with
  | nil => rfl
  | leaf t e es ht ih =>
    simp only [sizeList, flattenList, flatten_of_role ht, size_of_role ht, List.countP_append,
      List.countP_singleton, isCloser_of_role ht, List.length_append, List.length_singleton]
    simp only [Bool.false_eq_true, if_false]
    omega
  | region kind body es ihb ih =>
    -- The opening delimiter stands for the region, and the closing one for nothing.
    simp only [sizeList, flattenList, flatten_enclose, size_enclose, List.cons_append,
      List.append_assoc, List.countP_cons, List.countP_append, List.countP_nil, List.length_cons,
      List.length_append, List.length_nil, Bracket.isCloser_opener, Bracket.isCloser_closer]
    simp only [Bool.false_eq_true, if_false, if_true]
    omega

/-- Expressions are written with nested delimiters. -/
theorem nested_flattenList (es : List Expr) : Nested (flattenList es) := by
  induction es using region_induction with
  | nil => exact .nil
  | leaf t e es ht ih =>
    rw [flattenList, flatten_of_role ht]
    exact .leaf (Token.ne_delimiter_of_role ht) ih
  | region kind body es ihb ih =>
    rw [flattenList, flatten_enclose, List.cons_append, List.append_assoc]
    exact .region kind ihb ih

/-- Whatever has nested delimiters is how some expressions are written. -/
theorem exists_flattenList_eq {ts : List Token} (h : Nested ts) : ∃ es, flattenList es = ts := by
  induction h with
  | nil => exact ⟨[], rfl⟩
  | leaf h _ ih =>
    obtain ⟨e, he⟩ := Token.exists_leaf h
    obtain ⟨es, rfl⟩ := ih
    exact ⟨e :: es, by rw [flattenList, flatten_of_role he, List.singleton_append]⟩
  | region kind _ _ ihb ih =>
    obtain ⟨body, rfl⟩ := ihb
    obtain ⟨es, rfl⟩ := ih
    exact ⟨kind.enclose body :: es, by simp [flattenList]⟩

/-- Every expression has a token at least. -/
theorem flattenList_ne_nil {es : List Expr} (h : es ≠ []) : flattenList es ≠ [] := by
  induction es using region_induction with
  | nil => exact absurd rfl h
  | leaf t e es ht ih => simp [flattenList, flatten_of_role ht]
  | region kind body es ihb ih => simp [flattenList]

/-! ### The reading keeps every token -/

/-- The tokens that open regions are written with: their opening delimiters and what stands in front
of these. -/
def flattenOpen : List OpenRegion → List Token
  | [] => []
  | region :: outer =>
    flattenOpen outer ++ flattenList region.before.reverse ++ [region.kind.opener]

/-- **The reading neither loses nor adds a token.** If it succeeds, its result is written with what
was read before and what there was to read. -/
theorem flattenList_of_parseFrom {regions : List OpenRegion} {body : List Expr} {last : Position}
    {ts : List LocatedToken} {es : List Expr} (h : parseFrom regions body last ts = .ok es) :
    flattenList es
      = flattenOpen regions ++ flattenList body.reverse ++ ts.map (·.token) := by
  induction ts generalizing regions body last with
  | nil =>
    cases regions with
    | nil =>
      cases h
      simp [flattenOpen]
    | cons region outer => cases h
  | cons t ts ih =>
    rw [parseFrom] at h
    split at h
    case h_1 e ht =>
      rw [ih h]
      simp [flattenList, flatten_of_role ht]
    case h_2 kind ht =>
      -- What was read so far waits in front of the new region.
      rw [ih h]
      simp [flattenOpen, flattenList, Token.eq_opener_of_role ht]
    case h_3 kind ht =>
      -- A closing delimiter is accepted only in a region of its own kind.
      cases regions with
      | nil => cases h
      | cons region outer =>
        simp only at h
        split at h
        · rename_i hkind
          rw [ih h]
          simp [flattenOpen, flattenList, Token.eq_closer_of_role ht, hkind]
        · cases h

/-- **The reading builds every expression.** Tokens that expressions are written with put these on
top of the innermost open region, wherever the tokens stand. -/
theorem parseFrom_append (es : List Expr) {us : List LocatedToken}
    (hus : us.map (·.token) = flattenList es) (regions : List OpenRegion) (body : List Expr)
    (last : Position) (vs : List LocatedToken) :
    ∃ last', parseFrom regions body last (us ++ vs)
      = parseFrom regions (es.reverse ++ body) last' vs := by
  induction es using region_induction generalizing us regions body last vs with
  | nil =>
    obtain rfl : us = [] := by simpa [flattenList] using hus
    exact ⟨last, rfl⟩
  | leaf t e es ht ih =>
    rw [flattenList, flatten_of_role ht, List.singleton_append, List.map_eq_cons_iff] at hus
    obtain ⟨u, us, rfl, rfl, hus⟩ := hus
    obtain ⟨last', hrest⟩ := ih hus regions (e :: body) u.position vs
    refine ⟨last', ?_⟩
    rw [List.cons_append, parseFrom, ht]
    simpa using hrest
  | region kind inner es ihb ih =>
    rw [flattenList, flatten_enclose, List.cons_append, List.append_assoc, List.map_eq_cons_iff]
      at hus
    obtain ⟨u, us, rfl, hu, hus⟩ := hus
    obtain ⟨us, ws, rfl, hinner, hws⟩ := List.map_eq_append_iff.mp hus
    obtain ⟨w, ws, rfl, hw, hws⟩ := List.map_eq_cons_iff.mp hws
    -- The body is read into a new region, which the closing delimiter takes off again.
    obtain ⟨lastInner, hread⟩ :=
      ihb hinner (⟨kind, body⟩ :: regions) [] u.position (w :: (ws ++ vs))
    obtain ⟨last', hrest⟩ := ih hws regions (kind.enclose inner :: body) w.position vs
    refine ⟨last', ?_⟩
    rw [List.cons_append, parseFrom, hu, Bracket.role_opener]
    simp only [List.append_assoc, List.cons_append]
    rw [hread, parseFrom, hw, Bracket.role_closer]
    simpa using hrest

/-! ### Whole programs -/

/-- With a token there, parsing starts outside of all regions. -/
theorem parse_eq_parseFrom {ts : List LocatedToken} (h : ts ≠ []) :
    ∃ last, parse ts = parseFrom [] [] last ts := by
  cases ts with
  | nil => exact absurd rfl h
  | cons t ts => exact ⟨t.position, rfl⟩

/-- A program that parses is written with its own tokens. -/
theorem flattenList_of_parse {ts : List LocatedToken} {es : List Expr} (h : parse ts = .ok es) :
    flattenList es = ts.map (·.token) := by
  cases ts with
  | nil => cases h
  | cons t ts => simpa [flattenOpen, flattenList] using flattenList_of_parseFrom h

/-- What expressions are written with parses as these expressions. -/
theorem parse_of_flattenList {ts : List LocatedToken} {es : List Expr} (hne : es ≠ [])
    (h : ts.map (·.token) = flattenList es) : parse ts = .ok es := by
  have hts : ts ≠ [] := by
    rintro rfl
    exact flattenList_ne_nil hne h.symm
  obtain ⟨last, hparse⟩ := parse_eq_parseFrom hts
  obtain ⟨last', hread⟩ := parseFrom_append es h [] [] last []
  rw [List.append_nil] at hread
  rw [hparse, hread]
  simp [parseFrom]

/-- Programs are the lists of tokens, but the empty one, in which all delimiters have partners. -/
theorem exists_parse_iff {ts : List LocatedToken} :
    (∃ es, parse ts = .ok es) ↔ ts ≠ [] ∧ Nested (ts.map (·.token)) := by
  constructor
  · rintro ⟨es, h⟩
    refine ⟨?_, flattenList_of_parse h ▸ nested_flattenList es⟩
    rintro rfl
    cases h
  · rintro ⟨hne, hnested⟩
    obtain ⟨es, hes⟩ := exists_flattenList_eq hnested
    refine ⟨es, parse_of_flattenList ?_ hes.symm⟩
    rintro rfl
    exact hne (List.map_eq_nil_iff.mp hes.symm)

/-- **The parser inverts flattening.** A list of tokens parses exactly if it is not empty and its
delimiters are nested; the expressions it gives are written with the same tokens, one expression for
each token that closes no region; and every list of expressions but the empty one is what its own
tokens parse as, wherever these stand. -/
theorem parse_inverts_flatten :
    (∀ ts : List LocatedToken,
      (∃ es, parse ts = .ok es) ↔ ts ≠ [] ∧ Nested (ts.map (·.token))) ∧
    (∀ (ts : List LocatedToken) (es : List Expr), parse ts = .ok es →
      es ≠ [] ∧ flattenList es = ts.map (·.token) ∧
        sizeList es + (ts.map (·.token)).countP Token.isCloser = ts.length) ∧
    (∀ (ts : List LocatedToken) (es : List Expr), es ≠ [] → ts.map (·.token) = flattenList es →
      parse ts = .ok es) := by
  refine ⟨fun ts => exists_parse_iff, fun ts es h => ?_, fun ts es => parse_of_flattenList⟩
  have hflat := flattenList_of_parse h
  refine ⟨?_, hflat, ?_⟩
  · rintro rfl
    cases ts with
    | nil => cases h
    | cons t ts => cases hflat
  · rw [← hflat, sizeList_add_closers, hflat, List.length_map]

/-- A function around an array, over two lines, is read as such, and its size counts five of its
seven tokens. -/
theorem parse_inverts_flatten_regions :
    let ts : List LocatedToken :=
      [⟨⟨1, 1⟩, .beginFunction⟩, ⟨⟨1, 3⟩, .integer 1⟩, ⟨⟨1, 5⟩, .beginArray⟩, ⟨⟨2, 1⟩, .integer 2⟩,
        ⟨⟨2, 3⟩, .identifier "x"⟩, ⟨⟨2, 5⟩, .endArray⟩, ⟨⟨2, 6⟩, .endFunction⟩]
    let es : List Expr := [.function [.integer 1, .array [.integer 2, .identifier "x"]]]
    parse ts = .ok es ∧ sizeList es + (ts.map (·.token)).countP Token.isCloser = ts.length := by
  intro ts es
  have hparse : parse ts = .ok es := parse_inverts_flatten.2.2 ts es (List.cons_ne_nil _ _) rfl
  exact ⟨hparse, (parse_inverts_flatten.2.1 ts es hparse).2.2⟩

end Expr

end SceneTracer
