import SceneTracer.Proofs.Token.Cuts

namespace SceneTracer

/-!
# Tokens and the bytes they are cut from

A token is cut out of the bytes of a text between two places, which the bytes in front of them give.
No cut goes through a character, so what stands between the quotes of a string is UTF-8.

* `CutToken.Stands`, `Reading.GivesUp` — a token and a fault, told from the bytes of the text.
* `Cuts.stands`, `Cuts.givesUp`, `Cuts.ordered` — what holds of the places where a text is cut.
* `places_counted_in_bytes` — places are counted by the bytes and line feeds in front of them.
* `strings_cut_losslessly` — nothing is replaced in a string.
-/

/-! ### Single tokens -/

/-- The bytes between the cursors of a token. -/
def CutToken.slice (bytes : List UInt8) (t : CutToken) : List UInt8 :=
  (bytes.take t.last.offset).drop t.first.offset

/-- The token is cut out of the bytes between its cursors, and written by the text there. Both cursors
show what is in front of them. -/
structure CutToken.Stands (bytes : List UInt8) (t : CutToken) : Prop where
  first : t.first = .behind (bytes.take t.first.offset)
  last : t.last = .behind (bytes.take t.last.offset)
  ordered : t.first.offset < t.last.offset
  inside : t.last.offset ≤ bytes.length
  written : ∃ text, t.slice bytes = Utf8.encode text ∧ Token.Written t.token text

/-- Reading is given up in front of a character where no token can be read. The cursor shows what is in
front of it. -/
structure Reading.GivesUp (bytes : List UInt8) (c : Cursor) (fault : LexFault) : Prop where
  place : c = .behind (bytes.take c.offset)
  inside : c.offset < bytes.length
  unread : ∃ d ds, bytes.drop c.offset = Utf8.encode (d :: ds) ∧ IsLead d ∧
    Reads (d :: ds) (.error fault.code)

/-- The bytes before the end of a front are those of the front. -/
theorem take_encode (front cs : List Char) :
    (Utf8.encode (front ++ cs)).take (Utf8.encode front).length = Utf8.encode front := by
  rw [Utf8.encode_append, List.take_left]

/-- A token that is written by a text stands where that text does. -/
theorem stands_of_written {before text : List Char} {token : Token} (rest : List Char)
    (htext : text ≠ []) (hwritten : Token.Written token text) :
    CutToken.Stands (Utf8.encode (before ++ text ++ rest))
      ⟨.behind (Utf8.encode before), .behind (Utf8.encode (before ++ text)), token⟩ where
  first := by
    rw [Cursor.offset_behind, List.append_assoc, take_encode]
  last := by
    rw [Cursor.offset_behind, take_encode]
  ordered := length_encode_lt before htext
  inside := by
    rw [Cursor.offset_behind, Utf8.encode_append (before ++ text), List.length_append]
    exact Nat.le_add_right _ _
  written := by
    refine ⟨text, ?_, hwritten⟩
    rw [CutToken.slice, Cursor.offset_behind, Cursor.offset_behind, List.append_assoc,
      ByteReader.drop_take_encode]

/-- What has been scanned writes its token. -/
theorem Lexeme.written_of_scan {c : Char} {cs : List Char} {lexeme : Lexeme}
    (h : scan c cs = .ok lexeme) : Token.Written lexeme.token lexeme.text := by
  have hreads := reads_scan c cs
  rw [h] at hreads
  cases hreads with
  | @token text rest token happend hlongest hwritten =>
    have htext : text = lexeme.text := List.append_cancel_right (happend.trans (scan_append h).symm)
    rwa [htext] at hwritten

/-! ### Whole texts -/

namespace Reading

variable {reading : Reading}

/-- The tokens that come of reading a text are those that were cut. -/
theorem exists_token {tokens : List LocatedToken} (h : reading.outcome? = some (.ok tokens)) :
    ∀ l ∈ tokens, ∃ t ∈ reading.tokens, t.located = l := by
  unfold outcome? at h
  split at h
  · cases h
    exact fun l hl => List.mem_map.mp hl
  · cases h
  · cases h

/-- A fault of the outcome is one of the reading, at the same place. -/
theorem exists_fault {e : LexError} (h : reading.outcome? = some (.error e)) :
    ∃ c, reading.fault? = some (c, .lexical e.fault) ∧ c.position = e.position := by
  unfold outcome? at h
  split at h
  · cases h
  · rename_i c fault hfault
    cases h
    exact ⟨c, hfault, rfl⟩
  · cases h

end Reading

namespace Cuts

variable {front cs : List Char} {reading : Reading}

/-- **Every token stands where it has been read.** -/
theorem stands (h : Cuts front cs reading) :
    ∀ t ∈ reading.tokens, t.Stands (Utf8.encode (front ++ cs)) := by
  induction h with
  | done _ | fault _ _ _ => exact nofun
  | @token front trivia cs c lexeme rest _ _ hscan _ ih =>
    rw [append_of_scan hscan] at ih
    refine List.forall_mem_cons.mpr ⟨?_, ih⟩
    rw [← append_of_scan hscan]
    exact stands_of_written _ (Lexeme.scan_text_ne_nil hscan) (Lexeme.written_of_scan hscan)

/-- **A reading gives up where no token can be read.** -/
theorem givesUp (h : Cuts front cs reading) (c : Cursor) (fault : ReadFault)
    (hfault : reading.fault? = some (c, fault)) :
    ∃ lexFault, fault = .lexical lexFault ∧
      Reading.GivesUp (Utf8.encode (front ++ cs)) c lexFault := by
  induction h with
  | done _ => cases hfault
  | @fault front trivia cs d fault htrivia hlead hscan =>
    -- What is left starts with a character that leads a token, behind blanks and comments.
    cases hfault
    refine ⟨fault, rfl, ?_, ?_, d, cs, ?_, hlead, ?_⟩
    · rw [Cursor.offset_behind, ← List.append_assoc, take_encode]
    · rw [← List.append_assoc]
      exact length_encode_lt (front ++ trivia) (List.cons_ne_nil d cs)
    · rw [Cursor.offset_behind, ← List.append_assoc, Utf8.encode_append (front ++ trivia),
        List.drop_left]
    · have hreads := Lexeme.reads_scan d cs
      rwa [hscan] at hreads
  | @token front trivia cs d lexeme rest _ _ hscan _ ih =>
    rw [append_of_scan hscan] at ih
    exact ih hfault

/-- Tokens are read behind what has been read. -/
theorem exists_first (h : Cuts front cs reading) :
    ∀ t ∈ reading.tokens, ∃ more, t.first = .behind (Utf8.encode (front ++ more)) := by
  induction h with
  | done _ | fault _ _ _ => exact nofun
  | @token front trivia cs c lexeme rest _ _ _ _ ih =>
    refine List.forall_mem_cons.mpr ⟨⟨trivia, rfl⟩, fun t ht => ?_⟩
    obtain ⟨more, hmore⟩ := ih t ht
    exact ⟨trivia ++ lexeme.text ++ more, by rw [hmore]; simp only [List.append_assoc]⟩

/-- **Tokens come one behind the other.** -/
theorem ordered (h : Cuts front cs reading) :
    reading.tokens.Pairwise fun t t' => t.last.offset ≤ t'.first.offset ∧
      t.first.position.Before t'.first.position := by
  induction h with
  | done _ | fault _ _ _ => exact .nil
  | @token front trivia cs c lexeme rest _ _ hscan hrest ih =>
    refine .cons (fun t ht => ?_) ih
    -- A later token starts behind this one and what is in between, and this one is not empty.
    obtain ⟨more, hmore⟩ := hrest.exists_first t ht
    have hbehind : Utf8.encode (lexeme.text ++ more) ≠ [] :=
      Utf8.encode_ne_nil (List.append_ne_nil_of_left_ne_nil (Lexeme.scan_text_ne_nil hscan) more)
    rw [hmore]
    constructor
    · rw [Cursor.offset_behind, Cursor.offset_behind, Utf8.encode_append _ more, List.length_append]
      exact Nat.le_add_right _ _
    · rw [Cursor.position_behind, Cursor.position_behind, List.append_assoc,
        Utf8.encode_append (front ++ trivia)]
      exact Position.before_of_append _ hbehind

end Cuts

/-- **Places are counted in bytes.** In every source text, read byte by byte, no byte behind the end is
taken, and each token stands on the line that the line feeds in front of its first byte give, in the
column that the bytes since the last of them give. So does the first fault. Each token stands behind the
one before it. -/
theorem places_counted_in_bytes (source : String) :
    (readSource source).outcome? = some (tokenize source) ∧
    (∀ t ∈ (readSource source).tokens, t.Stands (Utf8.bytes source)) ∧
    (∀ c fault, (readSource source).fault? = some (c, fault) →
      ∃ lexFault, fault = .lexical lexFault ∧
        Reading.GivesUp (Utf8.bytes source) c lexFault) ∧
    (readSource source).tokens.Pairwise fun t t' => t.last.offset ≤ t'.first.offset ∧
      t.first.position.Before t'.first.position := by
  have hcuts := cuts_readSource source
  have hstands := hcuts.stands
  have hgivesUp := hcuts.givesUp
  rw [List.nil_append, Utf8.encode_toList] at hstands hgivesUp
  exact ⟨outcome?_readSource source, hstands, hgivesUp, hcuts.ordered⟩

/-- Columns count the bytes of characters beyond ASCII, also behind a comment that holds a quote. -/
theorem places_counted_in_bytes_lines :
    (∃ t ∈ (readSource "1 % \"é\n\"ß\" 2").tokens, t.first.position = ⟨2, 6⟩ ∧
      t.Stands (Utf8.bytes "1 % \"é\n\"ß\" 2")) ∧
    ∃ c, (readSource "1 % \"é\n\"ß\" \"x").fault? = some (c, .lexical .unterminatedString) ∧
      c.position = ⟨2, 6⟩ ∧
      Reading.GivesUp (Utf8.bytes "1 % \"é\n\"ß\" \"x") c .unterminatedString := by
  have htokens : tokenize "1 % \"é\n\"ß\" 2"
      = .ok [⟨⟨1, 1⟩, .integer 1⟩, ⟨⟨2, 1⟩, .string "ß"⟩, ⟨⟨2, 6⟩, .integer 2⟩] := by cbv
  have hfault : tokenize "1 % \"é\n\"ß\" \"x" = .error ⟨⟨2, 6⟩, .unterminatedString⟩ := by cbv
  obtain ⟨houtcome, hstands, -, -⟩ := places_counted_in_bytes "1 % \"é\n\"ß\" 2"
  obtain ⟨houtcome', -, hgivesUp, -⟩ := places_counted_in_bytes "1 % \"é\n\"ß\" \"x"
  rw [htokens] at houtcome
  rw [hfault] at houtcome'
  constructor
  · obtain ⟨t, ht, hlocated⟩ := Reading.exists_token houtcome ⟨⟨2, 6⟩, .integer 2⟩ (by simp)
    exact ⟨t, ht, congrArg LocatedToken.position hlocated, hstands t ht⟩
  · obtain ⟨c, hc, hposition⟩ := Reading.exists_fault houtcome'
    obtain ⟨fault, hlexical, hblocked⟩ := hgivesUp c _ hc
    cases hlexical
    exact ⟨c, hc, hposition, hblocked⟩

/-! ### Strings -/

/-- The bytes of a string without its quotes. -/
def CutToken.quoted (bytes : List UInt8) (t : CutToken) : List UInt8 :=
  (bytes.take (t.last.offset - 1)).drop (t.first.offset + 1)

/-- The bytes between two quotes. -/
theorem drop_take_quoted {bytes inside : List UInt8} {first last : Nat} {b d : UInt8}
    (hlast : last ≤ bytes.length) (h : (bytes.take last).drop first = b :: (inside ++ [d])) :
    (bytes.take (last - 1)).drop (first + 1) = inside := by
  -- The bytes up to the last one are split at the first, with and without the last.
  have hall : (bytes.take last).take first ++ b :: inside ++ [d] = bytes.take last := by
    rw [List.append_assoc, List.cons_append, ← h, List.take_append_drop]
  have hfront : (bytes.take last).dropLast = (bytes.take last).take first ++ b :: inside :=
    (congrArg List.dropLast hall).symm.trans List.dropLast_concat
  rw [List.dropLast_eq_take, List.length_take_of_le hlast, List.take_take,
    Nat.min_eq_left (Nat.sub_le _ _)] at hfront
  have hlength : ((bytes.take last).take first).length = first := by
    have hdrop := congrArg List.length h
    rw [List.length_drop, List.length_cons, List.length_append] at hdrop
    rw [List.length_take]
    omega
  calc (bytes.take (last - 1)).drop (first + 1)
      = ((bytes.take last).take first ++ b :: inside).drop
          (((bytes.take last).take first).length + 1) := by rw [hfront, hlength]
    _ = inside := by rw [List.drop_length_add_append, List.drop_one, List.tail_cons]

/-- A string that stands somewhere is quoted there, and decoding what is between the quotes gives its
text. -/
theorem CutToken.Stands.quoted_eq {bytes : List UInt8} {t : CutToken} {text : String}
    (h : t.Stands bytes) (ht : t.token = .string text) :
    t.slice bytes = 34 :: (t.quoted bytes ++ [34]) ∧
    IsQuotable text.toList ∧ t.quoted bytes = Utf8.encode text.toList := by
  obtain ⟨text', hslice, hwritten⟩ := h.written
  rw [ht] at hwritten
  cases hwritten with
  | @string inside hinside =>
    have hencode : Utf8.encode ('"' :: (inside ++ ['"'])) = 34 :: (Utf8.encode inside ++ [34]) := by
      simp [Utf8.utf8EncodeChar_ascii]
    rw [hencode] at hslice
    have hquoted : t.quoted bytes = Utf8.encode inside := drop_take_quoted h.inside hslice
    rw [hquoted, hslice, String.toList_ofList]
    exact ⟨rfl, hinside, rfl⟩

/-- **Strings are cut without a loss.** The text of every string token in a source text has the bytes
that stand between its quotes. These are UTF-8, so that nothing is replaced when they are decoded. -/
theorem strings_cut_losslessly (source : String) :
    (readSource source).outcome? = some (tokenize source) ∧
    ∀ t ∈ (readSource source).tokens, ∀ text, t.token = .string text →
      t.slice (Utf8.bytes source) = 34 :: (t.quoted (Utf8.bytes source) ++ [34]) ∧
      34 ∉ t.quoted (Utf8.bytes source) ∧ 10 ∉ t.quoted (Utf8.bytes source) ∧
      t.quoted (Utf8.bytes source) = Utf8.bytes text ∧
      (t.quoted (Utf8.bytes source)).toByteArray.IsValidUTF8 ∧
      Utf8.decodeLossy (t.quoted (Utf8.bytes source)) = text.toList.map some := by
  have hstands := (cuts_readSource source).stands
  rw [List.nil_append, Utf8.encode_toList] at hstands
  refine ⟨outcome?_readSource source, fun t ht text htext => ?_⟩
  obtain ⟨hslice, hquotable, hquoted⟩ := (hstands t ht).quoted_eq htext
  rw [hquoted] at hslice ⊢
  refine ⟨hslice, ?_, ?_, Utf8.encode_toList text, ⟨text.toList, rfl⟩, Utf8.decodeLossy_encode _⟩
  · exact not_mem_encode (d := '"') (by decide) fun c hc => (hquotable c hc).1
  · exact not_mem_encode (d := '\n') (by decide) fun c hc => (hquotable c hc).2

/-- A quote in a comment opens no string, and two characters of several bytes each are kept. -/
theorem strings_cut_losslessly_beyond_ascii :
    ∃ t ∈ (readSource "% \"é\n\"ß→\" 1").tokens, t.token = .string "ß→" ∧
      t.quoted (Utf8.bytes "% \"é\n\"ß→\" 1") = [0xC3, 0x9F, 0xE2, 0x86, 0x92] ∧
      Utf8.decodeLossy (t.quoted (Utf8.bytes "% \"é\n\"ß→\" 1")) = [some 'ß', some '→'] := by
  have htokens : tokenize "% \"é\n\"ß→\" 1"
      = .ok [⟨⟨2, 1⟩, .string "ß→"⟩, ⟨⟨2, 9⟩, .integer 1⟩] := by cbv
  obtain ⟨houtcome, hstrings⟩ := strings_cut_losslessly "% \"é\n\"ß→\" 1"
  rw [htokens] at houtcome
  obtain ⟨t, ht, hlocated⟩ := Reading.exists_token houtcome ⟨⟨2, 1⟩, .string "ß→"⟩ (by simp)
  have htoken : t.token = .string "ß→" := congrArg LocatedToken.token hlocated
  obtain ⟨-, -, -, hquoted, -, hdecode⟩ := hstrings t ht "ß→" htoken
  exact ⟨t, ht, htoken, hquoted.trans (by decide), hdecode.trans (by decide)⟩

end SceneTracer
