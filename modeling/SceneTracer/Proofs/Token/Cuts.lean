import SceneTracer.Proofs.Token.Pieces

namespace SceneTracer

/-!
# Reading a text byte by byte

The bytes of a text are cut into tokens where its characters are. So reading bytes comes to what reading
characters does, and what can be said about a token can be said by the bytes that it is cut from.

* `Cuts` — where the tokens of a text are cut, and where the first fault is.
* `cuts_readSource` — bytes are cut there.
* `outcome?_readSource` — nothing else comes of reading bytes than of reading characters.
-/

/-- Where the text `cs` behind `front` is cut: around each of its tokens, up to the first fault. -/
inductive Cuts : List Char → List Char → Reading → Prop
  | done {front cs : List Char} (h : EndsInTrivia cs) : Cuts front cs ⟨[], none⟩
  | fault {front trivia cs : List Char} {c : Char} {fault : LexFault} (htrivia : IsTrivia trivia)
      (hlead : IsLead c) (hscan : Lexeme.scan c cs = .error fault) :
      Cuts front (trivia ++ c :: cs)
        ⟨[], some (.behind (Utf8.encode (front ++ trivia)), .lexical fault)⟩
  | token {front trivia cs : List Char} {c : Char} {lexeme : Lexeme} {rest : Reading}
      (htrivia : IsTrivia trivia) (hlead : IsLead c) (hscan : Lexeme.scan c cs = .ok lexeme)
      (hrest : Cuts (front ++ trivia ++ lexeme.text) lexeme.rest rest) :
      Cuts front (trivia ++ c :: cs)
        ⟨⟨.behind (Utf8.encode (front ++ trivia)),
          .behind (Utf8.encode (front ++ trivia ++ lexeme.text)), lexeme.token⟩ :: rest.tokens,
          rest.fault?⟩

/-- Reading takes one token after another: it skips what comes before the next one, stops at the
end, and otherwise goes on behind the token. -/
theorem readTokens_eq (bytes : List UInt8) (c : Cursor) :
    readTokens bytes c = match (ByteReader.trivia bytes).run c with
      | .error fault => ⟨[], some (c, fault)⟩
      | .ok (_, first) =>
        if bytes.length ≤ first.offset then ⟨[], none⟩
        else match (ByteReader.token bytes).run first with
          | .error fault => ⟨[], some (first, fault)⟩
          | .ok (token, last) => ⟨⟨first, last, token⟩ :: (readTokens bytes last).tokens,
              (readTokens bytes last).fault?⟩ := by
  rw [readTokens]
  cases (ByteReader.trivia bytes).run c with
  | error fault => rfl
  | ok skipped =>
    dsimp only
    split
    · rfl
    · cases (ByteReader.token bytes).run skipped.2 <;> rfl

/-- More characters take more bytes. -/
theorem length_encode_lt (front : List Char) {cs : List Char} (h : cs ≠ []) :
    (Utf8.encode front).length < (Utf8.encode (front ++ cs)).length := by
  rw [Utf8.encode_append, List.length_append]
  exact Nat.lt_add_of_pos_right (List.length_pos_iff.mpr (Utf8.encode_ne_nil h))

/-- Behind a token stands what it leaves of the text. -/
theorem append_of_scan {c : Char} {cs : List Char} {lexeme : Lexeme}
    (h : Lexeme.scan c cs = .ok lexeme) (front trivia : List Char) :
    front ++ trivia ++ lexeme.text ++ lexeme.rest = front ++ (trivia ++ c :: cs) := by
  rw [List.append_assoc, Lexeme.scan_append h, List.append_assoc]

/-- Nothing is left to read where only blanks and comments are. -/
theorem readTokens_of_endsInTrivia {cs : List Char} (h : EndsInTrivia cs) (front : List Char) :
    readTokens (Utf8.encode (front ++ cs)) (.behind (Utf8.encode front)) = ⟨[], none⟩ := by
  rw [readTokens_eq, ByteReader.comesTo_trivia_endsInTrivia h front]
  exact if_pos (Nat.le_refl _)

/-- The first token is read behind blanks and comments, and the others behind it. -/
theorem readTokens_of_lead {trivia : List Char} {c : Char} (htrivia : IsTrivia trivia)
    (hlead : IsLead c) (front cs : List Char) :
    readTokens (Utf8.encode (front ++ (trivia ++ c :: cs))) (.behind (Utf8.encode front)) =
      match Lexeme.scan c cs with
      | .error fault => ⟨[], some (.behind (Utf8.encode (front ++ trivia)), .lexical fault)⟩
      | .ok lexeme =>
        let last := Cursor.behind (Utf8.encode (front ++ trivia ++ lexeme.text))
        let rest := readTokens (Utf8.encode (front ++ trivia ++ lexeme.text ++ lexeme.rest)) last
        ⟨⟨.behind (Utf8.encode (front ++ trivia)), last, lexeme.token⟩ :: rest.tokens,
          rest.fault?⟩ := by
  have hskip := ByteReader.comesTo_trivia_append htrivia
    (ByteReader.comesTo_trivia_lead hlead cs) front
  have htoken := ByteReader.comesTo_token c cs (front ++ trivia)
  -- There is a character left, so this is not the end of the bytes.
  have hmore := length_encode_lt (front ++ trivia) (List.cons_ne_nil c cs)
  rw [List.append_assoc] at htoken hmore
  rw [readTokens_eq, hskip, List.append_nil]
  dsimp only
  rw [Cursor.offset_behind, if_neg (Nat.not_le.mpr hmore), htoken]
  cases hscan : Lexeme.scan c cs with
  | error fault => rfl
  | ok lexeme =>
    dsimp only [Except.map]
    rw [append_of_scan hscan]

/-- The bytes of a text are cut where the text is. -/
theorem cuts_readTokens (front cs : List Char) :
    Cuts front cs (readTokens (Utf8.encode (front ++ cs)) (.behind (Utf8.encode front))) := by
  -- What is left behind a token is shorter, since no token is empty.
  induction hlength : cs.length using Nat.strong_induction_on generalizing front cs with
  | _ n ih =>
    subst hlength
    obtain hends | ⟨trivia, c, cs, rfl, htrivia, hlead⟩ := endsInTrivia_or_lead cs
    · rw [readTokens_of_endsInTrivia hends]
      exact .done hends
    · rw [readTokens_of_lead htrivia hlead]
      cases hscan : Lexeme.scan c cs with
      | error fault => exact .fault htrivia hlead hscan
      | ok lexeme =>
        have hshorter := Lexeme.scan_rest_length_le hscan
        refine .token htrivia hlead hscan (ih lexeme.rest.length ?_ _ lexeme.rest rfl)
        simp only [List.length_append, List.length_cons]
        omega

/-- One more token at the front of a reading. -/
theorem outcome?_cons (t : CutToken) (rest : Reading) :
    Reading.outcome? ⟨t :: rest.tokens, rest.fault?⟩
      = rest.outcome?.map fun outcome => outcome.map (t.located :: ·) := by
  unfold Reading.outcome?
  dsimp only
  split <;> rfl

/-- **A text that has been cut is tokenized alike**, with the places in characters. -/
theorem Cuts.outcome?_eq {front cs : List Char} {reading : Reading} (h : Cuts front cs reading) :
    reading.outcome? = some (tokenizeFrom (Position.start.after front) cs) := by
  induction h with
  | @done front cs h =>
    rw [tokenizeFrom_of_endsInTrivia h]
    rfl
  | @fault front trivia cs c fault htrivia hlead hscan =>
    rw [tokenizeFrom_of_lead htrivia hlead, hscan]
    dsimp only [Reading.outcome?]
    rw [Cursor.position_behind, Position.behind_encode, Position.after_append]
  | @token front trivia cs c lexeme rest htrivia hlead hscan _ ih =>
    -- The position behind the token in characters is the one behind its bytes.
    rw [tokenizeFrom_of_lead htrivia hlead, hscan, outcome?_cons, ih, Position.after_append,
      Position.after_append, Option.map_some, CutToken.located]
    dsimp only
    rw [Cursor.position_behind, Position.behind_encode, Position.after_append]

/-- **Reading the bytes of a text cuts it.** -/
theorem cuts_readSource (source : String) : Cuts [] source.toList (readSource source) := by
  have hcuts := cuts_readTokens [] source.toList
  rwa [List.nil_append, Utf8.encode_toList] at hcuts

/-- Reading the bytes of a source text comes to what reading its characters does. In particular, no byte
behind its end is taken. -/
theorem outcome?_readSource (source : String) :
    (readSource source).outcome? = some (tokenize source) := (cuts_readSource source).outcome?_eq

end SceneTracer
