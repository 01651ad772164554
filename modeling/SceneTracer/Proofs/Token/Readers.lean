import SceneTracer.Proofs.Token.LongestMatch
import SceneTracer.Proofs.Token.Places

namespace SceneTracer.ByteReader

/-!
# Reading bytes as characters

A reader of bytes that starts in front of a character of the text never stops inside one, and what it
makes of the bytes is what there is to make of the characters.

* `ComesTo`, `ComesTo.bind` — what a reader makes of a text, and readers one after the other.
* `comesTo_peek`, `comesTo_advance` — looking ahead and taking a byte.
* `comesTo_takeWhile`, `comesTo_digits` — the front of a text that is in a class.
* `comesTo_trivia_append`, `comesTo_trivia_endsInTrivia` — blanks and comments.
-/

variable {ρ τ : Type}

/-- What the reader comes to in front of the text `cs`, wherever that is: a result and the text that it
takes, or a fault. -/
def ComesTo (reader : List UInt8 → ByteReader ρ) (cs : List Char)
    (outcome : Except LexFault (ρ × List Char)) : Prop :=
  ∀ front, (reader (Utf8.encode (front ++ cs))).run (.behind (Utf8.encode front)) =
    match outcome with
    | .ok (result, text) => .ok (result, .behind (Utf8.encode (front ++ text)))
    | .error fault => .error (.lexical fault)

section
variable {reader : List UInt8 → ByteReader ρ} {next : List UInt8 → ρ → ByteReader τ}
  {cs text rest : List Char} {result : ρ} {outcome both : Except LexFault (τ × List Char)}

/-- A reader that only looks at the text takes none of it. -/
theorem comesTo_of_looks (h : ∀ front, (reader (Utf8.encode (front ++ cs))).run
      (.behind (Utf8.encode front)) = .ok (result, .behind (Utf8.encode front))) :
    ComesTo reader cs (.ok (result, [])) := by
  intro front
  dsimp only
  rw [h front, List.append_nil]

theorem comesTo_pure (cs : List Char) (result : ρ) :
    ComesTo (fun _ => pure result) cs (.ok (result, [])) := comesTo_of_looks fun _ => rfl

theorem comesTo_fail (cs : List Char) (fault : LexFault) :
    ComesTo (fun _ => (fail fault : ByteReader ρ)) cs (.error fault) := fun _ => rfl

/-- The second of two readers starts behind what the first one has taken. -/
theorem ComesTo.bind (hreader : ComesTo reader cs (.ok (result, text))) (hcs : text ++ rest = cs)
    (hnext : ComesTo (fun bytes => next bytes result) rest outcome)
    (hboth : outcome.map (fun taken => (taken.1, text ++ taken.2)) = both) :
    ComesTo (fun bytes => reader bytes >>= next bytes) cs both := by
  intro front
  subst hcs hboth
  -- The second reader starts behind what the first has taken.
  have hbehind := hnext (front ++ text)
  rw [List.append_assoc] at hbehind
  rw [run_bind, hreader front]
  dsimp only
  rw [hbehind]
  cases outcome with
  | error fault => rfl
  | ok taken =>
    dsimp only [Except.map]
    rw [List.append_assoc]

/-- A reader that only looks at the text leaves all of it to the next. -/
theorem ComesTo.look (hreader : ComesTo reader cs (.ok (result, [])))
    (hnext : ComesTo (fun bytes => next bytes result) cs outcome) :
    ComesTo (fun bytes => reader bytes >>= next bytes) cs outcome := by
  refine hreader.bind (List.nil_append cs) hnext ?_
  cases outcome <;> rfl

end

/-! ### Single bytes -/

/-- The byte at the offset is the next one. -/
theorem getElem?_behind (before rest : List UInt8) :
    (before ++ rest)[(Cursor.behind before).offset]? = rest.head? := by
  rw [List.head?_eq_getElem?, Cursor.behind, List.getElem?_append_right (Nat.le_refl _),
    Nat.sub_self]

/-- Advancing takes the next byte. -/
theorem run_advance_behind (before : List UInt8) (b : UInt8) (rest : List UInt8) :
    (advance (before ++ b :: rest)).run (.behind before) = .ok (b, .behind (before ++ [b])) := by
  unfold advance
  dsimp only
  rw [getElem?_behind, List.head?_cons]
  dsimp only
  rw [Cursor.past_behind]

/-- The byte at the offset is the first one of the next character. -/
theorem getElem?_encode (front cs : List Char) :
    (Utf8.encode (front ++ cs))[(Utf8.encode front).length]? = cs.head?.map leadByte := by
  change (Utf8.encode (front ++ cs))[(Cursor.behind (Utf8.encode front)).offset]? = _
  rw [Utf8.encode_append, getElem?_behind]
  cases cs with
  | nil => rfl
  | cons c cs =>
    obtain ⟨behind, hbytes⟩ := Utf8.utf8EncodeChar_eq_cons c
    rw [Utf8.encode_cons, hbytes]
    rfl

/-- The reader sees the next character. -/
theorem comesTo_next? (cs : List Char) : ComesTo next? cs (.ok (cs.head?.map seen, [])) := by
  refine comesTo_of_looks fun front => ?_
  change Except.ok ((Utf8.encode (front ++ cs))[(Utf8.encode front).length]?.map Utf8.ofByte, _) = _
  rw [getElem?_encode, Option.map_map]
  rfl

/-- Looking ahead over ASCII characters shows the character behind them. -/
theorem comesTo_peek (text : List Char) (h : ∀ c ∈ text, c.toNat < 128) (rest : List Char) :
    ComesTo (fun bytes => peek bytes text.length) (text ++ rest)
      (.ok (seen (rest.headD '\x00'), [])) := by
  refine comesTo_of_looks fun front => ?_
  -- ASCII characters have one byte each, so that as many bytes as characters are looked over.
  have hlength : (Utf8.encode front).length + text.length = (Utf8.encode (front ++ text)).length := by
    rw [Utf8.encode_append, List.length_append]
    congr 1
    rw [← List.length_map Utf8.ofByte, Utf8.map_ofByte_encode h]
  change Except.ok (Utf8.ofByte
    ((Utf8.encode (front ++ (text ++ rest)))[(Utf8.encode front).length + text.length]?.getD 0), _) = _
  rw [hlength, ← List.append_assoc, getElem?_encode]
  cases rest <;> rfl

theorem comesTo_peek_zero (cs : List Char) :
    ComesTo (fun bytes => peek bytes 0) cs (.ok (seen (cs.headD '\x00'), [])) :=
  comesTo_peek [] nofun cs

/-- A byte is a whole character if that is ASCII. -/
theorem comesTo_advance {c : Char} (hc : c.toNat < 128) (cs : List Char) :
    ComesTo advance (c :: cs) (.ok (leadByte c, [c])) := by
  intro front
  have hbyte : Utf8.encode [c] = [leadByte c] := by
    rw [Utf8.encode_cons, leadByte, Utf8.utf8EncodeChar_ascii hc]
    rfl
  dsimp only
  rw [← List.singleton_append, Utf8.encode_append, Utf8.encode_append, Utf8.encode_append, hbyte]
  exact run_advance_behind _ _ _

/-! ### Loops -/

/-- Reading on takes one byte and goes on from there, or stops. -/
theorem runWhile_eq (bytes : List UInt8) (goOn : Option Char → Bool) (c : Cursor) :
    runWhile bytes goOn c =
      if goOn (bytes[c.offset]?.map Utf8.ofByte) then
        match (advance bytes).run c with
        | .error fault => .error fault
        | .ok (b, next) => match runWhile bytes goOn next with
          | .error fault => .error fault
          | .ok (taken, last) => .ok (Utf8.ofByte b :: taken, last)
      else .ok ([], c) := by
  rw [runWhile]
  split
  · cases (advance bytes).run c <;> rfl
  · rfl

/-- A loop that ends with the text takes the front of it that its condition holds for. -/
theorem runWhile_behind {goOn : Option Char → Bool} (hend : goOn none = false)
    (before rest : List UInt8) :
    runWhile (before ++ rest) goOn (.behind before) =
      .ok ((rest.takeWhile fun b => goOn (some (Utf8.ofByte b))).map Utf8.ofByte,
        .behind (before ++ rest.takeWhile fun b => goOn (some (Utf8.ofByte b)))) := by
  -- The induction is on the bytes that are left. Each one taken goes over to those behind the cursor.
  induction rest generalizing before with
  | nil =>
    rw [runWhile_eq, getElem?_behind]
    simp [hend]
  | cons b rest ih =>
    rw [runWhile_eq, getElem?_behind, List.head?_cons, Option.map_some]
    cases hgo : goOn (some (Utf8.ofByte b)) with
    | false => simp [hgo]
    | true =>
      have hrest := ih (before ++ [b])
      rw [List.append_assoc, List.singleton_append] at hrest
      rw [if_pos rfl, run_advance_behind]
      dsimp only
      rw [hrest, List.takeWhile_cons, hgo, if_pos rfl, List.map_cons, List.append_assoc]
      rfl

/-- Bytes are enough to find the front of a text that is in a class. -/
theorem comesTo_takeWhile {goOn : Option Char → Bool} (hend : goOn none = false)
    (hclass : AsciiClass fun c => goOn (some c)) (cs : List Char) :
    ComesTo (fun bytes => takeWhile bytes goOn) cs
      (.ok ((Utf8.encode (cs.takeWhile fun c => goOn (some c))).map Utf8.ofByte,
        cs.takeWhile fun c => goOn (some c))) := by
  intro front
  rw [Utf8.encode_append]
  change runWhile _ _ _ = _
  rw [runWhile_behind hend, hclass.takeWhile_encode, ← Utf8.encode_append]

/-- Digits are read as they are spanned. -/
theorem comesTo_digits (cs : List Char) :
    ComesTo digits cs (.ok ((spanDigits cs).1, (spanDigits cs).1)) := by
  have hascii : ∀ c ∈ cs.takeWhile Char.isDigit, c.toNat < 128 := fun c hc =>
    toNat_lt_of_isDigit (List.mem_takeWhile_imp hc)
  have htake : ComesTo digits cs (.ok
      ((Utf8.encode (cs.takeWhile Char.isDigit)).map Utf8.ofByte, cs.takeWhile Char.isDigit)) :=
    comesTo_takeWhile rfl (asciiClass_of fun _ => toNat_lt_of_isDigit) cs
  rwa [Utf8.map_ofByte_encode hascii] at htake

/-! ### Blanks and comments -/

/-- Goes on with blanks and comments, the next byte being `next`. -/
def triviaFrom (bytes : List UInt8) (next : Option Char) : ByteReader Unit :=
  match next with
  | none => pure ()
  | some first =>
    if isBlank first then advance bytes >>= fun _ => trivia bytes
    else if first = '%' then advance bytes >>= fun _ => line bytes >>= fun _ => trivia bytes
    else pure ()

/-- Blanks and comments are skipped as the next byte demands. -/
theorem run_trivia (bytes : List UInt8) (c : Cursor) :
    (trivia bytes).run c = (next? bytes >>= triviaFrom bytes).run c := by
  rw [run_bind]
  change runTrivia bytes c = (triviaFrom bytes (bytes[c.offset]?.map Utf8.ofByte)).run c
  rw [runTrivia]
  cases bytes[c.offset]?.map Utf8.ofByte with
  | none => rfl
  | some first =>
    -- A blank is taken and skipping goes on, a comment is taken with its line, and anything else
    -- stays.
    dsimp only [triviaFrom]
    split
    · rw [run_bind]
      cases (advance bytes).run c <;> rfl
    · split
      · rw [run_bind]
        cases hadvance : (advance bytes).run c with
        | error fault => rfl
        | ok taken =>
          dsimp only
          rw [run_bind]
          cases (line bytes).run taken.2 <;> rfl
      · rfl

section
variable {c : Char} {cs more text rest : List Char} {outcome : Except LexFault (Unit × List Char)}

/-- What is skipped depends on what is seen of the next character. -/
theorem comesTo_trivia (h : ComesTo (fun bytes => triviaFrom bytes (cs.head?.map seen)) cs outcome) :
    ComesTo trivia cs outcome := by
  have hlook : ComesTo (fun bytes => next? bytes >>= triviaFrom bytes) cs outcome :=
    (comesTo_next? cs).look h
  intro front
  rw [run_trivia]
  exact hlook front

/-- At the end nothing is skipped. -/
theorem comesTo_trivia_nil : ComesTo trivia [] (.ok ((), [])) :=
  comesTo_trivia (comesTo_pure [] ())

/-- A character that can lead a token is not skipped. -/
theorem comesTo_trivia_lead (hc : IsLead c) (cs : List Char) :
    ComesTo trivia (c :: cs) (.ok ((), [])) := by
  have hblank : isBlank (seen c) = false := by
    rw [(asciiClass_of fun _ => toNat_lt_of_isBlank).seen, ← Bool.not_eq_true, isBlank_iff]
    exact hc.1
  have hpercent : seen c ≠ '%' := fun h => hc.2 ((seen_eq_iff (by decide)).mp h)
  refine comesTo_trivia ?_
  simp only [List.head?_cons, Option.map_some, triviaFrom, hblank, hpercent, if_false,
    Bool.false_eq_true]
  exact comesTo_pure _ ()

/-- A blank is skipped. -/
theorem comesTo_trivia_blank (hc : isBlank c = true) (h : ComesTo trivia cs (.ok ((), more))) :
    ComesTo trivia (c :: cs) (.ok ((), c :: more)) := by
  have hascii := toNat_lt_of_isBlank hc
  refine comesTo_trivia ?_
  simp only [List.head?_cons, Option.map_some, triviaFrom, seen_ascii hascii, hc, if_true]
  exact (comesTo_advance hascii cs).bind rfl h rfl

/-- A comment is taken up to the end of its line. -/
theorem comesTo_trivia_comment (htext : ∀ c ∈ text, (c != '\n') = true)
    (hrest : Stops (· != '\n') rest) (h : ComesTo trivia rest (.ok ((), more))) :
    ComesTo trivia ('%' :: (text ++ rest)) (.ok ((), '%' :: (text ++ more))) := by
  have hascii : ('%').toNat < 128 := by decide
  have hline : ComesTo line (text ++ rest) (.ok
      ((Utf8.encode ((text ++ rest).takeWhile (· != '\n'))).map Utf8.ofByte,
        (text ++ rest).takeWhile (· != '\n'))) :=
    comesTo_takeWhile rfl (asciiClass_ne (by decide)) (text ++ rest)
  rw [takeWhile_exact htext hrest] at hline
  refine comesTo_trivia ?_
  simp only [List.head?_cons, Option.map_some, triviaFrom, seen_ascii hascii]
  exact (comesTo_advance hascii _).bind rfl (hline.bind rfl h rfl) rfl

/-- Blanks and comments are taken before what follows them. -/
theorem comesTo_trivia_append {front : List Char} (hfront : IsTrivia front)
    (h : ComesTo trivia rest (.ok ((), more))) :
    ComesTo trivia (front ++ rest) (.ok ((), front ++ more)) := by
  induction hfront with
  | nil => exact h
  | blank hc _ ih => exact comesTo_trivia_blank (isBlank_iff.mpr hc) ih
  | @comment text cs htext _ ih =>
    have hinside : ∀ c ∈ text, (c != '\n') = true := fun c hc => bne_iff_ne.mpr (htext c hc)
    have hbehind := comesTo_trivia_blank (c := '\n') rfl ih
    have hcomment := comesTo_trivia_comment hinside (stops_cons.mpr rfl) hbehind
    simpa only [List.cons_append, List.append_assoc] using hcomment

/-- Blanks and comments at the end are all skipped. -/
theorem comesTo_trivia_endsInTrivia (h : EndsInTrivia cs) : ComesTo trivia cs (.ok ((), cs)) := by
  obtain ⟨front, rest, rfl, hfront, hrest⟩ := h
  refine comesTo_trivia_append hfront ?_
  obtain rfl | ⟨text, rfl, htext⟩ := hrest
  · exact comesTo_trivia_nil
  · have hinside : ∀ c ∈ text, (c != '\n') = true := fun c hc => bne_iff_ne.mpr (htext c hc)
    simpa only [List.append_nil] using comesTo_trivia_comment hinside stops_nil comesTo_trivia_nil

end

end SceneTracer.ByteReader
