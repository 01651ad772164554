import SceneTracer.Token.Lexer
import SceneTracer.Utf8

namespace SceneTracer

/-!
# Reading a text byte by byte

The bytes of a text can be read one by one, without any knowledge of the characters that they make up.
A byte is looked at as the character with its number. What stands between quotes is cut out of the
bytes where a byte is that of a quote, and decoded afterwards.

* `Cursor` — where a reader stands.
* `ByteReader` — readers, which never go back. They check every byte that they take.
* `ByteReader.trivia`, `ByteReader.token` — blanks and comments, and one token.
* `Reading`, `readSource` — all tokens of a text, and how reading it ends.
-/

/-- Where a reader stands: how many bytes it has taken, and the place of the next one. -/
structure Cursor where
  offset : Nat
  position : Position

namespace Cursor

/-- In front of all bytes. -/
def start : Cursor := ⟨0, .start⟩

/-- Behind the byte `b` that stands at the cursor. -/
def past (c : Cursor) (b : UInt8) : Cursor where
  offset := c.offset + 1
  position :=
    if Utf8.ofByte b = '\n' then ⟨c.position.line + 1, 1⟩
    else ⟨c.position.line, c.position.column + 1⟩

end Cursor

/-- Why a reader gives up. -/
inductive ReadFault
  /-- It is to take a byte behind the end of the text. -/
  | behindEnd
  | lexical (fault : LexFault)

/-- What a reader makes of a text from a cursor on, and where it stops. It does not go back. -/
structure ByteReader (ρ : Type) where
  run : Cursor → Except ReadFault (ρ × Cursor)
  forward : ∀ {c d : Cursor} {result : ρ}, run c = .ok (result, d) → c.offset ≤ d.offset

namespace ByteReader

variable {ρ τ : Type}

instance : Monad ByteReader where
  pure result :=
    { run := fun c => .ok (result, c)
      forward := by
        rintro c d result ⟨⟩
        exact Nat.le_refl _ }
  bind reader next :=
    { run := fun c => match reader.run c with
        | .error fault => .error fault
        | .ok (result, d) => (next result).run d
      forward := by
        intro c d result h
        split at h
        · cases h
        · exact Nat.le_trans (reader.forward ‹_›) ((next _).forward h) }

@[simp] theorem run_pure (result : ρ) (c : Cursor) :
    (pure result : ByteReader ρ).run c = .ok (result, c) := rfl

/-- A reader goes on where the one before it has stopped. -/
theorem run_bind (reader : ByteReader ρ) (next : ρ → ByteReader τ) (c : Cursor) :
    (reader >>= next).run c = match reader.run c with
      | .error fault => .error fault
      | .ok (result, d) => (next result).run d := rfl

/-! ### Single bytes -/

/-- Gives up. -/
def fail (fault : LexFault) : ByteReader ρ where
  run _ := .error (.lexical fault)
  forward := nofun

/-- How many bytes have been taken. -/
def offset : ByteReader Nat where
  run c := .ok (c.offset, c)
  forward := by
    rintro c d result ⟨⟩
    exact Nat.le_refl _

variable (bytes : List UInt8)

/-- The next byte, none at the end of the text. -/
def next? : ByteReader (Option Char) where
  run c := .ok (bytes[c.offset]?.map Utf8.ofByte, c)
  forward := by
    rintro c d result ⟨⟩
    exact Nat.le_refl _

/-- The byte behind the next `k` bytes, zero behind the end of the text. -/
def peek (k : Nat) : ByteReader Char where
  run c := .ok (Utf8.ofByte (bytes[c.offset + k]?.getD 0), c)
  forward := by
    rintro c d result ⟨⟩
    exact Nat.le_refl _

/-- Takes the next byte. -/
def advance : ByteReader UInt8 where
  run c := match bytes[c.offset]? with
    | none => .error .behindEnd
    | some b => .ok (b, c.past b)
  forward := by
    intro c d result h
    split at h <;> cases h
    exact Nat.le_succ _

/-- Advancing moves by a byte that is there. -/
theorem offset_lt_of_advance {c d : Cursor} {b : UInt8} (h : (advance bytes).run c = .ok (b, d)) :
    c.offset < d.offset ∧ d.offset ≤ bytes.length := by
  unfold advance at h
  dsimp only at h
  split at h
  · cases h
  · rename_i hb
    cases h
    exact ⟨Nat.lt_succ_self _, (List.getElem?_eq_some_iff.mp hb).1⟩

/-! ### Loops -/

/-- Takes bytes for as long as `goOn` says so of the next one, none at the end of the text. -/
def runWhile (goOn : Option Char → Bool) (c : Cursor) : Except ReadFault (List Char × Cursor) :=
  if goOn (bytes[c.offset]?.map Utf8.ofByte) then
    match _hadvance : (advance bytes).run c with
    | .error fault => .error fault
    | .ok (b, next) => match runWhile goOn next with
      | .error fault => .error fault
      | .ok (taken, last) => .ok (Utf8.ofByte b :: taken, last)
  else .ok ([], c)
termination_by bytes.length - c.offset
decreasing_by
  have := offset_lt_of_advance bytes _hadvance
  omega

/-- Reading on never moves back. -/
theorem forward_runWhile {goOn : Option Char → Bool} {c d : Cursor} {taken : List Char}
    (h : runWhile bytes goOn c = .ok (taken, d)) : c.offset ≤ d.offset := by
  fun_induction runWhile bytes goOn c generalizing taken with
  | case1 | case2 => cases h
  | case3 c _ b next hadvance taken last hrest ih =>
    cases h
    exact Nat.le_trans ((advance bytes).forward hadvance) (ih hrest)
  | case4 =>
    cases h
    exact Nat.le_refl _

/-- Takes bytes for as long as `goOn` says so. -/
def takeWhile (goOn : Option Char → Bool) : ByteReader (List Char) where
  run := runWhile bytes goOn
  forward := forward_runWhile bytes

/-- Takes bytes to the end of the line. -/
def line : ByteReader (List Char) := takeWhile bytes fun next => next.any (· != '\n')

/-- Takes blanks and comments. -/
def runTrivia (c : Cursor) : Except ReadFault (Unit × Cursor) :=
  match bytes[c.offset]?.map Utf8.ofByte with
  | none => .ok ((), c)
  | some first =>
    if isBlank first then
      match _hadvance : (advance bytes).run c with
      | .error fault => .error fault
      | .ok (_, next) => runTrivia next
    else if first = '%' then
      match _hadvance : (advance bytes).run c with
      | .error fault => .error fault
      | .ok (_, inside) =>
        match _hline : (line bytes).run inside with
        | .error fault => .error fault
        | .ok (_, next) => runTrivia next
    else .ok ((), c)
termination_by bytes.length - c.offset
decreasing_by
  · have := offset_lt_of_advance bytes _hadvance
    omega
  · have := offset_lt_of_advance bytes _hadvance
    have := (line bytes).forward _hline
    omega

/-- Skipping never moves back. -/
theorem forward_runTrivia {c d : Cursor} {result : Unit} (h : runTrivia bytes c = .ok (result, d)) :
    c.offset ≤ d.offset := by
  fun_induction runTrivia bytes c with
  | case1 | case7 =>
    cases h
    exact Nat.le_refl _
  | case2 | case4 | case5 => cases h
  | case3 c _ _ _ b next hadvance ih =>
    exact Nat.le_trans ((advance bytes).forward hadvance) (ih h)
  | case6 c b inside hadvance taken next hline _ _ ih =>
    exact Nat.le_trans ((advance bytes).forward hadvance)
      (Nat.le_trans ((line bytes).forward hline) (ih h))

/-- Takes blanks and comments. -/
def trivia : ByteReader Unit where
  run := runTrivia bytes
  forward := forward_runTrivia bytes

/-! ### Tokens -/

/-- Takes the digits that follow. -/
def digits : ByteReader (List Char) := takeWhile bytes fun next => (next.getD '\x00').isDigit

/-- The word that starts with `first`, which has been taken. -/
def word (first : Char) : ByteReader (List Char) := do
  let taken ← takeWhile bytes fun next => isWordChar (next.getD '\x00')
  return first :: taken

/-- Takes bytes up to a quote on the same line, and the quote. -/
def closingQuote : ByteReader Unit := do
  let _ ← takeWhile bytes fun next => next.any fun c => c != '"' && c != '\n'
  let next ← next? bytes
  if next = some '"' then
    let _ ← advance bytes
    return ()
  else fail .unterminatedString

/-- The string behind a quote. Its text is cut out between the quotes. -/
def string : ByteReader Token := do
  let start ← offset
  closingQuote bytes
  let stop ← offset
  return .string (Utf8.textLossy ((bytes.take (stop - 1)).drop start))

/-- The binder of a name, which must not be that of an operator. -/
def bound (name : List Char) : ByteReader Token :=
  match Operator.ofName? (.ofList name) with
  | some op => fail (.reservedName op)
  | none => return .binder (.ofList name)

/-- The name behind a slash. -/
def binder : ByteReader Token := do
  let next ← peek bytes 0
  if next.isAlpha then
    let first ← advance bytes
    let name ← word bytes (Utf8.ofByte first)
    bound name
  else fail .nameExpected

/-- A point and digits, or nothing. -/
def fraction : ByteReader (List Char) := do
  let point ← peek bytes 0
  let digit ← peek bytes 1
  if point = '.' && digit.isDigit then
    let _ ← advance bytes
    let taken ← digits bytes
    return point :: taken
  else return []

/-- The mark of an exponent, a minus sign or none, and digits, or nothing. -/
def exponent : ByteReader (List Char) := do
  let mark ← peek bytes 0
  let second ← peek bytes 1
  let third ← peek bytes 2
  if (mark = 'e' || mark = 'E') && (second.isDigit || second = '-' && third.isDigit) then
    let _ ← advance bytes
    if second = '-' then
      let _ ← advance bytes
      let taken ← digits bytes
      return mark :: second :: taken
    else
      let taken ← digits bytes
      return mark :: taken
  else return []

/-- The number that `first`, a digit or a minus sign, starts and digits, a fraction and an exponent go on
with. -/
def numeral (first : Char) (taken fraction exponent : List Char) : ByteReader Token :=
  let negative : Bool := first = '-'
  let whole := if negative then taken else first :: taken
  if fraction.isEmpty && exponent.isEmpty then
    match integerValue? negative whole with
    | some value => return .integer value
    | none => fail (.malformedNumber (.ofList (first :: taken)))
  else return .real (realValue negative whole fraction exponent)

/-- The number that starts with `first`, which has been taken. -/
def number (first : Char) : ByteReader Token := do
  let taken ← digits bytes
  let fraction ← fraction bytes
  let exponent ← exponent bytes
  numeral first taken fraction exponent

/-- Goes on with the token whose first byte is `lead`, which has been taken. -/
def tokenFrom (lead : UInt8) : ByteReader Token := do
  let first := Utf8.ofByte lead
  let next ← peek bytes 0
  if first = '\x7b' then return .beginFunction
  else if first = '\x7d' then return .endFunction
  else if first = '[' then return .beginArray
  else if first = ']' then return .endArray
  else if first = '"' then string bytes
  else if first = '/' then binder bytes
  else if first = '-' && next.isDigit then number bytes first
  else if first.isDigit then number bytes first
  else if first.isAlpha then
    let name ← word bytes first
    return .ofWord (.ofList name)
  else fail (.unexpectedCharacter lead)

/-- Takes one token. -/
def token : ByteReader Token := advance bytes >>= tokenFrom bytes

/-- A token takes a byte at least. -/
theorem offset_lt_of_token {c d : Cursor} {t : Token} (h : (token bytes).run c = .ok (t, d)) :
    c.offset < d.offset ∧ c.offset < bytes.length := by
  rw [token, run_bind] at h
  split at h
  · cases h
  · have hadvance := offset_lt_of_advance bytes ‹_›
    have hrest := (tokenFrom bytes _).forward h
    omega

end ByteReader

/-! ### Whole texts -/

/-- A token that was read from one cursor to another. -/
structure CutToken where
  first : Cursor
  last : Cursor
  token : Token

/-- The token and the place where it starts. -/
def CutToken.located (t : CutToken) : LocatedToken := ⟨t.first.position, t.token⟩

/-- What comes of reading a text: the tokens that were read, and where and why reading was given up,
if it was. -/
structure Reading where
  tokens : List CutToken
  fault? : Option (Cursor × ReadFault)

namespace Reading

/-- The tokens with their places, or the first fault in the text. None if a byte behind the end of the
text was to be taken. -/
def outcome? (r : Reading) : Option (Except LexError (List LocatedToken)) :=
  match r.fault? with
  | none => some (.ok (r.tokens.map CutToken.located))
  | some (c, .lexical fault) => some (.error ⟨c.position, fault⟩)
  | some (_, .behindEnd) => none

end Reading

/-- Reads the tokens from a cursor on. -/
def readTokens (bytes : List UInt8) (c : Cursor) : Reading :=
  match _htrivia : (ByteReader.trivia bytes).run c with
  | .error fault => ⟨[], some (c, fault)⟩
  | .ok (_, first) =>
    if bytes.length ≤ first.offset then ⟨[], none⟩
    else
      match _htoken : (ByteReader.token bytes).run first with
      | .error fault => ⟨[], some (first, fault)⟩
      | .ok (token, last) =>
        let rest := readTokens bytes last
        ⟨⟨first, last, token⟩ :: rest.tokens, rest.fault?⟩
termination_by bytes.length - c.offset
decreasing_by
  have := (ByteReader.trivia bytes).forward _htrivia
  have := ByteReader.offset_lt_of_token bytes _htoken
  omega

/-- Reads a source text byte by byte. -/
def readSource (source : String) : Reading := readTokens (Utf8.bytes source) .start

end SceneTracer
