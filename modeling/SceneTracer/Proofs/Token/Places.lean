import SceneTracer.Proofs.Token.Encoding
import SceneTracer.Token.Bytes

namespace SceneTracer

/-!
# Places by the bytes in front of them

A cursor that moves byte by byte shows at any time how many bytes and line feeds it has left behind, and
how many bytes since the last line feed.

* `Position.behind`, `Cursor.behind` — the place behind some bytes, told from these bytes alone.
* `Cursor.past_behind`, `Position.behind_encode` — moving by a byte, and by the characters of a text.
* `Position.Before`, `Position.before_of_append` — places are in order as the bytes are.
-/

namespace Position

/-! ### Behind some bytes -/

/-- The place behind the bytes of `before`: its line is counted by line feeds, its column by the bytes
since the last of them. -/
def behind (before : List UInt8) : Position where
  line := 1 + before.count 10
  column := 1 + (before.reverse.takeWhile (· ≠ 10)).length

/-- Bytes of one line only count for the column. -/
theorem behind_append {more : List UInt8} (before : List UInt8) (h : 10 ∉ more) :
    behind (before ++ more)
      = ⟨(behind before).line, (behind before).column + more.length⟩ := by
  have hmore : ∀ b ∈ more.reverse, decide (b ≠ 10) = true := fun b hb => by
    simpa using ne_of_mem_of_not_mem (List.mem_reverse.mp hb) h
  simp only [behind, List.count_append, List.count_eq_zero.mpr h, List.reverse_append,
    List.takeWhile_append_of_pos hmore, List.length_append, List.length_reverse, Position.mk.injEq]
  omega

/-- A line feed starts the next line. -/
theorem behind_lineFeed (before : List UInt8) :
    behind (before ++ [10]) = ⟨(behind before).line + 1, 1⟩ := by
  have hcolumn : ((before ++ [10]).reverse.takeWhile (· ≠ 10)).length = 0 := by simp
  simp only [behind, List.count_append, List.count_singleton_self, hcolumn, Nat.add_assoc]

/-! ### The bytes of a text -/

/-- A character moves the position by its bytes. -/
theorem advance_behind (before : List UInt8) (c : Char) :
    (behind before).advance c = behind (before ++ String.utf8EncodeChar c) := by
  by_cases hc : c = '\n'
  · subst hc
    exact (behind_lineFeed before).symm
  · have hfeed : 10 ∉ String.utf8EncodeChar c := not_mem_utf8EncodeChar (d := '\n') (by decide) hc
    rw [advance, if_neg hc, behind_append before hfeed, String.length_utf8EncodeChar]

/-- A text moves the position by its bytes. -/
theorem after_behind (before : List UInt8) (cs : List Char) :
    (behind before).after cs = behind (before ++ Utf8.encode cs) := by
  induction cs generalizing before with
  | nil => rw [after_nil, Utf8.encode_nil, List.append_nil]
  | cons c cs ih => rw [after_cons, advance_behind, ih, Utf8.encode_cons, List.append_assoc]

/-- The place behind a text is the one behind its bytes. -/
theorem behind_encode (cs : List Char) : behind (Utf8.encode cs) = start.after cs :=
  (after_behind [] cs).symm

/-! ### The order of places -/

/-- The place `p` is on an earlier line than `q`, or in front of it on the same line. -/
def Before (p q : Position) : Prop := p.line < q.line ∨ p.line = q.line ∧ p.column < q.column

/-- More bytes lead to a later place. -/
theorem before_of_append (before : List UInt8) {more : List UInt8} (h : more ≠ []) :
    Before (behind before) (behind (before ++ more)) := by
  by_cases hfeed : 10 ∈ more
  · have hcount := List.count_pos_iff.mpr hfeed
    refine Or.inl ?_
    simp only [behind, List.count_append]
    omega
  · rw [behind_append before hfeed]
    exact Or.inr ⟨rfl, Nat.lt_add_of_pos_right (List.length_pos_iff.mpr h)⟩

end Position

namespace Cursor

/-- The cursor that has left the bytes of `before` behind. -/
def behind (before : List UInt8) : Cursor := ⟨before.length, .behind before⟩

@[simp] theorem offset_behind (before : List UInt8) : (behind before).offset = before.length := rfl

@[simp] theorem position_behind (before : List UInt8) :
    (behind before).position = .behind before := rfl

/-- Only the byte ten looks like a line feed. -/
theorem ofByte_eq_lineFeed {b : UInt8} : Utf8.ofByte b = '\n' ↔ b = 10 := by
  rw [← Char.toNat_inj, Utf8.toNat_ofByte, ← UInt8.toNat_inj]
  rfl

/-- A cursor moves on behind the byte that it stands in front of. -/
theorem past_behind (before : List UInt8) (b : UInt8) :
    (behind before).past b = behind (before ++ [b]) := by
  have hlength : (before ++ [b]).length = before.length + 1 := List.length_append
  by_cases hb : b = 10
  · subst hb
    rw [behind, behind, hlength, Position.behind_lineFeed]
    rfl
  · have hnot : ¬ Utf8.ofByte b = '\n' := fun h => hb (ofByte_eq_lineFeed.mp h)
    rw [behind, behind, hlength, past, if_neg hnot,
      Position.behind_append before (by simpa using fun h : 10 = b => hb h.symm)]
    rfl

end Cursor

end SceneTracer
