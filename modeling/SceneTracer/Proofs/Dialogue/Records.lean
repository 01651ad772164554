import Mathlib.Data.List.Basic
import SceneTracer.Dialogue.Questions

namespace SceneTracer.Dialogue

/-!
# Records of dialogues

Whoever holds a dialogue can write down what was asked and what was answered. The record is all that
the dialogue and its answerer have to do with each other.

* `recording` — answers with a record of them.
* `Held`, `Answers` — the records that a dialogue can have, and those that an answerer can have.
* `conduct_recording_iff` — a dialogue is held as one of each says.
* `Held.length_le` — a record is as long as there may be questions, at most.
-/

variable {Q A ω ρ τ υ : Type}

/-- Gives the answers of `answer`, and writes the questions and the answers down. -/
def recording (answer : Q → StateM τ A) (question : Q) : StateM (τ × List (Q × A)) A :=
  fun s =>
    let told := answer question s.1
    (told.1, told.2, s.2 ++ [(question, told.1)])

/-- The dialogue asks the questions of the record, one after another, and if it is told the answers
there, it comes to the result. It does not use its state. -/
inductive Held : Dialogue Q A ω ρ → List (Q × A) → ρ → Prop
  | done {result : ρ} : Held (.done result) [] result
  | ask {question : Q} {resume : A → Dialogue Q A ω ρ} {a : A} {record : List (Q × A)} {result : ρ}
      (h : Held (resume a) record result) :
      Held (.ask question resume) ((question, a) :: record) result

/-- To the questions of the record, asked one after another, the answers are those of the record. The
state in front of the first and behind the last is given. -/
inductive Answers (answer : Q → StateM τ A) : τ → List (Q × A) → τ → Prop
  | nil {state : τ} : Answers answer state [] state
  | cons {state next after : τ} {question : Q} {a : A} {record : List (Q × A)}
      (ha : answer question state = (a, next)) (h : Answers answer next record after) :
      Answers answer state ((question, a) :: record) after

/-! ### Dialogues that are held -/

/-- A question is put in front of the record of what follows its answer. -/
theorem Held.ask_of_eq {question : Q} {resume : A → Dialogue Q A ω ρ} {a : A}
    {next : Dialogue Q A ω ρ} (hnext : resume a = next) {record : List (Q × A)} {result : ρ}
    (h : next.Held record result) :
    (Dialogue.ask question resume).Held ((question, a) :: record) result := by
  subst hnext
  exact .ask h

/-- **A dialogue that is held leaves its record**, behind whatever has been recorded before. -/
theorem conduct_recording_of_held {d : Dialogue Q A ω ρ} {answer : Q → StateM τ A}
    {look : (ω → ω) → StateM (τ × List (Q × A)) ω} {state after : τ} {record : List (Q × A)}
    {result : ρ} (h : d.Held record result) (ha : Answers answer state record after)
    (before : List (Q × A)) :
    d.conduct (recording answer) look (state, before) = (result, after, before ++ record) := by
  induction h generalizing state before with
  | done =>
    cases ha
    rw [List.append_nil]
    rfl
  | @ask question resume a record result h ih =>
    cases ha with
    | @cons _ next _ _ _ _ ha hrest =>
      -- The first answer is recorded, and the rest is held with this record so far.
      have hfirst : recording answer question (state, before)
          = (a, next, before ++ [(question, a)]) := by
        show (_, _, _) = _
        rw [ha]
      have hstep : (ask question resume).conduct (recording answer) look (state, before)
          = let told := recording answer question (state, before)
            ((resume told.1).conduct (recording answer) look : StateM _ ρ) told.2 := rfl
      rw [hstep, hfirst]
      dsimp only
      rw [ih hrest, List.append_assoc, List.singleton_append]

/-- Whoever answers, there is a record. -/
theorem exists_held {d : Dialogue Q A ω ρ} (hd : d.Stateless) (answer : Q → StateM τ A)
    (state : τ) : ∃ record result after, d.Held record result ∧ Answers answer state record after := by
  induction d generalizing state with
  | done result => exact ⟨[], result, state, .done, .nil⟩
  | ask question resume ih =>
    obtain ⟨record, result, after, hheld, hanswers⟩ :=
      ih _ (hd (answer question state).1) (answer question state).2
    exact ⟨_, result, after, .ask hheld, .cons rfl hanswers⟩
  | change update resume => exact hd.elim

/-- **A dialogue is held as its record says**: the record is one that the dialogue can have, and one
that the answerer can have. -/
theorem conduct_recording_iff {d : Dialogue Q A ω ρ} (hd : d.Stateless) {answer : Q → StateM τ A}
    {look : (ω → ω) → StateM (τ × List (Q × A)) ω} {state after : τ} {record : List (Q × A)}
    {result : ρ} :
    d.conduct (recording answer) look (state, []) = (result, after, record) ↔
      d.Held record result ∧ Answers answer state record after := by
  constructor
  · -- Some record there is, and the run shows it.
    intro h
    obtain ⟨record', result', after', hheld, hanswers⟩ := exists_held hd answer state
    rw [conduct_recording_of_held hheld hanswers, List.nil_append] at h
    cases h
    exact ⟨hheld, hanswers⟩
  · rintro ⟨hheld, hanswers⟩
    exact conduct_recording_of_held hheld hanswers []

/-- Changing the result of a dialogue does not change its record. -/
theorem held_map_iff {d : Dialogue Q A ω ρ} {f : ρ → υ} {record : List (Q × A)} {result : υ} :
    (d.map f).Held record result ↔ ∃ before, d.Held record before ∧ result = f before := by
  induction d generalizing record with
  | done before =>
    constructor
    · rintro ⟨⟩
      exact ⟨before, .done, rfl⟩
    · rintro ⟨_, ⟨⟩, rfl⟩
      exact .done
  | ask question resume ih =>
    constructor
    · intro h
      -- The record starts with the question, whatever is done with the result.
      obtain - | h := h
      obtain ⟨before, hheld, rfl⟩ := (ih _).mp h
      exact ⟨before, .ask hheld, rfl⟩
    · rintro ⟨before, h, rfl⟩
      obtain - | h := h
      exact .ask ((ih _).mpr ⟨before, h, rfl⟩)
  | change update resume =>
    constructor
    · intro h
      cases h
    · rintro ⟨before, h, rfl⟩
      cases h

/-! ### How many questions there are -/

/-- Changing the result asks no further questions. -/
theorem AsksAtMost.map {d : Dialogue Q A ω ρ} {n : ℕ} (h : d.AsksAtMost n) (f : ρ → υ) :
    (d.map f).AsksAtMost n := by
  induction d generalizing n with
  | done result => cases n <;> trivial
  | ask question resume ih =>
    cases n with
    | zero => exact h.elim
    | succ n => exact fun a => ih a (h a)
  | change update resume ih => cases n <;> exact fun state => ih state (h state)

/-- A record is no longer than the number of questions that may be asked. -/
theorem Held.length_le {d : Dialogue Q A ω ρ} {record : List (Q × A)} {result : ρ}
    (h : d.Held record result) {n : ℕ} (hd : d.AsksAtMost n) : record.length ≤ n := by
  induction h generalizing n with
  | done => exact Nat.zero_le n
  | ask _ ih =>
    cases n with
    | zero => exact hd.elim
    | succ n => exact Nat.succ_le_succ (ih (hd _))

end SceneTracer.Dialogue
