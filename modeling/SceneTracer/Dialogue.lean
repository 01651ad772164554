namespace SceneTracer

/-!
# Dialogues

A computation that may ask questions while it runs, and may look at and change a state of its own.
The answers and the state come from whoever holds the dialogue, so nothing is assumed about them.

* `Dialogue` — the computations, as trees of questions.
* `Dialogue.bind`, `Dialogue.map` — one dialogue after another.
* `Dialogue.conduct` — holds a dialogue in any monad.
* `Dialogue.focus` — the same dialogue over a larger state.
-/

/-- A computation with a result in `ρ` that asks questions in `Q`, hears answers in `A`, and uses a
state in `ω`. -/
inductive Dialogue (Q A ω ρ : Type)
  | done (result : ρ)
  /-- Asks a question and goes on with its answer. -/
  | ask (question : Q) (resume : A → Dialogue Q A ω ρ)
  /-- Changes the state and goes on with the state there was before. -/
  | change (update : ω → ω) (resume : ω → Dialogue Q A ω ρ)

namespace Dialogue

variable {Q A ω ρ τ : Type}

/-- Goes on with `next` when a dialogue is done. -/
def bind (next : ρ → Dialogue Q A ω τ) : Dialogue Q A ω ρ → Dialogue Q A ω τ
  | .done result => next result
  | .ask question resume => .ask question fun answer => (resume answer).bind next
  | .change update resume => .change update fun state => (resume state).bind next

/-- Changes the result of a dialogue. -/
def map (f : ρ → τ) (d : Dialogue Q A ω ρ) : Dialogue Q A ω τ := d.bind fun result => .done (f result)

@[simp] theorem bind_done (next : ρ → Dialogue Q A ω τ) (result : ρ) :
    (done result).bind next = next result := rfl

@[simp] theorem bind_ask (next : ρ → Dialogue Q A ω τ) (question : Q)
    (resume : A → Dialogue Q A ω ρ) :
    (ask question resume).bind next = .ask question fun answer => (resume answer).bind next := rfl

@[simp] theorem bind_change (next : ρ → Dialogue Q A ω τ) (update : ω → ω)
    (resume : ω → Dialogue Q A ω ρ) :
    (change update resume).bind next = .change update fun state => (resume state).bind next := rfl

/-- Holds a dialogue: `answer` answers its questions, and `state` applies a change to the state and
gives the state there was before. -/
def conduct {m : Type → Type} [Monad m] (answer : Q → m A) (state : (ω → ω) → m ω) :
    Dialogue Q A ω ρ → m ρ
  | .done result => pure result
  | .ask question resume => answer question >>= fun a => (resume a).conduct answer state
  | .change update resume => state update >>= fun w => (resume w).conduct answer state

/-- Holding one dialogue after another is holding the first and then the second. -/
theorem conduct_bind {m : Type → Type} [Monad m] [LawfulMonad m] (answer : Q → m A)
    (state : (ω → ω) → m ω) (d : Dialogue Q A ω ρ) (next : ρ → Dialogue Q A ω τ) :
    (d.bind next).conduct answer state =
      d.conduct answer state >>= fun result => (next result).conduct answer state := by
  induction d with
  | done result => simp only [bind_done, conduct, pure_bind]
  | ask question resume ih => simp only [bind_ask, conduct, bind_assoc, ih]
  | change update resume ih => simp only [bind_change, conduct, bind_assoc, ih]

/-- Changing the result can be left to the end. -/
theorem conduct_map {m : Type → Type} [Monad m] [LawfulMonad m] (answer : Q → m A)
    (state : (ω → ω) → m ω) (d : Dialogue Q A ω ρ) (f : ρ → τ) :
    (d.map f).conduct answer state = f <$> d.conduct answer state := by
  rw [map, conduct_bind, map_eq_pure_bind]
  rfl

/-- The same dialogue over a larger state, of which it sees the part `get` and replaces it by
`set`. -/
def focus {ω' : Type} (get : ω' → ω) (set : ω → ω' → ω') : Dialogue Q A ω ρ → Dialogue Q A ω' ρ
  | .done result => .done result
  | .ask question resume => .ask question fun a => (resume a).focus get set
  | .change update resume =>
    .change (fun whole => set (update (get whole)) whole) fun whole =>
      (resume (get whole)).focus get set

end Dialogue

end SceneTracer
