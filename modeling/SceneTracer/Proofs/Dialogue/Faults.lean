import SceneTracer.Dialogue.Questions

namespace SceneTracer.Dialogue

/-!
# Where the failures of a dialogue come from

* `AsksOnly.mono`, `AsksOnly.bind` — questions of a wider sort, and of one dialogue after another.
* `FailsOnly` — every failure of a dialogue is of some sort, or it was told of that failure.
-/

variable {Q A ε ω ρ τ : Type}

/-- A dialogue that asks only questions of one sort asks only questions of any wider sort. -/
theorem AsksOnly.mono {P P' : Q → Prop} {d : Dialogue Q A ω ρ} (h : d.AsksOnly P)
    (himp : ∀ question, P question → P' question) : d.AsksOnly P' := by
  induction d with
  | done result => trivial
  | ask question resume ih => exact ⟨himp question h.1, fun answer => ih answer (h.2 answer)⟩
  | change update resume ih => exact fun state => ih state (h state)

/-- Dialogues in a row ask what each of them asks. -/
theorem AsksOnly.bind {P : Q → Prop} {d : Dialogue Q A ω ρ} {next : ρ → Dialogue Q A ω τ}
    (h : d.AsksOnly P) (hnext : ∀ result, (next result).AsksOnly P) : (d.bind next).AsksOnly P := by
  induction d with
  | done result => exact hnext result
  | ask question resume ih => exact ⟨h.1, fun answer => ih answer (h.2 answer)⟩
  | change update resume ih => exact fun state => ih state (h state)

/-- If the dialogue ends in a failure, it satisfies `P` or an answer was this failure. -/
def FailsOnly (P : ε → Prop) : Dialogue Q (Except ε A) ω (Except ε ρ) → Prop
  | .done result => ∀ e, result = .error e → P e
  | .ask _ resume => ∀ answer, (resume answer).FailsOnly fun e => P e ∨ answer = .error e
  | .change _ resume => ∀ state, (resume state).FailsOnly P

/-- A dialogue that fails only in one way fails only in any wider one. -/
theorem FailsOnly.mono {P P' : ε → Prop} {d : Dialogue Q (Except ε A) ω (Except ε ρ)}
    (h : d.FailsOnly P) (himp : ∀ e, P e → P' e) : d.FailsOnly P' := by
  induction d generalizing P P' with
  | done result => exact fun e he => himp e (h e he)
  | ask question resume ih =>
    exact fun answer => ih answer (h answer) fun e he => he.imp_left (himp e)
  | change update resume ih => exact fun state => ih state (h state) himp

/-- One dialogue after another fails as either does, if the second passes on the failures of the
first. -/
theorem FailsOnly.bind {P : ε → Prop} {d : Dialogue Q (Except ε A) ω (Except ε ρ)}
    {next : Except ε ρ → Dialogue Q (Except ε A) ω (Except ε τ)} (h : d.FailsOnly P)
    (herror : ∀ e, next (.error e) = .done (.error e))
    (hok : ∀ result, (next (.ok result)).FailsOnly P) : (d.bind next).FailsOnly P := by
  induction d generalizing P with
  | done result =>
    cases result with
    | ok result => exact hok result
    | error e =>
      rw [bind_done, herror]
      exact fun e' he' => h e' (Except.error.inj he' ▸ rfl)
  | ask question resume ih =>
    -- After an answer more failures are allowed, so the second dialogue is weakened to them.
    refine fun answer => ih answer (h answer) fun result => ?_
    exact (hok result).mono fun e he => Or.inl he
  | change update resume ih => exact fun state => ih state (h state) hok

end SceneTracer.Dialogue
