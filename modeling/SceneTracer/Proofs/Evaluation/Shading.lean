import SceneTracer.Journal
import SceneTracer.Proofs.Evaluation.Simulation

namespace SceneTracer

/-!
# Shading without a memory

A surface function runs on a stack of its own, so the finish that it gives does not depend on the
stack there is. If the backend asks and ends as its jobs and the answers alone say, the finish does
not depend on what was shaded before either.

* `Backend.Settled` — backends whose state has no say in what they ask and how they end.
* `Run.Gives` — steps that always come to the same result and leave the stack alone.
* `exists_gives_shade` — shading is such a step.
* `Run.Gives.conduct` — so is holding a dialogue that does not go by its state.
-/

variable {ω ρ τ Q A : Type}

/-! ### Backends -/

/-- What the backend asks and how it ends is a matter of its job and of the answers. It may keep a
state, but does not go by it. -/
def Backend.Settled (backend : Backend ω) : Prop := backend.Alike (fun _ _ => True) backend

/-- Seen within a larger state, dialogues that do not go by their state stay so. -/
theorem Dialogue.Alike.focus {ω' : Type} {d d' : Dialogue Q A ω ρ}
    (h : d.Alike (fun _ _ => True) d') (get : ω' → ω) (set : ω → ω' → ω') :
    (d.focus get set).Alike (fun _ _ => True) (d'.focus get set) := by
  induction h with
  | done result => exact .done result
  | ask question _ ih => exact .ask question ih
  | change _ _ ih => exact .change (fun _ _ _ => trivial) fun _ _ _ => ih _ _ trivial
  | changeLeft _ _ ih =>
    exact .changeLeft (fun _ _ _ => trivial) fun w _ _ => ih (get w) (get w) trivial
  | changeRight _ _ ih =>
    exact .changeRight (fun _ _ _ => trivial) fun _ w' _ => ih (get w') (get w') trivial

/-- A backend that keeps a journal does not go by it. -/
theorem settled_journaling
    {make : RenderJob → Shading Float Closure Fault ω (τ × Except Fault Unit)}
    (h : ∀ job, (make job).Alike (fun _ _ => True) (make job)) : (journaling make).Settled := by
  intro job
  refine ((h job).focus _ _).bind fun (made, outcome) => ?_
  exact .change (fun _ _ _ => trivial) fun _ _ _ => .done outcome

/-! ### Steps that always come to the same -/

namespace Run

/-- A step that comes to a result, or stops, with the machine that it leaves. -/
def ended : Except Stop ρ → Machine ω → EStateM.Result Stop (Machine ω) ρ
  | .ok result, after => .ok result after
  | .error stop, after => .error stop after

/-- Wherever it starts, the step comes to `outcome`. It leaves the stack alone, which has no
influence on how the backend's state is changed. -/
def Gives (outcome : Except Stop ρ) (step : Run ω ρ) : Prop :=
  ∀ world, ∃ world', ∀ stack, step ⟨stack, world⟩ = ended outcome ⟨stack, world'⟩

/-- What such a step comes to is known from any run in which it succeeds. -/
theorem Gives.of_ok {outcome : Except Stop ρ} {step : Run ω ρ} (h : Gives outcome step)
    {m after : Machine ω} {result : ρ} (hm : step m = .ok result after) :
    outcome = .ok result ∧ after.stack = m.stack := by
  obtain ⟨world', hstep⟩ := h m.world
  have hend : ended outcome ⟨m.stack, world'⟩ = .ok result after := (hstep m.stack).symm.trans hm
  cases outcome with
  | ok result' =>
    cases hend
    exact ⟨rfl, rfl⟩
  | error stop => cases hend

theorem gives_pure (result : ρ) : Gives (.ok result) (pure result : Run ω ρ) :=
  fun world => ⟨world, fun _ => rfl⟩

/-- What two steps in a row come to is what the second comes to after the result of the first. -/
theorem Gives.bind {outcome : Except Stop ρ} {step : Run ω ρ} {nextOutcome : ρ → Except Stop τ}
    {next : ρ → Run ω τ} (h : Gives outcome step)
    (hnext : ∀ result, Gives (nextOutcome result) (next result)) :
    Gives (outcome >>= nextOutcome) (step >>= next) := by
  intro world
  obtain ⟨world₁, hstep⟩ := h world
  cases outcome with
  | error stop => exact ⟨world₁, fun stack => by rw [bind_apply, hstep]; rfl⟩
  | ok result =>
    obtain ⟨world₂, hrest⟩ := hnext result world₁
    exact ⟨world₂, fun stack => by rw [bind_apply, hstep]; exact hrest stack⟩

/-- A step that leaves the stack alone ends, from one state of the backend, in the same way on every
stack. -/
theorem IgnoresStack.exists_ended {step : Run ω ρ} (h : step.IgnoresStack) (world : ω) :
    ∃ outcome world', ∀ stack, step ⟨stack, world⟩ = ended outcome ⟨stack, world'⟩ := by
  -- The stack is exchanged for each that the step may start on.
  have hall := h ⟨[], world⟩
  generalize step ⟨[], world⟩ = r at hall
  cases r with
  | ok result after => exact ⟨.ok result, after.world, hall⟩
  | error stop after => exact ⟨.error stop, after.world, hall⟩

/-- A step comes to the same wherever it starts if neither the stack nor the backend's state has a
say in it. -/
theorem exists_gives {step : Run ω ρ} (hstack : step.IgnoresStack)
    (hworld : Alike (fun _ _ => True) step step) : ∃ outcome, Gives outcome step := by
  by_cases hω : Nonempty ω
  · obtain ⟨start⟩ := hω
    obtain ⟨outcome, start', hstart⟩ := hstack.exists_ended start
    refine ⟨outcome, fun world => ?_⟩
    obtain ⟨outcome', world', hother⟩ := hstack.exists_ended world
    -- The two ends are the same, whatever the states are.
    have hsame := hworld [] start world trivial
    rw [hstart, hother] at hsame
    suffices outcome = outcome' by
      subst this
      exact ⟨world', hother⟩
    cases outcome <;> cases outcome' <;> cases hsame <;> rfl
  · exact ⟨.error .exhausted, fun world => absurd ⟨world⟩ hω⟩

end Run

/-- What a dialogue comes to if there is no state and `reply` answers its questions. -/
def Dialogue.told (reply : Q → Except Stop A) (d : Dialogue Q A Unit ρ) : Except Stop ρ :=
  d.conduct reply fun _ => .ok ()

/-- A dialogue that does not go by its state always comes to the same if the answers to its
questions do. -/
theorem Run.Gives.conduct {reply : Q → Except Stop A} {answer : Q → Run ω A}
    (hanswer : ∀ question, Gives (reply question) (answer question)) {told : Dialogue Q A Unit ρ}
    {d : Dialogue Q A ω ρ} (h : told.Alike (fun _ _ => True) d) :
    Gives (told.told reply) (d.conduct answer changeWorld) := by
  induction h with
  | done result => exact gives_pure result
  | ask question _ ih => exact (hanswer question).bind ih
  | @change _ update _ _ _ _ ih => exact fun world => ih () world trivial (update world)
  | changeLeft _ _ ih => exact fun world => ih () world trivial world
  | @changeRight _ update _ _ _ ih => exact fun world => ih () world trivial (update world)

/-- **Shading always comes to the same**, whatever is on the stack and whatever was shaded before,
and leaves the stack alone. -/
theorem exists_gives_shade {backend : Option (Backend ω)} (hbackend : ∀ b ∈ backend, b.Settled)
    (calls : Nat) (query : SurfaceQuery Float Closure) :
    ∃ reply, Run.Gives reply (shade backend calls query) := by
  refine Run.exists_gives (ignoresStack_shadeWith _ query) (alike_shade ?_ calls query)
  cases backend with
  | none => exact .none
  | some b => exact .some (hbackend b rfl)

end SceneTracer
