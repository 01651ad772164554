import SceneTracer.Proofs.Dialogue.Records
import SceneTracer.Proofs.Renderer.Tracing
import SceneTracer.Proofs.Tracer.Following
import SceneTracer.Proofs.Tracer.Superposition

namespace SceneTracer.Tracer

/-!
# How often the shader is called

A ray calls the shader once for each surface that it comes to, its mirror images included, and there
are at most as many of these as there may be reflections, and one more. No light makes a difference to
the calls, so looking for shadows makes none.

* `Tracer.consult` — the colour seen along a ray, with a record of the calls of the shader.
* `Tracer.Calls` — the surfaces that a ray comes to and what the shader says there.
* `Tracer.asksAtMost_trace` — the bound, whatever the shader says.
* `Tracer.calls_of_held` — the calls of a ray, and what follows from a failure.
* `Tracer.shader_calls_bounded` — all of it for shaders of any kind.
-/

variable {α σ ε ω τ : Type} [Scalar α]

/-- The colour seen along a ray if `shader` gives the finishes, by any means that have a state. Its
calls and what it said are written down. -/
def consult (tracer : Tracer α σ) (shader : SurfaceQuery α σ → StateM τ (Except ε (Finish α)))
    (depth : ℕ) (origin direction : Vec3 α) :
    StateM (τ × List (SurfaceQuery α σ × Except ε (Finish α))) (Except ε (Vec3 α)) :=
  let shading : Shading α σ ε Unit (Except ε (Vec3 α)) := tracer.trace depth origin direction
  shading.conduct (Dialogue.recording shader) fun _ => pure ()

/-- The call of the shader at a surface, and what it says there. -/
def call (said : Hit α σ × Except ε (Finish α)) : SurfaceQuery α σ × Except ε (Finish α) :=
  (said.1.query, said.2)

/-- The surfaces that a ray comes to with `depth` reflections left, one mirrored in the other, and
what the shader says at each of them. Lights have no part in it. -/
inductive Calls (tracer : Tracer α σ) :
    ℕ → Vec3 α → Vec3 α → List (Hit α σ × Except ε (Finish α)) → Prop
  /-- The ray sees nothing. -/
  | unseen {depth : ℕ} {origin direction : Vec3 α}
      (hh : tracer.visibleHit? origin direction = none) : Calls tracer depth origin direction []
  /-- The shader fails. -/
  | failed {depth : ℕ} {origin direction : Vec3 α} {h : Hit α σ} {e : ε}
      (hh : tracer.visibleHit? origin direction = some h) :
      Calls tracer depth origin direction [(h, .error e)]
  /-- No reflection is left, or nothing is mirrored. -/
  | last {depth : ℕ} {origin direction : Vec3 α} {h : Hit α σ} {finish : Finish α}
      (hh : tracer.visibleHit? origin direction = some h)
      (hlast : depth = 0 ∨ ¬ 0.0 < finish.ks) :
      Calls tracer depth origin direction [(h, .ok finish)]
  | mirrored {depth : ℕ} {origin direction : Vec3 α} {h : Hit α σ} {finish : Finish α}
      {calls : List (Hit α σ × Except ε (Finish α))}
      (hh : tracer.visibleHit? origin direction = some h) (hks : 0.0 < finish.ks)
      (hcalls : Calls tracer depth (tracer.departure h) (direction.reflect h.normal) calls) :
      Calls tracer (depth + 1) origin direction ((h, .ok finish) :: calls)

/-! ### The bound -/

/-- **Following a ray asks at most one question more than there may be reflections**, whatever it is
told. -/
theorem asksAtMost_trace (tracer : Tracer α σ) (depth : ℕ) (origin direction : Vec3 α) :
    (tracer.trace depth origin direction : Shading α σ ε ω _).AsksAtMost (depth + 1) := by
  refine tracer.trace_induction (motive := fun depth _ _ shading => shading.AsksAtMost (depth + 1))
    (fun _ => trivial) (fun _ herror hgoesOn answer => ?_) depth origin direction
  cases answer with
  | error e =>
    rw [herror]
    trivial
  | ok finish =>
    -- The first surface takes one question, and what is mirrored there the others.
    cases hgoesOn finish with
    | last _ heq =>
      rw [heq]
      trivial
    | mirrored hdepth _ f heq ih =>
      rw [heq, hdepth]
      exact ih.map _

/-! ### The calls -/

/-- How a ray ends with what the shader has said: with a colour if it has never failed, and otherwise
with its failure, after which it has not been called again. -/
inductive Ends : List (SurfaceQuery α σ × Except ε (Finish α)) → Except ε (Vec3 α) → Prop
  | found {record : List (SurfaceQuery α σ × Except ε (Finish α))} {color : Vec3 α}
      (hrecord : ∀ said ∈ record, ∃ finish, said.2 = .ok finish) : Ends record (.ok color)
  | aborted (before : List (SurfaceQuery α σ × Except ε (Finish α))) {query : SurfaceQuery α σ}
      {e : ε} (hbefore : ∀ said ∈ before, ∃ finish, said.2 = .ok finish) :
      Ends (before ++ [(query, .error e)]) (.error e)

section

variable {tracer : Tracer α σ} {depth : ℕ} {origin direction : Vec3 α}
  {record : List (SurfaceQuery α σ × Except ε (Finish α))} {result : Except ε (Vec3 α)}

omit [Scalar α] in
/-- One more surface in front, where the shader has not failed. -/
theorem Ends.cons (h : Ends record result) (query : SurfaceQuery α σ) (finish : Finish α)
    (f : Vec3 α → Vec3 α) : Ends ((query, .ok finish) :: record) (result.map f) := by
  cases h with
  | found hrecord => exact .found (List.forall_mem_cons.mpr ⟨⟨finish, rfl⟩, hrecord⟩)
  | @aborted before last e hbefore =>
    exact .aborted ((query, .ok finish) :: before)
      (List.forall_mem_cons.mpr ⟨⟨finish, rfl⟩, hbefore⟩)

/-- **The calls of a ray** are those at the surfaces that it comes to, and it ends with the first
failure among them. -/
theorem calls_of_held
    (h : (tracer.trace depth origin direction : Shading α σ ε ω _).Held record result) :
    (∃ calls, record = calls.map call ∧ tracer.Calls depth origin direction calls) ∧
      Ends record result := by
  refine tracer.trace_induction (motive := fun depth origin direction shading =>
    ∀ record result, shading.Held record result →
      (∃ calls, record = calls.map call ∧ tracer.Calls depth origin direction calls) ∧
        Ends record result) ?unseen ?seen depth origin direction record result h
  case unseen =>
    rintro _ _ _ hh _ _ ⟨⟩
    exact ⟨⟨[], rfl, .unseen hh⟩, .found (by simp)⟩
  case seen =>
    rintro depth _ direction k resume hh herror hgoesOn _ result (_ | @⟨_, _, answer, record, _, h⟩)
    -- The record starts with the call for the surface that is seen; the answer decides what
    -- follows.
    cases answer with
    | error e =>
      rw [herror] at h
      cases h
      exact ⟨⟨[(k, .error e)], rfl, .failed hh⟩, .aborted [] (by simp)⟩
    | ok finish =>
      cases hgoesOn finish with
      | last hlast heq =>
        rw [heq] at h
        cases h
        exact ⟨⟨[(k, .ok finish)], rfl, .last hh hlast⟩, .found (by simp)⟩
      | mirrored hdepth hks f heq ih =>
        rw [heq] at h
        subst hdepth
        obtain ⟨mirrored, hmirrored, rfl⟩ := Dialogue.held_map_iff.mp h
        obtain ⟨⟨calls, rfl, hcalls⟩, hends⟩ := ih _ _ hmirrored
        exact ⟨⟨(k, .ok finish) :: calls, rfl, .mirrored hh hks hcalls⟩, hends.cons _ _ _⟩

/-- Whatever the shader says at the surfaces that a ray comes to, the ray is followed so. -/
theorem Calls.exists_held {calls : List (Hit α σ × Except ε (Finish α))}
    (h : tracer.Calls depth origin direction calls) :
    ∃ result, (tracer.trace depth origin direction : Shading α σ ε ω _).Held
      (calls.map call) result := by
  refine tracer.trace_induction (motive := fun depth origin direction shading =>
    ∀ calls, tracer.Calls depth origin direction calls →
      ∃ result, shading.Held (calls.map call) result) ?unseen ?seen depth origin direction calls h
  case unseen =>
    intro _ _ _ hh calls h
    cases h with
    | unseen _ => exact ⟨_, .done⟩
    | failed hh' | last hh' _ | mirrored hh' _ _ => cases hh.symm.trans hh'
  case seen =>
    intro depth _ direction k resume hh herror hgoesOn calls h
    cases h with
    | unseen hh' => cases hh.symm.trans hh'
    | @failed _ _ _ _ e hh' =>
      cases hh.symm.trans hh'
      exact ⟨_, .ask_of_eq (herror e) .done⟩
    | @last _ _ _ _ finish hh' hlast =>
      cases hh.symm.trans hh'
      -- The calls say whether a reflection was followed, and so does the finish.
      cases hgoesOn finish with
      | last _ heq => exact ⟨_, .ask_of_eq heq .done⟩
      | mirrored hdepth hks _ _ _ => exact absurd hlast (by simp [hdepth, hks])
    | @mirrored depth _ _ _ finish calls hh' hks hcalls =>
      cases hh.symm.trans hh'
      cases hgoesOn finish with
      | last hlast _ => exact absurd hlast (by simp [hks])
      | mirrored hdepth _ f heq ih =>
        cases hdepth
        obtain ⟨result, hheld⟩ := ih _ hcalls
        exact ⟨_, .ask_of_eq heq (Dialogue.held_map_iff.mpr ⟨result, hheld, rfl⟩)⟩

/-- Under other lights a ray comes to the same surfaces. -/
theorem Calls.litBy {calls : List (Hit α σ × Except ε (Finish α))}
    (h : tracer.Calls depth origin direction calls) (ambient : Vec3 α) (lights : List (Light α)) :
    (tracer.litBy ambient lights).Calls depth origin direction calls := by
  induction h with
  | unseen hh => exact .unseen hh
  | failed hh => exact .failed hh
  | last hh hlast => exact .last hh hlast
  | mirrored hh hks _ ih => exact .mirrored hh hks ih

end

/-- **The shader is called once for each surface that a ray comes to.** However the shader makes its
answers, following a ray with `depth` reflections comes to an end. It calls the shader at most
`depth + 1` times: once where the ray comes to a surface, then where its mirror image does if the
surface mirrors anything and a reflection is left, and so on. A failure of the shader is the result,
and the shader is not called again. Under all lights, and so under none, where no shadow is looked
for, the calls and their answers are the same, and the shader is left in the same state. -/
theorem shader_calls_bounded (tracer : Tracer α σ)
    (shader : SurfaceQuery α σ → StateM τ (Except ε (Finish α))) (state : τ) (depth : ℕ)
    (origin direction : Vec3 α) :
    (tracer.trace depth origin direction : Shading α σ ε Unit _).AsksAtMost (depth + 1) ∧
    ∃ result after calls,
      tracer.consult shader depth origin direction (state, []) = (result, after, calls.map call) ∧
      calls.length ≤ depth + 1 ∧
      tracer.Calls depth origin direction calls ∧
      Ends (calls.map call) result ∧
      ∀ ambient lights, ∃ result',
        (tracer.litBy ambient lights).consult shader depth origin direction (state, [])
          = (result', after, calls.map call) := by
  have hasks : (tracer.trace depth origin direction : Shading α σ ε Unit _).AsksAtMost (depth + 1) :=
    tracer.asksAtMost_trace depth origin direction
  have hstateless (tracer : Tracer α σ) :
      (tracer.trace depth origin direction : Shading α σ ε Unit _).Stateless :=
    tracer.stateless_trace depth origin direction
  -- What the record of a run can be is known from the ray alone, whoever answers.
  obtain ⟨record, result, after, hheld, hanswers⟩ :=
    Dialogue.exists_held (hstateless tracer) shader state
  obtain ⟨⟨calls, rfl, hcalls⟩, hends⟩ := calls_of_held hheld
  have hlength := hheld.length_le hasks
  rw [List.length_map] at hlength
  refine ⟨hasks, result, after, calls, ?_, hlength, hcalls, hends, fun ambient lights => ?_⟩
  · exact (Dialogue.conduct_recording_iff (hstateless tracer)).mpr ⟨hheld, hanswers⟩
  · -- Other lights allow for the same record, and the shader gives the answers in it.
    obtain ⟨result', hheld'⟩ := (hcalls.litBy ambient lights).exists_held (ω := Unit)
    exact ⟨result', (Dialogue.conduct_recording_iff (hstateless _)).mpr ⟨hheld', hanswers⟩⟩

end SceneTracer.Tracer
