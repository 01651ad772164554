import SceneTracer.Proofs.Dialogue.Faults
import SceneTracer.Proofs.Scene.Merge
import SceneTracer.Proofs.Tracer.Following
import SceneTracer.Renderer

namespace SceneTracer

/-!
# What the renderer asks

The renderer asks for finishes of surfaces of the scene that it was handed, and of no others. It
fails if an answer is a failure, or if the picture cannot be stored.

* `Tracer.Shades` — the surfaces that a ray and its mirror images come to;
  `Tracer.asksOnly_trace_shaded` that nothing is asked about any others.
* `Tracer.asksOnly_trace`, `Tracer.failsOnly_trace` — following one ray.
* `Renderer.asksOnly_backend`, `Renderer.failsOnly_backend` — making and storing a picture.
-/

variable {α σ ε ω : Type} [Scalar α]

namespace Tracer

variable (tracer : Tracer α σ)

/-- The question is about a surface of the scene. -/
def AsksAbout (query : SurfaceQuery α σ) : Prop :=
  query.surface ∈ tracer.scene.primitives.map (·.surface)

/-- What is seen is a crossing of the scene that leads inside. -/
theorem mem_hits_of_visible {origin direction : Vec3 α} {h : Hit α σ}
    (hh : tracer.visibleHit? origin direction = some h) :
    h ∈ tracer.scene.hits origin direction ∧ h.crossing = .entry := by
  obtain ⟨hfirst, hentry⟩ := Option.filter_eq_some_iff.mp hh
  exact ⟨List.mem_of_find?_eq_some hfirst, of_decide_eq_true hentry⟩

/-- An entry that is the first crossing of all is seen, if it is far enough away. -/
theorem visibleHit?_of_hits {origin direction : Vec3 α} {h : Hit α σ} {rest : List (Hit α σ)}
    (hhits : tracer.scene.hits origin direction = h :: rest) (hentry : h.crossing = .entry)
    (hahead : tracer.tolerance.hitEpsilon < h.t) :
    tracer.visibleHit? origin direction = some h := by
  have hfirst : tracer.firstHit? origin direction = some h := by
    unfold firstHit? Scene.firstHitAfter?
    rw [hhits]
    exact List.find?_cons_of_pos (decide_eq_true hahead)
  exact Option.filter_eq_some_iff.mpr ⟨hfirst, decide_eq_true hentry⟩

/-- A ray with `depth` reflections left comes to the surface at a crossing, and sees it along the
direction given last: the ray itself does, or its mirror image at the surface that it sees. -/
inductive Shades (tracer : Tracer α σ) : ℕ → Vec3 α → Vec3 α → Hit α σ → Vec3 α → Prop
  | seen {depth : ℕ} {origin direction : Vec3 α} {h : Hit α σ}
      (hh : tracer.visibleHit? origin direction = some h) :
      Shades tracer depth origin direction h direction
  | mirrored {depth : ℕ} {origin direction : Vec3 α} {h k : Hit α σ} {d : Vec3 α}
      (hh : tracer.visibleHit? origin direction = some h)
      (hk : Shades tracer depth (tracer.departure h) (direction.reflect h.normal) k d) :
      Shades tracer (depth + 1) origin direction k d

/-- What is shaded is what some ray sees, along the direction on which it is seen. -/
theorem Shades.exists_visible {tracer : Tracer α σ} {depth : ℕ} {origin direction : Vec3 α}
    {h : Hit α σ} {d : Vec3 α} (hh : tracer.Shades depth origin direction h d) :
    ∃ start, tracer.visibleHit? start d = some h := by
  induction hh with
  | seen hh => exact ⟨_, hh⟩
  | mirrored _ _ ih => exact ih

/-- What is shaded is a crossing of the scene, where the line on which it is seen leads inside. -/
theorem Shades.mem_hits {tracer : Tracer α σ} {depth : ℕ} {origin direction : Vec3 α} {h : Hit α σ}
    {d : Vec3 α} (hh : tracer.Shades depth origin direction h d) :
    ∃ start, h ∈ tracer.scene.hits start d ∧ h.crossing = .entry := by
  obtain ⟨start, hvisible⟩ := hh.exists_visible
  exact ⟨start, tracer.mem_hits_of_visible hvisible⟩

/-- **Following a ray asks about what it shades only.** -/
theorem asksOnly_trace_shaded (depth : ℕ) (origin direction : Vec3 α) :
    (tracer.trace depth origin direction : Shading α σ ε ω _).AsksOnly fun query =>
      ∃ h d, tracer.Shades depth origin direction h d ∧ query = h.query := by
  refine tracer.trace_induction (motive := fun depth origin direction shading =>
    shading.AsksOnly fun query => ∃ h d, tracer.Shades depth origin direction h d ∧ query = h.query)
    ?unseen ?seen depth origin direction
  case unseen => exact fun _ => trivial
  case seen =>
    intro depth origin direction h resume hh herror hgoesOn
    refine ⟨⟨h, direction, .seen hh, rfl⟩, fun answer => ?_⟩
    cases answer with
    | error e =>
      rw [herror]
      trivial
    | ok finish =>
      cases hgoesOn finish with
      | last _ heq =>
        rw [heq]
        trivial
      | mirrored hdepth _ f heq ih =>
        -- What the mirrored ray shades, this ray shades with one reflection more.
        rw [heq]
        subst hdepth
        refine (ih.mono fun query hquery => ?_).bind fun _ => trivial
        obtain ⟨k, d, hk, hquery⟩ := hquery
        exact ⟨k, d, .mirrored hh hk, hquery⟩

/-- Following a ray asks about surfaces of the scene only. -/
theorem asksOnly_trace (depth : Nat) (origin direction : Vec3 α) :
    (tracer.trace depth origin direction : Shading α σ ε ω _).AsksOnly tracer.AsksAbout := by
  refine (tracer.asksOnly_trace_shaded depth origin direction).mono fun query hquery => ?_
  obtain ⟨h, d, hh, rfl⟩ := hquery
  obtain ⟨start, hmem, -⟩ := hh.mem_hits
  exact List.mem_map_of_mem (Scene.primitive_mem_of_mem_hits hmem)

/-- Following a ray fails only if an answer is a failure. -/
theorem failsOnly_trace (depth : Nat) (origin direction : Vec3 α) :
    (tracer.trace depth origin direction : Shading α σ ε ω _).FailsOnly fun _ => False := by
  refine tracer.trace_induction (motive := fun _ _ _ shading => shading.FailsOnly fun _ => False)
    ?unseen ?seen depth origin direction
  case unseen => simp [Dialogue.FailsOnly]
  case seen =>
    intro _ _ _ _ resume _ herror hgoesOn answer
    cases answer with
    | error e => simp [herror, Dialogue.FailsOnly]
    | ok finish =>
      cases hgoesOn finish with
      | last _ heq => simp [heq, Dialogue.FailsOnly]
      | mirrored _ _ f heq ih =>
        -- A failure of the mirrored ray is passed on, and one it was told is one we were told.
        rw [heq]
        refine (ih.mono fun _ => False.elim).bind (fun _ => rfl) fun color => ?_
        simp [Dialogue.FailsOnly, Except.map]

/-- Filling a picture asks only about surfaces that a ray comes to. -/
theorem asksOnly_fill (camera : Camera α) (depth : Nat) (places : List (Nat × Nat))
    (image : Raster (Vec3 α)) :
    (tracer.fill camera depth places image : Shading α σ ε ω _).AsksOnly tracer.AsksAbout := by
  induction places generalizing image with
  | nil => trivial
  | cons place places ih =>
    refine (tracer.asksOnly_trace depth _ _).bind fun result => ?_
    cases result with
    | error e => trivial
    | ok color => exact ih _

/-- Filling a picture fails only if it has been told of a failure. -/
theorem failsOnly_fill (camera : Camera α) (depth : Nat) (places : List (Nat × Nat))
    (image : Raster (Vec3 α)) :
    (tracer.fill camera depth places image : Shading α σ ε ω _).FailsOnly fun _ => False := by
  induction places generalizing image with
  | nil => simp [fill, Dialogue.FailsOnly]
  | cons place places ih =>
    exact (tracer.failsOnly_trace depth _ _).bind (fun _ => rfl) fun color => ih _

end Tracer

namespace Renderer

variable (renderer : Renderer) (job : RenderJob)

/-- **The renderer asks about surfaces of the scene it was handed.** -/
theorem asksOnly_backend :
    (renderer.backend job).AsksOnly fun query =>
      query.surface ∈ job.scene.primitives.map (·.surface) := by
  refine ((renderer.tracer job).asksOnly_fill _ _ _ _).bind fun result => ?_
  cases result with
  | error f => trivial
  | ok image =>
    intro files
    dsimp only
    split <;> trivial

/-- **The renderer fails for an answer that is a failure**, or for want of a place for the
picture. -/
theorem failsOnly_backend :
    (renderer.backend job).FailsOnly fun f => ∃ path reason, f = .unwritable path reason := by
  have hfill := (renderer.tracer job).failsOnly_fill (ε := Fault) (ω := Files)
    (.ofView job.fieldOfView job.width job.height) job.depth (Raster.places job.width job.height)
    (.blank job.width job.height .zero)
  refine (hfill.mono fun _ => False.elim).bind (fun _ => rfl) fun image files => ?_
  dsimp only
  split
  · exact fun f hf => nomatch hf
  · rename_i reason _
    exact fun f hf => ⟨_, reason, (Except.error.inj hf).symm⟩

end Renderer

end SceneTracer
