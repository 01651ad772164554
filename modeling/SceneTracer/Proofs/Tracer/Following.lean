import SceneTracer.Tracer

namespace SceneTracer.Tracer

/-!
# Following a ray from surface to surface

What is true of a ray that sees nothing, and of a ray that sees a surface if it is true of the mirror
image that is followed from there, is true of all rays.

* `Tracer.GoesOn` — how a ray goes on at a surface.
* `Tracer.trace_induction` — the induction over the surfaces that a ray comes to.
-/

variable {α σ ε ω : Type} [Scalar α]

/-- How a ray with `depth` reflections left goes on at a surface with the given finish: it ends there,
or its mirror image is followed, of which `motive` is true. -/
inductive GoesOn (tracer : Tracer α σ)
    (motive : Nat → Vec3 α → Vec3 α → Shading α σ ε ω (Except ε (Vec3 α)) → Prop) (depth : Nat)
    (h : Hit α σ) (direction : Vec3 α) (finish : Finish α)
    (shading : Shading α σ ε ω (Except ε (Vec3 α))) : Prop
  /-- No reflection is left, or nothing is mirrored. -/
  | last (hlast : depth = 0 ∨ ¬ 0.0 < finish.ks)
      (heq : shading = .done (.ok (tracer.directLight h finish direction)))
  | mirrored {next : Nat} (hdepth : depth = next + 1) (hks : 0.0 < finish.ks) (f : Vec3 α → Vec3 α)
      (heq : shading
        = (tracer.trace next (tracer.departure h) (direction.reflect h.normal)).map (Except.map f))
      (ih : motive next (tracer.departure h) (direction.reflect h.normal)
        (tracer.trace next (tracer.departure h) (direction.reflect h.normal)))

/-- **Rays are followed from surface to surface.** -/
theorem trace_induction (tracer : Tracer α σ)
    {motive : Nat → Vec3 α → Vec3 α → Shading α σ ε ω (Except ε (Vec3 α)) → Prop}
    (unseen : ∀ {depth origin direction}, tracer.visibleHit? origin direction = none →
      motive depth origin direction (.done (.ok Vec3.zero)))
    (seen : ∀ {depth origin direction h resume}, tracer.visibleHit? origin direction = some h →
      (∀ e, resume (.error e) = .done (.error e)) →
      (∀ finish, tracer.GoesOn motive depth h direction finish (resume (.ok finish))) →
      motive depth origin direction (.ask h.query resume))
    (depth : Nat) (origin direction : Vec3 α) :
    motive depth origin direction (tracer.trace depth origin direction) := by
  induction depth generalizing origin direction with
  | zero =>
    unfold trace
    split
    · exact unseen ‹_›
    · exact seen ‹_› (fun _ => rfl) fun _ => .last (Or.inl rfl) rfl
  | succ depth ih =>
    unfold trace
    split
    · exact unseen ‹_›
    · refine seen ‹_› (fun _ => rfl) fun finish => ?_
      -- Only a surface that mirrors is looked at in, and only while a reflection is left.
      by_cases hks : 0.0 < finish.ks
      · exact .mirrored rfl hks _ (if_pos hks) (ih _ _)
      · exact .last (Or.inr hks) (if_neg hks)

end SceneTracer.Tracer
