import SceneTracer.Dialogue.Questions
import SceneTracer.Proofs.Files.Writing
import SceneTracer.Proofs.Renderer.Pixels
import SceneTracer.Proofs.Tracer.Following

namespace SceneTracer

/-!
# The whole picture or nothing

The renderer follows the rays of all pixels, one after another, before it stores anything. So its
first failure ends it with nothing stored, and if there is none, the whole picture is stored.

* `Shader` — answers for surfaces, by any means that have a state, in which there are files.
* `Tracer.stateless_fill` — making a picture asks the shader, and does not use the files itself.
* `Renderer.Traced` — pixels whose colours are found one after another.
* `Renderer.Renders` — how making and storing a picture ends.
* `Renderer.backend_stores_picture_or_nothing` — it ends in these ways only.
-/

variable {α Q A ω ρ τ : Type}

/-! ### Shaders -/

/-- Answers for surfaces, which may use and change a state. The files are part of it. -/
structure Shader (σ : Type) where
  answer : SurfaceQuery Float Closure → EStateM Stop σ (Except Fault (Finish Float))
  files : σ → Files
  withFiles : Files → σ → σ
  files_withFiles : ∀ after s, files (withFiles after s) = after
  withFiles_files : ∀ s, withFiles (files s) s = s

namespace Shader

variable {σ : Type} (shader : Shader σ)

/-- Changes the files and gives those there were before. -/
def changeFiles (update : Files → Files) : EStateM Stop σ Files := fun s =>
  .ok (shader.files s) (shader.withFiles (update (shader.files s)) s)

/-- Holds a dialogue with the answers of the shader and its files. -/
def run (d : Shading Float Closure Fault Files ρ) : EStateM Stop σ ρ :=
  d.conduct shader.answer shader.changeFiles

/-- Surface functions are run beside a stack, and the files are the state of the backend. -/
def ofCalls (callClosure : Closure → Run Files Unit) : Shader (Machine Files) where
  answer := shadeWith callClosure
  files := Machine.world
  withFiles after m := { m with world := after }
  files_withFiles _ _ := rfl
  withFiles_files _ := rfl

/-- For a run, a dialogue is held by calling surface functions. -/
theorem run_ofCalls (callClosure : Closure → Run Files Unit)
    (d : Shading Float Closure Fault Files ρ) :
    (ofCalls callClosure).run d = d.conduct (shadeWith callClosure) Run.changeWorld := rfl

/-- Steps beside any state are put together as steps beside a stack are. -/
theorem bind_apply (step : EStateM Stop σ ρ) (next : ρ → EStateM Stop σ τ) (s : σ) :
    (step >>= next) s = match step s with
      | .ok result after => next result after
      | .error stop after => .error stop after := by
  change EStateM.bind step next s = _
  rw [EStateM.bind]
  cases step s <;> rfl

/-- Two dialogues in a row are held one after the other, unless the first one stops. -/
theorem run_bind (d : Shading Float Closure Fault Files ρ)
    (next : ρ → Shading Float Closure Fault Files τ) (s : σ) :
    shader.run (d.bind next) s = match shader.run d s with
      | .ok result after => shader.run (next result) after
      | .error stop after => .error stop after := by
  unfold run
  rw [Dialogue.conduct_bind, bind_apply]

/-- A file is stored if it can be written, and otherwise nothing is changed. -/
theorem run_store (path : String) (content : ByteArray) (s : σ) :
    shader.run (Renderer.store path content) s = match (shader.files s).write path content with
      | .ok after => .ok (.ok ()) (shader.withFiles after s)
      | .error reason => .ok (.error (.unwritable path reason)) s := by
  have hstore : shader.run (Renderer.store path content) s
      = shader.run (match (shader.files s).write path content with
          | .ok _ => .done (.ok ())
          | .error reason => .done (.error (.unwritable path reason)))
        (shader.withFiles (match (shader.files s).write path content with
          | .ok after => after
          | .error _ => shader.files s) s) := rfl
  rw [hstore]
  -- A write that fails puts back the files that there were.
  cases (shader.files s).write path content with
  | ok after => rfl
  | error reason =>
    rw [shader.withFiles_files]
    rfl

end Shader

/-! ### Pixels one after another -/

/-- Dialogues in a row make no changes if none of them does. -/
theorem Dialogue.Stateless.bind {d : Dialogue Q A ω ρ} {next : ρ → Dialogue Q A ω τ}
    (h : d.Stateless) (hnext : ∀ result, (next result).Stateless) : (d.bind next).Stateless := by
  induction d with
  | done result => exact hnext result
  | ask question resume ih => exact fun answer => ih answer (h answer)
  | change update resume => exact h.elim

namespace Tracer

variable {σ ε : Type} [Scalar α] (tracer : Tracer α σ)

/-- Following a ray changes no files. -/
theorem stateless_trace (depth : Nat) (origin direction : Vec3 α) :
    (tracer.trace depth origin direction : Shading α σ ε ω _).Stateless := by
  refine tracer.trace_induction (motive := fun _ _ _ shading => shading.Stateless)
    ?unseen ?seen depth origin direction
  case unseen => exact fun _ => trivial
  case seen =>
    intro _ _ _ _ resume _ herror hgoesOn answer
    cases answer with
    | error e =>
      rw [herror]
      trivial
    | ok finish =>
      -- With a finish, either the colour is there or one more ray is followed.
      cases hgoesOn finish with
      | last _ heq =>
        rw [heq]
        trivial
      | mirrored _ _ f heq ih =>
        rw [heq]
        exact ih.bind fun _ => trivial

/-- Making a picture does not use the files. -/
theorem stateless_fill (camera : Camera α) (depth : Nat) (places : List (Nat × Nat))
    (image : Raster (Vec3 α)) :
    (tracer.fill camera depth places image : Shading α σ ε ω _).Stateless := by
  induction places generalizing image with
  | nil => trivial
  | cons place places ih =>
    refine (tracer.stateless_trace depth _ _).bind fun result => ?_
    cases result with
    | error e => trivial
    | ok color => exact ih _

end Tracer

namespace Renderer

variable {σ : Type}

/-- What is seen at a place of the picture of a job. -/
def see (renderer : Renderer) (job : RenderJob) (shader : Shader σ) (place : Nat × Nat) :
    EStateM Stop σ (Except Fault (Vec3 Float)) :=
  shader.run ((renderer.tracer job).pixel (.ofView job.fieldOfView job.width job.height) job.depth
    place.1 place.2)

/-- Filling in the pixels at `places` of a picture, of what is seen there. -/
def filling (renderer : Renderer) (job : RenderJob) (shader : Shader σ) (places : List (Nat × Nat))
    (image : Raster (Vec3 Float)) : EStateM Stop σ (Except Fault (Raster (Vec3 Float))) :=
  shader.run ((renderer.tracer job).fill (.ofView job.fieldOfView job.width job.height) job.depth
    places image)

/-- The colours at all places are found, one after another. -/
inductive Traced (renderer : Renderer) (job : RenderJob) (shader : Shader σ)
    (colors : Nat × Nat → Vec3 Float) : List (Nat × Nat) → σ → σ → Prop
  | nil {s : σ} : Traced renderer job shader colors [] s s
  | cons {place : Nat × Nat} {places : List (Nat × Nat)} {s next after : σ}
      (hplace : renderer.see job shader place s = .ok (.ok (colors place)) next)
      (hrest : Traced renderer job shader colors places next after) :
      Traced renderer job shader colors (place :: places) s after

/-- The picture of a job whose pixels are set to the given colours. -/
def picture (job : RenderJob) (colors : Nat × Nat → Vec3 Float) : Raster (Vec3 Float) :=
  (Raster.blank job.width job.height .zero).paint colors (Raster.places job.width job.height)

/-- How making and storing the picture of a job ends. -/
inductive Renders (renderer : Renderer) (job : RenderJob) (shader : Shader σ) (s : σ) :
    EStateM.Result Stop σ (Except Fault Unit) → Prop
  /-- The first pixel that fails ends it, with its failure, and nothing is stored. -/
  | failed {before rest : List (Nat × Nat)} {place : Nat × Nat} {colors : Nat × Nat → Vec3 Float}
      {next after : σ} {f : Fault}
      (hplaces : Raster.places job.width job.height = before ++ place :: rest)
      (hbefore : renderer.Traced job shader colors before s next)
      (hplace : renderer.see job shader place next = .ok (.error f) after) :
      Renders renderer job shader s (.ok (.error f) after)
  /-- So does the first pixel at which the shader stops. -/
  | stopped {before rest : List (Nat × Nat)} {place : Nat × Nat} {colors : Nat × Nat → Vec3 Float}
      {next after : σ} {stop : Stop}
      (hplaces : Raster.places job.width job.height = before ++ place :: rest)
      (hbefore : renderer.Traced job shader colors before s next)
      (hplace : renderer.see job shader place next = .error stop after) :
      Renders renderer job shader s (.error stop after)
  /-- If no pixel fails, the file of the picture is stored. -/
  | stored {colors : Nat × Nat → Vec3 Float} {next : σ} {after : Files}
      (htraced : renderer.Traced job shader colors (Raster.places job.width job.height) s next)
      (hwrite : (shader.files next).write (renderer.path job.output) (picture job colors).encode
        = .ok after) :
      Renders renderer job shader s (.ok (.ok ()) (shader.withFiles after next))
  /-- If it cannot be written, that is the failure, and nothing else is changed. -/
  | unwritable {colors : Nat × Nat → Vec3 Float} {next : σ} {reason : FileFault}
      (htraced : renderer.Traced job shader colors (Raster.places job.width job.height) s next)
      (hwrite : (shader.files next).write (renderer.path job.output) (picture job colors).encode
        = .error reason) :
      Renders renderer job shader s
        (.ok (.error (.unwritable (renderer.path job.output) reason)) next)

section

variable {renderer : Renderer} {job : RenderJob} {shader : Shader σ}
  {colors colors' : Nat × Nat → Vec3 Float} {places : List (Nat × Nat)} {s after : σ}

/-- Only the colours at the places that have been seen matter. -/
theorem Traced.congr (h : renderer.Traced job shader colors places s after)
    (hcolors : ∀ place ∈ places, colors place = colors' place) :
    renderer.Traced job shader colors' places s after := by
  induction h with
  | nil => exact .nil
  | cons hplace _ ih =>
    obtain ⟨hhead, htail⟩ := List.forall_mem_cons.mp hcolors
    rw [hhead] at hplace
    exact .cons hplace (ih htail)

/-- Either the colours of all pixels are found, or there is a first pixel whose colour is not. -/
theorem exists_traced (renderer : Renderer) (job : RenderJob) (shader : Shader σ)
    (hnodup : places.Nodup) (s : σ) :
    (∃ colors after, renderer.Traced job shader colors places s after) ∨
    ∃ before place rest colors next, places = before ++ place :: rest ∧
      renderer.Traced job shader colors before s next ∧
      ∀ color after, renderer.see job shader place next ≠ .ok (.ok color) after := by
  induction places generalizing s with
  | nil => exact Or.inl ⟨fun _ => .zero, s, .nil⟩
  | cons place places ih =>
    obtain ⟨hnotMem, hnodup⟩ := List.nodup_cons.mp hnodup
    by_cases hplace : ∃ color next, renderer.see job shader place s = .ok (.ok color) next
    · obtain ⟨color, next, hplace⟩ := hplace
      -- The colours found later are at other places.
      have hcons : ∀ {found : List (Nat × Nat)} {colors : Nat × Nat → Vec3 Float} {after : σ},
          place ∉ found → renderer.Traced job shader colors found next after →
          renderer.Traced job shader (Function.update colors place color) (place :: found) s
            after := by
        intro found colors after hfound htraced
        refine .cons ?_ (htraced.congr fun other hother => ?_)
        · rw [Function.update_self]
          exact hplace
        · rw [Function.update_of_ne]
          rintro rfl
          exact hfound hother
      rcases ih hnodup next with ⟨colors, after, htraced⟩ | hfirst
      · exact Or.inl ⟨_, after, hcons hnotMem htraced⟩
      · obtain ⟨before, failing, rest, colors, last, rfl, htraced, hfailing⟩ := hfirst
        refine Or.inr ⟨place :: before, failing, rest, _, last, rfl, hcons ?_ htraced, hfailing⟩
        exact fun hmem => hnotMem (List.mem_append_left _ hmem)
    · refine Or.inr ⟨[], place, places, fun _ => .zero, s, rfl, .nil, fun color after hsee => ?_⟩
      exact hplace ⟨color, after, hsee⟩

variable {place : Nat × Nat} {rest : List (Nat × Nat)} {image : Raster (Vec3 Float)}

/-- The first place is seen, and the rest is filled with the state that this leaves. -/
theorem filling_cons (renderer : Renderer) (job : RenderJob) (shader : Shader σ)
    (place : Nat × Nat) (rest : List (Nat × Nat)) (image : Raster (Vec3 Float)) (s : σ) :
    renderer.filling job shader (place :: rest) image s = match renderer.see job shader place s with
      | .ok (.ok color) next =>
        renderer.filling job shader rest (image.set place.1 place.2 color) next
      | .ok (.error f) next => .ok (.error f) next
      | .error stop next => .error stop next := by
  unfold filling see Shader.run
  rw [Tracer.conduct_fill_cons, Shader.bind_apply]
  cases Dialogue.conduct shader.answer shader.changeFiles _ s with
  | ok result next => cases result <;> rfl
  | error stop next => rfl

/-- Pixels whose colours are found are set, and filling in goes on with the others. -/
theorem filling_of_traced (h : renderer.Traced job shader colors places s after) :
    renderer.filling job shader (places ++ rest) image s
      = renderer.filling job shader rest (image.paint colors places) after := by
  induction h generalizing image with
  | nil => rfl
  | cons hplace _ ih =>
    rw [List.cons_append, filling_cons, hplace]
    exact ih

/-- **The backend fills a picture and then stores it.** A failure at a pixel is its result, and
nothing is written. -/
theorem run_backend (renderer : Renderer) (job : RenderJob) (shader : Shader σ) (s : σ) :
    shader.run (renderer.backend job) s =
      match renderer.filling job shader (Raster.places job.width job.height)
        (.blank job.width job.height .zero) s with
      | .ok (.ok image) next => shader.run (store (renderer.path job.output) image.encode) next
      | .ok (.error f) next => .ok (.error f) next
      | .error stop next => .error stop next := by
  have himage : shader.run (renderer.image job) s
      = renderer.filling job shader (Raster.places job.width job.height)
        (.blank job.width job.height .zero) s := rfl
  rw [backend, shader.run_bind, himage]
  cases renderer.filling job shader _ _ s with
  | ok result next => cases result <;> rfl
  | error stop next => rfl

/-- What is found one after another makes the picture. -/
theorem filling_picture
    (h : renderer.Traced job shader colors (Raster.places job.width job.height) s after) :
    renderer.filling job shader (Raster.places job.width job.height)
      (.blank job.width job.height .zero) s = .ok (.ok (picture job colors)) after := by
  rw [← List.append_nil (Raster.places job.width job.height), filling_of_traced h]
  rfl

/-- Each of the four ways of rendering is what the backend does. -/
theorem run_backend_of_renders {r : EStateM.Result Stop σ (Except Fault Unit)}
    (h : renderer.Renders job shader s r) : shader.run (renderer.backend job) s = r := by
  rw [run_backend]
  cases h with
  | failed hplaces hbefore hplace | stopped hplaces hbefore hplace =>
    rw [hplaces, filling_of_traced hbefore, filling_cons, hplace]
  | stored htraced hwrite | unwritable htraced hwrite =>
    rw [filling_picture htraced]
    dsimp only
    rw [shader.run_store, hwrite]

/-- **The backend renders in one of four ways.** -/
theorem renders_run_backend (renderer : Renderer) (job : RenderJob) (shader : Shader σ) (s : σ) :
    renderer.Renders job shader s (shader.run (renderer.backend job) s) := by
  rcases exists_traced renderer job shader (Raster.nodup_places job.width job.height) s with
    ⟨colors, next, htraced⟩ | ⟨before, place, rest, colors, next, hplaces, hbefore, hplace⟩
  · -- All places have colours, and the picture can be written or not.
    cases hwrite : (shader.files next).write (renderer.path job.output)
        (picture job colors).encode with
    | ok after =>
      have hstored := Renders.stored htraced hwrite
      rwa [run_backend_of_renders hstored]
    | error reason =>
      have hunwritable := Renders.unwritable htraced hwrite
      rwa [run_backend_of_renders hunwritable]
  · -- The first place without a colour ends the run, with a failure or by stopping it.
    match hsee : renderer.see job shader place next with
    | .ok (.ok color) after => exact absurd hsee (hplace color after)
    | .ok (.error f) after =>
      have hfailed := Renders.failed hplaces hbefore hsee
      rwa [run_backend_of_renders hfailed]
    | .error stop after =>
      have hstopped := Renders.stopped hplaces hbefore hsee
      rwa [run_backend_of_renders hstopped]

end

/-- **The whole picture is stored, or nothing.** Making the picture of a job does not use the files,
whatever the shader does with them. It ends at the first pixel whose colour is not found, and if
there is none, the picture of the colours that were found one after another is stored. Each pixel
comes once, row by row, and has its colour in the picture, and what is stored is read back. -/
theorem backend_stores_picture_or_nothing (renderer : Renderer) (job : RenderJob)
    (shader : Shader σ) (s : σ) :
    (renderer.image job : Shading Float Closure Fault Files _).Stateless ∧
    (∀ r, shader.run (renderer.backend job) s = r ↔ renderer.Renders job shader s r) ∧
    (∀ x y, (Raster.places job.width job.height).count (x, y)
      = if x < job.width ∧ y < job.height then 1 else 0) ∧
    (∀ (x : Fin job.width) (y : Fin job.height),
      (Raster.places job.width job.height)[y * job.width + x]? = some (x.val, y.val) ∧
      ∀ colors, (picture job colors).pixel? x y = some (colors (x.val, y.val))) ∧
    ∀ (next : σ) (content : ByteArray),
      match (shader.files next).write (renderer.path job.output) content with
      | .ok after => (shader.files next).Written (renderer.path job.output) content
          (shader.files (shader.withFiles after next))
      | .error _ => True := by
  refine ⟨Tracer.stateless_fill _ _ _ _ _, fun r => ⟨?_, run_backend_of_renders⟩,
    Raster.count_places _ _, fun x y => ⟨Raster.getElem?_places x.isLt y.isLt, fun colors => ?_⟩,
    fun next content => ?_⟩
  · rintro rfl
    exact renders_run_backend renderer job shader s
  · -- Each place is painted once, so that its pixel has its colour.
    have hplaces : ∀ place ∈ Raster.places job.width job.height, place.1 < job.width :=
      fun place hplace => (Raster.mem_places.mp hplace).1
    have hindex := Raster.index_lt x.isLt y.isLt
    have hmem := Raster.mem_places.mpr ⟨x.isLt, y.isLt⟩
    rw [picture, Raster.pixel?_paint hplaces x.isLt (by rwa [Raster.size_blank]), if_pos hmem]
  · cases hwrite : (shader.files next).write (renderer.path job.output) content with
    | ok after =>
      dsimp only
      rw [shader.files_withFiles]
      exact Files.written_of_write hwrite
    | error reason => trivial

end Renderer

end SceneTracer
