import Mathlib
import SceneTracer.Program
import SceneTracer.Proofs.Renderer.Tracing

namespace SceneTracer

/-!
# What a run leaves in the files

A picture is stored as soon as it has been made, and a run that fails later does not take it back.
So a run that fails leaves the files with the pictures that it had finished, and changes nothing
else. All of this is under the assumption of `Renderer.store`, that a write fails when the file is
made or stores all bytes.

* `Renderer.recorded` — makes and stores pictures and keeps a journal of them.
* `Renderer.Finished` — the files after the pictures of a journal were stored.
* `Renderer.alike_recorded` — keeping the journal changes nothing else.
* `failed_run_leaves_finished` — the files after a run that fails.
-/

/-- What became of each job: the picture, if it could be made and stored. -/
abbrev Records := Journal (Option (Raster (Vec3 Float)))

namespace Renderer

variable (renderer : Renderer)

/-- Makes the picture of a job and stores it under its name, and enters in a journal the picture if
it was stored. -/
def recorded : Backend (Files × Records) := fun job =>
  (renderer.image job).bind fun
    | .error f => .change (fun (files, records) => (files, (job, none) :: records)) fun _ =>
      .done (.error f)
    | .ok image =>
      .change
        (fun (files, records) =>
          match files.write (renderer.path job.output) image.encode with
          | .ok after => (after, (job, some image) :: records)
          | .error _ => (files, (job, none) :: records))
        fun (files, _) =>
          match files.write (renderer.path job.output) image.encode with
          | .ok _ => .done (.ok ())
          | .error reason => .done (.error (.unwritable (renderer.path job.output) reason))

/-- The files are those of the start with the pictures of the journal, each stored under the name of
its job in the order in which they were finished. -/
inductive Finished (start : Files) : Records → Files → Prop
  | start : Finished start [] start
  | failed {records : Records} {files : Files} (job : RenderJob)
      (h : Finished start records files) : Finished start ((job, none) :: records) files
  | stored {records : Records} {files after : Files} (job : RenderJob) (image : Raster (Vec3 Float))
      (h : Finished start records files)
      (hwrite : files.write (renderer.path job.output) image.encode = .ok after) :
      Finished start ((job, some image) :: records) after

variable {renderer} {start files : Files} {records : Records}

/-- Where no picture was stored, the files are as they were. -/
theorem Finished.eq_start (h : renderer.Finished start records files)
    (hnone : ∀ entry ∈ records, entry.2 = none) : files = start := by
  induction h with
  | start => rfl
  | failed job _ ih => exact ih fun entry hentry => hnone entry (List.mem_cons_of_mem _ hentry)
  | stored job image _ _ _ => exact absurd (hnone _ List.mem_cons_self) (by simp)

/-- The files of a run that keeps a journal are the same as without it, and its pictures are what
was stored. -/
def Tracks (renderer : Renderer) (start files : Files) (recording : Files × Records) : Prop :=
  recording.1 = files ∧ renderer.Finished start recording.2 files

/-- Keeping the journal changes neither what is asked nor what is stored. -/
theorem alike_recorded (renderer : Renderer) (start : Files) :
    Backend.Alike (renderer.Tracks start) renderer.backend renderer.recorded := by
  intro job
  -- The picture is computed alike; what is different comes after it.
  refine ((renderer.tracer job).alike_fill _ _ _ _).bind fun result => ?_
  cases result with
  | error f =>
    refine .changeRight (fun files (files', records) h => ?_) fun _ _ _ => .done _
    exact ⟨h.1, h.2.failed job⟩
  | ok image =>
    refine .change (fun files (files', records) h => ?_) fun files (files', records) h => ?_
    · -- Both backends write to the same files, so that the write fails in both or in neither.
      obtain ⟨rfl, hfinished⟩ := h
      show Tracks _ _ (match files'.write _ _ with | .ok _ => _ | .error _ => _)
        (match files'.write _ _ with | .ok _ => _ | .error _ => _)
      match hwrite : files'.write (renderer.path job.output) image.encode with
      | .ok after => exact ⟨rfl, hfinished.stored job image hwrite⟩
      | .error reason => exact ⟨rfl, hfinished.failed job⟩
    · obtain ⟨rfl, -⟩ := h
      dsimp only
      cases files'.write (renderer.path job.output) image.encode with
      | ok after => exact .done _
      | error reason => exact .done _

end Renderer

namespace Session

variable {ω ω' : Type}

/-- The same session with another backend state. -/
def withWorld (s : Session ω) (world : ω') : Session ω' :=
  ⟨s.environment, ⟨s.machine.stack, world⟩⟩

/-- A session fails just if the run does. The bindings are then those from before. -/
theorem runBody_eq_failed_iff {backend : Option (Backend ω)} {calls : Nat} {s after : Session ω}
    {body : List Expr} {error : Error} :
    s.runBody backend calls body = .failed error after ↔
      ∃ f, error = .run f ∧ after.environment = s.environment ∧
        evaluate backend calls s.environment body s.machine = .error (.fault f) after.machine := by
  obtain ⟨env, m⟩ := after
  unfold runBody
  match evaluate backend calls s.environment body s.machine with
  | .ok _ _ | .error .exhausted _ => simp
  | .error (.fault f) m' => simp [eq_comm]

end Session

/-- **A run that fails leaves the pictures that it had finished.** It fails in the same way if a
journal is kept, and its files are those there were with the pictures of the journal. If no picture
had been finished, they are the files there were. -/
theorem failed_run_leaves_finished (renderer : Renderer) (calls : Nat) (s : Session Files)
    (body : List Expr) {error : Error} {after : Session Files}
    (h : s.runBody (some renderer.backend) calls body = .failed error after) :
    ∃ records : Records,
      (s.withWorld (s.machine.world, [])).runBody (some renderer.recorded) calls body
        = .failed error (after.withWorld (after.machine.world, records)) ∧
      renderer.Finished s.machine.world records after.machine.world ∧
      ((∀ entry ∈ records, entry.2 = none) → after.machine.world = s.machine.world) := by
  obtain ⟨f, rfl, henv, herror⟩ := Session.runBody_eq_failed_iff.mp h
  have htracks : renderer.Tracks s.machine.world s.machine.world (s.machine.world, []) :=
    ⟨rfl, .start⟩
  -- The two runs differ in the backend's record alone, so that the second fails as the first does.
  have hboth := alike_evaluate (.some (renderer.alike_recorded s.machine.world)) calls s.environment
    body s.machine.stack s.machine.world (s.machine.world, []) htracks
  obtain ⟨env, ⟨stack, files⟩⟩ := after
  rw [herror] at hboth
  generalize hrecorded : evaluate (some renderer.recorded) calls s.environment body
    ⟨s.machine.stack, (s.machine.world, [])⟩ = r at hboth
  obtain _ | @⟨_, _, _, ⟨files', records⟩, hafter⟩ := hboth
  obtain ⟨rfl, hfinished⟩ := hafter
  refine ⟨records, ?_, hfinished, hfinished.eq_start⟩
  exact Session.runBody_eq_failed_iff.mpr ⟨f, rfl, henv, hrecorded⟩

/-! ### A run that fails after rendering -/

/-- A picture that can be stored is stored. -/
theorem Renderer.conduct_store {files after : Files} {path : String} {content : ByteArray}
    (hwrite : files.write path content = .ok after) (callClosure : Closure → Run Files Unit)
    (stack : List Value) :
    (store path content).conduct (shadeWith callClosure) Run.changeWorld ⟨stack, files⟩
      = .ok (.ok ()) ⟨stack, after⟩ := by
  have hstore := (Shader.ofCalls callClosure).run_store path content ⟨stack, files⟩
  have hfiles : ((Shader.ofCalls callClosure).files ⟨stack, files⟩).write path content
      = .ok after := hwrite
  rw [Shader.run_ofCalls, hfiles] at hstore
  exact hstore

/-- A file named `a` can be stored where there are no files. -/
theorem Files.write_a (content : ByteArray) :
    (Files.mk [] [] []).write "a" content = .ok ⟨[(["a"], .file content)], [], []⟩ := by
  have hnames : namesIn "a" = .ok ["a"] := by cbv
  have hfile : "a".endsWith "/" = false := by decide +kernel
  have hrelative : "a".startsWith "/" = false := by decide +kernel
  unfold Files.write
  rw [hnames, hfile]
  unfold Files.walk
  rw [hrelative]
  rfl

/-- The operands of a picture of one pixel, of a cone, which is black. -/
def onePixel : List Expr :=
  [.real 0, .real 0, .real 0, .operator .point, .array [], .function [], .operator .cone,
    .integer 0, .real 90, .integer 1, .integer 1, .string "a"]

/-- Renders one pixel and then comes to a name that is not bound. -/
def renderThenUnbound : List Expr := onePixel ++ [.operator .render, .identifier "nope"]

/-- The session in which `renderThenUnbound` has failed, with the picture that it stored. -/
def sessionWithPicture : Session Files :=
  ⟨.empty, ⟨[], ⟨[(["a"], .file (Raster.blank 1 1 (Vec3.zero : Vec3 Float)).encode)], [], []⟩⟩⟩

/-- The program renders its picture and stops for a name behind it. The picture is there. -/
theorem runBody_renderThenUnbound :
    (Session.start (Files.mk [] [] [])).runBody (some (Renderer.mk .standard none).backend) 0
      renderThenUnbound = .failed (.run (.unbound "nope")) sessionWithPicture := by
  let files : Files := ⟨[], [], []⟩
  let backend : Backend Files := (Renderer.mk .standard none).backend
  let cone : Scene Float Closure := .primitive (.atOrigin .cone ⟨[], []⟩)
  let job : RenderJob := ⟨⟨0, 0, 0⟩, [], cone, 0, 90, 1, 1, "a"⟩
  let operands : List Value := [.string "a", .integer 1, .integer 1, .real 90, .integer 0,
    .object cone, .array [], .point ⟨0, 0, 0⟩]
  -- The eight operands are computed first, then one picture is stored, then the name is looked up.
  have hoperands : evaluateWith (some backend) (call (some backend) 0) [] onePixel ⟨[], files⟩
      = .ok [] ⟨operands, files⟩ := rfl
  have hjob : backend job = Renderer.store "a" (Raster.blank 1 1 Vec3.zero).encode := rfl
  have hrender : operatorStep (some backend) (call (some backend) 0) .render ⟨operands, files⟩
      = .ok () sessionWithPicture.machine := by
    rw [operatorStep_apply, if_neg (by decide)]
    show ((backend job).conduct (shadeWith _) Run.changeWorld >>= Run.ofExcept) ⟨[], files⟩ = _
    rw [hjob, Run.bind_apply, Renderer.conduct_store (Files.write_a _)]
    rfl
  have hone : evaluateOne (some backend) (call (some backend) 0) [] (.operator .render)
      ⟨operands, files⟩ = .ok [] sessionWithPicture.machine := by
    rw [evaluateOne, Run.bind_apply, hrender]
    rfl
  have hrun : evaluate (some backend) 0 [] renderThenUnbound ⟨[], files⟩
      = .error (.fault (.unbound "nope")) sessionWithPicture.machine := by
    rw [evaluate, renderThenUnbound, evaluateWith_append, Run.bind_apply, hoperands]
    dsimp only
    rw [evaluateWith, Run.bind_apply, hone]
    rfl
  exact Session.runBody_eq_failed_iff.mpr ⟨_, rfl, rfl, hrun⟩

/-- What such a run leaves has been finished before it stopped. -/
theorem failed_run_leaves_finished_cone :
    ∃ records : Records,
      ((Session.start (Files.mk [] [] [])).withWorld (Files.mk [] [] [], [])).runBody
          (some (Renderer.mk .standard none).recorded) 0 renderThenUnbound
        = .failed (.run (.unbound "nope"))
          (sessionWithPicture.withWorld (sessionWithPicture.machine.world, records)) ∧
      (Renderer.mk .standard none).Finished ⟨[], [], []⟩ records sessionWithPicture.machine.world ∧
      ((∀ entry ∈ records, entry.2 = none) → sessionWithPicture.machine.world = ⟨[], [], []⟩) :=
  failed_run_leaves_finished (.mk .standard none) 0 (.start ⟨[], [], []⟩) renderThenUnbound
    runBody_renderThenUnbound

/-- **A run that fails may have changed the files.** -/
theorem failed_run_may_change_files :
    ¬ ∀ (renderer : Renderer) (calls : Nat) (s : Session Files) (body : List Expr) (error : Error)
      (after : Session Files),
      s.runBody (some renderer.backend) calls body = .failed error after →
        after.machine.world = s.machine.world := by
  intro hsame
  have hfiles := hsame _ _ _ _ _ _ runBody_renderThenUnbound
  have hcount : sessionWithPicture.machine.world.entries.length = 0 := by
    rw [hfiles]
    rfl
  exact absurd hcount (by decide)

end SceneTracer
