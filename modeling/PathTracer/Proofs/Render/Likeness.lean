import PathTracer.Pipeline.Renderer

/-! Tracers that give the same answers render the same pixels, whatever their
materials are made of. -/
namespace PathTracer

/-- Two tracers whose answers never differ. -/
structure Tracer.Alike (t u : Tracer) : Prop where
  resolve : ∀ index inputs, t.resolve index inputs = u.resolve index inputs
  background : ∀ inputs color, t.background inputs color = u.background inputs color
  geometry : ∀ data origin direction,
    t.geometry data origin direction = u.geometry data origin direction

/-! ### What sites of one frame share -/

section Shared

variable (t u : Tracer) (frame : Frame) (index : Nat)

/-- The stream of random numbers does not depend on the tracer. -/
theorem Site.stream_eq : Site.stream ⟨t, frame, index⟩ = Site.stream ⟨u, frame, index⟩ :=
  rfl

/-- The inputs of a surface do not depend on the tracer. -/
theorem Site.inputs_eq : Site.inputs ⟨t, frame, index⟩ = Site.inputs ⟨u, frame, index⟩ :=
  rfl

/-- Aiming at a light does not depend on the tracer. -/
theorem Pass.aim_eq : Pass.aim ⟨t, frame, index⟩ = Pass.aim ⟨u, frame, index⟩ :=
  rfl

/-- Choosing a light does not depend on the tracer. -/
theorem Pass.chooseLight_eq :
    Pass.chooseLight ⟨t, frame, index⟩ = Pass.chooseLight ⟨u, frame, index⟩ := by
  funext rng p
  unfold Pass.chooseLight
  cases rng.next with
  | mk r next =>
      dsimp only
      rw [Pass.aim_eq t u]

/-- The weight of emission is made of lights and densities, and not of the tracer. -/
theorem Pass.emissionWeight_eq :
    Pass.emissionWeight ⟨t, frame, index⟩ = Pass.emissionWeight ⟨u, frame, index⟩ :=
  rfl

/-- Scattering at a surface that was resolved does not depend on the tracer. -/
theorem Pass.scatterSurface_eq :
    Pass.scatterSurface ⟨t, frame, index⟩ = Pass.scatterSurface ⟨u, frame, index⟩ := by
  unfold Pass.scatterSurface
  rw [Pass.emissionWeight_eq t u, Site.stream_eq t u]

end Shared

namespace Tracer.Alike

variable {t u v : Tracer}

theorem refl (t : Tracer) : t.Alike t :=
  ⟨fun _ _ => rfl, fun _ _ => rfl, fun _ _ _ => rfl⟩

theorem symm (h : t.Alike u) : u.Alike t :=
  ⟨fun _ _ => (h.resolve _ _).symm, fun _ _ => (h.background _ _).symm,
    fun _ _ _ => (h.geometry _ _ _).symm⟩

theorem trans (h : t.Alike u) (hNext : u.Alike v) : t.Alike v :=
  ⟨fun _ _ => (h.resolve _ _).trans (hNext.resolve _ _),
    fun _ _ => (h.background _ _).trans (hNext.background _ _),
    fun _ _ _ => (h.geometry _ _ _).trans (hNext.geometry _ _ _)⟩

/-! ### Passes -/

variable (h : t.Alike u) (frame : Frame) (index : Nat)

include h

/-- Alike tracers find the same hits. -/
theorem trace : Site.trace ⟨t, frame, index⟩ = Site.trace ⟨u, frame, index⟩ := by
  funext origin direction
  unfold Site.trace
  rw [h.geometry]

/-- Alike tracers have the same first hits. -/
theorem primary : Pass.primary ⟨t, frame, index⟩ = Pass.primary ⟨u, frame, index⟩ := by
  unfold Pass.primary
  rw [h.trace]
  rfl

/-- Alike tracers have the same hits after each bounce. -/
theorem bounce : Pass.bounce ⟨t, frame, index⟩ = Pass.bounce ⟨u, frame, index⟩ := by
  unfold Pass.bounce
  rw [h.trace]
  rfl

/-- Alike tracers shadow the same points. -/
theorem shadow : Pass.shadow ⟨t, frame, index⟩ = Pass.shadow ⟨u, frame, index⟩ := by
  unfold Pass.shadow
  rw [h.trace]
  rfl

/-- Alike tracers evaluate hits to the same surfaces. -/
theorem hitMaterial :
    Pass.hitMaterial ⟨t, frame, index⟩ = Pass.hitMaterial ⟨u, frame, index⟩ := by
  unfold Pass.hitMaterial
  simp only [h.resolve]

/-- Alike tracers resolve hits alike. -/
theorem resolvePass : Pass.resolve ⟨t, frame, index⟩ = Pass.resolve ⟨u, frame, index⟩ := by
  unfold Pass.resolve
  rw [h.hitMaterial, Pass.chooseLight_eq t u, Site.inputs_eq t u, Site.stream_eq t u]

/-- Alike tracers evaluate lights to the same emission. -/
theorem lightMaterial :
    Pass.lightMaterial ⟨t, frame, index⟩ = Pass.lightMaterial ⟨u, frame, index⟩ := by
  unfold Pass.lightMaterial
  simp only [h.resolve]
  rfl

/-- Light of spheres arrives alike. -/
theorem sphereArrival :
    Pass.sphereArrival ⟨t, frame, index⟩ = Pass.sphereArrival ⟨u, frame, index⟩ := by
  unfold Pass.sphereArrival
  rw [h.lightMaterial]
  rfl

/-- Direct light is the same. -/
theorem direct : Pass.direct ⟨t, frame, index⟩ = Pass.direct ⟨u, frame, index⟩ := by
  unfold Pass.direct Pass.contribution
  rw [h.sphereArrival]
  rfl

/-- Paths that leave the scene see the same background. -/
theorem leave : Pass.leave ⟨t, frame, index⟩ = Pass.leave ⟨u, frame, index⟩ := by
  unfold Pass.leave
  simp only [h.background]
  rfl

/-- Paths scatter alike. -/
theorem scatter : Pass.scatter ⟨t, frame, index⟩ = Pass.scatter ⟨u, frame, index⟩ := by
  unfold Pass.scatter
  rw [h.leave, Pass.scatterSurface_eq t u]

/-! ### Samples -/

/-- All passes after a hit are the same. -/
theorem shade : Pass.shade ⟨t, frame, index⟩ = Pass.shade ⟨u, frame, index⟩ := by
  unfold Pass.shade
  rw [h.scatter, h.direct, h.shadow, h.resolvePass]

/-- Paths are the same over any number of bounces. -/
theorem bounces (count : Nat) :
    Pass.bounces ⟨t, frame, index⟩ count = Pass.bounces ⟨u, frame, index⟩ count := by
  funext p
  induction count generalizing p with
  | zero => rfl
  | succ n ih =>
      rw [Pass.bounces, Pass.bounces, h.shade, h.bounce]
      exact ih _

/-- Alike tracers render the same samples. This is what scenes with one program rest on. -/
theorem sample : Pass.sample ⟨t, frame, index⟩ = Pass.sample ⟨u, frame, index⟩ := by
  unfold Pass.sample Pass.path
  simp only [h.bounces, h.shade, h.primary]
  rfl

omit index

/-- Like tracers add the same sample to a film. -/
theorem render (film : Film) : film.render t frame = film.render u frame := by
  unfold Film.render
  simp only [h.sample]

end Tracer.Alike

end PathTracer
