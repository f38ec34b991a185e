import PathTracer.Proofs.Render.Channels
import PathTracer.Proofs.Render.Thumbnail

/-! Paths that have ended. The greatest number of bounces only says how many passes a sample has,
and a path that has ended goes through those that are left without a change. -/
namespace PathTracer

/-- The site with another greatest number of bounces. -/
def Site.withDepth (s : Site) (depth : Nat) : Site :=
  { s with frame := { s.frame with maxDepth := depth } }

namespace Pixel.SameRay

variable {p q r : Pixel}

theorem refl (p : Pixel) : p.SameRay p :=
  ⟨rfl, rfl, rfl, rfl, rfl⟩

theorem trans (h : p.SameRay q) (hNext : q.SameRay r) : p.SameRay r :=
  ⟨hNext.camOrigin.trans h.camOrigin, hNext.camDir.trans h.camDir,
    hNext.radiance.trans h.radiance, hNext.throughput.trans h.throughput,
    hNext.absorption.trans h.absorption⟩

/-- Pixels with one route have one ray, and their paths have ended or go on together. -/
theorem of_route (h : q.route = p.route) : p.SameRay q ∧ q.isDone = p.isDone := by
  simp only [Pixel.route, List.cons.injEq] at h
  obtain ⟨hOrigin, hDir, hRadiance, hThroughput, hAbsorption, -, hNormal, -⟩ := h
  exact ⟨⟨hOrigin, hDir, hRadiance, hThroughput, hAbsorption⟩, by
    rw [Pixel.isDone, Pixel.isDone, hNormal]⟩

end Pixel.SameRay

namespace Pass

/-! ### Samples as lists of passes -/

/-- The passes of a sample after the one that starts its path. -/
inductive Stage where
  | bounce
  | resolve
  | shadow
  | direct
  | scatter
  | accumulate
  deriving Repr, DecidableEq

namespace Stage

def run (s : Site) : Stage → Pixel → Pixel
  | bounce => Pass.bounce s
  | resolve => Pass.resolve s
  | shadow => Pass.shadow s
  | direct => Pass.direct s
  | scatter => Pass.scatter s
  | accumulate => Pass.accumulate s

/-- Run passes one after the other. -/
def runAll (s : Site) (stages : List Stage) (p : Pixel) : Pixel :=
  stages.foldl (fun p stage => stage.run s p) p

/-- The passes of a bounce after its ray has been followed. -/
def shading : List Stage :=
  [resolve, shadow, direct, scatter]

/-- The passes of later bounces. -/
def later (count : Nat) : List Stage :=
  (List.replicate count (bounce :: shading)).flatten

/-- The passes of a sample of so many bounces. There is at least one bounce. -/
def ofDepth (depth : Nat) : List Stage :=
  shading ++ later (depth - 1) ++ [accumulate]

variable (s : Site)

/-- Passes are run one after the other. -/
theorem runAll_append (before after : List Stage) (p : Pixel) :
    runAll s (before ++ after) p = runAll s after (runAll s before p) :=
  List.foldl_append

/-- All bounces are their passes one after the other. -/
theorem runAll_later (count : Nat) (p : Pixel) :
    runAll s (later count) p = bounces s count p := by
  induction count generalizing p with
  | zero => rfl
  | succ count ih =>
      rw [later, List.replicate_succ, List.flatten_cons, runAll_append]
      exact ih _

/-- A sample starts a path and runs the passes of its bounces. -/
theorem sample_eq_runAll (p : Pixel) :
    sample s p = runAll s (ofDepth s.frame.maxDepth) (primary s p) := by
  rw [ofDepth, runAll_append, runAll_append, runAll_later]
  rfl

end Stage

/-! ### Passes over an ended path -/

namespace Stage

variable (s : Site) {p : Pixel}

/-- No pass moves a path that has ended, or brings it back. -/
theorem sameRay_run (stage : Stage) (h : p.isDone = true) :
    p.SameRay (stage.run s p) ∧ (stage.run s p).isDone = true := by
  cases stage with
  | bounce =>
      rw [run, Pass.bounce, if_pos h]
      exact ⟨⟨rfl, rfl, rfl, rfl, rfl⟩, h⟩
  | resolve => exact (Pixel.SameRay.of_route (route_resolve s)).imp_right (·.trans h)
  | shadow => exact (Pixel.SameRay.of_route (route_shadow s)).imp_right (·.trans h)
  | direct => exact (Pixel.SameRay.of_route (route_direct s)).imp_right (·.trans h)
  | scatter =>
      rw [run, Pass.scatter, if_pos h]
      exact ⟨.refl p, h⟩
  | accumulate => exact ⟨⟨rfl, rfl, rfl, rfl, rfl⟩, h⟩

/-- Once a path has ended no pass changes its light or its ray, however many there are. -/
theorem sameRay_runAll (stages : List Stage) (h : p.isDone = true) :
    p.SameRay (runAll s stages p) ∧ (runAll s stages p).isDone = true := by
  induction stages generalizing p with
  | nil => exact ⟨.refl p, h⟩
  | cons stage rest ih =>
      obtain ⟨hFirst, hDone⟩ := stage.sameRay_run s h
      obtain ⟨hRest, hStill⟩ := ih hDone
      exact ⟨hFirst.trans hRest, hStill⟩

end Stage

/-! ### Passes do not ask how many bounces there are -/

section Depth

variable (s : Site) (depth : Nat)

theorem trace_withDepth : (s.withDepth depth).trace = s.trace :=
  rfl

theorem stream_withDepth : (s.withDepth depth).stream = s.stream :=
  rfl

theorem inputs_withDepth : (s.withDepth depth).inputs = s.inputs :=
  rfl

theorem primary_withDepth : primary (s.withDepth depth) = primary s := by
  unfold primary
  rw [trace_withDepth]
  rfl

theorem bounce_withDepth : bounce (s.withDepth depth) = bounce s := by
  unfold bounce
  rw [trace_withDepth]
  rfl

theorem chooseLight_withDepth : chooseLight (s.withDepth depth) = chooseLight s := by
  have hAim : aim (s.withDepth depth) = aim s := rfl
  funext rng p
  unfold chooseLight
  cases rng.next with
  | mk r next =>
      dsimp only
      rw [hAim]
      rfl

theorem resolve_withDepth : resolve (s.withDepth depth) = resolve s := by
  have hMaterial : hitMaterial (s.withDepth depth) = hitMaterial s := rfl
  unfold resolve
  rw [hMaterial, chooseLight_withDepth, inputs_withDepth, stream_withDepth]

theorem shadow_withDepth : shadow (s.withDepth depth) = shadow s := by
  unfold shadow
  rw [trace_withDepth]
  rfl

theorem direct_withDepth : direct (s.withDepth depth) = direct s := by
  have hArrival : sphereArrival (s.withDepth depth) = sphereArrival s := rfl
  unfold direct contribution
  rw [hArrival]
  rfl

theorem scatter_withDepth : scatter (s.withDepth depth) = scatter s := by
  have hLeave : leave (s.withDepth depth) = leave s := rfl
  have hWeight : emissionWeight (s.withDepth depth) = emissionWeight s := rfl
  unfold scatter scatterSurface
  rw [hLeave, hWeight, stream_withDepth]

theorem shade_withDepth : shade (s.withDepth depth) = shade s := by
  unfold shade
  rw [scatter_withDepth, direct_withDepth, shadow_withDepth, resolve_withDepth]

theorem bounces_withDepth (n : Nat) (p : Pixel) :
    bounces (s.withDepth depth) n p = bounces s n p := by
  induction n generalizing p with
  | zero => rfl
  | succ n ih => rw [bounces, bounces, ih, shade_withDepth, bounce_withDepth]

end Depth

/-! ### More bounces -/

variable (s : Site) (p : Pixel)

/-- Bounces are followed one after the other. -/
theorem bounces_add (m n : Nat) : bounces s (m + n) p = bounces s n (bounces s m p) := by
  induction m generalizing p with
  | zero => rw [Nat.zero_add, bounces]
  | succ m ih => rw [Nat.add_right_comm, bounces, bounces, ih]

/-- A path of more bounces goes on from one of fewer. -/
theorem path_withDepth {few many : Nat} (h : few ≤ many) :
    path (s.withDepth many) p = bounces s (many - 1 - (few - 1)) (path (s.withDepth few) p) := by
  have hCount : many - 1 = (few - 1) + (many - 1 - (few - 1)) := by omega
  have hPath (depth : Nat) : path (s.withDepth depth) p =
      bounces s (depth - 1) (shade s (primary s p)) := by
    rw [path, bounces_withDepth, shade_withDepth, primary_withDepth]
    rfl
  rw [hPath, hPath, ← bounces_add, ← hCount]

/-- A path that has ended finds the same with more bounces, and from its end on the passes
of the sample leave its light and its ray as they are. Its other channels may still be
written. -/
theorem sample_of_isDone (s : Site) (p : Pixel) :
    (∀ few many, few ≤ many → (path (s.withDepth few) p).isDone = true →
      (sample (s.withDepth many) p).radiance = (sample (s.withDepth few) p).radiance ∧
        (sample (s.withDepth many) p).accum = (sample (s.withDepth few) p).accum) ∧
    ∀ depth, sample (s.withDepth depth) p =
        Stage.runAll (s.withDepth depth) (Stage.ofDepth depth) (primary (s.withDepth depth) p) ∧
      ∀ before next rest, Stage.ofDepth depth = before ++ next ++ rest →
        (Stage.runAll (s.withDepth depth) before (primary (s.withDepth depth) p)).isDone = true →
          (Stage.runAll (s.withDepth depth) before (primary (s.withDepth depth) p)).SameRay
            (Stage.runAll (s.withDepth depth) (before ++ next) (primary (s.withDepth depth) p)) := by
  refine ⟨fun few many hLess hDone => ?_, fun depth => ⟨Stage.sample_eq_runAll _ p, ?_⟩⟩
  · have hPath := path_withDepth s p hLess
    have hRadiance :
        (path (s.withDepth many) p).radiance = (path (s.withDepth few) p).radiance := by
      rw [hPath]
      exact radiance_bounces_of_done s _ hDone
    have hAccum : (path (s.withDepth many) p).accum = (path (s.withDepth few) p).accum := by
      rw [accum_path, accum_path]
    refine ⟨hRadiance, ?_⟩
    show (average s.frame.sampleIndex (path (s.withDepth many) p).accum.truncate
        (sanitize (path (s.withDepth many) p).radiance.truncate)).extend 1.0 =
      (average s.frame.sampleIndex (path (s.withDepth few) p).accum.truncate
        (sanitize (path (s.withDepth few) p).radiance.truncate)).extend 1.0
    rw [hRadiance, hAccum]
  · intro before next rest _ hDone
    rw [Stage.runAll_append]
    exact (Stage.sameRay_runAll _ next hDone).1

/-- The path of a ray that leaves the scene at once has ended. -/
theorem isDone_path_of_miss {s : Site} (h : ∀ origin direction, s.trace origin direction = .miss)
    (p : Pixel) : (path s p).isDone = true := by
  obtain ⟨q, hRoute, hShade⟩ := shade_eq_scatter s (p := primary s p)
  have hOpen : q.isDone = false := by
    have hZero : decide ((0.0 : Float32) < 0.0) = false := by decide
    exact (Pixel.SameRay.of_route hRoute).2.trans hZero
  have hNone : q.isMiss = true := by
    have hNegative : decide (Hit.miss.material < 0.0) = true := by decide
    have hDepth : (primary s p).depth.w = Hit.miss.material :=
      congrArg Hit.material (h (s.frame.cameraRay (jitter s)).1 (s.frame.cameraRay (jitter s)).2)
    simp only [Pixel.route, List.cons.injEq] at hRoute
    rw [Pixel.isMiss, hRoute.2.2.2.2.2.1, hDepth]
    exact hNegative
  rw [path, ← Stage.runAll_later, hShade, scatter, hOpen, if_neg Bool.false_ne_true, if_pos hNone]
  exact (Stage.sameRay_runAll s _ (isDone_finish _ q)).2

/-- A ray into an empty scene, with one bounce and with four. -/
theorem sample_of_isDone_empty :
    let s : Site := ⟨⟨[], none, fun _ _ _ => .miss⟩, .blank ⟨1, 1⟩ #[], 0⟩
    (path (s.withDepth 1) .blank).isDone = true ∧
      (sample (s.withDepth 4) .blank).accum = (sample (s.withDepth 1) .blank).accum ∧
      (Stage.runAll (s.withDepth 4) Stage.shading (primary (s.withDepth 4) .blank)).SameRay
        (Stage.runAll (s.withDepth 4) (Stage.shading ++ [.bounce, .resolve])
          (primary (s.withDepth 4) .blank)) := by
  intro s
  have hMiss (depth : Nat) : ∀ origin direction,
      (s.withDepth depth).trace origin direction = .miss := fun _ _ => rfl
  have hEnded := isDone_path_of_miss (hMiss 1) .blank
  obtain ⟨hSame, hStay⟩ := sample_of_isDone s .blank
  refine ⟨hEnded, (hSame 1 4 (by decide) hEnded).2, ?_⟩
  refine (hStay 4).2 Stage.shading [.bounce, .resolve] _ rfl ?_
  show (shade (s.withDepth 4) (primary (s.withDepth 4) .blank)).isDone = true
  rw [path, bounces_withDepth, shade_withDepth, primary_withDepth] at hEnded
  rw [shade_withDepth, primary_withDepth]
  exact hEnded

end Pass

end PathTracer
