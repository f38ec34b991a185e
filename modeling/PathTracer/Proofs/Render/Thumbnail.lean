import PathTracer.Proofs.Decimal.Whole
import PathTracer.Proofs.Material.Naming
import PathTracer.Proofs.Render.Averages

/-! What the thumbnail of a material depends on. Camera, sun and sphere are the same
for all, and the indices by which the passes find the sun and the material are read
back from numbers. What is left of the scene is the material and its environment. -/
namespace PathTracer

/-! ### Bodies -/

namespace Material.Program

/-- A body runs in the same way without the lines of its statements. -/
theorem run_unplaced {σ : Type} (inputs : Inputs) (store : σ → Value → Field → σ) (values : Values)
    (result : σ) (body : List TypedStatement) :
    run inputs store values result (body.map TypedStatement.unplaced) =
      run inputs store values result body := by
  induction body generalizing values result with
  | nil => rfl
  | cons s rest ih =>
      have hExpr : s.unplaced.expr = s.expr := rfl
      have hTarget : s.unplaced.target = s.target := rfl
      rw [List.map_cons, run, run, hExpr, hTarget]
      cases s.expr.eval (valueScope inputs values) with
      | error e => exact ih values result
      | ok v =>
          dsimp only
          obtain field | ⟨name, type, declares⟩ := s.target
          · exact ih values (store result v field)
          · exact ih ((name, widen type v) :: values) result

/-- Programs that assign the same, wherever their statements stand. -/
def SameBody (p q : Program) : Prop :=
  q.body.map TypedStatement.unplaced = p.body.map TypedStatement.unplaced

variable {p q : Program}

theorem SameBody.evaluate (h : p.SameBody q) : q.evaluate = p.evaluate := by
  funext inputs
  rw [Program.evaluate, Program.evaluate, ← run_unplaced, h, run_unplaced]

theorem SameBody.evaluateEnvironment (h : p.SameBody q) :
    q.evaluateEnvironment = p.evaluateEnvironment := by
  funext inputs background
  rw [Program.evaluateEnvironment, Program.evaluateEnvironment, ← run_unplaced, h, run_unplaced]

end Material.Program

namespace Tracer

variable {t u : Tracer}

/-- Materials of one body look the same. -/
theorem resolve_of_sameBody {i j : Int}
    (h : Option.Rel Material.Program.SameBody (t.material? i) (u.material? j)) :
    u.resolve j = t.resolve i := by
  funext inputs
  unfold resolve
  generalize t.material? i = m at h
  generalize u.material? j = n at h
  cases h with
  | some hBody => exact congrFun hBody.evaluate inputs
  | none => rfl

theorem background_of_sameBody
    (h : Option.Rel Material.Program.SameBody t.environment u.environment) :
    u.background = t.background := by
  funext inputs color
  unfold background
  generalize t.environment = m at h
  generalize u.environment = n at h
  cases h with
  | some hBody => exact congrFun (congrFun hBody.evaluateEnvironment inputs) color
  | none => rfl

theorem resolve_of_neg (t : Tracer) {index : Int} (h : index < 0) (inputs : Material.Inputs) :
    t.resolve index inputs = .default := by
  rw [resolve, material?, if_pos h]
  rfl

end Tracer

/-! ### Frames of thumbnails -/

/-- The slot after all others is that of the vector that was appended. -/
theorem slot_push (data : Array (Vec4 Float32)) (v : Vec4 Float32) :
    slot (data.push v) data.size = v := by
  rw [slot, Array.getD_eq_getD_getElem?, Array.getElem?_push_size, Option.getD_some]

namespace Frame

theorem cameraRay_congr {f g : Frame} (hExtent : g.extent = f.extent)
    (hOrigin : g.cameraOrigin = f.cameraOrigin) (hLookAt : g.cameraLookAt = f.cameraLookAt) :
    g.cameraRay = f.cameraRay := by
  funext point
  unfold cameraRay cameraAxes
  rw [hExtent, hOrigin, hLookAt]

/-- Indices below this are kept exactly by the numbers that they are handed on as. -/
def exactIndices : Nat := 2 ^ 23

/-- The sun of a thumbnail is where it is meant to be. -/
theorem slot_iconSun {data : Array (Vec4 Float32)} (h : data.size < exactIndices) :
    slot (data.push (iconSunDirection.extend 0.0)) (LightEntry.ofLight (iconSun data.size)).slot =
      iconSunDirection.extend 0.0 := by
  have hSlot : (LightEntry.ofLight (iconSun data.size)).slot = data.size := Binary32.toNat64_ofNat h
  rw [hSlot, slot_push]

end Frame

namespace Site

variable {a b : Site}

theorem sameHit_miss : a.SameHit b .miss .miss := by
  have hNone : Binary32.toInt32 (Binary32.round Hit.miss.material) < 0 := by decide
  exact ⟨rfl, rfl, Pass.sameMaterial_of_neg hNone, Pass.sameBlend_zero⟩

/-- The sphere shows the materials of two indices where there are only suns. The indices may
be different, as long as the materials look alike. -/
theorem sameHit_ofPreview {k l : Nat} (hFirst : k < Frame.exactIndices)
    (hSecond : l < Frame.exactIndices) (hLook : b.tracer.resolve l = a.tracer.resolve k)
    (hSuns : ∀ light ∈ a.frame.lights, light.isSun = true) (origin direction : Vec3 Float32) :
    a.SameHit b (.ofPreview origin direction k) (.ofPreview origin direction l) := by
  have hMaterial : a.SameMaterial b (.ofInt k) (.ofInt l) := by
    refine ⟨?_, fun inputs => ?_, fun light hLight hSphere => ?_⟩
    · exact propext (iff_of_false (Binary32.not_ofInt_lt_zero hSecond)
        (Binary32.not_ofInt_lt_zero hFirst))
    · rw [Binary32.toInt32_round_ofInt hFirst, Binary32.toInt32_round_ofInt hSecond, hLook]
    · rw [hSuns light hLight] at hSphere
      cases hSphere
  unfold Hit.ofPreview
  cases intersectSphere origin direction .zero 1.0 with
  | none => exact sameHit_miss
  | some t => exact ⟨rfl, rfl, hMaterial, Pass.sameBlend_zero⟩

/-- A thumbnail shows its sphere and none of the shapes of the scene. -/
theorem trace_icon (t : Tracer) (scene : Scene) (k : Nat) (settings : Settings) (extent : Extent)
    (sample : Nat) (rng : ChaCha) (index : Nat) (origin direction : Vec3 Float32) :
    Site.trace ⟨t, (Frame.icon scene k settings extent sample rng).1, index⟩ origin direction =
      .ofPreview origin direction k :=
  if_pos (Int.natCast_nonneg k)

end Site

/-- Two thumbnails of materials that look the same, in scenes with backgrounds that
do. Nothing else of the scenes matters. -/
theorem Site.alike_icon {t u : Tracer} {scene other : Scene} {k l : Nat} (settings : Settings)
    (extent : Extent) (sample : Nat) (rng : ChaCha) (index : Nat)
    (hData : scene.data.size < Frame.exactIndices) (hOther : other.data.size < Frame.exactIndices)
    (hFirst : k < Frame.exactIndices) (hSecond : l < Frame.exactIndices)
    (hLook : u.resolve l = t.resolve k) (hBackground : u.background = t.background) :
    Site.Alike ⟨t, (Frame.icon scene k settings extent sample rng).1, index⟩
      ⟨u, (Frame.icon other l settings extent sample rng).1, index⟩ where
  index := rfl
  extent := rfl
  seed := rfl
  randomVector := rfl
  cameraRay := Frame.cameraRay_congr rfl rfl rfl
  sampleIndex := rfl
  maxDepth := rfl
  noShadows := rfl
  lights := by
    refine .cons ⟨rfl, rfl, rfl, ?_, fun inputs => ?_⟩ .nil
    · exact (Frame.slot_iconSun hOther).trans (Frame.slot_iconSun hData).symm
    · have hNone : Binary32.toInt32 (Binary32.round (.ofInt (-1))) < 0 := by decide
      exact (u.resolve_of_neg hNone inputs).trans (t.resolve_of_neg hNone inputs).symm
  background inputs := congrFun (congrFun hBackground inputs) _
  trace origin direction := by
    have hSuns : ∀ light ∈ (Frame.icon scene k settings extent sample rng).1.lights,
        light.isSun = true := by
      intro light hLight
      cases List.mem_singleton.mp (Array.mem_toList_iff.mpr hLight)
      have hKind : decide ((0.0 : Float32) < 0.5) = true := by decide
      exact hKind
    rw [trace_icon, trace_icon]
    exact sameHit_ofPreview hFirst hSecond hLook hSuns origin direction

/-! ### Past the sphere -/

namespace Pass

variable (s : Site) {p : Pixel}

/-- Resolving a hit does not touch the route of a path. -/
theorem route_resolve : (resolve s p).route = p.route := by
  unfold resolve
  split
  · rfl
  · dsimp only
    have hChosen : (chooseLight s (s.stream (bounceCount p * 8 + 1)) p).1.route = p.route := by
      unfold chooseLight
      split
      · rfl
      · generalize (s.stream (bounceCount p * 8 + 1)).next = drawn
        obtain ⟨r, next⟩ := drawn
        rfl
    generalize chooseLight s _ p = chosen at hChosen ⊢
    obtain ⟨lit, direction⟩ := chosen
    exact hChosen

theorem route_shadow : (shadow s p).route = p.route := by
  unfold shadow
  split
  · rfl
  · split <;> rfl

theorem route_direct : (direct s p).route = p.route := by
  unfold direct
  split <;> rfl

/-- A pixel before its path is sent on: what its hit is made of, and what the chosen light
sends. -/
def lit (p : Pixel) : Pixel :=
  direct s (shadow s (resolve s p))

theorem route_lit : (lit s p).route = p.route :=
  (route_direct s).trans ((route_shadow s).trans (route_resolve s))

/-- The passes before the last one of a bounce keep to the path. -/
theorem shade_eq_scatter : ∃ q : Pixel, q.route = p.route ∧ shade s p = scatter s q :=
  ⟨lit s p, route_lit s, rfl⟩

/-- A path that has ended finds no more light. -/
theorem radiance_bounces_of_done (n : Nat) (h : p.isDone = true) :
    (bounces s n p).radiance = p.radiance := by
  induction n generalizing p with
  | zero => rfl
  | succ n ih =>
      obtain ⟨q, hRoute, hShade⟩ := shade_eq_scatter s (p := bounce s p)
      simp only [Pixel.route, List.cons.injEq] at hRoute
      obtain ⟨-, -, hRadiance, -, -, -, hNormal, -⟩ := hRoute
      rw [bounce, if_pos h] at hRadiance hNormal
      have hDone : q.isDone = true := by
        rw [Pixel.isDone, hNormal]
        exact h
      rw [bounces, hShade, scatter, if_pos hDone, ih hDone, hRadiance]

/-- The light of a path that meets nothing. -/
def skyLight (origin direction : Vec3 Float32) : Vec3 Float32 :=
  .zero + s.tracer.background (s.inputs origin direction .zero s.hash)
    s.frame.background.truncate * .one

theorem isDone_finish (radiance : Vec3 Float32) (p : Pixel) : (finish radiance p).isDone = true := by
  have hEnded : decide ((-1.0 : Float32) < 0.0) = true := by decide
  exact hEnded

/-- A path whose first ray meets nothing finds the light of the environment. It is the one
of the program, for thumbnails as for the view. -/
theorem radiance_path_of_miss {origin direction : Vec3 Float32}
    (hRay : s.frame.cameraRay (jitter s) = (origin, direction))
    (hMiss : s.trace origin direction = .miss) (p : Pixel) :
    (path s p).radiance.truncate = skyLight s origin direction := by
  obtain ⟨q, hRoute, hShade⟩ := shade_eq_scatter s (p := primary s p)
  simp only [Pixel.route, List.cons.injEq] at hRoute
  obtain ⟨hOrigin, hDir, hRadiance, hThroughput, -, hDepth, hNormal, -⟩ := hRoute
  unfold primary at hOrigin hDir hRadiance hThroughput hDepth hNormal
  rw [hRay] at hOrigin hDir hRadiance hThroughput hDepth hNormal
  dsimp only at hOrigin hDir hRadiance hThroughput hDepth hNormal
  rw [hMiss] at hOrigin hDir hRadiance hThroughput hDepth hNormal
  have hOpen : q.isDone = false := by
    have hZero : decide ((0.0 : Float32) < 0.0) = false := by decide
    rw [Pixel.isDone, hNormal]
    exact hZero
  have hNone : q.isMiss = true := by
    have hNegative : decide (Hit.miss.material < 0.0) = true := by decide
    rw [Pixel.isMiss, hDepth]
    exact hNegative
  rw [path, hShade, scatter, hOpen, if_neg Bool.false_ne_true, if_pos hNone, leave,
    radiance_bounces_of_done s _ (isDone_finish _ q), hOrigin, hDir, hRadiance, hThroughput, hDepth]
  rfl

end Pass

/-- Where the ray of a pixel passes the sphere, a thumbnail shows what the environment
of the program in use makes of the background of all thumbnails. -/
theorem Site.accum_icon_of_passing (t : Tracer) (scene : Scene) (k : Nat) (settings : Settings)
    (extent : Extent) (sample : Nat) (rng : ChaCha) (index : Nat) (p : Pixel) :
    let s : Site := ⟨t, (Frame.icon scene k settings extent sample rng).1, index⟩
    let ray := s.frame.cameraRay (Pass.jitter s)
    intersectSphere ray.1 ray.2 .zero 1.0 = none →
      (Pass.sample s p).accum = (Pass.average sample p.accum.truncate (Pass.sanitize
        (.zero + t.background (s.inputs ray.1 ray.2 .zero s.hash) settings.iconBackground *
          .one))).extend 1.0 := by
  intro s ray hPassing
  have hMiss : s.trace ray.1 ray.2 = .miss := by
    rw [trace_icon, Hit.ofPreview, hPassing]
  have hRay : s.frame.cameraRay (Pass.jitter s) = (ray.1, ray.2) := rfl
  have hLight := Pass.radiance_path_of_miss s hRay hMiss p
  show (Pass.average sample (Pass.path s p).accum.truncate
    (Pass.sanitize (Pass.path s p).radiance.truncate)).extend 1.0 = _
  rw [Pass.accum_path, hLight]
  rfl

end PathTracer
