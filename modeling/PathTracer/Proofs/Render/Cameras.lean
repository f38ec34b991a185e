import PathTracer.Proofs.Render.Bounds
import PathTracer.Proofs.Render.Rays
import PathTracer.Proofs.Scene.Acceptance

/-! Cameras of scenes and the rays through the points of their images. -/
namespace PathTracer

open Binary32

namespace Frame

/-! ### Points of the image -/

theorem value_two : value 2.0 = 2 := by
  rw [value_of_place (e := -22) (m := 2 ^ 23) rfl (by decide)]
  norm_num

/-- A point between the edges of the image, as twice its part of the extent. It is between
zero and two, but for the rounding of a quotient. -/
theorem coordinate_bounds {n : Nat} {p : Float32} (hPos : 0 < n) (hLess : n < 2 ^ 32)
    (hLow : 0.0 ≤ p) (hHigh : p ≤ .ofNat n) :
    (p / .ofNat n * 2.0).isFinite = true ∧ 0 ≤ value (p / .ofNat n * 2.0) ∧
      value (p / .ofNat n * 2.0) ≤ 2 + 1 / 2 ^ 18 := by
  have hSize := within_ofNat hPos hLess
  obtain ⟨hLeast, -⟩ := value_ofNat_bounds hPos hLess
  have hPoint := isFinite_of_le rfl hSize.isFinite hLow hHigh
  rw [value_le_iff rfl hPoint, value_zero] at hLow
  rw [value_le_iff hPoint hSize.isFinite] at hHigh
  generalize Float32.ofNat n = size at *
  have hSizePos : 0 < value size := lt_of_lt_of_le (by norm_num) hLeast
  have hSide : 0 ≤ value p / value size := div_nonneg hLow hSizePos.le
  have hPart : |value p / value size| ≤ 1 := by
    rw [abs_of_nonneg hSide]
    exact (div_le_one hSizePos).mpr hHigh
  have hQuotient := approximates_div hPoint hSize.isFinite hSizePos.ne'
    (lt_overflow (hPart.trans (by norm_num)))
  have hTwo : Within 2 2.0 := ⟨rfl, by rw [value_two]; norm_num⟩
  have hWithin : Within (1 + 1 / 2 ^ 20) (p / size) := hQuotient.within hPart (by norm_num)
  have hDouble := hWithin.approximates_mul hTwo (by norm_num)
  have hNext : 0 ≤ value (p / size) * value 2.0 :=
    mul_nonneg (hQuotient.near.nonneg hSide) (by rw [value_two]; norm_num)
  refine ⟨hDouble.isFinite, hDouble.near.nonneg hNext, ?_⟩
  exact (le_abs_self _).trans (hWithin.mul hTwo (by norm_num) (by norm_num)).abs_le

/-- Points of an image in pixels, its edges included. -/
def Shows (extent : Extent) (point : Vec2 Float32) : Prop :=
  (0.0 ≤ point.x ∧ point.x ≤ .ofNat extent.width) ∧
    0.0 ≤ point.y ∧ point.y ≤ .ofNat extent.height

variable {extent : Extent} {point : Vec2 Float32} {scale : Float32}

/-- How far the points of an image are from its center. The bound takes in the aspect of the
image, which may be as great as an extent can be. -/
theorem within_offsets (hWidth : 0 < extent.width ∧ extent.width < 2 ^ 32)
    (hHeight : 0 < extent.height ∧ extent.height < 2 ^ 32) (hPoint : Shows extent point)
    (hScale : Within (2 ^ 27) scale) :
    Within (2 ^ 60) ((point.x / .ofNat extent.width * 2.0 - 1.0) * scale * .ofNat extent.width /
      .ofNat extent.height) ∧
    Within (2 ^ 28) ((1.0 - point.y / .ofNat extent.height * 2.0) * scale) := by
  obtain ⟨hFiniteX, hLowX, hHighX⟩ :=
    coordinate_bounds hWidth.1 hWidth.2 hPoint.1.1 hPoint.1.2
  obtain ⟨hFiniteY, hLowY, hHighY⟩ :=
    coordinate_bounds hHeight.1 hHeight.2 hPoint.2.1 hPoint.2.2
  have hSize := within_ofNat hWidth.1 hWidth.2
  have hOther := within_ofNat hHeight.1 hHeight.2
  obtain ⟨hLeast, -⟩ := value_ofNat_bounds hHeight.1 hHeight.2
  have hOne : (1.0 : Float32).isFinite = true := rfl
  have hCenter {t : ℝ} (hLow : 0 ≤ t) (hHigh : t ≤ 2 + 1 / 2 ^ 18) : |t - 1| ≤ 1 + 1 / 2 ^ 18 := by
    rw [abs_le]
    norm_num at hHigh ⊢
    exact ⟨by linarith, by linarith⟩
  have hX : Within (1 + 1 / 2 ^ 16) (point.x / .ofNat extent.width * 2.0 - 1.0) := by
    have hAbs : |value (point.x / .ofNat extent.width * 2.0) - value 1.0| ≤ 1 + 1 / 2 ^ 18 := by
      rw [value_one]
      exact hCenter hLowX hHighX
    exact (approximates_sub hFiniteX hOne (lt_overflow (hAbs.trans (by norm_num)))).within hAbs
      (by norm_num)
  have hY : Within (1 + 1 / 2 ^ 16) (1.0 - point.y / .ofNat extent.height * 2.0) := by
    have hAbs : |value 1.0 - value (point.y / .ofNat extent.height * 2.0)| ≤ 1 + 1 / 2 ^ 18 := by
      rw [value_one, abs_sub_comm]
      exact hCenter hLowY hHighY
    exact (approximates_sub hOne hFiniteY (lt_overflow (hAbs.trans (by norm_num)))).within hAbs
      (by norm_num)
  have hScaled := hX.mul (C := 2 ^ 27 + 2 ^ 12) hScale (by norm_num) (by norm_num)
  have hWide := hScaled.mul (C := 2 ^ 59 + 2 ^ 46) hSize (by norm_num) (by norm_num)
  refine ⟨?_, hY.mul hScale (by norm_num) (by norm_num)⟩
  have hPos : 0 < value (Float32.ofNat extent.height) := lt_of_lt_of_le (by norm_num) hLeast
  have hAbs : |value ((point.x / .ofNat extent.width * 2.0 - 1.0) * scale * .ofNat extent.width) /
      value (Float32.ofNat extent.height)| ≤ 2 ^ 59 * (5 / 4) := by
    rw [abs_div, abs_of_pos hPos, div_le_iff₀ hPos]
    have hMost := hWide.abs_le
    norm_num at hMost ⊢
    linarith
  exact (approximates_div hWide.isFinite hOther.isFinite hPos.ne'
    (lt_overflow (hAbs.trans (by norm_num)))).within hAbs (by norm_num)

/-! ### Rays -/

/-- Every component of a ray. -/
def components (ray : Vec3 Float32 × Vec3 Float32) : List Float32 :=
  ray.1.toList ++ ray.2.toList

/-- The view of a camera, in its own words. -/
def view (f : Frame) : Vec3 Float32 :=
  (f.cameraLookAt.truncate - f.cameraOrigin.truncate).normalize

/-- The point of the image plane that a ray goes through. -/
def planePoint (f : Frame) (point : Vec2 Float32) : Vec3 Float32 :=
  offset f.view (rightOf f.view)
    ((point.x / .ofNat f.extent.width * 2.0 - 1.0) * f.cameraOrigin.w * .ofNat f.extent.width /
      .ofNat f.extent.height)
    ((1.0 - point.y / .ofNat f.extent.height * 2.0) * f.cameraOrigin.w)

theorem cameraRay_eq (f : Frame) (point : Vec2 Float32) :
    f.cameraRay point =
      if 0.5 < f.cameraLookAt.w then (f.cameraOrigin.truncate + f.planePoint point, f.view)
      else (f.cameraOrigin.truncate, (f.view + f.planePoint point).normalize) :=
  rfl

/-- A camera at a place of its own has rays of finite components. The premise is on the
square of the distance as it is rounded, and all other lengths follow from it. -/
theorem isFinite_cameraRay {f : Frame} (hWidth : 0 < f.extent.width ∧ f.extent.width < 2 ^ 32)
    (hHeight : 0 < f.extent.height ∧ f.extent.height < 2 ^ 32)
    (hOrigin : f.cameraOrigin.truncate.Within (2 ^ 14))
    (hLookAt : f.cameraLookAt.truncate.Within (2 ^ 14)) (hScale : Within (2 ^ 27) f.cameraOrigin.w)
    (hApart : value (f.cameraLookAt.truncate - f.cameraOrigin.truncate).lengthSquared ≠ 0)
    (hPoint : Shows f.extent point) :
    ∀ x ∈ components (f.cameraRay point), x.isFinite = true := by
  obtain ⟨ha, hb⟩ := within_offsets hWidth hHeight hPoint hScale
  have hView : (f.cameraLookAt.truncate - f.cameraOrigin.truncate).Within (2 ^ 62) :=
    Vec3.within_sub hLookAt hOrigin (by norm_num) (by norm_num)
  obtain ⟨M, -, hGreatest⟩ := Vec3.exists_greatest_normalize hView.isFinite_lengthSquared hApart
  have hAxes : Axes f.view (rightOf f.view) :=
    axes_rightOf (Vec3.within_normalize hView.isFinite_lengthSquared hApart)
      (hGreatest.imp And.right (Or.imp And.right And.right))
  have hRay : (f.cameraRay point).1.Within (2 ^ 62) ∧ (f.cameraRay point).2.Within (2 ^ 62) := by
    rw [cameraRay_eq]
    split
    · exact ⟨Vec3.within_add hOrigin (hAxes.within_offset ha hb) (by norm_num) (by norm_num),
        hAxes.within_forward.mono (by norm_num)⟩
    · exact ⟨hOrigin.mono (by norm_num),
        (Vec3.within_normalize (hAxes.within_sum ha hb).isFinite_lengthSquared
          (hAxes.lengthSquared_ne_zero ha hb)).mono (by norm_num)⟩
  intro x hx
  rcases List.mem_append.mp hx with hFirst | hSecond
  · exact (hRay.1 x hFirst).isFinite
  · exact (hRay.2 x hSecond).isFinite

/-- A camera that looks at its own place has no rays. The square of the distance may also be
zero by rounding, and what is divided by it then has no number for a component. -/
theorem isNaN_cameraRay {f : Frame}
    (hSame : ((f.cameraLookAt.truncate - f.cameraOrigin.truncate).lengthSquared == 0.0) = true)
    (point : Vec2 Float32) :
    ∃ x ∈ components (f.cameraRay point), x.isNaN = true := by
  obtain ⟨-, hViewY, -⟩ := Vec3.not_isFinite_normalize hSame
  have hAcross : (Vec3.axisY.cross f.view).x.isNaN = true :=
    isNaN_sub_of_isNaN (.inr (isNaN_mul_zero hViewY))
  have hRight : (rightOf f.view).x.isNaN = true := by
    unfold rightOf
    rw [if_neg fun hSteep => not_le_of_isNaN (Vec3.isNaN_length hAcross) (le_of_lt hSteep)]
    exact isNaN_mul_left hAcross
  have hPlane : (f.planePoint point).x.isNaN = true := isNaN_add (.inl (isNaN_mul_left hRight))
  rw [cameraRay_eq]
  split
  · exact ⟨_, List.mem_append_left _ List.mem_cons_self, isNaN_add (.inr hPlane)⟩
  · exact ⟨_, List.mem_append_right _ List.mem_cons_self,
      isNaN_mul_left (isNaN_add (.inr hPlane))⟩

/-- A frame of the view has the camera of its scene. -/
theorem main_camera {scene : Scene} {camera : Camera} (h : scene.entities.camera = some camera)
    (settings : Settings) (extent : Extent) (sample : Nat) (rng : ChaCha) :
    ∃ frame next, main scene settings extent sample rng = .ok (frame, next) ∧
      frame.extent = extent ∧ frame.cameraOrigin = camera.origin.extend camera.scale ∧
        frame.cameraLookAt = camera.lookAt.extend (if camera.orthographic then 1.0 else 0.0) := by
  rw [main, h]
  refine ⟨_, _, rfl, ?_⟩
  simp [ofView, foldl_addLight, withMaxDepth, withBackground, withCamera, blank]

end Frame

/-! ### Cameras of scenes -/

/-- The position, the point in view and the angle of a camera are numbers up to ten thousand. -/
def Camera.IsModest (c : Camera) : Prop :=
  ∀ x ∈ c.fieldOfView :: (c.origin.toList ++ c.lookAt.toList), x.abs ≤ 10000.0

theorem Camera.IsModest.within {c : Camera} (h : c.IsModest) :
    Within 10000 c.fieldOfView ∧ c.origin.Within (2 ^ 14) ∧ c.lookAt.Within (2 ^ 14) := by
  have hValue : value 10000.0 = 10000 := by
    rw [value_of_place (e := -10) (m := 10240000) rfl (by decide)]
    norm_num
  have hEvery : ∀ x ∈ c.fieldOfView :: (c.origin.toList ++ c.lookAt.toList), Within 10000 x :=
    fun x hx => hValue ▸ within_of_abs_le rfl (h x hx)
  refine ⟨hEvery _ List.mem_cons_self, fun x hx => ?_, fun x hx => ?_⟩
  · exact (hEvery x (List.mem_cons_of_mem _ (List.mem_append_left _ hx))).mono (by norm_num)
  · exact (hEvery x (List.mem_cons_of_mem _ (List.mem_append_right _ hx))).mono (by norm_num)

/-- The half height of a modest camera is bounded. For a perspective view the bound is the
premise on the tangent, since no rounding of the tangent is assumed. -/
theorem Camera.within_scale {c : Camera} (h : Within 10000 c.fieldOfView)
    (hTan : c.orthographic = false → c.scale.abs ≤ 134217728.0) : Within (2 ^ 27) c.scale := by
  cases hKind : c.orthographic with
  | true =>
      have hScale : c.scale = c.fieldOfView * 0.5 := by rw [scale, hKind, if_pos rfl]
      have hHalf : Within 1 0.5 := by
        refine ⟨rfl, ?_⟩
        rw [value_of_place (e := -24) (m := 2 ^ 23) rfl (by decide)]
        norm_num
      rw [hScale]
      exact h.mul hHalf (by norm_num) (by norm_num)
  | false =>
      have hValue : value 134217728.0 = 2 ^ 27 := by
        rw [value_of_place (e := 4) (m := 2 ^ 23) rfl (by decide)]
        norm_num
      exact hValue ▸ within_of_abs_le rfl (hTan hKind)

/-- An accepted graph gives every frame of the view a camera. Where the numbers of the
camera are modest, up to ten thousand, its rays are made of numbers if and only if the
square of the distance to what it looks at is not rounded to zero, and then of finite ones,
also in steep views and far from the center. The half height of a perspective view is a
tangent, which is taken to stay below `2 ^ 27` for angles of this precision. -/
theorem SceneGraph.cameraRay_isNaN_iff {g : SceneGraph} {time : Float32} {s : Scene}
    (h : g.compileAt time = .ok s) (settings : Settings) (extent : Extent)
    (hWidth : 0 < extent.width ∧ extent.width < 2 ^ 32)
    (hHeight : 0 < extent.height ∧ extent.height < 2 ^ 32) (sample : Nat) (rng : ChaCha) :
    ∃ camera frame next, s.entities.camera = some camera ∧
      Frame.main s settings extent sample rng = .ok (frame, next) ∧
      (camera.IsModest → (camera.orthographic = false → camera.scale.abs ≤ 134217728.0) →
        ∀ point, Frame.Shows extent point →
          ((∀ x ∈ Frame.components (frame.cameraRay point), x.isNaN = false) ↔
            ((camera.lookAt - camera.origin).lengthSquared == 0.0) = false) ∧
          (((camera.lookAt - camera.origin).lengthSquared == 0.0) = false →
            ∀ x ∈ Frame.components (frame.cameraRay point), x.isFinite = true)) := by
  obtain ⟨camera, hCamera⟩ := Option.isSome_iff_exists.mp (Scene.camera_of_compileAt h)
  obtain ⟨frame, next, hFrame, hExtent, hOrigin, hLookAt⟩ :=
    Frame.main_camera hCamera settings extent sample rng
  refine ⟨camera, frame, next, hCamera, hFrame, fun hModest hTan point hPoint => ?_⟩
  obtain ⟨hAngle, hFrom, hTo⟩ := hModest.within
  have hScale := Camera.within_scale hAngle hTan
  have hWay : frame.cameraLookAt.truncate - frame.cameraOrigin.truncate =
      camera.lookAt - camera.origin := by
    rw [hOrigin, hLookAt]
    rfl
  have hFinite : ((camera.lookAt - camera.origin).lengthSquared == 0.0) = false →
      ∀ x ∈ Frame.components (frame.cameraRay point), x.isFinite = true := by
    intro hApart
    have hSquare := Vec3.Within.isFinite_lengthSquared
      (Vec3.within_sub hTo hFrom (by norm_num) (by norm_num))
    refine Frame.isFinite_cameraRay (hExtent ▸ hWidth) (hExtent ▸ hHeight) (hOrigin ▸ hFrom)
      (hLookAt ▸ hTo) (hOrigin ▸ hScale) ?_ (hExtent ▸ hPoint)
    rw [hWay]
    intro hZero
    rw [← value_zero, ← value_eq_iff hSquare rfl, hApart] at hZero
    cases hZero
  refine ⟨⟨fun hNumbers => ?_, fun hApart x hx => isNaN_of_isFinite (hFinite hApart x hx)⟩, hFinite⟩
  by_contra hSame
  have hZero := (congrArg (fun way => way.lengthSquared == 0.0) hWay).trans
    (Bool.eq_true_of_not_eq_false hSame)
  obtain ⟨x, hx, hNaN⟩ := Frame.isNaN_cameraRay hZero point
  rw [hNumbers x hx] at hNaN
  cases hNaN

/-- A graph with a single isometric camera that has no options. -/
theorem SceneGraph.cameraRay_isNaN_iff_isometric :
    let g : SceneGraph := ⟨[.new .render .empty 1 [.new (.camera .isometric) .empty 2 []]]⟩
    ∃ s frame next, g.compileAt 0.0 = .ok s ∧
      Frame.main s .default ⟨4, 4⟩ 0 (.ofSeed 0) = .ok (frame, next) ∧
        ∀ x ∈ Frame.components (frame.cameraRay ⟨1.0, 3.5⟩), x.isFinite = true := by
  intro g
  have hCompiles : (g.compileAt 0.0).toOption.map (fun s => s.entities.camera) =
      some (some ⟨⟨8.0, 8.0, -8.0⟩, .zero, 6.0, true⟩) := by
    decide
  obtain ⟨s, hScene, hPlaced⟩ := exists_ok_of_map hCompiles
  obtain ⟨camera, frame, next, hCamera, hFrame, hRays⟩ :=
    cameraRay_isNaN_iff hScene .default ⟨4, 4⟩ (by decide) (by decide) 0 (.ofSeed 0)
  obtain rfl := Option.some.inj (hCamera.symm.trans hPlaced)
  have hModest : Camera.IsModest ⟨⟨8.0, 8.0, -8.0⟩, .zero, 6.0, true⟩ := by
    unfold Camera.IsModest
    decide
  have hShows : Frame.Shows ⟨4, 4⟩ ⟨1.0, 3.5⟩ := by
    unfold Frame.Shows
    decide
  exact ⟨s, frame, next, hScene, hFrame,
    (hRays hModest nofun ⟨1.0, 3.5⟩ hShows).2 rfl⟩

/-! ### A camera without a view -/

variable {origin lookAt : Vec3 Float32} {angle time : Float32} {options : Options}

/-- A perspective camera is recorded as its options say. -/
theorem Node.visitCamera_eq {n : Node} {c : Context}
    (hOrigin : n.options.float3 "Origin" ⟨0.0, 0.0, -5.0⟩ c.time = .ok origin)
    (hLookAt : n.options.float3 "LookAt" .zero c.time = .ok lookAt)
    (hAngle : n.options.float1 "Fov" 60.0 c.time = .ok angle) :
    n.visitCamera .perspective c =
      ((), { c with entities := { c.entities with camera := some ⟨origin, lookAt, angle, false⟩ } }) := by
  have hBind {α β : Type} (m : StateM Context α) (f : α → StateM Context β) (a : α)
      (h : m c = (a, c)) : (m >>= f) c = f a c := by
    show f (m c).1 (m c).2 = _
    rw [h]
  unfold visitCamera
  refine (hBind _ _ origin ?_).trans ((hBind _ _ lookAt ?_).trans ((hBind _ _ angle ?_).trans rfl))
  · unfold readFloat3
    rw [hOrigin]
  · unfold readFloat3
    rw [hLookAt]
  · unfold readFloat1
    rw [hAngle]

/-- A graph of one perspective camera. -/
def SceneGraph.ofCamera (options : Options) : SceneGraph :=
  ⟨[.new .render .empty 1 [.new (.camera .perspective) options 2 []]]⟩

/-- A graph with a single camera compiles at every time at which its options can be read,
and the camera is recorded as they say. -/
theorem SceneGraph.compileAt_ofCamera
    (hOrigin : options.float3 "Origin" ⟨0.0, 0.0, -5.0⟩ time = .ok origin)
    (hLookAt : options.float3 "LookAt" .zero time = .ok lookAt)
    (hAngle : options.float1 "Fov" 60.0 time = .ok angle) :
    ∃ s, (ofCamera options).compileAt time = .ok s ∧
      s.entities.camera = some ⟨origin, lookAt, angle, false⟩ := by
  obtain ⟨programs, environment, hPrograms, hProgram, hCompile⟩ :=
    compileAt_walk (g := ofCamera options) rfl rfl rfl
  let node : Node := .new (.camera .perspective) options 2 []
  let render : Node := .new .render .empty 1 [node]
  have hVisit := Node.visitCamera_eq (n := node) (c := .start time) hOrigin hLookAt hAngle
  have hWalk : render.compile (.start time) =
      ([], (node.visitCamera .perspective (.start time)).2) := rfl
  rw [hVisit] at hWalk
  have hScene : (ofCamera options).compileAt time = (render.compile (.start time)).2.finish render
    programs environment (render.compile (.start time)).1 := hCompile time
  rw [hWalk] at hScene
  obtain ⟨program, hGenerate⟩ := Shader.Program.exists_generate [] hPrograms hProgram
  exact ⟨_, hScene.trans (Context.finish_eq_ok.mpr ⟨rfl, rfl, _, program, rfl, hGenerate, rfl⟩), rfl⟩

/-- A camera in the point that it looks at is accepted, and its rays are no numbers. So the
frame is made of nothing but darkness, and no check has said so. -/
theorem SceneGraph.cameraRay_of_samePlace :
    ¬∀ (g : SceneGraph) (time : Float32) (s : Scene) (settings : Settings) (extent : Extent)
      (sample : Nat) (rng : ChaCha) (camera : Camera) (frame : Frame) (next : ChaCha)
      (point : Vec2 Float32), g.compileAt time = .ok s → s.entities.camera = some camera →
        camera.IsModest → 0 < extent.width ∧ extent.width < 2 ^ 32 →
        0 < extent.height ∧ extent.height < 2 ^ 32 →
        Frame.main s settings extent sample rng = .ok (frame, next) → Frame.Shows extent point →
          ∀ x ∈ Frame.components (frame.cameraRay point), x.isNaN = false := by
  intro hClaim
  let options : Options := ⟨[("origin", .source "0")]⟩
  have hZero : Expression.tokenize "0" = .ok [.number 0.0] := by decide +kernel
  have hOrigin : options.float3 "Origin" ⟨0.0, 0.0, -5.0⟩ 0.0 = .ok .zero := by
    have hValue : options.value "Origin" 0.0 = .ok (some (.float1 0.0)) := by
      change (Options.evalSource "Origin" "0").map some = _
      rw [Options.evalSource_of_number "Origin" hZero]
      rfl
    unfold Options.float3 Options.typed
    rw [hValue]
    rfl
  have hLookAt : options.float3 "LookAt" .zero 0.0 = .ok .zero := rfl
  have hAngle : options.float1 "Fov" 60.0 0.0 = .ok 60.0 := rfl
  obtain ⟨s, hScene, hCamera⟩ := compileAt_ofCamera hOrigin hLookAt hAngle
  obtain ⟨frame, next, hFrame, -, hPlace, hPoint⟩ :=
    Frame.main_camera hCamera .default ⟨1, 1⟩ 0 (.ofSeed 0)
  have hSame : ((frame.cameraLookAt.truncate -
      frame.cameraOrigin.truncate).lengthSquared == 0.0) = true := by
    rw [hPlace, hPoint]
    decide
  have hModest : Camera.IsModest ⟨.zero, .zero, 60.0, false⟩ := by
    unfold Camera.IsModest
    decide
  have hShows : Frame.Shows ⟨1, 1⟩ ⟨0.5, 0.5⟩ := by
    unfold Frame.Shows
    decide
  obtain ⟨x, hx, hNaN⟩ := Frame.isNaN_cameraRay hSame ⟨0.5, 0.5⟩
  rw [hClaim _ 0.0 s .default ⟨1, 1⟩ 0 (.ofSeed 0) _ frame next ⟨0.5, 0.5⟩ hScene hCamera hModest
    (by decide) (by decide) hFrame hShows x hx] at hNaN
  cases hNaN

end PathTracer
