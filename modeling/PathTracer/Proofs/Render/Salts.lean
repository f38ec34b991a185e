import PathTracer.Proofs.Random.Streams
import PathTracer.Proofs.Render.Endings

/-! The random streams of a sample. Every pass that needs random numbers starts a stream of its
own, whose salt tells the pass and the bounce, and no two of them start alike. -/
namespace PathTracer

namespace Pass

/-! ### The streams that passes start -/

/-- The pass that starts a path, with any stream. -/
def primaryWith (s : Site) (rng : Pcg) (p : Pixel) : Pixel :=
  let (x, rng) := rng.next
  let (y, _) := rng.next
  let (origin, direction) := s.frame.cameraRay
    ⟨s.coordinate.x + fraction (x + s.frame.randomVector.x),
      s.coordinate.y + fraction (y + s.frame.randomVector.y)⟩
  record s (s.trace origin direction) (start origin direction p)

/-- The pass that finds the material of a hit, with any stream. -/
def resolveWith (s : Site) (rng : Pcg) (p : Pixel) : Pixel :=
  if p.isMiss then withoutLight p
  else
    let inputs := s.inputs (hitPosition p) p.camDir.truncate p.normal.truncate p.depth.y
    let material := hitMaterial s p inputs
    let (p, direction) := chooseLight s rng p
    { p with params := material.pack direction }

/-- The pass that sends the path on, with any stream. -/
def scatterWith (s : Site) (rng : Pcg) (p : Pixel) : Pixel :=
  let carried := p.throughput.truncate * transmittance p
  let emission := p.params.params.emission
  if p.isDone then p
  else if p.isMiss then leave s p
  else if 0.0 < emission.x || 0.0 < emission.y || 0.0 < emission.z then
    finish (p.radiance.truncate + emission * carried * emissionWeight s p) p
  else
    let radiance := p.radiance.truncate + p.direct.truncate * carried
    let shade := shading p
    let (sample, _) := Bsdf.sample shade (-p.camDir.truncate) shade.facing rng
    if sample.pdf ≤ 0.0 then finish radiance p
    else continueAlong shade sample radiance carried p

theorem resolve_eq_resolveWith (s : Site) (p : Pixel) :
    resolve s p = resolveWith s (s.stream (bounceCount p * 8 + 1)) p := by
  unfold resolve resolveWith
  rfl

theorem scatter_eq_scatterWith (s : Site) (p : Pixel) :
    scatter s p = scatterWith s (s.stream (bounceCount p * 8 + 3)) p := by
  unfold scatter scatterSurface scatterWith
  rfl

/-- A path starts with the stream of the salt zero. -/
theorem primary_eq_primaryWith (s : Site) (p : Pixel) :
    primary s p = primaryWith s (s.stream 0) p :=
  rfl

namespace Stage

/-- The salt of the stream that a pass starts, if it starts one. -/
def salt? : Stage → Pixel → Option Nat
  | resolve, p => if p.isMiss then none else some (bounceCount p * 8 + 1)
  | scatter, p => if p.isDone then none else some (bounceCount p * 8 + 3)
  | _, _ => none

/-- A pass with any stream. -/
def runWith (s : Site) (rng : Pcg) : Stage → Pixel → Pixel
  | resolve => resolveWith s rng
  | scatter => scatterWith s rng
  | stage => stage.run s

variable (s : Site)

/-- A pass sees no random numbers but those of the stream with its salt. -/
theorem run_eq_runWith (stage : Stage) (rng : Pcg) (p : Pixel) :
    stage.run s p = stage.runWith s (((stage.salt? p).map s.stream).getD rng) p := by
  cases stage with
  | resolve =>
      show Pass.resolve s p = resolveWith s _ p
      rw [salt?]
      split
      · rename_i hMiss
        rw [Pass.resolve, resolveWith, if_pos hMiss, if_pos hMiss]
      · exact resolve_eq_resolveWith s p
  | scatter =>
      show Pass.scatter s p = scatterWith s _ p
      rw [salt?]
      split
      · rename_i hDone
        rw [Pass.scatter, scatterWith, if_pos hDone, if_pos hDone]
      · exact scatter_eq_scatterWith s p
  | _ => rfl

/-- The salts of the streams that passes start, one pass after the other. -/
def startedSalts : List Stage → Pixel → List Nat
  | [], _ => []
  | stage :: rest, p => (stage.salt? p).toList ++ startedSalts rest (stage.run s p)

theorem startedSalts_append (before after : List Stage) (p : Pixel) :
    startedSalts s (before ++ after) p =
      startedSalts s before p ++ startedSalts s after (runAll s before p) := by
  induction before generalizing p with
  | nil => rfl
  | cons stage rest ih =>
      rw [List.cons_append, startedSalts, startedSalts, ih, List.append_assoc]
      rfl

end Stage

/-! ### The salts of bounces -/

/-- The salts of so many bounces, from the one with the given number on. -/
def bounceSalts (first count : Nat) : List Nat :=
  (List.range' first count).flatMap fun bounce => [bounce * 8 + 1, bounce * 8 + 3]

/-- The salts of a sample of so many bounces. The pass that starts the path has the first. -/
def passSalts (depth : Nat) : List Nat :=
  0 :: bounceSalts 0 depth

theorem bounceSalts_succ (first count : Nat) : bounceSalts first (count + 1) =
    [first * 8 + 1, first * 8 + 3] ++ bounceSalts (first + 1) count :=
  rfl

theorem mem_bounceSalts {first count salt : Nat} (h : salt ∈ bounceSalts first count) :
    first * 8 < salt ∧ salt < (first + count) * 8 := by
  obtain ⟨bounce, hBounce, hSalt⟩ := List.mem_flatMap.mp h
  have hRange := List.mem_range'_1.mp hBounce
  simp only [List.mem_cons, List.not_mem_nil, or_false] at hSalt
  omega

theorem nodup_bounceSalts (first count : Nat) : (bounceSalts first count).Nodup := by
  induction count generalizing first with
  | zero => exact List.nodup_nil
  | succ count ih =>
      rw [bounceSalts_succ]
      refine List.Nodup.append (by simp) (ih _) fun salt hFirst hLater => ?_
      have hMore := (mem_bounceSalts hLater).1
      simp only [List.mem_cons, List.not_mem_nil, or_false] at hFirst
      omega

theorem nodup_passSalts (depth : Nat) : (passSalts depth).Nodup :=
  List.nodup_cons.mpr ⟨fun hZero => Nat.not_lt_zero _ (mem_bounceSalts hZero).1,
    nodup_bounceSalts 0 depth⟩

theorem mem_passSalts_lt {depth salt : Nat} (h : salt ∈ passSalts depth) :
    salt < depth * 8 + 1 := by
  rcases List.mem_cons.mp h with rfl | hBounce
  · omega
  · have hLess := (mem_bounceSalts hBounce).2
    omega

/-! ### The number of a bounce -/

/-- A path that has come to the bounce of a number, or has ended before. The ray of an ended
path meets nothing. -/
structure Arrived (bounce : Nat) (p : Pixel) : Prop where
  isMiss : p.isDone = true → p.isMiss = true
  count : p.isDone = false → bounceCount p = bounce

variable (s : Site) {p q : Pixel} {bounce : Nat}

theorem Arrived.of_route (h : Arrived bounce p) (hRoute : q.route = p.route) : Arrived bounce q := by
  have hDone := (Pixel.SameRay.of_route hRoute).2
  simp only [Pixel.route, List.cons.injEq] at hRoute
  obtain ⟨_, _, _, _, hAbsorption, hDepth, _⟩ := hRoute
  constructor
  · rw [hDone, Pixel.isMiss, hDepth]
    exact h.isMiss
  · rw [hDone, bounceCount, hAbsorption]
    exact h.count

theorem isDone_record (hit : Hit) (p : Pixel) : (record s hit p).isDone = false := by
  have hZero : decide ((0.0 : Float32) < 0.0) = false := by decide
  exact hZero

theorem arrived_primary (p : Pixel) : Arrived 0 (primary s p) where
  isMiss h := by
    have hOpen : (primary s p).isDone = false := isDone_record s _ _
    rw [hOpen] at h
    cases h
  count _ := by
    have hZero : Binary32.toNat32 0.0 = 0 := by decide
    exact hZero

/-- Following a path keeps its number. -/
theorem arrived_bounce (h : p.isDone = false → bounceCount p = bounce) :
    Arrived bounce (Pass.bounce s p) := by
  unfold Pass.bounce
  split
  · rename_i hDone
    have hDead : decide (deadMaterial < 0.0) = true := by decide
    exact ⟨fun _ => hDead, fun hOpen => absurd hDone (Bool.not_eq_true _ ▸ hOpen)⟩
  · rename_i hOpen
    exact ⟨fun hDone => absurd hDone (Bool.not_eq_true _ ▸ isDone_record s _ p),
      fun _ => h ((Bool.not_eq_true _).mp hOpen)⟩

/-- The last pass of a bounce ends a path or sends it on. -/
theorem scatter_cases (p : Pixel) : (scatter s p).isDone = true ∨ p.isDone = false ∧
    ∃ shade sample radiance carried,
      scatter s p = continueAlong shade sample radiance carried p := by
  unfold scatter
  split
  · rename_i hDone
    exact .inl hDone
  · rename_i hOpen
    split
    · exact .inl (isDone_finish _ p)
    · rcases scatterSurface_cases s p with ⟨radiance, hEnd⟩ | hNext
      · exact .inl (hEnd ▸ isDone_finish radiance p)
      · exact .inr ⟨(Bool.not_eq_true _).mp hOpen, hNext⟩

/-- A path that goes on counts its bounce. Numbers count exactly for as long. -/
theorem count_scatter (h : Arrived bounce p) (hLess : bounce + 1 < 2 ^ 24)
    (hOpen : (scatter s p).isDone = false) : bounceCount (scatter s p) = bounce + 1 := by
  rcases scatter_cases s p with hDone | ⟨hBefore, shade, sample, radiance, carried, hNext⟩
  · rw [hDone] at hOpen
    cases hOpen
  · have hCount : (continueAlong shade sample radiance carried p).absorption.w =
        .ofNat (bounceCount p + 1) := rfl
    rw [hNext, bounceCount, hCount, h.count hBefore, Binary32.ofNat_eq_packedWhole_of_lt hLess,
      Binary32.toNat32, Binary32.toUInt32_packedWhole hLess]

/-! ### The streams of a sample -/

namespace Stage

/-- A bounce starts at most two streams, with salts of its number. -/
theorem startedSalts_shading (h : Arrived bounce p) :
    (startedSalts s shading p).Sublist [bounce * 8 + 1, bounce * 8 + 3] := by
  have hLit : Arrived bounce (lit s p) := h.of_route (route_lit s)
  have hParts : startedSalts s shading p =
      (salt? resolve p).toList ++ (salt? scatter (lit s p)).toList := by
    show _ ++ ([] ++ ([] ++ (_ ++ []))) = _
    rw [List.append_nil]
    rfl
  have hFirst : (salt? resolve p).toList.Sublist [bounce * 8 + 1] := by
    rw [salt?]
    split
    · exact List.nil_sublist _
    · rename_i hHit
      have hOpen : p.isDone = false := by
        rw [← Bool.not_eq_true]
        exact fun hDone => hHit (h.isMiss hDone)
      rw [h.count hOpen]
      rfl
  have hSecond : (salt? scatter (lit s p)).toList.Sublist [bounce * 8 + 3] := by
    rw [salt?]
    split
    · exact List.nil_sublist _
    · rename_i hOpen
      rw [hLit.count (by rwa [Bool.not_eq_true] at hOpen)]
      rfl
  rw [hParts]
  exact hFirst.append hSecond

/-- So do later bounces, each with a number of its own. -/
theorem startedSalts_later (count : Nat) (hLess : bounce + count ≤ 2 ^ 24)
    (h : p.isDone = false → bounceCount p = bounce) :
    (startedSalts s (later count) p).Sublist (bounceSalts bounce count) := by
  induction count generalizing bounce p with
  | zero => exact List.nil_sublist _
  | succ count ih =>
      have hArrived := arrived_bounce s h
      have hLater : later (count + 1) = [Stage.bounce] ++ shading ++ later count := rfl
      rw [hLater, startedSalts_append, startedSalts_append, runAll_append, bounceSalts_succ]
      refine List.Sublist.append (startedSalts_shading s hArrived) ?_
      cases count with
      | zero => exact List.nil_sublist _
      | succ count =>
          refine ih (by omega) fun hOpen => ?_
          exact count_scatter s (hArrived.of_route (route_lit s)) (by omega) hOpen

/-- The salts of a sample are among those of its number of bounces, in their order. -/
theorem startedSalts_ofDepth {count : Nat} (hLess : count < 2 ^ 24) (p : Pixel) :
    (0 :: startedSalts s (ofDepth (count + 1)) (primary s p)).Sublist (passSalts (count + 1)) := by
  have hArrived := arrived_primary s p
  refine List.Sublist.cons_cons 0 ?_
  rw [ofDepth, startedSalts_append, startedSalts_append, bounceSalts_succ]
  show (_ ++ _ ++ []).Sublist _
  rw [List.append_nil]
  refine List.Sublist.append (startedSalts_shading s hArrived) ?_
  cases count with
  | zero => exact List.nil_sublist _
  | succ count =>
      refine startedSalts_later s (count + 1) (by omega) fun hOpen => ?_
      exact count_scatter s (hArrived.of_route (route_lit s)) (by omega) hOpen

end Stage

/-- Different salts start different streams. -/
theorem nodup_map_stream {depth : Nat} (h : depth ≤ 2 ^ 24) :
    ((passSalts depth).map s.stream).Nodup := by
  refine List.Nodup.map_on (fun salt hSalt other hOther hSame => ?_) (nodup_passSalts depth)
  have hWords : salt.toUInt32 = other.toUInt32 := Pcg.start_inj_salt.mp hSame
  have hFirst := mem_passSalts_lt hSalt
  have hSecond := mem_passSalts_lt hOther
  have hNat := congrArg UInt32.toNat hWords
  change salt % 2 ^ 32 = other % 2 ^ 32 at hNat
  omega

/-- Streams never start alike. The hash has no collisions, so that different pixels and
different salts start different streams. The passes of a sample have one salt each and see
no random numbers but those of its stream, and streams that start apart stay apart. Nothing
is said of how random the numbers are, or of how soon a stream meets another: streams that
start apart are never at one state at the same time. -/
theorem streams_apart :
    Function.Injective Pcg.hash ∧
    (∀ frameSeed salt, Function.Injective fun pixel => Pcg.start pixel frameSeed salt) ∧
    (∀ pixel frameSeed, Function.Injective fun salt => Pcg.start pixel frameSeed salt) ∧
    (∀ (s : Site) (p : Pixel), primary s p = primaryWith s (s.stream 0) p ∧
      (∀ (stage : Stage) rng q,
        stage.run s q = stage.runWith s (((stage.salt? q).map s.stream).getD rng) q) ∧
      ∀ count < 2 ^ 24,
        (0 :: Stage.startedSalts s (Stage.ofDepth (count + 1)) (primary s p)).Sublist
          (passSalts (count + 1)) ∧
        ((passSalts (count + 1)).map s.stream).Nodup) ∧
    (∀ a b : Pcg, a ≠ b → ∀ n, a.after n ≠ b.after n) ∧
    ∀ rng : Pcg, 0.0 ≤ rng.next.1 ∧ rng.next.1 < 1.0 := by
  refine ⟨Pcg.injective_hash, fun _ _ _ _ h => Pcg.start_inj_pixel.mp h,
    fun _ _ _ _ h => Pcg.start_inj_salt.mp h, fun s p => ⟨primary_eq_primaryWith s p,
      Stage.run_eq_runWith s, fun count hLess => ⟨?_, ?_⟩⟩, fun a b hApart n hSame => ?_,
    Pcg.next_bounds⟩
  · exact Stage.startedSalts_ofDepth s hLess p
  · exact nodup_map_stream s hLess
  · exact hApart ((Pcg.after_inj n).mp hSame)

/-- A pixel of an empty scene with two bounces, and two streams after five numbers. -/
theorem streams_apart_empty :
    let s : Site := ⟨⟨[], none, fun _ _ _ => .miss⟩, .blank ⟨1, 1⟩ #[], 0⟩
    passSalts 2 = [0, 1, 3, 9, 11] ∧ ((passSalts 2).map s.stream).Nodup ∧
      (⟨1⟩ : Pcg).after 5 ≠ (⟨2⟩ : Pcg).after 5 := by
  intro s
  obtain ⟨_, _, _, hSample, hStay, _⟩ := streams_apart
  exact ⟨rfl, ((hSample s .blank).2.2 1 (by decide)).2, hStay ⟨1⟩ ⟨2⟩ (by decide) 5⟩

end Pass

end PathTracer
