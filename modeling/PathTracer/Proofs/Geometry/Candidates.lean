import PathTracer.Proofs.Geometry.Nearest
import PathTracer.Scene.Shapes

/-! The trace of a ray against the hits that there are: it is the first of those
at the least distance, and the order of the primitives matters only where two
of them are equally near. -/
namespace PathTracer

/-! ### Equal numbers and those that are none -/

namespace Binary32

open Float.Model (UnpackedFloat)

/-- Numbers are equal where they have one place, as the two zeros do. What is
not a number equals nothing. -/
theorem beq_iff_place {a b : Float32} :
    (a == b) = true ↔ ∃ x, place? a = some x ∧ place? b = some x := by
  have hModel : (a == b) = true ↔ a.toModel.unpack.compare b.toModel.unpack = some .eq := by
    change a.toModel.unpack.beq b.toModel.unpack = true ↔ _
    exact beq_iff_eq
  rw [hModel, compare_eq_places, place?, place?]
  cases placeOf a.toModel.unpack with
  | none => simp
  | some x =>
      cases placeOf b.toModel.unpack with
      | none => simp
      | some y =>
          rw [Option.bind_some, Option.map_some, Option.some.injEq, compare_eq_iff_eq]
          grind

theorem isNaN_iff_place {a : Float32} : a.isNaN = true ↔ place? a = none := by
  change a.toModel.unpack.isNaN = true ↔ placeOf a.toModel.unpack = none
  rcases a.toModel.unpack with (_ | _) | _ | _ | (_ | _) <;>
    simp [placeOf, UnpackedFloat.isNaN]

theorem isNaN_of_lt {a b : Float32} (h : a < b) : a.isNaN = false := by
  obtain ⟨x, _, hPlace, _⟩ := lt_iff_place.mp h
  rw [← Bool.not_eq_true, isNaN_iff_place, hPlace]
  exact Option.some_ne_none x

/-- Of two numbers that are below something neither is below the other only
where they are equal. -/
theorem beq_of_not_lt {a b c d : Float32} (ha : a < c) (hb : b < d) (h : ¬a < b)
    (hBack : ¬b < a) : (a == b) = true := by
  rw [lt_iff_place] at *
  rw [beq_iff_place]
  grind

theorem le_or_isNaN {a b c : Float32} (ha : a < c) (h : ¬b < a) : a ≤ b ∨ b.isNaN = true := by
  rw [lt_iff_place] at *
  rw [le_iff_place, isNaN_iff_place]
  cases hPlace : place? b with
  | none => exact .inr rfl
  | some y => exact .inl (by grind)

theorem lt_or_isNaN {a b c : Float32} (ha : a < c) (h : ¬b < c) : a < b ∨ b.isNaN = true := by
  rw [lt_iff_place] at *
  rw [isNaN_iff_place]
  cases hPlace : place? b with
  | none => exact .inr rfl
  | some y => exact .inl (by grind)

theorem lt_of_not_lt_of_lt {a b c d : Float32} (ha : a < d) (h : ¬b < a) (hLess : b < c) :
    a < c := by
  rw [lt_iff_place] at *
  grind

/-- The product with what is not a number is none either. -/
theorem isNaN_mul {a b : Float32} (h : b.isNaN = true) : (a * b).isNaN = true := by
  have hSecond : b.toModel.unpack = .notANumber := by
    change b.toModel.unpack.isNaN = true at h
    revert h
    rcases b.toModel.unpack with (_ | _) | _ | _ | (_ | _) <;> simp [UnpackedFloat.isNaN]
  have hProduct : a.toModel.unpack.mul .binary32 b.toModel.unpack = .notANumber := by
    rw [hSecond]
    cases a.toModel.unpack <;> rfl
  have hModel : (a * b).toModel = .pack (a.toModel.unpack.mul .binary32 b.toModel.unpack) := rfl
  change (a * b).toModel.unpack.isNaN = true
  rw [hModel, hProduct]
  decide

theorem beq_of_isNaN {a b : Float32} (h : b.isNaN = true) : (a == b) = false := by
  rw [isNaN_iff_place] at h
  rw [← Bool.not_eq_true, beq_iff_place, h]
  simp

end Binary32

/-! ### The least distance -/

namespace Hit

/-- A hit that is not among the nearest is farther than each of those, or has no
distance at all. -/
theorem IsNearest.lt_or_isNaN {candidates : List Hit} {h other : Hit}
    (hNearest : IsNearest candidates h) (hNot : ¬IsNearest candidates other) :
    h.t < other.t ∨ other.t.isNaN = true := by
  by_cases hFar : other.t < farDistance
  · obtain ⟨less, hMem, hLess⟩ : ∃ less ∈ candidates, less.t < other.t := by
      by_contra hNone
      exact hNot ⟨hFar, fun less hMem hLess => hNone ⟨less, hMem, hLess⟩⟩
    exact .inl (Binary32.lt_of_not_lt_of_lt hNearest.1 (hNearest.2 less hMem) hLess)
  · exact Binary32.lt_or_isNaN hNearest.1 hFar

/-- Of hits at pairwise different distances at most one is nearest among any
candidates that they belong to. -/
theorem subsingleton_isNearest {candidates hits : List Hit} (hSub : hits ⊆ candidates)
    (hDiffer : hits.Pairwise fun a b => (a.t == b.t) = false) :
    {h | h ∈ hits ∧ decide (IsNearest candidates h) = true}.Subsingleton := by
  let Alone (a b : Hit) : Prop := IsNearest candidates a → IsNearest candidates b → a = b
  have : Std.Symm Alone := ⟨fun a b h hb ha => (h ha hb).symm⟩
  have hAlone : hits.Pairwise Alone := by
    refine hDiffer.imp_of_mem fun {a b} hFirst hSecond hOther ha hb => ?_
    have hEqual := Binary32.beq_of_not_lt ha.1 hb.1 (hb.2 a (hSub hFirst)) (ha.2 b (hSub hSecond))
    rw [hOther] at hEqual
    cases hEqual
  intro a ha b hb
  exact hAlone.forall_of_forall (fun _ _ _ _ => rfl) ha.1 hb.1 (of_decide_eq_true ha.2)
    (of_decide_eq_true hb.2)

/-- The first of the nearest among candidates in two parts. -/
theorem nearestOf_append (first second : List Hit) :
    nearestOf (first ++ second) =
      ((first.find? (IsNearest (first ++ second) ·)).or
        (second.find? (IsNearest (first ++ second) ·))).getD .miss := by
  rw [nearestOf, List.find?_append]

/-- The order of a first part at pairwise different distances does not matter. -/
theorem nearestOf_append_perm {first other second : List Hit} (hPerm : other.Perm first)
    (hDiffer : first.Pairwise fun a b => (a.t == b.t) = false) :
    nearestOf (other ++ second) = nearestOf (first ++ second) := by
  have hSame : IsNearest (other ++ second) = IsNearest (first ++ second) :=
    funext fun h => propext (isNearest_perm (hPerm.append_right second) h)
  have hFind := List.find?_eq_find?_of_perm hPerm.symm
    (subsingleton_isNearest (List.subset_append_left first second) hDiffer)
  rw [nearestOf_append, nearestOf_append]
  simp only [hSame, hFind]

end Hit

/-! ### The trace -/

namespace Shapes

variable (s : Shapes) (data : Array (Vec4 Float32)) (origin direction : Vec3 Float32)

/-- The hits of a ray, those with primitives first. -/
def hits : List Hit :=
  (s.candidates data origin direction).reduceOption

theorem trace_eq_nearestOf :
    s.trace data origin direction = .nearestOf (s.hits data origin direction) := by
  rw [trace, Hit.foldl_orNearer, hits]

theorem hits_eq_append :
    s.hits data origin direction =
      s.primitives.filterMap (fun p => p.hit? data origin direction) ++
        s.lamps.filterMap (fun l => l.hit? data origin direction) := by
  rw [hits, candidates, List.reduceOption, List.filterMap_append, List.filterMap_map,
    List.filterMap_map]
  rfl

/-- With nothing in reach the ray misses. -/
theorem trace_eq_miss (h : ∀ hit ∈ s.hits data origin direction, ¬hit.t < farDistance) :
    s.trace data origin direction = .miss := by
  rw [trace_eq_nearestOf]
  exact Hit.nearestOf_eq_miss fun hit hMem hNearest => h hit hMem hNearest.1

/-- With something in reach the trace is the first hit at the least distance. The list has
all hits, also such that are no number, which never win. -/
theorem exists_split_trace (h : ∃ hit ∈ s.hits data origin direction, hit.t < farDistance) :
    ∃ before after, s.hits data origin direction =
        before ++ s.trace data origin direction :: after ∧
      Hit.IsNearest (s.hits data origin direction) (s.trace data origin direction) ∧
      ∀ other ∈ before, ¬Hit.IsNearest (s.hits data origin direction) other := by
  rw [trace_eq_nearestOf]
  rcases Hit.nearestOf_cases (s.hits data origin direction) with hFound | ⟨hMiss, _⟩
  · exact hFound
  · obtain ⟨hit, hMem, hNear⟩ := h
    have hLeast := (Hit.foldl_nearer (s.hits data origin direction)).2 hit hMem
    rw [hMiss] at hLeast
    exact absurd hNear hLeast

theorem isNaN_trace : (s.trace data origin direction).t.isNaN = false := by
  rw [trace_eq_nearestOf]
  exact Binary32.isNaN_of_lt (Hit.nearestOf_t_lt _)

/-- Primitives at pairwise different distances may come in any order. -/
theorem trace_perm {reordered : List Primitive} (hPerm : reordered.Perm s.primitives)
    (hDiffer : (s.primitives.filterMap fun p => p.hit? data origin direction).Pairwise
      fun a b => (a.t == b.t) = false) :
    Shapes.trace ⟨reordered, s.lamps⟩ data origin direction = s.trace data origin direction := by
  rw [trace_eq_nearestOf, trace_eq_nearestOf, hits_eq_append, hits_eq_append]
  exact Hit.nearestOf_append_perm (hPerm.filterMap _) hDiffer

/-- A trace misses where no hit is in reach, and otherwise it is the hit that comes first
among those at the least distance, the ones before it being farther. It never has a distance
that is no number, and only equally near primitives make their order matter. No hit is left
out of the list, be it farther than the trace can reach or at no number. Nothing is assumed
of the data, so that this also holds of slots that are not there. -/
theorem trace_eq_first_of_least :
    ((∀ hit ∈ s.hits data origin direction, ¬hit.t < farDistance) →
      s.trace data origin direction = .miss) ∧
    ((∃ hit ∈ s.hits data origin direction, hit.t < farDistance) →
      ∃ before after, s.hits data origin direction =
          before ++ s.trace data origin direction :: after ∧
        (s.trace data origin direction).t < farDistance ∧
        (∀ other ∈ before,
          (s.trace data origin direction).t < other.t ∨ other.t.isNaN = true) ∧
        ∀ other ∈ after,
          (s.trace data origin direction).t ≤ other.t ∨ other.t.isNaN = true) ∧
    (s.trace data origin direction).t.isNaN = false ∧
    ∀ reordered : List Primitive, reordered.Perm s.primitives →
      ((s.primitives.filterMap fun p => p.hit? data origin direction).Pairwise
        fun a b => (a.t == b.t) = false) →
      Shapes.trace ⟨reordered, s.lamps⟩ data origin direction =
        s.trace data origin direction := by
  refine ⟨s.trace_eq_miss data origin direction, fun hReach => ?_,
    s.isNaN_trace data origin direction,
    fun _ hPerm hDiffer => s.trace_perm data origin direction hPerm hDiffer⟩
  obtain ⟨before, after, hSplit, hNearest, hBefore⟩ :=
    s.exists_split_trace data origin direction hReach
  refine ⟨before, after, hSplit, hNearest.1, fun other hOther => ?_, fun other hOther => ?_⟩
  · exact hNearest.lt_or_isNaN (hBefore other hOther)
  · exact Binary32.le_or_isNaN hNearest.1 (hNearest.2 other (by rw [hSplit]; simp [hOther]))

/-- A lamp behind two spheres, of which one belongs to an object whose scale is no
number. -/
def behindSpheres : Array (Vec4 Float32) :=
  #[.splat 0.0, .splat 0.0, .splat 1.0, .splat 0.0, .splat 0.0, .splat (0.0 / 0.0),
    ⟨0.0, 0.0, 0.0, 1.0⟩]

/-- The lamp is in reach, the spheres may change places, and without any of them
the ray misses. -/
theorem trace_behindSpheres :
    let s : Shapes := ⟨[⟨.sphere, 0, 6, 0⟩, ⟨.sphere, 3, 6, 1⟩], [⟨6, 2⟩]⟩
    let origin : Vec3 Float32 := ⟨0.0, 0.0, -3.0⟩
    let direction : Vec3 Float32 := ⟨0.0, 0.0, 1.0⟩
    s.trace behindSpheres origin direction ∈ s.hits behindSpheres origin direction ∧
      Shapes.trace ⟨[⟨.sphere, 3, 6, 1⟩, ⟨.sphere, 0, 6, 0⟩], s.lamps⟩ behindSpheres origin
        direction = s.trace behindSpheres origin direction ∧
      Shapes.trace ⟨[], []⟩ behindSpheres origin direction = .miss := by
  intro s origin direction
  obtain ⟨_, hFirst, _, hOrder⟩ := s.trace_eq_first_of_least behindSpheres origin direction
  have hLamp : (Lamp.mk 6 2).hit? behindSpheres origin direction =
      some ⟨2.0, ⟨0.0, 0.0, -1.0⟩, 2.0, 0.0⟩ := by decide +kernel
  refine ⟨?_, hOrder _ (List.Perm.swap _ _ _) ?_,
    (trace_eq_first_of_least ⟨[], []⟩ behindSpheres origin direction).1 nofun⟩
  · obtain ⟨before, after, hSplit, _⟩ := hFirst
      ⟨⟨2.0, ⟨0.0, 0.0, -1.0⟩, 2.0, 0.0⟩, by simp [hits_eq_append, s, hLamp], by decide⟩
    rw [hSplit]
    exact List.mem_append_right _ List.mem_cons_self
  · -- The second sphere is met at no number if at all.
    have hSecond : ∀ hit, (Primitive.mk .sphere 3 6 1).hit? behindSpheres origin direction =
        some hit → hit.t.isNaN = true := by
      intro hit hHit
      obtain ⟨⟨t, normal⟩, _, rfl⟩ := Option.map_eq_some_iff.mp hHit
      exact Binary32.isNaN_mul (by decide)
    refine List.Pairwise.filterMap (R := fun p q => q = Primitive.mk .sphere 3 6 1) _ ?_ ?_
    · rintro p q rfl a _ b hHit
      exact Binary32.beq_of_isNaN (hSecond b hHit)
    · simp [s]

end Shapes

end PathTracer
