import PathTracer.Proofs.Render.Channels

/-! What a film keeps from one sample to the next. A sample needs nothing of the
pixels but their averages, and the first one not even those. -/
namespace PathTracer

/-- The pixel with all but its average forgotten. -/
def Pixel.kept (p : Pixel) : Pixel :=
  { Pixel.blank with accum := p.accum }

theorem Pixel.kept_eq_iff {p q : Pixel} : q.kept = p.kept ↔ q.accum = p.accum := by
  constructor
  · intro h
    have hAccum : q.kept.accum = p.kept.accum := by rw [h]
    exact hAccum
  · intro h
    rw [Pixel.kept, Pixel.kept, h]

namespace Film

/-- The film with all but the averages of its pixels forgotten. -/
def kept (f : Film) : Film :=
  { f with pixels := f.pixels.map Pixel.kept }

/-- A film after a sample of each of some frames, in order. -/
def renderAll (f : Film) (samples : List (Tracer × Frame)) : Except Failure Film :=
  samples.foldlM (fun film (tracer, frame) => film.render tracer frame) f

theorem image_kept (f : Film) : f.kept.image = f.image := by
  rw [image, image, kept, Array.map_map]
  rfl

/-- Films of one shape have the same target, the same extent and as many pixels. -/
theorem sameShape_of_clear {f g : Film} (h : g.clear = f.clear) :
    g.target = f.target ∧ g.extent = f.extent ∧ g.pixels.size = f.pixels.size := by
  have hTarget : g.clear.target = f.clear.target := by rw [h]
  have hExtent : g.clear.extent = f.clear.extent := by rw [h]
  have hSize : g.clear.pixels.size = f.clear.pixels.size := by rw [h]
  rw [clear, clear, Array.size_replicate, Array.size_replicate] at hSize
  exact ⟨hTarget, hExtent, hSize⟩

theorem accum_of_kept {f g : Film} (h : g.kept = f.kept) {i : Nat} (hFirst : i < f.pixels.size)
    (hSecond : i < g.pixels.size) : g.pixels[i].accum = f.pixels[i].accum := by
  have hPixel : (g.kept.pixels[i]?).map Pixel.accum = (f.kept.pixels[i]?).map Pixel.accum :=
    congrArg (fun film : Film => (film.pixels[i]?).map Pixel.accum) h
  rw [kept, kept, Array.getElem?_map, Array.getElem?_map, Array.getElem?_eq_getElem hFirst,
    Array.getElem?_eq_getElem hSecond] at hPixel
  exact Option.some.inj hPixel

/-- At sites that see the same, a sample adds the same to films that keep the same. The
premise on sites leaves the index of the sample free, since it only enters through the
average. -/
theorem kept_render {f g : Film} {t u : Tracer} {frame other : Frame}
    (hSites : ∀ i, Site.Alike ⟨t, frame, i⟩ ⟨u, other, i⟩) (hShape : g.clear = f.clear)
    (hKept : frame.sampleIndex = 0 ∨ g.kept = f.kept) :
    (g.render u other).map kept = (f.render t frame).map kept := by
  obtain ⟨hTarget, hExtent, hSize⟩ := sameShape_of_clear hShape
  have hFrame : other.extent = frame.extent := (hSites 0).extent
  unfold render
  rw [hFrame, hExtent, hTarget]
  by_cases hFits : frame.extent = f.extent
  · rw [if_pos hFits, if_pos hFits]
    refine congrArg Except.ok ?_
    have hPixels : (g.pixels.mapIdx fun i p => Pass.sample ⟨u, other, i⟩ p).map Pixel.kept =
        (f.pixels.mapIdx fun i p => Pass.sample ⟨t, frame, i⟩ p).map Pixel.kept := by
      refine Array.ext ?_ fun i hSecond hFirst => ?_
      · rw [Array.size_map, Array.size_map, Array.size_mapIdx, Array.size_mapIdx, hSize]
      · rw [Array.getElem_map, Array.getElem_map, Array.getElem_mapIdx, Array.getElem_mapIdx,
          Pixel.kept_eq_iff]
        exact Pass.accum_sample (hSites i) (hKept.imp_right fun h => accum_of_kept h _ _)
    rw [kept, kept, hPixels]
  · rw [if_neg hFits, if_neg hFits]

theorem clear_render {f g : Film} {tracer : Tracer} {frame : Frame}
    (h : f.render tracer frame = .ok g) : g.clear = f.clear := by
  unfold render at h
  split at h
  · cases h
    rw [clear, clear, Array.size_mapIdx]
  · cases h

theorem renderAll_cons (f : Film) (tracer : Tracer) (frame : Frame)
    (rest : List (Tracer × Frame)) :
    f.renderAll ((tracer, frame) :: rest) = (f.render tracer frame).bind (·.renderAll rest) :=
  List.foldlM_cons

/-- What comes of films that keep the same. -/
theorem kept_bind {x y : Except Failure Film} {next other : Film → Except Failure Film}
    (h : y.map kept = x.map kept)
    (hNext : ∀ f g, x = .ok f → y = .ok g → g.kept = f.kept →
      (other g).map kept = (next f).map kept) :
    (y.bind other).map kept = (x.bind next).map kept := by
  cases x with
  | error e =>
      cases y with
      | error e' =>
          cases h
          rfl
      | ok g => cases h
  | ok f =>
      cases y with
      | error e => cases h
      | ok g => exact hNext f g rfl rfl (Except.ok.inj h)

/-- So it is with any number of samples. The first one may ignore what was kept, and after
it all films keep the same. -/
theorem kept_renderAll {samples others : List (Tracer × Frame)}
    (hSites : List.Forall₂ (fun s o => ∀ i, Site.Alike ⟨s.1, s.2, i⟩ ⟨o.1, o.2, i⟩) samples others)
    {f g : Film} (hShape : g.clear = f.clear)
    (hKept : (∃ s ∈ samples.head?, s.2.sampleIndex = 0) ∨ g.kept = f.kept) :
    (g.renderAll others).map kept = (f.renderAll samples).map kept := by
  induction hSites generalizing f g with
  | nil =>
      obtain ⟨s, hNone, _⟩ | hSame := hKept
      · cases hNone
      · exact congrArg Except.ok hSame
  | @cons sample other samples others hFirst hRest ih =>
      obtain ⟨tracer, frame⟩ := sample
      obtain ⟨tracer', frame'⟩ := other
      rw [renderAll_cons, renderAll_cons]
      refine kept_bind (kept_render hFirst hShape (hKept.imp_left ?_)) fun last next hOld hNew h => ?_
      · rintro ⟨s, hHead, hIndex⟩
        cases hHead
        exact hIndex
      · exact ih ((clear_render hNew).trans (hShape.trans (clear_render hOld).symm)) (.inr h)

end Film

/-- A sample of a pixel depends on what the pixel held only through the average, the first
one not even on that. So the samples of a film are the same whether it was cleared before
the first of them or not. The sample of index zero writes over what the pixel held, and the
later ones only weigh it. Rays, lights and depths of an earlier sample are never read. -/
theorem Pass.sample_reads_average :
    (∀ (s : Site) (p q : Pixel), s.frame.sampleIndex = 0 ∨ p.accum = q.accum →
      (Pass.sample s p).accum = (Pass.sample s q).accum) ∧
    ∀ (film : Film) (tracer : Tracer) (frame : Frame) (rest : List (Tracer × Frame)),
      frame.sampleIndex = 0 →
        (film.renderAll ((tracer, frame) :: rest)).map Film.image =
          (film.clear.renderAll ((tracer, frame) :: rest)).map Film.image := by
  constructor
  · intro s p q h
    exact accum_sample (.refl s) h
  · intro film tracer frame rest hIndex
    have hClear : film.clear = film.clear.clear := by
      rw [Film.clear, Film.clear, Array.size_replicate]
    have hSites : List.Forall₂ (fun s o => ∀ i, Site.Alike ⟨s.1, s.2, i⟩ ⟨o.1, o.2, i⟩)
        ((tracer, frame) :: rest) ((tracer, frame) :: rest) :=
      List.forall₂_same.mpr fun s _ i => .refl ⟨s.1, s.2, i⟩
    have hKept := Film.kept_renderAll hSites hClear (.inl ⟨(tracer, frame), rfl, hIndex⟩)
    have hImage : ∀ result : Except Failure Film,
        result.map Film.image = (result.map Film.kept).map Film.image := by
      intro result
      cases result with
      | error e => rfl
      | ok last => exact congrArg Except.ok last.image_kept.symm
    rw [hImage, hKept, ← hImage]

/-! ### A pixel of the sky -/

/-- A scene in which rays meet nothing. -/
def Tracer.sky : Tracer := ⟨[], none, fun _ _ _ => .miss⟩

/-- A frame of one pixel with a bluish background. -/
def Frame.sky (sampleIndex : Nat) : Frame :=
  { (Frame.blank ⟨1, 1⟩ #[]).withBackground ⟨0.25, 0.5, 0.75⟩ with sampleIndex := sampleIndex }

/-- A pixel in which an earlier path has ended. -/
def Pixel.ended : Pixel :=
  { Pixel.blank with
    normal := .splat (-1.0), radiance := .splat 9.0, direct := .splat 8.0, accum := .splat 7.0 }

theorem Pass.sample_reads_average_sky :
    (Pass.sample ⟨.sky, .sky 0, 0⟩ .ended).accum = ⟨0.25, 0.5, 0.75, 1.0⟩ ∧
      (Film.renderAll ⟨.main, ⟨1, 1⟩, #[.ended]⟩ [(.sky, .sky 0), (.sky, .sky 1)]).map Film.image =
        (Film.renderAll ⟨.main, ⟨1, 1⟩, #[.blank]⟩ [(.sky, .sky 0), (.sky, .sky 1)]).map
          Film.image := by
  have hBlank : (Pass.sample ⟨.sky, .sky 0, 0⟩ .blank).accum = ⟨0.25, 0.5, 0.75, 1.0⟩ := by
    decide +kernel
  have hIndex : (Frame.sky 0).sampleIndex = 0 := rfl
  constructor
  · rw [← hBlank]
    exact Pass.sample_reads_average.1 ⟨.sky, .sky 0, 0⟩ .ended .blank (.inl hIndex)
  · exact Pass.sample_reads_average.2 ⟨.main, ⟨1, 1⟩, #[.ended]⟩ .sky (.sky 0) [(.sky, .sky 1)]
      hIndex

end PathTracer
