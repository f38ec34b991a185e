import PathTracer.Proofs.Pipeline.Subject
import PathTracer.Proofs.Pipeline.Takes
import PathTracer.Proofs.Render.Likeness
import PathTracer.Proofs.Render.Thumbnail

/-! What thumbnails of materials have in common in two runs, whatever else the scenes
hold and whatever the main view shows: the material, the environment, which is seen
past the sphere, and the place of each sample in the random stream. -/
namespace PathTracer

/-- The first material with a name. -/
def Scene.named? (s : Scene) (name : String) : Option Material.Program :=
  s.materials.find? fun m => m.name == name

/-- The material with a name has its index. -/
theorem Scene.named?_of_materialIndex? {s : Scene} {name : String} {index : Nat}
    (h : s.materialIndex? name = some index) :
    s.materials[index]? = s.named? name ∧ index < s.materials.length := by
  obtain ⟨hBound, hName, hFirst⟩ := List.findIdx?_eq_some_iff_getElem.mp h
  have hFound : s.named? name = some s.materials[index] :=
    List.find?_eq_some_iff_getElem.mpr
      ⟨hName, index, hBound, rfl, fun j hj => by rw [Bool.not_eq_true']; simpa using hFirst j hj⟩
  exact ⟨(List.getElem?_eq_getElem hBound).trans hFound.symm, hBound⟩

theorem Film.expose_eq_renderAll (film : Film) (shots : List (Shot Tracer)) :
    film.expose shots = film.renderAll (shots.map fun s => (s.installed.program, s.frame)) := by
  unfold expose renderAll
  rw [List.foldlM_map]

namespace Take

/-- The sample shows a material of the scene in use, with a program that renders this
scene, and the indices that it uses are exact as numbers. -/
structure Shows (name : String) (t : Take Tracer) : Prop where
  preview : (Subject.material name).preview? t.installed.scene = some t.frame.preview
  program : t.installed.program.Alike (.ofScene t.installed.scene)
  data : t.installed.scene.data.size < Frame.exactIndices
  materials : t.installed.scene.materials.length ≤ Frame.exactIndices

/-- Two samples of materials that look the same, after as many samples of the main
view and in front of the same environment. -/
structure SameLook (name name' : String) (t u : Take Tracer) : Prop where
  first : t.Shows name
  second : u.Shows name'
  material : Option.Rel Material.Program.SameBody (t.installed.scene.named? name)
    (u.installed.scene.named? name')
  background : (Tracer.ofScene u.installed.scene).background =
    (Tracer.ofScene t.installed.scene).background
  views : u.views = t.views

variable {name name' : String} {t u : Take Tracer}

theorem Shows.index (h : t.Shows name) : ∃ index : Nat, t.frame.preview = index ∧
    index < Frame.exactIndices ∧
    t.installed.scene.materials[index]? = t.installed.scene.named? name := by
  obtain ⟨index, hIndex, hPreview⟩ := Option.map_eq_some_iff.mp h.preview
  obtain ⟨hFound, hBound⟩ := Scene.named?_of_materialIndex? hIndex
  exact ⟨index, hPreview.symm, Nat.lt_of_lt_of_le hBound h.materials, hFound⟩

/-- The passes see the same at both samples. The seeds are the same since as many samples
came before, of either target. -/
theorem SameLook.sites (h : SameLook name name' t u) {settings : Settings} {stream : ChaCha}
    {index drawn : Nat}
    (hFirst : t.frame =
      settings.iconFrame stream t.installed.scene t.frame.preview index (t.views + drawn))
    (hSecond : u.frame =
      settings.iconFrame stream u.installed.scene u.frame.preview index (u.views + drawn))
    (i : Nat) :
    Site.Alike ⟨t.installed.program, t.frame, i⟩ ⟨u.installed.program, u.frame, i⟩ := by
  obtain ⟨k, hPreview, hExact, hFound⟩ := h.first.index
  obtain ⟨l, hPreview', hExact', hFound'⟩ := h.second.index
  have hLook : u.installed.program.resolve l = t.installed.program.resolve k := by
    have hScenes := Tracer.resolve_of_sameBody (t := .ofScene t.installed.scene)
      (u := .ofScene u.installed.scene) (i := k) (j := l) (by
        show Option.Rel _ t.installed.scene.materials[k]? u.installed.scene.materials[l]?
        rw [hFound, hFound']
        exact h.material)
    funext inputs
    rw [h.second.program.resolve, h.first.program.resolve, hScenes]
  have hBackground : u.installed.program.background = t.installed.program.background := by
    funext inputs color
    rw [h.second.program.background, h.first.program.background, h.background]
  rw [hPreview] at hFirst
  rw [hPreview', h.views] at hSecond
  rw [hFirst, hSecond]
  exact Site.alike_icon settings _ index _ i h.first.data h.second.data hExact hExact' hLook
    hBackground

end Take

namespace Pipeline

/-! ### A run without a main view -/

/-- Settings for thumbnails of four pixels and one sample. -/
def oneSample : Settings :=
  { Settings.default with iconSize := 2, iconSamples := 1 }

/-- The only thumbnail, without a main view. -/
theorem gallery_of_first {g : SceneGraph} {s : Scene} {name : String} {index : Nat}
    (hCompile : g.compile = .ok s) (hIndex : s.materialIndex? name = some index) :
    ∃ (image : Image) (t : Take Tracer),
      (after (.tracing 4) (start oneSample)
        [.resize ⟨0, 0⟩, .setGraph g, .enqueue (.material name), .tick]).gallery =
          [((1, image), [t])] ∧
        t.installed = ⟨s, .ofScene s⟩ ∧ t.frame.preview = index ∧ t.views = 0 := by
  have hPreview : (Subject.material name).preview? s = some (index : Int) := by
    rw [Subject.preview?, hIndex]
    rfl
  obtain ⟨frame, film, rng, hShown, hTick⟩ := exists_tick_enqueue 1 ⟨s, .ofScene s⟩
    [(s.program.hash, .ofScene s)] (s.render.samples.getD (fewSamples 1).maxSamples) [.build]
    hPreview
  rw [← after_setGraph_of_ok hCompile] at hTick
  refine ⟨film.image, ⟨⟨⟨s, .ofScene s⟩, frame⟩, 0⟩, ?_, rfl, hShown, rfl⟩
  exact congrArg gallery hTick

/-- A scene without an environment whose material of the name assigns nothing. -/
structure Bare (name : String) (s : Scene) : Prop where
  material : (s.named? name).map Material.Program.body = some []
  environment : s.environment = none

theorem sameLook_of_bare {name name' : String} {t u : Take Tracer} (hFirst : t.Shows name)
    (hSecond : u.Shows name') (hBare : Bare name t.installed.scene)
    (hBare' : Bare name' u.installed.scene) (hViews : u.views = t.views) :
    Take.SameLook name name' t u := by
  refine ⟨hFirst, hSecond, ?_, ?_, hViews⟩
  · obtain ⟨m, hFound, hBody⟩ := Option.map_eq_some_iff.mp hBare.material
    obtain ⟨m', hFound', hBody'⟩ := Option.map_eq_some_iff.mp hBare'.material
    rw [hFound, hFound']
    exact .some (by rw [Material.Program.SameBody, hBody, hBody'])
  · refine Tracer.background_of_sameBody ?_
    show Option.Rel _ t.installed.scene.environment u.installed.scene.environment
    rw [hBare.environment, hBare'.environment]
    exact .none

/-- The only thumbnail of a material that assigns nothing, from what is to be
evaluated of the scene. -/
theorem gallery_of_bare {g : SceneGraph} (name : String) (index : Nat)
    (h : g.compile.toOption.map (fun s =>
      (s.materialIndex? name, (s.named? name).map (·.body.isEmpty), s.environment.isNone,
        decide (s.data.size < Frame.exactIndices),
        decide (s.materials.length ≤ Frame.exactIndices))) =
      some (some index, some true, true, true, true)) :
    ∃ (image : Image) (t : Take Tracer),
      (after (.tracing 4) (start oneSample)
        [.resize ⟨0, 0⟩, .setGraph g, .enqueue (.material name), .tick]).gallery =
          [((1, image), [t])] ∧
        t.Shows name ∧ Bare name t.installed.scene ∧ t.frame.preview = index ∧ t.views = 0 := by
  obtain ⟨s, hCompile, hKnown⟩ := exists_ok_of_map h
  obtain ⟨hIndex, hBody, hEnvironment, hData, hMaterials⟩ :
      s.materialIndex? name = some index ∧
        (s.named? name).map (·.body.isEmpty) = some true ∧ s.environment.isNone = true ∧
        s.data.size < Frame.exactIndices ∧ s.materials.length ≤ Frame.exactIndices := by
    simpa only [Prod.mk.injEq, decide_eq_true_eq] using hKnown
  obtain ⟨image, t, hGallery, hInstalled, hPreview, hViews⟩ := gallery_of_first hCompile hIndex
  refine ⟨image, t, hGallery, ⟨?_, ?_, ?_, ?_⟩, ⟨?_, ?_⟩, hPreview, hViews⟩
  · rw [hInstalled, hPreview, Subject.preview?, hIndex]
    rfl
  · rw [hInstalled]
    exact .refl _
  · rw [hInstalled]
    exact hData
  · rw [hInstalled]
    exact hMaterials
  · obtain ⟨m, hFound, hEmpty⟩ := Option.map_eq_some_iff.mp hBody
    rw [hInstalled, hFound, Option.map_some, List.isEmpty_iff.mp hEmpty]
  · rw [hInstalled]
    exact Option.isNone_iff_eq_none.mp hEnvironment

/-! ### Two runs -/

/-- Pictures at one place of two runs with the same settings are the same if their samples
look the same, one by one: of materials with one body, in front of one environment, after as
many samples of the main view. The last cannot be left out, since both targets draw from one
generator. -/
theorem picture_eq_of_sameLook (limit limit' : Nat) (settings : Settings) (unseeded : ChaCha)
    (commands commands' : List Command) {m id id' : Nat} {image image' : Image}
    {takes takes' : List (Take Tracer)} {name name' : String}
    (hFirst : (after (.tracing limit) (start settings unseeded) commands).gallery[m]? =
      some ((id, image), takes))
    (hSecond : (after (.tracing limit') (start settings unseeded) commands').gallery[m]? =
      some ((id', image'), takes'))
    (hLook : ∀ (k : Nat) (t u : Take Tracer), takes[k]? = some t → takes'[k]? = some u →
      t.SameLook name name' u) : image' = image := by
  obtain ⟨hCount, hNumbered, film, hFilm, hImage⟩ := gallery_spec hFirst
  obtain ⟨hCount', hNumbered', film', hFilm', hImage'⟩ := gallery_spec hSecond
  have hSites : List.Forall₂ (fun s o => ∀ i, Site.Alike ⟨s.1, s.2, i⟩ ⟨o.1, o.2, i⟩)
      ((takes.map Take.toShot).map fun s => (s.installed.program, s.frame))
      ((takes'.map Take.toShot).map fun s => (s.installed.program, s.frame)) := by
    rw [List.map_map, List.map_map, List.forall₂_map_left_iff, List.forall₂_map_right_iff,
      List.forall₂_iff_get]
    refine ⟨hCount.trans hCount'.symm, fun k hBound hBound' => ?_⟩
    rw [List.get_eq_getElem, List.get_eq_getElem]
    have hTake := List.getElem?_eq_getElem hBound
    have hTake' := List.getElem?_eq_getElem hBound'
    have hFrame := hNumbered k _ hTake
    have hFrame' := hNumbered' k _ hTake'
    rw [Nat.add_assoc] at hFrame hFrame'
    exact (hLook k _ _ hTake hTake').sites hFrame hFrame'
  have hKept := Film.kept_renderAll hSites (f := .blank ⟨settings.iconSize, settings.iconSize⟩) rfl
    (.inr rfl)
  rw [← Film.expose_eq_renderAll, ← Film.expose_eq_renderAll, hFilm, hFilm'] at hKept
  calc image' = film'.image := hImage'
    _ = film'.kept.image := (Film.image_kept film').symm
    _ = film.kept.image := by rw [Except.ok.inj hKept]
    _ = film.image := Film.image_kept film
    _ = image := hImage.symm

/-- The same material in two scenes with other cameras, lights and shapes, where it has
other indices. -/
theorem picture_eq_of_sameLook_lamp :
    let material (name : String) (line : Nat) : Node :=
      .new (.material .surface []) ⟨[("name", .text name)]⟩ line []
    let g : SceneGraph := ⟨[material "Plain" 1,
      .new .render .empty 2 [.new (.camera .perspective) .empty 3 []]]⟩
    let g' : SceneGraph := ⟨[material "Lamp" 1, material "Plain" 2,
      .new .render .empty 3 [.new (.camera .isometric) .empty 4 [],
        .new (.light .sphere) ⟨[("material", .text "Lamp")]⟩ 5 [],
        .new (.object .analytical) ⟨[("material", .text "Plain")]⟩ 6
          [.new (.primitive .sphere) .empty 7 []]]]⟩
    let run (graph : SceneGraph) := after (.tracing 4) (start oneSample)
      [.resize ⟨0, 0⟩, .setGraph graph, .enqueue (.material "Plain"), .tick]
    ∃ (image image' : Image) (t u : Take Tracer),
      (run g).gallery = [((1, image), [t])] ∧ (run g').gallery = [((1, image'), [u])] ∧
        t.frame.preview = 0 ∧ u.frame.preview = 1 ∧ image' = image := by
  intro material g g' run
  obtain ⟨image, t, hFirst, hShows, hBare, hPreview, hViews⟩ :=
    gallery_of_bare (g := g) "Plain" 0 (by decide)
  obtain ⟨image', u, hSecond, hShows', hBare', hPreview', hViews'⟩ :=
    gallery_of_bare (g := g') "Plain" 1 (by decide)
  have hLook : ∀ (k : Nat) (v w : Take Tracer), [t][k]? = some v → [u][k]? = some w →
      Take.SameLook "Plain" "Plain" v w := by
    intro k v w hTake hTake'
    cases k with
    | zero =>
        cases hTake
        cases hTake'
        exact sameLook_of_bare hShows hShows' hBare hBare' (hViews'.trans hViews.symm)
    | succ k => cases hTake
  exact ⟨image, image', t, u, hFirst, hSecond, hPreview, hPreview',
    picture_eq_of_sameLook 4 4 oneSample _ _ _ (m := 0) (congrArg (·[0]?) hFirst)
      (congrArg (·[0]?) hSecond) hLook⟩

end Pipeline

end PathTracer
