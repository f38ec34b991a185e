import PathTracer.Bsdf.Lobe

/-! The whole response of a surface, as a mixture of its lobes. -/
namespace PathTracer.Bsdf

variable {α : Type} [Scalar α]

/-- Probability of the diffuse lobe among those that do not transmit. -/
def diffuseRatio (m : SurfaceParams α) : α :=
  0.5 * (1.0 - m.metallic)

/-- Probability of the highlight among the two that reflect. -/
def highlightRatio (m : SurfaceParams α) : α :=
  1.0 / (1.0 + m.clearcoat)

/-- Probability of the dielectric lobe. -/
def transmissionWeight (m : SurfaceParams α) : α :=
  (1.0 - m.metallic) * m.transmission

/-- The vector on the side of `v`. -/
def towards (v h : Vec3 α) : Vec3 α :=
  if v.dot h < 0.0 then -h else h

/-- The half vector of a pair of directions, for reflection on the side of the
normal and for refraction below it. -/
def halfVector (s : Shading α) (v n l : Vec3 α) : Vec3 α :=
  let sum := if 0.0 < n.dot l then l + v else l + v * s.eta
  towards v sum.normalizeOrZero

/-- The lobes that do not transmit, with their densities weighted by the
probabilities with which they are sampled. -/
def opaqueResponse (s : Shading α) (v n l h : Vec3 α) : Response α :=
  let diffuse := diffuseRatio s.material
  let highlight := highlightRatio s.material
  let d := diffuseLobe s (sheenColor s.material) v n l h
  let sp := specularLobe s (specularColor s.material) v n l h
  let cc := clearcoatLobe s v n l h
  { f := Vec3.zero + d.f + sp.f + cc.f
    pdf := 0.0 + d.pdf * diffuse + sp.pdf * highlight * (1.0 - diffuse)
      + cc.pdf * (1.0 - highlight) * (1.0 - diffuse) }

/-- The response of a surface to light from `l` seen along `v`, and the
density with which sampling finds `l`. -/
def evaluate (s : Shading α) (v n l : Vec3 α) : Response α :=
  let h := halfVector s v n l
  let weight := transmissionWeight s.material
  let dielectric : Response α :=
    if 0.0 < weight then
      if 0.0 < n.dot l then dielectricReflection s v n l h else dielectricRefraction s v n l h
    else .zero
  let rest : Response α := if weight < 1.0 then opaqueResponse s v n l h else .zero
  { f := rest.f.lerp dielectric.f weight
    pdf := Scalar.mix rest.pdf dielectric.pdf weight }

end PathTracer.Bsdf
