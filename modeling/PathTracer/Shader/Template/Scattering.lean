/-! Shader source of the principled scattering model. -/
namespace PathTracer.Shader.Template

def scatteringSource : String :=
  "// Disney principled BSDF
//
// Lobes: diffuse (with fake subsurface and sheen), anisotropic GTR2
// specular, GTR1 clearcoat, rough dielectric reflection/refraction.
// Requires the caller to provide `rand() -> f32` in [0, 1).

const PI: f32 = 3.14159265358979;
const TWO_PI: f32 = 6.28318530717959;
const INV_PI: f32 = 0.31830988618379;
const ROUGHNESS_FLOOR: f32 = 0.0001;

struct BsdfMaterial \x7b
    albedo: vec3<f32>,
    specular: f32,
    emission: vec3<f32>,
    anisotropic: f32,
    metallic: f32,
    roughness: f32,
    subsurface: f32,
    specular_tint: f32,
    sheen: f32,
    sheen_tint: f32,
    clearcoat: f32,
    clearcoat_gloss: f32,
    transmission: f32,
    ior: f32,
    extinction: vec3<f32>,
\x7d

struct ShadingState \x7b
    mat: BsdfMaterial,
    normal: vec3<f32>,
    ffnormal: vec3<f32>,
    tangent: vec3<f32>,
    bitangent: vec3<f32>,
    eta: f32,
    ax: f32,
    ay: f32,
\x7d

struct BsdfEval \x7b
    f: vec3<f32>,
    pdf: f32,
\x7d

struct BsdfSample \x7b
    l: vec3<f32>,
    f: vec3<f32>,
    pdf: f32,
\x7d

struct LobeTints \x7b
    cspec0: vec3<f32>,
    csheen: vec3<f32>,
\x7d

fn default_material() -> BsdfMaterial \x7b
    var m: BsdfMaterial;
    m.albedo = vec3<f32>(0.0);
    m.specular = 0.0;
    m.emission = vec3<f32>(0.0);
    m.anisotropic = 0.0;
    m.metallic = 0.0;
    m.roughness = 0.5;
    m.subsurface = 0.0;
    m.specular_tint = 0.0;
    m.sheen = 0.0;
    m.sheen_tint = 0.0;
    m.clearcoat = 0.0;
    m.clearcoat_gloss = 0.0;
    m.transmission = 0.0;
    m.ior = 1.45;
    m.extinction = vec3<f32>(1.0);
    return m;
\x7d

// Componentwise lerp of every parameter, used for two-material blends.
fn mix_materials(a: BsdfMaterial, b: BsdfMaterial, k: f32) -> BsdfMaterial \x7b
    var m: BsdfMaterial;
    m.albedo = mix(a.albedo, b.albedo, k);
    m.specular = mix(a.specular, b.specular, k);
    m.emission = mix(a.emission, b.emission, k);
    m.anisotropic = mix(a.anisotropic, b.anisotropic, k);
    m.metallic = mix(a.metallic, b.metallic, k);
    m.roughness = mix(a.roughness, b.roughness, k);
    m.subsurface = mix(a.subsurface, b.subsurface, k);
    m.specular_tint = mix(a.specular_tint, b.specular_tint, k);
    m.sheen = mix(a.sheen, b.sheen, k);
    m.sheen_tint = mix(a.sheen_tint, b.sheen_tint, k);
    m.clearcoat = mix(a.clearcoat, b.clearcoat, k);
    m.clearcoat_gloss = mix(a.clearcoat_gloss, b.clearcoat_gloss, k);
    m.transmission = mix(a.transmission, b.transmission, k);
    m.ior = mix(a.ior, b.ior, k);
    m.extinction = mix(a.extinction, b.extinction, k);
    return m;
\x7d

fn make_shading_state(mat_in: BsdfMaterial, normal: vec3<f32>, ray_dir: vec3<f32>) -> ShadingState \x7b
    var s: ShadingState;
    s.mat = mat_in;
    s.mat.roughness = max(s.mat.roughness, ROUGHNESS_FLOOR);
    s.normal = normal;
    if (dot(normal, ray_dir) <= 0.0) \x7b
        s.ffnormal = normal;
        s.eta = 1.0 / s.mat.ior;
    \x7d else \x7b
        s.ffnormal = -normal;
        s.eta = s.mat.ior;
    \x7d

    let aspect = sqrt(1.0 - s.mat.anisotropic * 0.9);
    s.ax = max(0.001, s.mat.roughness / aspect);
    s.ay = max(0.001, s.mat.roughness * aspect);

    var up = vec3<f32>(1.0, 0.0, 0.0);
    if (abs(s.ffnormal.z) < 0.999) \x7b
        up = vec3<f32>(0.0, 0.0, 1.0);
    \x7d
    s.tangent = normalize(cross(up, s.ffnormal));
    s.bitangent = cross(s.ffnormal, s.tangent);
    return s;
\x7d

fn to_world(s: ShadingState, v: vec3<f32>) -> vec3<f32> \x7b
    return s.tangent * v.x + s.bitangent * v.y + s.ffnormal * v.z;
\x7d

// ---------------------------------------------------------------------------
// Sampling
// ---------------------------------------------------------------------------

fn importance_sample_gtr1(rgh: f32, r1: f32, r2: f32) -> vec3<f32> \x7b
    let a = max(0.001, rgh);
    let a2 = a * a;
    let phi = r1 * TWO_PI;
    let cos_theta = sqrt((1.0 - pow(a2, 1.0 - r2)) / (1.0 - a2));
    let sin_theta = clamp(sqrt(1.0 - cos_theta * cos_theta), 0.0, 1.0);
    return vec3<f32>(sin_theta * cos(phi), sin_theta * sin(phi), cos_theta);
\x7d

fn importance_sample_gtr2(rgh: f32, r1: f32, r2: f32) -> vec3<f32> \x7b
    let a = max(0.001, rgh);
    let phi = r1 * TWO_PI;
    let cos_theta = sqrt((1.0 - r2) / (1.0 + (a * a - 1.0) * r2));
    let sin_theta = clamp(sqrt(1.0 - cos_theta * cos_theta), 0.0, 1.0);
    return vec3<f32>(sin_theta * cos(phi), sin_theta * sin(phi), cos_theta);
\x7d

fn importance_sample_gtr2_aniso(ax: f32, ay: f32, r1: f32, r2: f32) -> vec3<f32> \x7b
    let phi = r1 * TWO_PI;
    let tan_theta = sqrt(r2 / (1.0 - r2));
    return normalize(vec3<f32>(tan_theta * ax * cos(phi), tan_theta * ay * sin(phi), 1.0));
\x7d

fn cosine_sample_hemisphere(r1: f32, r2: f32) -> vec3<f32> \x7b
    let r = sqrt(r1);
    let phi = TWO_PI * r2;
    let x = r * cos(phi);
    let y = r * sin(phi);
    return vec3<f32>(x, y, sqrt(max(0.0, 1.0 - x * x - y * y)));
\x7d

fn uniform_sample_hemisphere(r1: f32, r2: f32) -> vec3<f32> \x7b
    let r = sqrt(max(0.0, 1.0 - r1 * r1));
    let phi = TWO_PI * r2;
    return vec3<f32>(r * cos(phi), r * sin(phi), r1);
\x7d

fn uniform_sample_sphere(r1: f32, r2: f32) -> vec3<f32> \x7b
    let z = 1.0 - 2.0 * r1;
    let r = sqrt(max(0.0, 1.0 - z * z));
    let phi = TWO_PI * r2;
    return vec3<f32>(r * cos(phi), r * sin(phi), z);
\x7d

fn power_heuristic(a: f32, b: f32) -> f32 \x7b
    let t = a * a;
    return t / (b * b + t);
\x7d

// ---------------------------------------------------------------------------
// Distributions
// ---------------------------------------------------------------------------

fn schlick_fresnel(u: f32) -> f32 \x7b
    let m = clamp(1.0 - u, 0.0, 1.0);
    let m2 = m * m;
    return m2 * m2 * m;
\x7d

fn dielectric_fresnel(cos_theta_i: f32, eta: f32) -> f32 \x7b
    let sin_theta_t_sq = eta * eta * (1.0 - cos_theta_i * cos_theta_i);
    if (sin_theta_t_sq > 1.0) \x7b
        return 1.0;
    \x7d
    let cos_theta_t = sqrt(max(1.0 - sin_theta_t_sq, 0.0));
    let rs = (eta * cos_theta_t - cos_theta_i) / (eta * cos_theta_t + cos_theta_i);
    let rp = (eta * cos_theta_i - cos_theta_t) / (eta * cos_theta_i + cos_theta_t);
    return 0.5 * (rs * rs + rp * rp);
\x7d

fn gtr1(n_dot_h: f32, a: f32) -> f32 \x7b
    if (a >= 1.0) \x7b
        return INV_PI;
    \x7d
    let a2 = a * a;
    let t = 1.0 + (a2 - 1.0) * n_dot_h * n_dot_h;
    return (a2 - 1.0) / (PI * log(a2) * t);
\x7d

fn gtr2(n_dot_h: f32, a: f32) -> f32 \x7b
    let a2 = a * a;
    let t = 1.0 + (a2 - 1.0) * n_dot_h * n_dot_h;
    return a2 / (PI * t * t);
\x7d

fn gtr2_aniso(n_dot_h: f32, h_dot_x: f32, h_dot_y: f32, ax: f32, ay: f32) -> f32 \x7b
    let a = h_dot_x / ax;
    let b = h_dot_y / ay;
    let c = a * a + b * b + n_dot_h * n_dot_h;
    return 1.0 / (PI * ax * ay * c * c);
\x7d

fn smith_g_ggx(n_dot_v: f32, alpha_g: f32) -> f32 \x7b
    let a = alpha_g * alpha_g;
    let b = n_dot_v * n_dot_v;
    return 1.0 / (n_dot_v + sqrt(a + b - a * b));
\x7d

fn smith_g_ggx_aniso(n_dot_v: f32, v_dot_x: f32, v_dot_y: f32, ax: f32, ay: f32) -> f32 \x7b
    let a = v_dot_x * ax;
    let b = v_dot_y * ay;
    return 1.0 / (n_dot_v + sqrt(a * a + b * b + n_dot_v * n_dot_v));
\x7d

// ---------------------------------------------------------------------------
// Lobes
// ---------------------------------------------------------------------------

fn lobe_tints(mat: BsdfMaterial) -> LobeTints \x7b
    let cdlin = mat.albedo;
    let cdlum = 0.3 * cdlin.x + 0.6 * cdlin.y + 0.1 * cdlin.z;
    var ctint = vec3<f32>(1.0);
    if (cdlum > 0.0) \x7b
        ctint = cdlin / cdlum;
    \x7d
    var t: LobeTints;
    t.cspec0 = mix(mat.specular * 0.08 * mix(vec3<f32>(1.0), ctint, mat.specular_tint), cdlin, mat.metallic);
    t.csheen = mix(vec3<f32>(1.0), ctint, mat.sheen_tint);
    return t;
\x7d

fn eval_dielectric_reflection(s: ShadingState, v: vec3<f32>, n: vec3<f32>, l: vec3<f32>, h: vec3<f32>) -> BsdfEval \x7b
    var e: BsdfEval;
    e.pdf = 0.0;
    e.f = vec3<f32>(0.0);
    if (dot(n, l) <= 0.0) \x7b
        return e;
    \x7d
    let fr = dielectric_fresnel(dot(v, h), s.eta);
    let d = gtr2(dot(n, h), s.mat.roughness);
    e.pdf = d * dot(n, h) * fr / (4.0 * abs(dot(v, h)));
    let g = smith_g_ggx(abs(dot(n, l)), s.mat.roughness) * smith_g_ggx(abs(dot(n, v)), s.mat.roughness);
    e.f = s.mat.albedo * fr * d * g;
    return e;
\x7d

fn eval_dielectric_refraction(s: ShadingState, v: vec3<f32>, n: vec3<f32>, l: vec3<f32>, h: vec3<f32>) -> BsdfEval \x7b
    var e: BsdfEval;
    e.pdf = 0.0;
    e.f = vec3<f32>(0.0);
    if (dot(n, l) >= 0.0) \x7b
        return e;
    \x7d
    let fr = dielectric_fresnel(abs(dot(v, h)), s.eta);
    let d = gtr2(dot(n, h), s.mat.roughness);
    let denom_sqrt = dot(l, h) + dot(v, h) * s.eta;
    let denom = denom_sqrt * denom_sqrt;
    e.pdf = d * dot(n, h) * (1.0 - fr) * abs(dot(l, h)) / denom;
    let g = smith_g_ggx(abs(dot(n, l)), s.mat.roughness) * smith_g_ggx(abs(dot(n, v)), s.mat.roughness);
    e.f = s.mat.albedo * (1.0 - fr) * d * g * abs(dot(v, h)) * abs(dot(l, h)) * 4.0 * s.eta * s.eta / denom;
    return e;
\x7d

fn eval_specular(s: ShadingState, cspec0: vec3<f32>, v: vec3<f32>, n: vec3<f32>, l: vec3<f32>, h: vec3<f32>) -> BsdfEval \x7b
    var e: BsdfEval;
    e.pdf = 0.0;
    e.f = vec3<f32>(0.0);
    let n_dot_l = dot(n, l);
    if (n_dot_l <= 0.0) \x7b
        return e;
    \x7d
    let n_dot_h = dot(n, h);
    let d = gtr2_aniso(n_dot_h, dot(h, s.tangent), dot(h, s.bitangent), s.ax, s.ay);
    e.pdf = d * n_dot_h / (4.0 * dot(v, h));

    let fh = schlick_fresnel(dot(l, h));
    let fr = mix(cspec0, vec3<f32>(1.0), fh);
    let g = smith_g_ggx_aniso(n_dot_l, dot(l, s.tangent), dot(l, s.bitangent), s.ax, s.ay)
        * smith_g_ggx_aniso(abs(dot(n, v)), dot(v, s.tangent), dot(v, s.bitangent), s.ax, s.ay);
    e.f = fr * d * g;
    return e;
\x7d

fn eval_clearcoat(s: ShadingState, v: vec3<f32>, n: vec3<f32>, l: vec3<f32>, h: vec3<f32>) -> BsdfEval \x7b
    var e: BsdfEval;
    e.pdf = 0.0;
    e.f = vec3<f32>(0.0);
    if (dot(n, l) <= 0.0) \x7b
        return e;
    \x7d
    let d = gtr1(dot(n, h), mix(0.1, 0.001, s.mat.clearcoat_gloss));
    e.pdf = d * dot(n, h) / (4.0 * dot(v, h));
    let fh = schlick_fresnel(dot(l, h));
    let fr = mix(0.04, 1.0, fh);
    let g = smith_g_ggx(dot(n, l), 0.25) * smith_g_ggx(dot(n, v), 0.25);
    e.f = vec3<f32>(0.25 * s.mat.clearcoat * fr * d * g);
    return e;
\x7d

fn eval_diffuse(s: ShadingState, csheen: vec3<f32>, v: vec3<f32>, n: vec3<f32>, l: vec3<f32>, h: vec3<f32>) -> BsdfEval \x7b
    var e: BsdfEval;
    e.pdf = 0.0;
    e.f = vec3<f32>(0.0);
    let n_dot_l = dot(n, l);
    if (n_dot_l <= 0.0) \x7b
        return e;
    \x7d
    e.pdf = n_dot_l * INV_PI;

    let n_dot_v = dot(n, v);
    let l_dot_h = dot(l, h);
    let fl = schlick_fresnel(n_dot_l);
    let fv = schlick_fresnel(n_dot_v);
    let fh = schlick_fresnel(l_dot_h);
    let fd90 = 0.5 + 2.0 * l_dot_h * l_dot_h * s.mat.roughness;
    let fd = mix(1.0, fd90, fl) * mix(1.0, fd90, fv);

    let fss90 = l_dot_h * l_dot_h * s.mat.roughness;
    let fss = mix(1.0, fss90, fl) * mix(1.0, fss90, fv);
    let ss = 1.25 * (fss * (1.0 / (n_dot_l + n_dot_v) - 0.5) + 0.5);

    let fsheen = fh * s.mat.sheen * csheen;
    e.f = (INV_PI * mix(fd, ss, s.mat.subsurface) * s.mat.albedo + fsheen) * (1.0 - s.mat.metallic);
    return e;
\x7d

// ---------------------------------------------------------------------------
// Combined BSDF
// ---------------------------------------------------------------------------

fn disney_sample(s: ShadingState, v: vec3<f32>, n: vec3<f32>) -> BsdfSample \x7b
    var res: BsdfSample;
    res.l = n;
    res.f = vec3<f32>(0.0);
    res.pdf = 0.0;

    let r1 = rand();
    let r2 = rand();

    let diffuse_ratio = 0.5 * (1.0 - s.mat.metallic);
    let trans_weight = (1.0 - s.mat.metallic) * s.mat.transmission;
    let tints = lobe_tints(s.mat);

    var e: BsdfEval;
    if (rand() < trans_weight) \x7b
        var h = to_world(s, importance_sample_gtr2(s.mat.roughness, r1, r2));
        if (dot(v, h) < 0.0) \x7b
            h = -h;
        \x7d
        let r = reflect(-v, h);
        let fr = dielectric_fresnel(abs(dot(r, h)), s.eta);
        if (rand() < fr) \x7b
            res.l = normalize(r);
            e = eval_dielectric_reflection(s, v, n, res.l, h);
        \x7d else \x7b
            res.l = normalize(refract(-v, h, s.eta));
            e = eval_dielectric_refraction(s, v, n, res.l, h);
        \x7d
        res.f = e.f * trans_weight;
        res.pdf = e.pdf * trans_weight;
        return res;
    \x7d

    if (rand() < diffuse_ratio) \x7b
        res.l = to_world(s, cosine_sample_hemisphere(r1, r2));
        let h = normalize(res.l + v);
        e = eval_diffuse(s, tints.csheen, v, n, res.l, h);
        e.pdf *= diffuse_ratio;
    \x7d else \x7b
        let primary_spec_ratio = 1.0 / (1.0 + s.mat.clearcoat);
        if (rand() < primary_spec_ratio) \x7b
            var h = to_world(s, importance_sample_gtr2_aniso(s.ax, s.ay, r1, r2));
            if (dot(v, h) < 0.0) \x7b
                h = -h;
            \x7d
            res.l = normalize(reflect(-v, h));
            e = eval_specular(s, tints.cspec0, v, n, res.l, h);
            e.pdf *= primary_spec_ratio * (1.0 - diffuse_ratio);
        \x7d else \x7b
            var h = to_world(s, importance_sample_gtr1(mix(0.1, 0.001, s.mat.clearcoat_gloss), r1, r2));
            if (dot(v, h) < 0.0) \x7b
                h = -h;
            \x7d
            res.l = normalize(reflect(-v, h));
            e = eval_clearcoat(s, v, n, res.l, h);
            e.pdf *= (1.0 - primary_spec_ratio) * (1.0 - diffuse_ratio);
        \x7d
    \x7d
    res.f = e.f * (1.0 - trans_weight);
    res.pdf = e.pdf * (1.0 - trans_weight);
    return res;
\x7d

fn disney_eval(s: ShadingState, v: vec3<f32>, n: vec3<f32>, l: vec3<f32>) -> BsdfEval \x7b
    let refl = dot(n, l) > 0.0;
    var h: vec3<f32>;
    if (refl) \x7b
        h = normalize(l + v);
    \x7d else \x7b
        h = normalize(l + v * s.eta);
    \x7d
    if (dot(v, h) < 0.0) \x7b
        h = -h;
    \x7d

    let diffuse_ratio = 0.5 * (1.0 - s.mat.metallic);
    let primary_spec_ratio = 1.0 / (1.0 + s.mat.clearcoat);
    let trans_weight = (1.0 - s.mat.metallic) * s.mat.transmission;

    var bsdf: BsdfEval;
    bsdf.f = vec3<f32>(0.0);
    bsdf.pdf = 0.0;
    if (trans_weight > 0.0) \x7b
        if (refl) \x7b
            bsdf = eval_dielectric_reflection(s, v, n, l, h);
        \x7d else \x7b
            bsdf = eval_dielectric_refraction(s, v, n, l, h);
        \x7d
    \x7d

    var brdf = vec3<f32>(0.0);
    var brdf_pdf = 0.0;
    if (trans_weight < 1.0) \x7b
        let tints = lobe_tints(s.mat);
        let d = eval_diffuse(s, tints.csheen, v, n, l, h);
        brdf += d.f;
        brdf_pdf += d.pdf * diffuse_ratio;

        let sp = eval_specular(s, tints.cspec0, v, n, l, h);
        brdf += sp.f;
        brdf_pdf += sp.pdf * primary_spec_ratio * (1.0 - diffuse_ratio);

        let cc = eval_clearcoat(s, v, n, l, h);
        brdf += cc.f;
        brdf_pdf += cc.pdf * (1.0 - primary_spec_ratio) * (1.0 - diffuse_ratio);
    \x7d

    var res: BsdfEval;
    res.pdf = mix(brdf_pdf, bsdf.pdf, trans_weight);
    res.f = mix(brdf, bsdf.f, trans_weight);
    return res;
\x7d
"

end PathTracer.Shader.Template
