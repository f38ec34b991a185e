/-! Shader source of the passes for materials, lights, paths and averages. -/
namespace PathTracer.Shader.Template

def passesSource : String :=
  "// Path tracing passes. One sample runs, per bounce:
// geometry -> material_resolve -> geometry_shadow -> direct_light -> path_trace
// and finishes with accumulate.

fn pack_material(px: u32, m: BsdfMaterial, light_dir: vec3<f32>) \x7b
    gbuf_store(CH_PARAMS, px, vec4<f32>(m.albedo, m.specular));
    gbuf_store(CH_PARAMS + 1u, px, vec4<f32>(m.emission, m.anisotropic));
    gbuf_store(CH_PARAMS + 2u, px, vec4<f32>(m.metallic, m.roughness, m.subsurface, m.specular_tint));
    gbuf_store(CH_PARAMS + 3u, px, vec4<f32>(m.sheen, m.sheen_tint, m.clearcoat, m.clearcoat_gloss));
    gbuf_store(CH_PARAMS + 4u, px, vec4<f32>(light_dir, m.transmission));
    gbuf_store(CH_PARAMS + 5u, px, vec4<f32>(m.ior, m.extinction));
\x7d

fn unpack_material(px: u32) -> BsdfMaterial \x7b
    let p0 = gbuf_load(CH_PARAMS, px);
    let p1 = gbuf_load(CH_PARAMS + 1u, px);
    let p2 = gbuf_load(CH_PARAMS + 2u, px);
    let p3 = gbuf_load(CH_PARAMS + 3u, px);
    let p4 = gbuf_load(CH_PARAMS + 4u, px);
    let p5 = gbuf_load(CH_PARAMS + 5u, px);
    var m: BsdfMaterial;
    m.albedo = p0.xyz;
    m.specular = p0.w;
    m.emission = p1.xyz;
    m.anisotropic = p1.w;
    m.metallic = p2.x;
    m.roughness = p2.y;
    m.subsurface = p2.z;
    m.specular_tint = p2.w;
    m.sheen = p3.x;
    m.sheen_tint = p3.y;
    m.clearcoat = p3.z;
    m.clearcoat_gloss = p3.w;
    m.transmission = p4.w;
    m.ior = p5.x;
    m.extinction = p5.yzw;
    return m;
\x7d

// Material at the hit; depth.z > 0 encodes a blend with a second material
// (integer part: its id, fraction: weight of the primary).
fn hit_material(depth: vec4<f32>, inp: MaterialInput) -> BsdfMaterial \x7b
    var m = resolve_material(i32(round(depth.w)), inp);
    if (depth.z > 0.0) \x7b
        let other = resolve_material(i32(floor(depth.z)), inp);
        m = mix_materials(other, m, smoothstep(0.0, 1.0, fract(depth.z)));
    \x7d
    return m;
\x7d

fn light_material(light: LightEntry, p: vec3<f32>, n: vec3<f32>) -> BsdfMaterial \x7b
    let inp = MaterialInput(p, -n, n, vec2<f32>(0.5), vec2<f32>(uniforms.size), 0.0, 0.5);
    return resolve_material(i32(round(light.params.z)), inp);
\x7d

@compute @workgroup_size(8, 8, 1)
fn material_resolve(@builtin(global_invocation_id) gid: vec3<u32>) \x7b
    if (!in_bounds(gid)) \x7b
        return;
    \x7d
    let px = pixel_index(gid);
    let depth = gbuf_load(CH_DEPTH, px);
    if (depth.w < 0.0) \x7b
        gbuf_store(CH_LIGHT_ORIGIN, px, vec4<f32>(0.0, 0.0, 0.0, -1.0));
        return;
    \x7d
    let bounce = u32(gbuf_load(CH_ABSORPTION, px).w);
    rng_seed(px, uniforms.frame_seed, bounce * 8u + 1u);

    let ro = gbuf_load(CH_CAM_ORIGIN, px).xyz;
    let rd = gbuf_load(CH_CAM_DIR, px).xyz;
    let n = gbuf_load(CH_NORMAL, px).xyz;
    let pos = ro + rd * depth.x;
    let m = hit_material(depth, material_input(px, pos, rd, n, depth.y));

    var light_dir = vec3<f32>(0.0);
    if (uniforms.num_lights == 0u) \x7b
        gbuf_store(CH_LIGHT_ORIGIN, px, vec4<f32>(0.0, 0.0, 0.0, -1.0));
    \x7d else \x7b
        let li = min(u32(rand() * f32(uniforms.num_lights)), uniforms.num_lights - 1u);
        let light = lights[li];
        let slot = scene_data[u32(light.params.y)];
        var dist = FAR;
        if (light.params.x < 0.5) \x7b
            light_dir = sample_cone(slot.xyz, SUN_ANGLE);
        \x7d else \x7b
            let target_point = slot.xyz + uniform_sample_sphere(rand(), rand()) * slot.w;
            let origin = pos + toward(n, target_point - pos) * EPS;
            dist = length(target_point - origin);
            light_dir = (target_point - origin) / max(dist, 0.000001);
        \x7d
        let origin = pos + toward(n, light_dir) * EPS;
        gbuf_store(CH_LIGHT_ORIGIN, px, vec4<f32>(origin, f32(li)));
        gbuf_store(CH_LIGHT_DIR, px, vec4<f32>(light_dir, dist));
    \x7d
    pack_material(px, m, light_dir);
\x7d

@compute @workgroup_size(8, 8, 1)
fn direct_light(@builtin(global_invocation_id) gid: vec3<u32>) \x7b
    if (!in_bounds(gid)) \x7b
        return;
    \x7d
    let px = pixel_index(gid);
    gbuf_store(CH_DIRECT, px, vec4<f32>(0.0));
    let lo = gbuf_load(CH_LIGHT_ORIGIN, px);
    if (lo.w < 0.0 || gbuf_load(CH_DEPTH, px).w < 0.0) \x7b
        return;
    \x7d
    let light = lights[u32(lo.w)];
    let ld = gbuf_load(CH_LIGHT_DIR, px);
    let shadow = gbuf_load(CH_LIGHT_DEPTH, px);
    let l = ld.xyz;
    let rd = gbuf_load(CH_CAM_DIR, px).xyz;
    let s = make_shading_state(unpack_material(px), gbuf_load(CH_NORMAL, px).xyz, rd);
    if (dot(l, s.ffnormal) <= 0.0) \x7b
        return;
    \x7d

    var light_pdf = 1.0;
    var emission = vec3<f32>(0.0);
    var mis = 1.0;
    let e = disney_eval(s, -rd, s.ffnormal, l);
    if (e.pdf <= 0.0) \x7b
        return;
    \x7d
    if (light.params.x < 0.5) \x7b
        if (shadow.x < 1000.0) \x7b
            return;
        \x7d
        // Delta-like sun: BSDF sampling never lands on the disk, so no MIS.
        light_pdf = 1.0 / cone_solid_angle(SUN_ANGLE);
        emission = light.emission.xyz * light_pdf;
    \x7d else \x7b
        if (!is_equal(shadow.w, light.params.z)) \x7b
            return;
        \x7d
        let c = scene_data[u32(light.params.y)].xyz;
        let p = lo.xyz + l * ld.w;
        let ln = normalize(p - c);
        let cos_l = dot(l, ln);
        if (cos_l >= 0.0) \x7b
            return;
        \x7d
        light_pdf = ld.w * ld.w / (light.emission.w * abs(cos_l));
        emission = light_material(light, p, ln).emission;
        mis = power_heuristic(light_pdf / f32(uniforms.num_lights), e.pdf);
    \x7d
    let pdf_l = light_pdf / f32(uniforms.num_lights);
    let direct = mis * e.f * abs(dot(s.ffnormal, l)) * emission / pdf_l;
    gbuf_store(CH_DIRECT, px, vec4<f32>(direct, 0.0));
\x7d

fn terminate(px: u32, radiance: vec3<f32>) \x7b
    gbuf_store(CH_RADIANCE, px, vec4<f32>(radiance, 0.0));
    let n = gbuf_load(CH_NORMAL, px);
    gbuf_store(CH_NORMAL, px, vec4<f32>(n.xyz, -1.0));
\x7d

// Sphere light entry whose material is `id`, -1 if none.
fn find_light(id: f32) -> i32 \x7b
    for (var i = 0u; i < uniforms.num_lights; i = i + 1u) \x7b
        let p = lights[i].params;
        if (p.x > 0.5 && is_equal(p.z, id)) \x7b
            return i32(i);
        \x7d
    \x7d
    return -1;
\x7d

@compute @workgroup_size(8, 8, 1)
fn path_trace(@builtin(global_invocation_id) gid: vec3<u32>) \x7b
    if (!in_bounds(gid)) \x7b
        return;
    \x7d
    let px = pixel_index(gid);
    let normal = gbuf_load(CH_NORMAL, px);
    if (normal.w < 0.0) \x7b
        return;
    \x7d
    let depth = gbuf_load(CH_DEPTH, px);
    let ro = gbuf_load(CH_CAM_ORIGIN, px).xyz;
    let rd = gbuf_load(CH_CAM_DIR, px).xyz;
    let absorption = gbuf_load(CH_ABSORPTION, px);
    let bounce = u32(absorption.w);
    rng_seed(px, uniforms.frame_seed, bounce * 8u + 3u);

    var radiance = gbuf_load(CH_RADIANCE, px).xyz;
    var throughput = gbuf_load(CH_THROUGHPUT, px);

    if (depth.w < 0.0) \x7b
        let inp = material_input(px, ro, rd, vec3<f32>(0.0), depth.y);
        terminate(px, radiance + environment(inp) * throughput.xyz);
        return;
    \x7d

    let n = normal.xyz;
    let pos = ro + rd * depth.x;
    var sigma = absorption.xyz;
    let fog = exp(-sigma * depth.x);
    throughput = vec4<f32>(throughput.xyz * fog, throughput.w);
    if (dot(n, rd) > 0.0) \x7b
        sigma = vec3<f32>(0.0);
    \x7d

    let m = unpack_material(px);
    if (any(m.emission > vec3<f32>(0.0))) \x7b
        var w = 1.0;
        let li = find_light(depth.w);
        if (throughput.w > 0.0 && li >= 0) \x7b
            let light = lights[u32(li)];
            let cos_l = abs(dot(n, rd));
            let light_pdf = depth.x * depth.x / (light.emission.w * max(cos_l, 0.000001)) / f32(uniforms.num_lights);
            w = power_heuristic(throughput.w, light_pdf);
        \x7d
        terminate(px, radiance + m.emission * throughput.xyz * w);
        return;
    \x7d

    radiance += gbuf_load(CH_DIRECT, px).xyz * throughput.xyz;

    let s = make_shading_state(m, n, rd);
    let smp = disney_sample(s, -rd, s.ffnormal);
    if (smp.pdf <= 0.0) \x7b
        terminate(px, radiance);
        return;
    \x7d
    if (dot(smp.l, s.ffnormal) < 0.0 && dot(n, rd) < 0.0) \x7b
        sigma = -log(max(m.extinction, vec3<f32>(0.000001))) / 0.2;
    \x7d
    let weight = smp.f * abs(dot(s.ffnormal, smp.l)) / smp.pdf;
    gbuf_store(CH_RADIANCE, px, vec4<f32>(radiance, 0.0));
    gbuf_store(CH_THROUGHPUT, px, vec4<f32>(throughput.xyz * weight, smp.pdf));
    gbuf_store(CH_ABSORPTION, px, vec4<f32>(sigma, f32(bounce + 1u)));
    gbuf_store(CH_CAM_ORIGIN, px, vec4<f32>(pos + toward(n, smp.l) * EPS, 0.0));
    gbuf_store(CH_CAM_DIR, px, vec4<f32>(smp.l, 0.0));
\x7d

@compute @workgroup_size(8, 8, 1)
fn accumulate(@builtin(global_invocation_id) gid: vec3<u32>) \x7b
    if (!in_bounds(gid)) \x7b
        return;
    \x7d
    let px = pixel_index(gid);
    var c = gbuf_load(CH_RADIANCE, px).xyz;
    if (any(c != c) || any(c < vec3<f32>(0.0)) || any(c > vec3<f32>(1e30))) \x7b
        c = vec3<f32>(0.0);
    \x7d
    let n = f32(uniforms.sample_index);
    var avg = c;
    if (uniforms.sample_index > 0u) \x7b
        avg = (gbuf_load(CH_ACCUM, px).xyz * n + c) / (n + 1.0);
    \x7d
    gbuf_store(CH_ACCUM, px, vec4<f32>(avg, 1.0));
    textureStore(output_tex, vec2<i32>(gid.xy), vec4<f32>(avg, 1.0));
\x7d
"

end PathTracer.Shader.Template
