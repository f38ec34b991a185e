/-! Shader source of the intersections and of the passes that trace rays. -/
namespace PathTracer.Shader.Template

def geometrySource : String :=
  "// Analytic depth/normal pass.
//
// Stands in for an external ray-marcher: it fills CH_DEPTH and CH_NORMAL
// for camera and bounce rays and CH_LIGHT_DEPTH for shadow rays. Objects
// store [position, rotation (degrees), scale] in three consecutive data
// slots; rotations apply X, then Y, then Z.

fn rotate_axis(a: f32, b: f32, deg: f32) -> vec2<f32> \x7b
    let r = radians(deg);
    let s = sin(r);
    let c = cos(r);
    return vec2<f32>(a * c - b * s, a * s + b * c);
\x7d

fn rotate_euler(p_in: vec3<f32>, deg: vec3<f32>) -> vec3<f32> \x7b
    var p = p_in;
    let yz = rotate_axis(p.y, p.z, deg.x);
    p.y = yz.x;
    p.z = yz.y;
    let zx = rotate_axis(p.z, p.x, deg.y);
    p.z = zx.x;
    p.x = zx.y;
    let xy = rotate_axis(p.x, p.y, deg.z);
    p.x = xy.x;
    p.y = xy.y;
    return p;
\x7d

fn rotate_euler_inv(p_in: vec3<f32>, deg: vec3<f32>) -> vec3<f32> \x7b
    var p = p_in;
    let xy = rotate_axis(p.x, p.y, -deg.z);
    p.x = xy.x;
    p.y = xy.y;
    let zx = rotate_axis(p.z, p.x, -deg.y);
    p.z = zx.x;
    p.x = zx.y;
    let yz = rotate_axis(p.y, p.z, -deg.x);
    p.y = yz.x;
    p.z = yz.y;
    return p;
\x7d

struct LocalRay \x7b
    ro: vec3<f32>,
    rd: vec3<f32>,
    scale: f32,
\x7d

// World ray in object space. Local distances times `scale` are world distances.
fn to_object(ro: vec3<f32>, rd: vec3<f32>, obj: u32) -> LocalRay \x7b
    let pos = scene_data[obj].xyz;
    let rot = scene_data[obj + 1u].xyz;
    let scale = scene_data[obj + 2u].x;
    return LocalRay(rotate_euler_inv(ro - pos, rot) / scale, rotate_euler_inv(rd, rot), scale);
\x7d

fn sphere_distance(ro: vec3<f32>, rd: vec3<f32>, center: vec3<f32>, radius: f32) -> f32 \x7b
    let oc = ro - center;
    let b = dot(oc, rd);
    let c = dot(oc, oc) - radius * radius;
    let h = b * b - c;
    if (h < 0.0) \x7b
        return -1.0;
    \x7d
    let sq = sqrt(h);
    let t = -b - sq;
    if (t > 0.0) \x7b
        return t;
    \x7d
    return -b + sq;
\x7d

fn prim_sphere(ro: vec3<f32>, rd: vec3<f32>, obj: u32, prim: u32, material: i32, best: Hit) -> Hit \x7b
    let lr = to_object(ro, rd, obj);
    let d = scene_data[prim];
    let t = sphere_distance(lr.ro, lr.rd, d.xyz, d.w);
    let tw = t * lr.scale;
    if (t <= 0.0 || tw >= best.t) \x7b
        return best;
    \x7d
    let n = normalize(lr.ro + lr.rd * t - d.xyz);
    return Hit(tw, rotate_euler(n, scene_data[obj + 1u].xyz), f32(material), 0.0);
\x7d

fn prim_box(ro: vec3<f32>, rd: vec3<f32>, obj: u32, prim: u32, material: i32, best: Hit) -> Hit \x7b
    let lr = to_object(ro, rd, obj);
    let center = scene_data[prim].xyz;
    let half_size = scene_data[prim + 1u].xyz;
    let inv = 1.0 / lr.rd;
    let t0 = (center - half_size - lr.ro) * inv;
    let t1 = (center + half_size - lr.ro) * inv;
    let tmin = min(t0, t1);
    let tmax = max(t0, t1);
    let near = max(max(tmin.x, tmin.y), tmin.z);
    let far = min(min(tmax.x, tmax.y), tmax.z);
    if (near > far || far <= 0.0) \x7b
        return best;
    \x7d
    var t = near;
    var pick = tmin;
    var flip = 1.0;
    if (near <= 0.0) \x7b
        t = far;
        pick = tmax;
        flip = -1.0;
    \x7d
    let tw = t * lr.scale;
    if (tw >= best.t) \x7b
        return best;
    \x7d
    var n = vec3<f32>(0.0, 0.0, -sign(lr.rd.z));
    if (pick.x == t) \x7b
        n = vec3<f32>(-sign(lr.rd.x), 0.0, 0.0);
    \x7d else if (pick.y == t) \x7b
        n = vec3<f32>(0.0, -sign(lr.rd.y), 0.0);
    \x7d
    return Hit(tw, rotate_euler(n * flip, scene_data[obj + 1u].xyz), f32(material), 0.0);
\x7d

fn prim_plane(ro: vec3<f32>, rd: vec3<f32>, obj: u32, prim: u32, material: i32, best: Hit) -> Hit \x7b
    let lr = to_object(ro, rd, obj);
    let d = scene_data[prim];
    let denom = dot(lr.rd, d.xyz);
    if (abs(denom) < 0.000001) \x7b
        return best;
    \x7d
    let t = (d.w - dot(lr.ro, d.xyz)) / denom;
    let tw = t * lr.scale;
    if (t <= 0.0 || tw >= best.t) \x7b
        return best;
    \x7d
    return Hit(tw, rotate_euler(d.xyz, scene_data[obj + 1u].xyz), f32(material), 0.0);
\x7d

// Sphere light geometry, stored in world space.
fn prim_light_sphere(ro: vec3<f32>, rd: vec3<f32>, slot: u32, material: i32, best: Hit) -> Hit \x7b
    let d = scene_data[slot];
    let t = sphere_distance(ro, rd, d.xyz, d.w);
    if (t <= 0.0 || t >= best.t) \x7b
        return best;
    \x7d
    return Hit(t, normalize(ro + rd * t - d.xyz), f32(material), 0.0);
\x7d

// Material preview: unit sphere at the origin.
fn preview_hit(ro: vec3<f32>, rd: vec3<f32>) -> Hit \x7b
    let t = sphere_distance(ro, rd, vec3<f32>(0.0), 1.0);
    if (t <= 0.0) \x7b
        return no_hit();
    \x7d
    return Hit(t, normalize(ro + rd * t), f32(uniforms.preview_material), 0.0);
\x7d

fn trace(ro: vec3<f32>, rd: vec3<f32>) -> Hit \x7b
    if (uniforms.preview_material >= 0) \x7b
        return preview_hit(ro, rd);
    \x7d
    return scene_hit(ro, rd);
\x7d

fn write_hit(px: u32, hit: Hit) \x7b
    gbuf_store(CH_DEPTH, px, vec4<f32>(hit.t, pixel_hash(px), hit.blend, hit.material));
    gbuf_store(CH_NORMAL, px, vec4<f32>(hit.normal, 0.0));
\x7d

@compute @workgroup_size(8, 8, 1)
fn geometry_primary(@builtin(global_invocation_id) gid: vec3<u32>) \x7b
    if (!in_bounds(gid)) \x7b
        return;
    \x7d
    let px = pixel_index(gid);
    rng_seed(px, uniforms.frame_seed, 0u);
    let jitter = fract(vec2<f32>(rand(), rand()) + uniforms.random_vector.xy);
    let ray = camera_ray(vec2<f32>(gid.xy) + jitter);
    gbuf_store(CH_CAM_ORIGIN, px, vec4<f32>(ray.origin, 0.0));
    gbuf_store(CH_CAM_DIR, px, vec4<f32>(ray.dir, 0.0));
    gbuf_store(CH_RADIANCE, px, vec4<f32>(0.0));
    gbuf_store(CH_THROUGHPUT, px, vec4<f32>(1.0, 1.0, 1.0, 0.0));
    gbuf_store(CH_ABSORPTION, px, vec4<f32>(0.0));
    gbuf_store(CH_DIRECT, px, vec4<f32>(0.0));
    write_hit(px, trace(ray.origin, ray.dir));
\x7d

@compute @workgroup_size(8, 8, 1)
fn geometry_bounce(@builtin(global_invocation_id) gid: vec3<u32>) \x7b
    if (!in_bounds(gid)) \x7b
        return;
    \x7d
    let px = pixel_index(gid);
    if (gbuf_load(CH_NORMAL, px).w < 0.0) \x7b
        gbuf_store(CH_DEPTH, px, vec4<f32>(FAR, 0.0, 0.0, DEAD_ID));
        return;
    \x7d
    let ro = gbuf_load(CH_CAM_ORIGIN, px).xyz;
    let rd = gbuf_load(CH_CAM_DIR, px).xyz;
    write_hit(px, trace(ro, rd));
\x7d

@compute @workgroup_size(8, 8, 1)
fn geometry_shadow(@builtin(global_invocation_id) gid: vec3<u32>) \x7b
    if (!in_bounds(gid)) \x7b
        return;
    \x7d
    let px = pixel_index(gid);
    let lo = gbuf_load(CH_LIGHT_ORIGIN, px);
    if (lo.w < 0.0 || gbuf_load(CH_DEPTH, px).w < 0.0) \x7b
        gbuf_store(CH_LIGHT_DEPTH, px, vec4<f32>(0.0, 0.0, 0.0, MISS_ID));
        return;
    \x7d
    let ld = gbuf_load(CH_LIGHT_DIR, px);
    if (uniforms.no_shadows != 0u) \x7b
        let light = lights[u32(lo.w)];
        let dist = select(ld.w, FAR, light.params.x < 0.5);
        gbuf_store(CH_LIGHT_DEPTH, px, vec4<f32>(dist, 0.0, 0.0, light.params.z));
        return;
    \x7d
    let hit = trace(lo.xyz, ld.xyz);
    gbuf_store(CH_LIGHT_DEPTH, px, vec4<f32>(hit.t, 0.0, 0.0, hit.material));
\x7d
"

end PathTracer.Shader.Template
