/-! Shader source of the bindings, the layout of the channels and the camera. -/
namespace PathTracer.Shader.Template

def bindingsSource : String :=
  "// Shared bindings and helpers for all render passes.
//
// Per-pixel intermediate data lives in one storage buffer, one vec4 per
// pixel per channel: gbuf[channel * pixel_count + pixel]. Channel indices
// must match `render::kit::Channel`.

const CH_DEPTH: u32 = 0u;         // x: distance, y: pixel hash, z: blend code, w: material id
const CH_NORMAL: u32 = 1u;        // w: 0 alive, -1 terminated
const CH_CAM_ORIGIN: u32 = 2u;
const CH_CAM_DIR: u32 = 3u;
const CH_LIGHT_ORIGIN: u32 = 4u;  // w: light index, -1 none
const CH_LIGHT_DIR: u32 = 5u;     // w: distance to the light sample
const CH_LIGHT_DEPTH: u32 = 6u;   // x: shadow distance, w: shadow material id
const CH_PARAMS: u32 = 7u;        // 7..12 packed BsdfMaterial
const CH_DIRECT: u32 = 13u;
const CH_RADIANCE: u32 = 14u;
const CH_THROUGHPUT: u32 = 15u;   // w: pdf of the sampled direction, 0 for camera rays
const CH_ABSORPTION: u32 = 16u;   // w: bounce
const CH_ACCUM: u32 = 17u;

const FAR: f32 = 10000.0;
const EPS: f32 = 0.001;
const SUN_ANGLE: f32 = 0.0047;
const MISS_ID: f32 = -1.0;
const DEAD_ID: f32 = -100.0;

struct RenderUniforms \x7b
    camera_origin: vec4<f32>,   // w: image plane scale
    camera_look_at: vec4<f32>,  // w: 1 for orthographic
    background: vec4<f32>,
    random_vector: vec4<f32>,
    size: vec2<u32>,
    sample_index: u32,
    max_depth: u32,
    num_lights: u32,
    preview_material: i32,
    no_shadows: u32,
    frame_seed: u32,
\x7d

struct LightEntry \x7b
    params: vec4<f32>,    // x: type (0 sun, 1 sphere), y: data slot, z: material, w: radius
    emission: vec4<f32>,  // xyz: sun radiance, w: area
\x7d

@group(0) @binding(0) var<uniform> uniforms: RenderUniforms;
@group(0) @binding(1) var<storage, read> scene_data: array<vec4<f32>>;
@group(0) @binding(2) var<storage, read> lights: array<LightEntry>;
@group(0) @binding(3) var<storage, read_write> gbuf: array<vec4<f32>>;
@group(0) @binding(4) var output_tex: texture_storage_2d<rgba32float, write>;

struct MaterialInput \x7b
    ray_position: vec3<f32>,
    ray_direction: vec3<f32>,
    normal: vec3<f32>,
    uv: vec2<f32>,
    view_size: vec2<f32>,
    hash: f32,
    gradient: f32,
\x7d

struct Hit \x7b
    t: f32,
    normal: vec3<f32>,
    material: f32,
    // secondary id + weight of `material`, 0 for no blend
    blend: f32,
\x7d

struct Ray \x7b
    origin: vec3<f32>,
    dir: vec3<f32>,
\x7d

fn pixel_count() -> u32 \x7b
    return uniforms.size.x * uniforms.size.y;
\x7d

fn gbuf_load(ch: u32, px: u32) -> vec4<f32> \x7b
    return gbuf[ch * pixel_count() + px];
\x7d

fn gbuf_store(ch: u32, px: u32, v: vec4<f32>) \x7b
    gbuf[ch * pixel_count() + px] = v;
\x7d

fn in_bounds(gid: vec3<u32>) -> bool \x7b
    return gid.x < uniforms.size.x && gid.y < uniforms.size.y;
\x7d

fn pixel_index(gid: vec3<u32>) -> u32 \x7b
    return gid.y * uniforms.size.x + gid.x;
\x7d

// Material ids are stored as floats.
fn is_equal(a: f32, b: f32) -> bool \x7b
    return abs(a - b) < 0.1;
\x7d

fn no_hit() -> Hit \x7b
    return Hit(FAR, vec3<f32>(0.0), MISS_ID, 0.0);
\x7d

// `n` flipped to the side of `l`.
fn toward(n: vec3<f32>, l: vec3<f32>) -> vec3<f32> \x7b
    return select(-n, n, dot(n, l) > 0.0);
\x7d

fn pixel_hash(px: u32) -> f32 \x7b
    return f32(pcg_hash(px)) / 4294967296.0;
\x7d

fn material_input(px: u32, pos: vec3<f32>, dir: vec3<f32>, normal: vec3<f32>, hash: f32) -> MaterialInput \x7b
    let size = vec2<f32>(uniforms.size);
    let coord = vec2<f32>(f32(px % uniforms.size.x), f32(px / uniforms.size.x));
    let uv = (coord + 0.5) / size;
    return MaterialInput(pos, dir, normal, uv, size, hash, uv.y);
\x7d

fn camera_ray(coord: vec2<f32>) -> Ray \x7b
    let size = vec2<f32>(uniforms.size);
    let ndc = vec2<f32>(coord.x / size.x * 2.0 - 1.0, 1.0 - coord.y / size.y * 2.0);
    let origin = uniforms.camera_origin.xyz;
    let fwd = normalize(uniforms.camera_look_at.xyz - origin);
    var right = cross(vec3<f32>(0.0, 1.0, 0.0), fwd);
    if (length(right) < 0.0001) \x7b
        right = vec3<f32>(1.0, 0.0, 0.0);
    \x7d
    right = normalize(right);
    let up = cross(fwd, right);
    let scale = uniforms.camera_origin.w;
    let offset = right * (ndc.x * scale * size.x / size.y) + up * (ndc.y * scale);
    if (uniforms.camera_look_at.w > 0.5) \x7b
        return Ray(origin + offset, fwd);
    \x7d
    return Ray(origin, normalize(fwd + offset));
\x7d

// Orthonormal frame around `n`: (tangent, bitangent).
fn basis(n: vec3<f32>) -> mat2x3<f32> \x7b
    var up = vec3<f32>(1.0, 0.0, 0.0);
    if (abs(n.z) < 0.999) \x7b
        up = vec3<f32>(0.0, 0.0, 1.0);
    \x7d
    let t = normalize(cross(up, n));
    return mat2x3<f32>(t, cross(n, t));
\x7d

// Uniform direction inside the cone of `half_angle` around `axis`.
fn sample_cone(axis: vec3<f32>, half_angle: f32) -> vec3<f32> \x7b
    let r1 = rand();
    let r2 = rand();
    let cos_t = 1.0 - r1 * (1.0 - cos(half_angle));
    let sin_t = sqrt(max(0.0, 1.0 - cos_t * cos_t));
    let phi = TWO_PI * r2;
    let tb = basis(axis);
    return normalize(tb[0] * (cos(phi) * sin_t) + tb[1] * (sin(phi) * sin_t) + axis * cos_t);
\x7d

fn cone_solid_angle(half_angle: f32) -> f32 \x7b
    return TWO_PI * (1.0 - cos(half_angle));
\x7d
"

end PathTracer.Shader.Template
