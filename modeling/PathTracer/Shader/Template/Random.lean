/-! Shader source of the random stream, one for each invocation. -/
namespace PathTracer.Shader.Template

def randomSource : String :=
  "// PCG random stream, one per invocation.

var<private> rng_state: u32;

fn pcg_hash(v: u32) -> u32 \x7b
    let state = v * 747796405u + 2891336453u;
    let word = ((state >> ((state >> 28u) + 4u)) ^ state) * 277803737u;
    return (word >> 22u) ^ word;
\x7d

fn rng_seed(pixel: u32, frame_seed: u32, salt: u32) \x7b
    rng_state = pcg_hash(pixel ^ pcg_hash(frame_seed ^ pcg_hash(salt)));
\x7d

fn rand() -> f32 \x7b
    let state = rng_state;
    rng_state = state * 747796405u + 2891336453u;
    let word = ((state >> ((state >> 28u) + 4u)) ^ state) * 277803737u;
    return f32(((word >> 22u) ^ word) >> 8u) * (1.0 / 16777216.0);
\x7d
"

end PathTracer.Shader.Template
