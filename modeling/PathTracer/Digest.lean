/-! SipHash with one compression round and three finalization rounds, keyed
with zeros: the digest by which programs are told apart. -/
namespace PathTracer.Digest

/-- The four words that the hash mixes. -/
structure State where
  v0 : UInt64
  v1 : UInt64
  v2 : UInt64
  v3 : UInt64

def rotateLeft (x : UInt64) (bits : UInt64) : UInt64 :=
  (x <<< bits) ||| (x >>> (64 - bits))

/-- The constants that the zero key leaves. -/
def State.initial : State :=
  ⟨0x736f6d6570736575, 0x646f72616e646f6d, 0x6c7967656e657261, 0x7465646279746573⟩

def State.round (s : State) : State :=
  let v0 := s.v0 + s.v1
  let v1 := rotateLeft s.v1 13 ^^^ v0
  let v0 := rotateLeft v0 32
  let v2 := s.v2 + s.v3
  let v3 := rotateLeft s.v3 16 ^^^ v2
  let v0 := v0 + v3
  let v3 := rotateLeft v3 21 ^^^ v0
  let v2 := v2 + v1
  let v1 := rotateLeft v1 17 ^^^ v2
  let v2 := rotateLeft v2 32
  ⟨v0, v1, v2, v3⟩

/-- Mix in one word. -/
def State.compress (s : State) (word : UInt64) : State :=
  let s := State.round { s with v3 := s.v3 ^^^ word }
  { s with v0 := s.v0 ^^^ word }

def State.finish (s : State) : UInt64 :=
  let s := State.round (State.round (State.round { s with v2 := s.v2 ^^^ 0xff }))
  s.v0 ^^^ s.v1 ^^^ s.v2 ^^^ s.v3

/-- Up to eight bytes as a word, the first one lowest. -/
def littleEndian : List UInt8 → UInt64
  | [] => 0
  | b :: rest => b.toUInt64 ||| (littleEndian rest <<< 8)

/-- Mix in all whole words of a text, then the rest of it together with the
number of bytes. -/
def absorb (length : Nat) (s : State) : List UInt8 → State
  | a :: b :: c :: d :: e :: f :: g :: h :: rest =>
    absorb length (s.compress (littleEndian [a, b, c, d, e, f, g, h])) rest
  | rest => s.compress (littleEndian rest ||| (length.toUInt64 <<< 56))

/-- The digest of a list of bytes. -/
def ofBytes (bytes : List UInt8) : UInt64 :=
  (absorb bytes.length .initial bytes).finish

/-- The digest of a text: that of its bytes and one byte that occurs in none. -/
def ofText (text : String) : UInt64 :=
  ofBytes (text.toUTF8.toList ++ [0xff])

end PathTracer.Digest
