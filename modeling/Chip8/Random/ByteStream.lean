/-!
# The stream of random bytes

Random bytes come from a fixed endless stream that a seed determines. Which stream that is, is up
to the generator; the machine can work with any. The stream remembers how many bytes have been
drawn; drawing takes the next one and nothing puts one back.
-/

namespace Chip8

/-- What a generator makes of each seed: byte number `k`, for every `k`. -/
abbrev Generator := UInt64 → Nat → UInt8

/-- An endless stream of bytes, and a place in it. -/
structure ByteStream where
  /-- Byte number `k`, counted from the beginning of the stream. -/
  get : Nat → UInt8
  /-- How many bytes have been drawn. -/
  drawn : Nat

namespace ByteStream

/-- The stream that a generator makes of a seed, with no byte drawn yet. -/
def ofSeed (generator : Generator) (seed : UInt64) : ByteStream :=
  ⟨generator seed, 0⟩

/-- A stream of nothing but zeros. -/
def zeros : ByteStream :=
  ⟨fun _ => 0, 0⟩

/-- The byte that is drawn next. -/
def head (s : ByteStream) : UInt8 :=
  s.get s.drawn

/-- The stream after one byte has been drawn. -/
def tail (s : ByteStream) : ByteStream :=
  { s with drawn := s.drawn + 1 }

end ByteStream

end Chip8
