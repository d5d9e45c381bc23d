/-!
# Seeded draws

Random numbers from 0 up to 1, read by position: the number at a place is a mix of the seed and the place,
so that one seed always gives the same stream.
-/

namespace NodeLink.CommandLine

def spread (w : UInt64) : UInt64 :=
  let w := (w ^^^ (w >>> 30)) * 0xBF58476D1CE4E5B9
  let w := (w ^^^ (w >>> 27)) * 0x94D049BB133111EB
  w ^^^ (w >>> 31)

/-- The random number at a place of the stream of a seed. -/
def seededDraw (seed : Int) (place : Nat) : Float :=
  let word := spread (UInt64.ofInt seed + (UInt64.ofNat place + 1) * 0x9E3779B97F4A7C15)
  (word >>> 11).toFloat / 9007199254740992.0

end NodeLink.CommandLine
