/-!
# LEB128

Numbers as bytes of seven bits each, lowest first, every byte but the last with its high bit set, in
as few bytes as the number needs. A signed number is done when what is left of it shows in the sign
bit of the last group.
-/

namespace Wasmline.Leb128

/-- A natural number in as few bytes as possible. -/
def unsigned (n : Nat) : List UInt8 :=
  if n < 128 then [n.toUInt8] else (n % 128 + 128).toUInt8 :: unsigned (n / 128)
termination_by n
decreasing_by omega

/-- An integer in as few bytes as possible. -/
def signed (n : Int) : List UInt8 :=
  if -64 ≤ n ∧ n < 64 then [(n % 128).toNat.toUInt8]
  else (n % 128 + 128).toNat.toUInt8 :: signed (n / 128)
termination_by n.natAbs
decreasing_by omega

end Wasmline.Leb128
