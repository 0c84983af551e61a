/-! # Octets

Messages, keys and texts on the wire are lists of octets. -/

namespace RegistryConsole

/-- The octets of a message, a key or an encoded text, in order. -/
abbrev Bytes := List UInt8

namespace Bytes

/-- The value of big-endian octets. -/
def toNat (b : Bytes) : Nat :=
  b.foldl (fun acc x => acc * 256 + x.toNat) 0

/-- The `width` low octets of `n`, most significant first. -/
def ofNat : (width : Nat) → (n : Nat) → Bytes
  | 0, _ => []
  | w + 1, n => ofNat w (n / 256) ++ [UInt8.ofNat (n % 256)]

theorem length_ofNat (w n : Nat) : (ofNat w n).length = w := by
  induction w generalizing n with
  | zero => rfl
  | succ w ih => simp [ofNat, ih]

/-- The characters whose codes are the octets: each octet is one character. -/
def toLatin (b : Bytes) : List Char :=
  b.map fun x => Char.ofNat x.toNat

end Bytes

end RegistryConsole
