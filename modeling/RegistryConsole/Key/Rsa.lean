import RegistryConsole.Key.Sha256

/-! # RSA keys and signatures

A private key is read from the strict form of its numbers and checked before it is used: sizes,
parities, and that the numbers fit together. A signature is made from the two primes and checked
with the public exponent before it is given away. -/

namespace RegistryConsole.Rsa

/-- Why a key cannot be used. -/
inductive KeyFault where
  | invalidEncoding
  | versionNotSupported
  | invalidComponent
  | inconsistentComponents
  | tooSmall
  | tooLarge
  | primeSize
  | unexpected
  deriving DecidableEq

/-- The text of a fault. -/
def KeyFault.message : KeyFault → String
  | .invalidEncoding => "InvalidEncoding"
  | .versionNotSupported => "VersionNotSupported"
  | .invalidComponent => "InvalidComponent"
  | .inconsistentComponents => "InconsistentComponents"
  | .tooSmall => "TooSmall"
  | .tooLarge => "TooLarge"
  | .primeSize => "PrivateModulusLenNotMultipleOf512Bits"
  | .unexpected => "UnexpectedError"

/-! ## The strict form -/

/-- Reads a length in its shortest form, of at most two octets. -/
def readLength : Bytes → Option (Nat × Bytes)
  | [] => none
  | b :: rest =>
    let n := b.toNat
    if n < 128 then some (n, rest)
    else if n = 0x81 then
      match rest with
      | x :: rest => if x.toNat < 128 then none else some (x.toNat, rest)
      | [] => none
    else if n = 0x82 then
      match rest with
      | x :: y :: rest =>
        let length := x.toNat * 256 + y.toNat
        if length < 256 then none else some (length, rest)
      | _ => none
    else none

/-- Reads the content of a value with the given tag. -/
def readTagged (tag : UInt8) : Bytes → Option (Bytes × Bytes)
  | [] => none
  | b :: rest =>
    if b = tag then
      (readLength rest).bind fun (length, rest) =>
        if rest.length < length then none else some (rest.take length, rest.drop length)
    else none

/-- The octets of a number without sign in their shortest form; zero is one octet. -/
def unsigned? : Bytes → Option Bytes
  | [] => none
  | [b] => if b.toNat < 128 then some [b] else none
  | a :: b :: rest =>
    if a.toNat = 0 then if 128 ≤ b.toNat then some (b :: rest) else none
    else if a.toNat < 128 then some (a :: b :: rest)
    else none

/-- Reads a number without sign. -/
def readUnsigned (text : Bytes) : Option (Bytes × Bytes) :=
  (readTagged 0x02 text).bind fun (content, rest) =>
    (unsigned? content).map fun b => (b, rest)

/-- Reads numbers without sign. -/
def readUnsigneds : (count : Nat) → Bytes → Option (List Bytes × Bytes)
  | 0, text => some ([], text)
  | count + 1, text =>
    (readUnsigned text).bind fun (b, rest) =>
      (readUnsigneds count rest).map fun (bs, rest) => (b :: bs, rest)

/-! ## The numbers of a key -/

/-- The numbers of a private key. -/
structure PrivateKey where
  modulus : Nat
  publicExponent : Nat
  privateExponent : Nat
  prime1 : Nat
  prime2 : Nat
  /-- The private exponents modulo one less than each prime. -/
  exponent1 : Nat
  exponent2 : Nat
  /-- The inverse of the second prime modulo the first. -/
  coefficient : Nat
  deriving DecidableEq

/-- The number of binary digits. -/
def bitLength (n : Nat) : Nat :=
  if n = 0 then 0 else n.log2 + 1

/-- Half of a number, rounded up. -/
def halfUp (n : Nat) : Nat :=
  n / 2 + n % 2

/-- Fails unless a condition holds. -/
def need (condition : Bool) (fault : KeyFault) : Except KeyFault Unit :=
  if condition then .ok () else .error fault

/-- The greatest number of octets that a modulus may have. -/
def maxModulusOctets : Nat := 1024

/-- The number of octets of a modulus, by words of eight. -/
def checkModulusForm (b : Bytes) (even : KeyFault) : Except KeyFault Unit := do
  need (24 < b.length) .unexpected
  need (b.length ≤ maxModulusOctets) .tooLarge
  need (b.toNat % 2 == 1) even

/-- Checks the modulus: odd, and from 2048 bits, rounded up to whole octets, to 4096. -/
def checkModulus (b : Bytes) : Except KeyFault Unit := do
  checkModulusForm b .invalidComponent
  let bits := bitLength b.toNat
  need (2048 ≤ (bits + 7) / 8 * 8) .tooSmall
  need (bits ≤ 4096) .tooLarge

/-- Checks the public exponent: odd, from 65537 to less than 2³³. -/
def checkPublicExponent (b : Bytes) : Except KeyFault Unit := do
  need (b.length ≤ 5) .tooLarge
  need (b.head? != some 0) .invalidEncoding
  need (65537 ≤ b.toNat) .tooSmall
  need (b.toNat < 0x200000000) .tooLarge
  need (b.toNat % 2 == 1) .invalidComponent

/-- Checks a prime as far as it is easy: odd, half as long as the modulus, in whole multiples of
512 bits. -/
def checkPrime (modulusBits : Nat) (b : Bytes) : Except KeyFault Unit := do
  need (b.toNat % 2 == 1) .inconsistentComponents
  need (bitLength b.toNat == halfUp modulusBits) .inconsistentComponents
  need (bitLength b.toNat % 512 == 0) .primeSize

/-- Checks the private exponent: odd, longer than half of the modulus, and less than it. -/
def checkPrivateExponent (modulus : Nat) (b : Bytes) : Except KeyFault Unit := do
  need (24 < b.length) .invalidComponent
  need (b.toNat % 2 == 1) .invalidComponent
  need (halfUp (bitLength modulus) < bitLength b.toNat) .inconsistentComponents
  need (b.toNat < modulus) .inconsistentComponents

/-- Checks an exponent for one prime: odd and less than the prime. -/
def checkPrimeExponent (prime : Nat) (b : Bytes) : Except KeyFault Unit := do
  need (b.toNat % 2 == 1) .inconsistentComponents
  need (b.toNat < prime) .inconsistentComponents

/-- The key of its numbers, checked one after the other. -/
def ofNumbers (n e d p q dP dQ qInv : Bytes) : Except KeyFault PrivateKey := do
  checkModulus n
  checkPublicExponent e
  let key : PrivateKey :=
    ⟨n.toNat, e.toNat, d.toNat, p.toNat, q.toNat, dP.toNat, dQ.toNat, qInv.toNat⟩
  checkPrime (bitLength key.modulus) p
  checkPrime (bitLength key.modulus) q
  need (key.prime1 * key.prime2 % key.modulus == 0) .inconsistentComponents
  checkPrivateExponent key.modulus d
  need (key.coefficient < key.prime1) .invalidComponent
  need (key.coefficient * key.prime2 % key.prime1 == 1) .inconsistentComponents
  checkPrimeExponent key.prime1 dP
  checkPrimeExponent key.prime2 dQ
  .ok key

/-- The key in the content of the sequence that a key file is. -/
def ofContent (content : Bytes) : Except KeyFault PrivateKey :=
  match readUnsigned content with
  | none => .error .invalidEncoding
  | some (version, rest) =>
    if version.length ≠ 1 then .error .invalidEncoding
    else if version ≠ [0] then .error .versionNotSupported
    else match readUnsigneds 8 rest with
      | some ([n, e, d, p, q, dP, dQ, qInv], rest) =>
        match ofNumbers n e d p q dP dQ qInv with
        | .error f => .error f
        | .ok key => if rest.isEmpty then .ok key else .error .invalidEncoding
      | _ => .error .invalidEncoding

/-- The private key of a key file: one sequence and nothing after it. -/
def PrivateKey.ofBytes? (text : Bytes) : Except KeyFault PrivateKey :=
  match readTagged 0x30 text with
  | none => .error .invalidEncoding
  | some (content, rest) =>
    match ofContent content with
    | .error f => .error f
    | .ok key => if rest.isEmpty then .ok key else .error .invalidEncoding

/-! ## Signatures -/

/-- `b ^ e` modulo `n`, by squaring. -/
def powMod (b e n : Nat) : Nat :=
  if e = 0 then 1 % n
  else
    let square := powMod (b * b % n) (e / 2) n
    if e % 2 = 1 then square * b % n else square
termination_by e
decreasing_by omega

theorem powMod_eq (b e n : Nat) : powMod b e n = Nat.pow b e % n := by
  rw [Nat.pow_eq]
  induction e using Nat.strongRecOn generalizing b with
  | _ e ih =>
    unfold powMod
    split
    · next h => simp [h]
    · next h =>
      have hsq : powMod (b * b % n) (e / 2) n = (b * b) ^ (e / 2) % n := by
        rw [ih (e / 2) (by omega), ← Nat.pow_mod]
      have hpow : (b * b) ^ (e / 2) = b ^ (2 * (e / 2)) := by
        rw [Nat.pow_mul, Nat.pow_two]
      simp only [hsq, hpow]
      split
      · next hodd =>
        rw [Nat.mod_mul_mod, ← Nat.pow_succ]
        congr 2
        omega
      · next heven =>
        congr 2
        omega

/-- What comes before a SHA-256 hash in the number that is signed. -/
def hashInfo : Bytes :=
  [0x30, 0x31, 0x30, 0x0d, 0x06, 0x09, 0x60, 0x86, 0x48, 0x01, 0x65, 0x03, 0x04, 0x02, 0x01, 0x05,
    0x00, 0x04, 0x20]

/-- The octets that are signed for a message: its hash, filled up to the length of the modulus. -/
def encodeMessage (length : Nat) (message : Bytes) : Bytes :=
  let info := hashInfo ++ Sha256.hash message
  [0x00, 0x01] ++ List.replicate (length - info.length - 3) 0xFF ++ [0x00] ++ info

/-- The number of octets of the modulus. -/
def PrivateKey.length (key : PrivateKey) : Nat :=
  (bitLength key.modulus + 7) / 8

/-- The private operation on a number, from the two primes. -/
def PrivateKey.power (key : PrivateKey) (c : Nat) : Nat :=
  let m1 := powMod (c % key.prime1) key.exponent1 key.prime1
  let m2 := powMod (c % key.prime2) key.exponent2 key.prime2
  let difference := m1 + key.prime1 - m2 % key.prime1
  let h := key.coefficient * difference % key.prime1
  (m2 + h * key.prime2) % key.modulus

/-- Whether a signature is one of the message for a modulus and a public exponent. -/
def verifies (modulus publicExponent : Nat) (message signature : Bytes) : Bool :=
  let length := (bitLength modulus + 7) / 8
  signature.length == length &&
    powMod signature.toNat publicExponent modulus == (encodeMessage length message).toNat

/-- The signature of a message. There is none if it would not verify. -/
def PrivateKey.sign? (key : PrivateKey) (message : Bytes) : Option Bytes :=
  let signature := Bytes.ofNat key.length (key.power (encodeMessage key.length message).toNat)
  if verifies key.modulus key.publicExponent message signature then some signature else none

end RegistryConsole.Rsa
