import Mathlib.FieldTheory.Finite.Basic
import RegistryConsole.Key.Rsa

/-! # RSA signatures verify

The checks of a key tell that its primes multiply to the modulus and that its coefficient inverts
the second prime modulo the first, but not that the primes are prime, nor that the exponents for
the primes invert the public one. Where these hold as well, the operation from the two primes is
undone by the public exponent (Fermat, and the Chinese remainder theorem), so that every message
gets a signature, and has no other. -/

namespace RegistryConsole

/-! ## Octets of numbers -/

namespace Bytes

theorem toNat_append (a b : Bytes) : toNat (a ++ b) = toNat a * 256 ^ b.length + toNat b := by
  have hfold : ∀ (b : Bytes) (n : Nat),
      b.foldl (fun acc x => acc * 256 + x.toNat) n = n * 256 ^ b.length + toNat b := by
    intro b
    induction b with
    | nil => exact fun n => by simp [toNat]
    | cons x b ih =>
      intro n
      have hcons : toNat (x :: b) = x.toNat * 256 ^ b.length + toNat b := by
        rw [toNat, List.foldl_cons, ih, zero_mul, zero_add]
      rw [List.foldl_cons, ih, hcons, List.length_cons, pow_succ]
      ring
  rw [toNat, List.foldl_append, hfold]
  rfl

theorem toNat_lt (b : Bytes) : toNat b < 256 ^ b.length := by
  induction b using List.reverseRecOn with
  | nil => exact Nat.one_pos
  | append_singleton b x ih =>
    have hx := x.toNat_lt
    have hlast : toNat [x] = x.toNat := by simp [toNat]
    rw [toNat_append, hlast, List.length_append, List.length_singleton, pow_add]
    omega

/-- The octets of a number are those of its lowest digits. -/
theorem toNat_ofNat (width n : Nat) : toNat (ofNat width n) = n % 256 ^ width := by
  induction width generalizing n with
  | zero => rw [pow_zero, Nat.mod_one]; rfl
  | succ width ih =>
    have hlast : toNat [UInt8.ofNat (n % 256)] = n % 256 := by
      simp [toNat, UInt8.toNat_ofNat']
    rw [ofNat, toNat_append, ih, hlast, List.length_singleton, pow_one, pow_succ',
      Nat.mod_mul]
    ring

/-- Octets are those of their number. -/
theorem ofNat_toNat (b : Bytes) : ofNat b.length (toNat b) = b := by
  induction b using List.reverseRecOn with
  | nil => rfl
  | append_singleton b x ih =>
    have hx := x.toNat_lt
    have hlast : toNat [x] = x.toNat := by simp [toNat]
    rw [toNat_append, hlast, List.length_append, List.length_singleton, pow_one, ofNat,
      show (toNat b * 256 + x.toNat) / 256 = toNat b by omega,
      show (toNat b * 256 + x.toNat) % 256 = x.toNat by omega, ih, UInt8.ofNat_toNat]

/-- Octets of one length are told apart by their numbers. -/
theorem eq_of_toNat_eq {a b : Bytes} (hlength : a.length = b.length) (h : toNat a = toNat b) :
    a = b := by
  rw [← ofNat_toNat a, ← ofNat_toNat b, hlength, h]

end Bytes

namespace Rsa

/-! ## The number that is signed -/

theorem length_hash (message : Bytes) : (Sha256.hash message).length = 32 := by
  rw [Sha256.hash]
  simp only [List.flatMap_cons, List.flatMap_nil, List.length_append, Sha256.wordOctets,
    Bytes.length_ofNat, List.length_nil]

theorem length_encodeMessage {length : Nat} (h : 54 ≤ length) (message : Bytes) :
    (encodeMessage length message).length = length := by
  rw [encodeMessage]
  simp only [List.length_append, List.length_replicate, List.length_cons, List.length_nil,
    length_hash, hashInfo]
  omega

/-- What is signed has a leading zero. -/
theorem toNat_encodeMessage_lt {length : Nat} (h : 54 ≤ length) (message : Bytes) :
    (encodeMessage length message).toNat < 256 ^ (length - 1) := by
  have hlength := length_encodeMessage h message
  obtain ⟨rest, hrest⟩ : ∃ rest, encodeMessage length message = [0x00] ++ rest := by
    rw [encodeMessage, List.append_assoc, List.append_assoc, List.cons_append]
    exact ⟨_, rfl⟩
  rw [hrest, List.length_append, List.length_singleton] at hlength
  have hzero : Bytes.toNat [0x00] = 0 := rfl
  have hlt := Bytes.toNat_lt rest
  rw [hrest, Bytes.toNat_append, hzero, zero_mul, zero_add]
  rwa [show rest.length = length - 1 by omega] at hlt

theorem pow_le_of_bitLength {n : Nat} (h : 0 < bitLength n) : 2 ^ (bitLength n - 1) ≤ n := by
  unfold bitLength at h ⊢
  split at h
  · exact absurd h (Nat.lt_irrefl 0)
  · next hn =>
    rw [if_neg hn, Nat.add_sub_cancel]
    exact Nat.log2_self_le hn

theorem lt_pow_bitLength (n : Nat) : n < 2 ^ bitLength n := by
  unfold bitLength
  split
  · next hn =>
    rw [hn]
    exact Nat.one_pos
  · exact Nat.lt_log2_self

/-! ## What the checks tell -/

theorem need_eq_ok {condition : Bool} {fault : KeyFault} {u : Unit}
    (h : need condition fault = .ok u) : condition = true := by
  unfold need at h
  split at h
  · assumption
  · exact absurd h (by simp)

/-- A series of checks is passed one after the other. -/
theorem and_of_bind_eq_ok {α : Type} {check : Except KeyFault Unit}
    {rest : Unit → Except KeyFault α} {a : α} (h : check >>= rest = .ok a) :
    check = .ok () ∧ rest () = .ok a := by
  cases check with
  | error f => exact absurd h (by simp [bind, Except.bind])
  | ok u => exact ⟨rfl, h⟩

theorem bits_of_checkModulus {b : Bytes} (h : checkModulus b = .ok ()) :
    2041 ≤ bitLength b.toNat := by
  obtain ⟨-, h⟩ := and_of_bind_eq_ok h
  obtain ⟨hsmall, -⟩ := and_of_bind_eq_ok h
  have hbits := of_decide_eq_true (need_eq_ok hsmall)
  omega

theorem bits_of_checkPrime {bits : Nat} {b : Bytes} (h : checkPrime bits b = .ok ()) :
    bitLength b.toNat = halfUp bits := by
  obtain ⟨-, h⟩ := and_of_bind_eq_ok h
  obtain ⟨hbits, -⟩ := and_of_bind_eq_ok h
  exact eq_of_beq (need_eq_ok hbits)

namespace PrivateKey

/-- What is known of a key that is read: its modulus is long and divides the product of its primes,
which are half as long, and its coefficient inverts the second prime modulo the first. -/
structure IsChecked (key : PrivateKey) : Prop where
  long : 2041 ≤ bitLength key.modulus
  half1 : bitLength key.prime1 = halfUp (bitLength key.modulus)
  half2 : bitLength key.prime2 = halfUp (bitLength key.modulus)
  product : key.modulus ∣ key.prime1 * key.prime2
  inverse : key.coefficient * key.prime2 % key.prime1 = 1

end PrivateKey

theorem isChecked_of_ofNumbers {n e d p q dP dQ qInv : Bytes} {key : PrivateKey}
    (h : ofNumbers n e d p q dP dQ qInv = .ok key) : key.IsChecked := by
  obtain ⟨hmodulus, h⟩ := and_of_bind_eq_ok h
  obtain ⟨-, h⟩ := and_of_bind_eq_ok h
  obtain ⟨hprime1, h⟩ := and_of_bind_eq_ok h
  obtain ⟨hprime2, h⟩ := and_of_bind_eq_ok h
  obtain ⟨hproduct, h⟩ := and_of_bind_eq_ok h
  obtain ⟨-, h⟩ := and_of_bind_eq_ok h
  obtain ⟨-, h⟩ := and_of_bind_eq_ok h
  obtain ⟨hinverse, h⟩ := and_of_bind_eq_ok h
  obtain ⟨-, h⟩ := and_of_bind_eq_ok h
  obtain ⟨-, h⟩ := and_of_bind_eq_ok h
  obtain rfl := Except.ok.inj h
  exact ⟨bits_of_checkModulus hmodulus, bits_of_checkPrime hprime1, bits_of_checkPrime hprime2,
    Nat.dvd_of_mod_eq_zero (eq_of_beq (need_eq_ok hproduct)), eq_of_beq (need_eq_ok hinverse)⟩

theorem isChecked_of_ofContent {content : Bytes} {key : PrivateKey}
    (h : ofContent content = .ok key) : key.IsChecked := by
  unfold ofContent at h
  split at h
  · exact absurd h (by simp)
  · split at h
    · exact absurd h (by simp)
    · split at h
      · exact absurd h (by simp)
      · split at h
        · split at h
          · exact absurd h (by simp)
          · next hnumbers =>
            split at h
            · exact Except.ok.inj h ▸ isChecked_of_ofNumbers hnumbers
            · exact absurd h (by simp)
        · exact absurd h (by simp)

/-- A key that is read has passed the checks. -/
theorem PrivateKey.isChecked_of_ofBytes? {text : Bytes} {key : PrivateKey}
    (h : PrivateKey.ofBytes? text = .ok key) : key.IsChecked := by
  unfold PrivateKey.ofBytes? at h
  split at h
  · exact absurd h (by simp)
  · split at h
    · exact absurd h (by simp)
    · next hcontent =>
      split at h
      · exact Except.ok.inj h ▸ isChecked_of_ofContent hcontent
      · exact absurd h (by simp)

/-! ## What they do not tell -/

namespace PrivateKey

variable {key : PrivateKey}

/-- Whether the primes of a key are prime, and its exponents for them invert the public one. -/
structure IsGenuine (key : PrivateKey) : Prop where
  prime1 : key.prime1.Prime
  prime2 : key.prime2.Prime
  inverse1 : key.exponent1 * key.publicExponent % (key.prime1 - 1) = 1
  inverse2 : key.exponent2 * key.publicExponent % (key.prime2 - 1) = 1

/-- The primes are different, as one has an inverse modulo the other. -/
theorem IsChecked.coprime (h : key.IsChecked) (hgenuine : key.IsGenuine) :
    key.prime1.Coprime key.prime2 := by
  rw [Nat.coprime_primes hgenuine.prime1 hgenuine.prime2]
  intro hsame
  have hinverse := h.inverse
  rw [← hsame, Nat.mul_mod_left] at hinverse
  exact absurd hinverse (by simp)

/-- The modulus is the product of the primes: as its length is that of both of them together, it is
no proper part of their product. -/
theorem IsChecked.modulus_eq (h : key.IsChecked) (hgenuine : key.IsGenuine) :
    key.modulus = key.prime1 * key.prime2 := by
  have hlong := h.long
  -- the modulus is longer than a prime, and than one
  have hne : ∀ p, bitLength p = halfUp (bitLength key.modulus) → p ≠ key.modulus := by
    rintro p hp rfl
    rw [halfUp] at hp
    omega
  have hone : key.modulus ≠ 1 := by
    intro hone
    rw [hone] at hlong
    exact absurd hlong (by decide)
  obtain ⟨a, b, ha, hb, hab⟩ := Nat.dvd_mul.1 h.product
  rcases (Nat.dvd_prime hgenuine.prime1).1 ha with rfl | rfl
  · rw [one_mul] at hab
    rcases (Nat.dvd_prime hgenuine.prime2).1 hb with rfl | rfl
    · exact absurd hab.symm hone
    · exact absurd hab (hne _ h.half2)
  · rcases (Nat.dvd_prime hgenuine.prime2).1 hb with rfl | rfl
    · rw [mul_one] at hab
      exact absurd hab (hne _ h.half1)
    · exact hab.symm

/-! ## The operation from the two primes -/

/-- Powers to an exponent that is one modulo `p - 1` leave everything as it is modulo `p`. -/
theorem pow_modEq_self {p k : Nat} (hp : p.Prime) (hk : k % (p - 1) = 1) (c : Nat) :
    c ^ k ≡ c [MOD p] := by
  have : Fact p.Prime := ⟨hp⟩
  rw [← ZMod.natCast_eq_natCast_iff, Nat.cast_pow]
  by_cases hc : (c : ZMod p) = 0
  · have hpos : k ≠ 0 := by
      rintro rfl
      exact absurd hk (by simp)
    rw [hc, zero_pow hpos]
  · rw [← Nat.div_add_mod k (p - 1), hk, pow_add, pow_mul, ZMod.pow_card_sub_one_eq_one hc,
      one_pow, one_mul, pow_one]

theorem powMod_mod (c e p : Nat) : powMod (c % p) e p = c ^ e % p := by
  rw [powMod_eq, Nat.pow_eq, ← Nat.pow_mod]

/-- A number is brought to the residue `m1` modulo `p` by adding a multiple of `q`, where `i`
inverts `q` modulo `p`. -/
theorem add_mul_modEq {p q i : Nat} (hp : 1 < p) (hinverse : i * q % p = 1) (m1 m2 : Nat) :
    m2 + i * (m1 + p - m2 % p) % p * q ≡ m1 [MOD p] := by
  have hone : i * q ≡ 1 [MOD p] := by rw [Nat.ModEq, hinverse, Nat.mod_eq_of_lt hp]
  have hlt := Nat.mod_lt m2 (Nat.zero_lt_of_lt hp)
  have hdiv := Nat.div_add_mod m2 p
  calc m2 + i * (m1 + p - m2 % p) % p * q
      ≡ m2 + i * (m1 + p - m2 % p) * q [MOD p] := ((Nat.mod_modEq _ _).mul_right q).add_left m2
    _ = m2 + (m1 + p - m2 % p) * (i * q) := by ring
    _ ≡ m2 + (m1 + p - m2 % p) * 1 [MOD p] := (hone.mul_left _).add_left m2
    _ = m1 + p * (m2 / p + 1) := by
      rw [mul_one, Nat.mul_add, mul_one]
      omega
    _ ≡ m1 [MOD p] := by
      rw [Nat.ModEq, Nat.add_mul_mod_self_left]

/-- The result is a number below the modulus, with the right residue for each prime. -/
theorem IsChecked.power_spec (h : key.IsChecked) (hgenuine : key.IsGenuine) (c : Nat) :
    key.power c < key.modulus ∧ key.power c ≡ c ^ key.exponent1 [MOD key.prime1] ∧
      key.power c ≡ c ^ key.exponent2 [MOD key.prime2] := by
  have hmodulus := h.modulus_eq hgenuine
  have hpos : 0 < key.modulus := by
    rw [hmodulus]
    exact Nat.mul_pos hgenuine.prime1.pos hgenuine.prime2.pos
  unfold power
  rw [powMod_mod, powMod_mod]
  dsimp only
  refine ⟨Nat.mod_lt _ hpos, ?_, ?_⟩
  · have hdvd : key.prime1 ∣ key.modulus := hmodulus ▸ Nat.dvd_mul_right ..
    refine ((Nat.mod_modEq _ _).of_dvd hdvd).trans ?_
    exact (add_mul_modEq hgenuine.prime1.one_lt h.inverse _ _).trans (Nat.mod_modEq _ _)
  · -- what is added to the residue for the second prime is a multiple of that prime
    have hdvd : key.prime2 ∣ key.modulus := hmodulus ▸ Nat.dvd_mul_left ..
    refine ((Nat.mod_modEq _ _).of_dvd hdvd).trans ?_
    rw [Nat.ModEq, Nat.add_mul_mod_self_right, Nat.mod_mod]

/-- The public exponent undoes the operation from the two primes. -/
theorem IsChecked.power_pow (h : key.IsChecked) (hgenuine : key.IsGenuine) (c : Nat) :
    key.power c ^ key.publicExponent ≡ c [MOD key.modulus] := by
  obtain ⟨-, hpower1, hpower2⟩ := h.power_spec hgenuine c
  rw [h.modulus_eq hgenuine, ← Nat.modEq_and_modEq_iff_modEq_mul (h.coprime hgenuine)]
  constructor
  · refine (hpower1.pow _).trans ?_
    rw [← pow_mul]
    exact pow_modEq_self hgenuine.prime1 hgenuine.inverse1 c
  · refine (hpower2.pow _).trans ?_
    rw [← pow_mul]
    exact pow_modEq_self hgenuine.prime2 hgenuine.inverse2 c

/-- A genuine key signs every message. -/
theorem IsChecked.exists_signature (h : key.IsChecked) (hgenuine : key.IsGenuine)
    (message : Bytes) : ∃ signature, key.sign? message = some signature := by
  have hlong := h.long
  have hlower := pow_le_of_bitLength (Nat.lt_of_lt_of_le (by decide) hlong)
  have hupper := lt_pow_bitLength key.modulus
  have hlength : 54 ≤ key.length := by
    rw [length]
    omega
  obtain ⟨hpower, -, -⟩ := h.power_spec hgenuine (encodeMessage key.length message).toNat
  -- both the number that is signed and the signature fit the modulus
  have hmessage : (encodeMessage key.length message).toNat < key.modulus := by
    have hoctets : (256 : Nat) ^ (key.length - 1) ≤ 2 ^ (bitLength key.modulus - 1) := by
      rw [show (256 : Nat) = 2 ^ 8 by rfl, ← pow_mul]
      apply Nat.pow_le_pow_right (by decide)
      rw [length]
      omega
    exact lt_of_lt_of_le (toNat_encodeMessage_lt hlength message) (hoctets.trans hlower)
  have hsignature : key.power (encodeMessage key.length message).toNat < 256 ^ key.length := by
    have hoctets : 2 ^ bitLength key.modulus ≤ (256 : Nat) ^ key.length := by
      rw [show (256 : Nat) = 2 ^ 8 by rfl, ← pow_mul]
      apply Nat.pow_le_pow_right (by decide)
      rw [length]
      omega
    exact hpower.trans (hupper.trans_le hoctets)
  have hundone := h.power_pow hgenuine (encodeMessage key.length message).toNat
  rw [Nat.ModEq, Nat.mod_eq_of_lt hmessage] at hundone
  refine ⟨_, if_pos ?_⟩
  rw [verifies, Bool.and_eq_true, beq_iff_eq, beq_iff_eq]
  refine ⟨Bytes.length_ofNat .., ?_⟩
  rw [Bytes.toNat_ofNat, Nat.mod_eq_of_lt hsignature, powMod_eq]
  exact hundone

/-! ## What a signature is -/

/-- Whether octets are a signature of a message: as many as the modulus has, a number below it, and
the public exponent brings them to the hash of the message, filled up to that length. -/
structure IsSignature (key : PrivateKey) (message signature : Bytes) : Prop where
  length : signature.length = key.length
  lt : signature.toNat < key.modulus
  opened : signature.toNat ^ key.publicExponent % key.modulus =
    (encodeMessage key.length message).toNat

/-- What a key makes of a message is a signature of it. -/
theorem IsChecked.isSignature_of_sign? (h : key.IsChecked) {message signature : Bytes}
    (hsign : key.sign? message = some signature) : key.IsSignature message signature := by
  have hlower := pow_le_of_bitLength (Nat.lt_of_lt_of_le (by decide) h.long)
  have hpos : 0 < key.modulus := Nat.lt_of_lt_of_le (Nat.two_pow_pos _) hlower
  unfold sign? at hsign
  dsimp only at hsign
  split at hsign
  · next hverifies =>
    obtain rfl := Option.some.inj hsign
    rw [verifies, Bool.and_eq_true, beq_iff_eq, beq_iff_eq, powMod_eq, Nat.pow_eq] at hverifies
    refine ⟨Bytes.length_ofNat .., ?_, hverifies.2⟩
    rw [Bytes.toNat_ofNat]
    exact lt_of_le_of_lt (Nat.mod_le _ _) (Nat.mod_lt _ hpos)
  · exact absurd hsign (by simp)

/-- A message has one signature only, if the key is genuine. -/
theorem IsChecked.eq_of_isSignature (h : key.IsChecked) (hgenuine : key.IsGenuine)
    {message a b : Bytes} (ha : key.IsSignature message a) (hb : key.IsSignature message b) :
    a = b := by
  have hpow : a.toNat ^ key.publicExponent ≡ b.toNat ^ key.publicExponent [MOD key.modulus] :=
    ha.opened.trans hb.opened.symm
  -- the exponent for a prime takes the public one back, modulo that prime
  have hprime : ∀ {p d : Nat}, p.Prime → d * key.publicExponent % (p - 1) = 1 →
      p ∣ key.modulus → a.toNat ≡ b.toNat [MOD p] := by
    intro p d hp hinverse hdvd
    have hraised := (hpow.of_dvd hdvd).pow d
    rw [← pow_mul', ← pow_mul'] at hraised
    exact (pow_modEq_self hp hinverse _).symm.trans
      (hraised.trans (pow_modEq_self hp hinverse _))
  have hmodulus := h.modulus_eq hgenuine
  have hsame : a.toNat ≡ b.toNat [MOD key.prime1 * key.prime2] :=
    (Nat.modEq_and_modEq_iff_modEq_mul (h.coprime hgenuine)).1
      ⟨hprime hgenuine.prime1 hgenuine.inverse1 (hmodulus ▸ Nat.dvd_mul_right ..),
        hprime hgenuine.prime2 hgenuine.inverse2 (hmodulus ▸ Nat.dvd_mul_left ..)⟩
  rw [← hmodulus] at hsame
  exact Bytes.eq_of_toNat_eq (ha.length.trans hb.length.symm) (hsame.eq_of_lt_of_lt ha.lt hb.lt)

end PrivateKey

end Rsa

end RegistryConsole
