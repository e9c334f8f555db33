import KeyTree.Curve.Standard
import KeyTree.Proofs.Curve.Primality

/-!
# The moduli and the orders of the curves are prime
-/

namespace KeyTree

open Certificate

/-- Certificates for the modulus and the order of secp256k1. -/
def secp256k1Certificates : List Certificate :=
  [⟨41201, 3, [2, 2, 2, 2, 5, 5]⟩,
    ⟨96557, 2, [2, 2, 101]⟩,
    ⟨1627771, 2, [1871]⟩,
    ⟨297159362677, 2, [1627771]⟩,
    ⟨29047611873442575647497758179, 2, [2, 293, 297159362677]⟩,
    ⟨341948486974166000522343609283189, 2, [29047611873442575647497758179]⟩,
    ⟨255515944373312847190720520512484175977, 3, [2, 2, 2, 7, 7, 11, 1627, 2657, 41201, 96557]⟩,
    ⟨205115282021455665897114700593932402728804164701536103180137503955397371, 2,
      [255515944373312847190720520512484175977]⟩,
    ⟨115792089237316195423570985008687907852837564279074904382605163141518161494337, 5,
      [2, 2, 2, 2, 2, 2, 149, 631, 341948486974166000522343609283189]⟩,
    ⟨115792089237316195423570985008687907853269984665640564039457584007908834671663, 2,
      [205115282021455665897114700593932402728804164701536103180137503955397371]⟩]

theorem checkAll_secp256k1Certificates : checkAll [] secp256k1Certificates = true := by
  decide +kernel

/-- Certificates for the modulus and the order of P-256. -/
def p256Certificates : List Certificate :=
  [⟨204061199, 3, [11, 3769]⟩,
    ⟨34282281433, 2, [204061199]⟩,
    ⟨66417393611, 2, [173, 3677]⟩,
    ⟨11290956913871, 2, [66417393611]⟩,
    ⟨208150935158385979, 2, [3, 11, 43, 127, 3023]⟩,
    ⟨2624747550333869278416773953, 2, [208150935158385979]⟩,
    ⟨774023187263532362759620327192479577272145303, 2, [34282281433, 11290956913871]⟩,
    ⟨835945042244614951780389953367877943453916927241, 2,
      [774023187263532362759620327192479577272145303]⟩,
    ⟨115792089210356248762697446949407573529996955224135760342422259061068512044369, 7,
      [2, 2, 2, 2, 71, 131, 373, 3407, 2624747550333869278416773953]⟩,
    ⟨115792089210356248762697446949407573530086143415290314195533631308867097853951, 2,
      [835945042244614951780389953367877943453916927241]⟩]

theorem checkAll_p256Certificates : checkAll [] p256Certificates = true := by
  decide +kernel

/-- Certificates for the modulus and the order of Ed25519. -/
def ed25519Certificates : List Certificate :=
  [⟨531581, 2, [3797]⟩,
    ⟨1257559732178653, 2, [2, 2, 23, 531581]⟩,
    ⟨1919519569386763, 2, [2, 7, 19, 47, 47, 127]⟩,
    ⟨4434155615661930479, 2, [1257559732178653]⟩,
    ⟨172054593956031949258510691, 2, [4434155615661930479]⟩,
    ⟨75445702479781427272750846543864801, 7, [2, 2, 2, 2, 2, 3, 3, 1919519569386763]⟩,
    ⟨19757330305831588566944191468367130476339, 2, [172054593956031949258510691]⟩,
    ⟨276602624281642239937218680557139826668747, 2, [19757330305831588566944191468367130476339]⟩,
    ⟨74058212732561358302231226437062788676166966415465897661863160754340907, 2,
      [353, 75445702479781427272750846543864801]⟩,
    ⟨7237005577332262213973186563042994240857116359379907606001950938285454250989, 2,
      [276602624281642239937218680557139826668747]⟩,
    ⟨57896044618658097711785492504343953926634992332820282019728792003956564819949, 2,
      [74058212732561358302231226437062788676166966415465897661863160754340907]⟩]

theorem checkAll_ed25519Certificates : checkAll [] ed25519Certificates = true := by
  decide +kernel

namespace Weierstrass

theorem prime_secp256k1Modulus : secp256k1Modulus.Prime :=
  prime_of_checkAll (by simp) checkAll_secp256k1Certificates (by decide)

theorem prime_secp256k1_order : secp256k1.order.Prime :=
  prime_of_checkAll (by simp) checkAll_secp256k1Certificates (by decide)

theorem prime_p256Modulus : p256Modulus.Prime :=
  prime_of_checkAll (by simp) checkAll_p256Certificates (by decide)

theorem prime_p256_order : p256.order.Prime :=
  prime_of_checkAll (by simp) checkAll_p256Certificates (by decide)

end Weierstrass

namespace Edwards

theorem prime_modulus : modulus.Prime :=
  prime_of_checkAll (by simp) checkAll_ed25519Certificates (by decide)

theorem prime_order : order.Prime :=
  prime_of_checkAll (by simp) checkAll_ed25519Certificates (by decide)

end Edwards

end KeyTree
