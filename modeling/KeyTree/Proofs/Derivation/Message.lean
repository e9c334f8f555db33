import KeyTree.Derivation.Message
import KeyTree.Proofs.Group.Canonical
import Mathlib.Data.Nat.Basic

/-!
# The messages of a step

A message in plain bytes, and what can be told from it: the index, and then the private key if the
index is hardened, else the family of the curve and the public key.
-/

namespace KeyTree

/-- The four bytes of an index, the most significant first. -/
def ChildIndex.serialized (index : ChildIndex) : List UInt8 :=
  [(index >>> 24).toUInt8, (index >>> 16).toUInt8, (index >>> 8).toUInt8, index.toUInt8]

theorem Bytes.toList_ofUInt32 (index : ChildIndex) :
    (Bytes.ofUInt32 index).toList = index.serialized := by
  have index_lt := index.toNat_lt
  have digit_eq : ∀ value : Nat, UInt8.ofNat (value % 256) = UInt8.ofNat value := by
    intro value
    apply UInt8.toNat_inj.mp
    simp
  simp only [Bytes.ofUInt32, ByteOrder.write, ByteOrder.digits, ChildIndex.serialized, digit_eq,
    List.reverse_cons, List.reverse_nil, List.nil_append, List.cons_append]
  have shifted : ∀ amount : UInt32, amount.toNat < 32 →
      (index >>> amount).toUInt8 = UInt8.ofNat (index.toNat / 2 ^ amount.toNat) := by
    intro amount small
    apply UInt8.toNat_inj.mp
    rw [UInt32.toNat_toUInt8, UInt32.toNat_shiftRight, Nat.mod_eq_of_lt small,
      Nat.shiftRight_eq_div_pow, UInt8.toNat_ofNat']
  have unshifted : index.toUInt8 = UInt8.ofNat index.toNat := by
    apply UInt8.toNat_inj.mp
    rw [UInt32.toNat_toUInt8, UInt8.toNat_ofNat']
  rw [shifted 24 (by decide), shifted 16 (by decide), shifted 8 (by decide), unshifted]
  simp only [UInt32.reduceToNat, Nat.reducePow, Nat.div_div_eq_div_mul, Nat.reduceMul]

namespace Derivation

/-- The bytes that ask for a child that is not hardened. -/
def publicMessage (family : Family) (slot : KeySlot) (index : ChildIndex) : List UInt8 :=
  match family with
  | .weierstrass => slot.toList ++ index.serialized
  | .edwards => 1 :: (slot.toList.drop 1 ++ index.serialized)

/-- The bytes with which a private key asks for a child. -/
def childMessage (family : Family) (key : Secret 32) (slot : KeySlot) (index : ChildIndex) :
    List UInt8 :=
  if ChildIndex.isHardened index then 0 :: (key.bytes.toList ++ index.serialized)
  else publicMessage family slot index

theorem toList_hardenedMessage (key : Secret 32) (index : ChildIndex) :
    (hardenedMessage key index).toList = 0 :: (key.bytes.toList ++ index.serialized) := by
  rw [← Bytes.toList_ofUInt32]
  rfl

theorem toList_normalMessage (family : Family) (slot : KeySlot) (index : ChildIndex) :
    (normalMessage family slot index).toList = publicMessage family slot index := by
  cases family with
  | edwards =>
      rw [publicMessage, ← Bytes.toList_ofUInt32]
      rfl
  | weierstrass =>
      have slot_eq := congrArg Bytes.toList (@Bytes.singleton_head_append_dropLeft 32 slot)
      rw [publicMessage, ← Bytes.toList_ofUInt32, ← slot_eq]
      rfl

theorem toList_privateMessage (family : Family) (key : Secret 32) (slot : KeySlot)
    (index : ChildIndex) :
    (privateMessage family key slot index).toList = childMessage family key slot index := by
  rw [privateMessage, childMessage]
  split
  · exact toList_hardenedMessage key index
  · exact toList_normalMessage family slot index

/-- Under an index that is not hardened, the private and the public step ask the same question. -/
theorem privateMessage_eq_normalMessage {index : ChildIndex}
    (normal : ChildIndex.isHardened index = false) (family : Family) (key : Secret 32)
    (slot : KeySlot) :
    privateMessage family key slot index = normalMessage family slot index := by
  rw [privateMessage, normal]
  rfl

theorem length_publicMessage (family : Family) (slot : KeySlot) (index : ChildIndex) :
    (publicMessage family slot index).length = 37 := by
  rw [← toList_normalMessage]
  exact (normalMessage family slot index).length_toList

theorem length_childMessage (family : Family) (key : Secret 32) (slot : KeySlot)
    (index : ChildIndex) : (childMessage family key slot index).length = 37 := by
  rw [← toList_privateMessage]
  exact (privateMessage family key slot index).length_toList

/-! ## What a message tells -/

/-- A lead byte, the 32 bytes of a key, and an index. -/
def framed (first : UInt8) (body : Bytes 32) (index : ChildIndex) : Bytes 37 :=
  let rest : Bytes (32 + 4) := body ++ Bytes.ofUInt32 index
  let message : Bytes (1 + (32 + 4)) := Bytes.singleton first ++ rest
  message

theorem hardenedMessage_eq (key : Secret 32) (index : ChildIndex) :
    hardenedMessage key index = framed 0 key.bytes index := rfl

theorem normalMessage_eq (family : Family) (slot : KeySlot) (index : ChildIndex) :
    normalMessage family slot index = framed (lead family slot) slot.body index := rfl

theorem framed_inj {first other : UInt8} {body otherBody : Bytes 32}
    {index otherIndex : ChildIndex} :
    framed first body index = framed other otherBody otherIndex ↔
      first = other ∧ body = otherBody ∧ index = otherIndex := by
  constructor
  · intro same
    obtain ⟨lead_eq, rest_eq⟩ := Bytes.append_inj.mp same
    obtain ⟨body_eq, index_eq⟩ := Bytes.append_inj.mp rest_eq
    have number_eq := congrArg Bytes.toUInt32 index_eq
    rw [Bytes.toUInt32_ofUInt32, Bytes.toUInt32_ofUInt32] at number_eq
    exact ⟨List.singleton_inj.mp (congrArg Bytes.toList lead_eq), body_eq, number_eq⟩
  · rintro ⟨rfl, rfl, rfl⟩
    rfl

/-- The lead byte tells the families apart, and the points that are written for a family. -/
theorem lead_eq_iff {family other : Family} {slot otherSlot : KeySlot}
    (written : slot.lead ∈ family.leads) (otherWritten : otherSlot.lead ∈ other.leads) :
    lead family slot = lead other otherSlot ↔ family = other ∧ slot.lead = otherSlot.lead := by
  have weierstrass_lead : ∀ slot, lead .weierstrass slot = slot.lead := fun _ => rfl
  have edwards_lead : ∀ slot, lead .edwards slot = edwardsLead := fun _ => rfl
  have edwardsLead_not_mem : edwardsLead ∉ Family.leads .weierstrass := by decide
  cases family with
  | weierstrass =>
      cases other with
      | weierstrass => simp only [weierstrass_lead, true_and]
      | edwards =>
          simp only [weierstrass_lead, edwards_lead, reduceCtorEq, false_and, iff_false]
          intro same
          exact edwardsLead_not_mem (same ▸ written)
  | edwards =>
      cases other with
      | weierstrass =>
          simp only [weierstrass_lead, edwards_lead, reduceCtorEq, false_and, iff_false]
          intro same
          exact edwardsLead_not_mem (same ▸ otherWritten)
      | edwards =>
          have slot_lead := List.mem_singleton.mp written
          have otherSlot_lead := List.mem_singleton.mp otherWritten
          simp only [edwards_lead, slot_lead, otherSlot_lead, true_and]

theorem exists_framed (family : Family) (key : Secret 32) (slot : KeySlot) (index : ChildIndex) :
    ∃ first body, privateMessage family key slot index = framed first body index := by
  rw [privateMessage]
  split
  · exact ⟨_, _, hardenedMessage_eq key index⟩
  · exact ⟨_, _, normalMessage_eq family slot index⟩

/-- Messages for different indices differ, whoever sends them. -/
theorem index_eq_of_privateMessage_eq {family other : Family} {key otherKey : Secret 32}
    {slot otherSlot : KeySlot} {index otherIndex : ChildIndex}
    (same : privateMessage family key slot index =
      privateMessage other otherKey otherSlot otherIndex) : index = otherIndex := by
  obtain ⟨first, body, message_eq⟩ := exists_framed family key slot index
  obtain ⟨otherFirst, otherBody, other_eq⟩ := exists_framed other otherKey otherSlot otherIndex
  rw [message_eq, other_eq] at same
  exact (framed_inj.mp same).2.2

theorem hardenedMessage_inj {key otherKey : Secret 32} {index : ChildIndex} :
    hardenedMessage key index = hardenedMessage otherKey index ↔ key = otherKey := by
  rw [hardenedMessage_eq, hardenedMessage_eq, framed_inj]
  cases key
  cases otherKey
  simp

theorem normalMessage_inj {family other : Family} {slot otherSlot : KeySlot} {index : ChildIndex}
    (written : slot.lead ∈ family.leads) (otherWritten : otherSlot.lead ∈ other.leads) :
    normalMessage family slot index = normalMessage other otherSlot index ↔
      family = other ∧ slot = otherSlot := by
  rw [normalMessage_eq, normalMessage_eq, framed_inj, lead_eq_iff written otherWritten]
  constructor
  · rintro ⟨⟨family_eq, lead_eq⟩, body_eq, -⟩
    exact ⟨family_eq, KeySlot.eq_of_lead_of_body lead_eq body_eq⟩
  · rintro ⟨rfl, rfl⟩
    exact ⟨⟨rfl, rfl⟩, rfl, rfl⟩

/--
Two messages are equal exactly if the indices are, and the private keys under a hardened index, or
the families and the public keys under one that is not.
-/
theorem privateMessage_eq_iff {family other : Family} {key otherKey : Secret 32}
    {slot otherSlot : KeySlot} (written : slot.lead ∈ family.leads)
    (otherWritten : otherSlot.lead ∈ other.leads) {index otherIndex : ChildIndex} :
    privateMessage family key slot index = privateMessage other otherKey otherSlot otherIndex ↔
      index = otherIndex ∧
        (ChildIndex.isHardened index = true ∧ key = otherKey ∨
          ChildIndex.isHardened index = false ∧ family = other ∧ slot = otherSlot) := by
  by_cases index_eq : index = otherIndex
  · subst index_eq
    rw [privateMessage, privateMessage]
    cases ChildIndex.isHardened index with
    | true => simp [hardenedMessage_inj]
    | false => simp [normalMessage_inj written otherWritten]
  · constructor
    · exact fun same => absurd (index_eq_of_privateMessage_eq same) index_eq
    · exact fun told => absurd told.1 index_eq

end Derivation

end KeyTree
