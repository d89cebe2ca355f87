import EvmTrace.Bytes

/-!
# Access lists

The accounts and storage keys that a transaction announces. An item is written as its address, the
number of its keys in four bytes, and the keys, so the items can be told apart from the front.
-/
namespace EvmTrace

structure AccessItem where
  address : Address
  keys : List Hash
  deriving DecidableEq, Repr

abbrev AccessList := List AccessItem

def AccessItem.encode (item : AccessItem) : Bytes :=
  item.address.toList ++ Bytes.bigEndian 4 item.keys.length ++ item.keys.flatMap Vector.toList

theorem AccessItem.length_encode (item : AccessItem) :
    item.encode.length = 24 + 32 * item.keys.length := by
  simp [encode, Bytes.length_bigEndian, List.length_flatMap, List.map_const', Nat.mul_comm]
  omega

namespace AccessList

def encode (items : AccessList) : Bytes := items.flatMap AccessItem.encode

theorem encode_append (a b : AccessList) : encode (a ++ b) = encode a ++ encode b := by
  simp [encode]

theorem length_encode (items : AccessList) :
    (encode items).length = 24 * items.length + 32 * (items.flatMap (·.keys)).length := by
  induction items with
  | nil => rfl
  | cons item rest ih =>
    simp only [encode] at ih ⊢
    simp only [List.flatMap_cons, List.length_append, List.length_cons,
      AccessItem.length_encode, ih]
    omega

end AccessList
end EvmTrace
