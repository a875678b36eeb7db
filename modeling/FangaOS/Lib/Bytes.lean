import Mathlib.Algebra.Order.Group.Nat
import Mathlib.Data.List.Induction
import Mathlib.Data.List.GetD

/-! Big-endian byte encodings of naturals and of 16- and 32-bit words; a
little-endian field is read as its bytes reversed. -/

namespace BigEndian

/-- The `width` big-endian bytes of `value`; bits above `8 * width` are dropped. -/
def encode : Nat → Nat → List UInt8
  | 0, _ => []
  | width + 1, value => encode width (value / 256) ++ [UInt8.ofNat (value % 256)]

def decode (bytes : List UInt8) : Nat :=
  bytes.foldl (fun acc byte => acc * 256 + byte.toNat) 0

@[simp] theorem length_encode (width value : Nat) : (encode width value).length = width := by
  induction width generalizing value with
  | zero => rfl
  | succ width ih => simp [encode, ih]

@[simp] theorem decode_nil : decode [] = 0 := rfl

theorem decode_append_singleton (bytes : List UInt8) (byte : UInt8) :
    decode (bytes ++ [byte]) = decode bytes * 256 + byte.toNat := by
  simp [decode, List.foldl_append]

theorem decode_encode (width value : Nat) : decode (encode width value) = value % 256 ^ width := by
  induction width generalizing value with
  | zero => simp [encode, Nat.mod_one]
  | succ width ih =>
      have low : (UInt8.ofNat (value % 256)).toNat = value % 256 := by
        rw [UInt8.toNat_ofNat']
        exact Nat.mod_eq_of_lt (Nat.mod_lt _ (by decide))
      rw [encode, decode_append_singleton, ih, low, pow_succ', Nat.mod_mul]
      omega

end BigEndian

def LittleEndian.encode (width value : Nat) : List UInt8 :=
  (BigEndian.encode width value).reverse

def LittleEndian.decode (bytes : List UInt8) : Nat :=
  BigEndian.decode bytes.reverse

@[simp] theorem LittleEndian.length_encode (width value : Nat) :
    (LittleEndian.encode width value).length = width := by
  rw [LittleEndian.encode, List.length_reverse, BigEndian.length_encode]

theorem LittleEndian.decode_encode (width value : Nat) :
    LittleEndian.decode (LittleEndian.encode width value) = value % 256 ^ width := by
  rw [LittleEndian.decode, LittleEndian.encode, List.reverse_reverse, BigEndian.decode_encode]

def UInt16.toBeBytes (value : UInt16) : List UInt8 :=
  BigEndian.encode 2 value.toNat

def UInt16.fromBeBytes (bytes : List UInt8) : UInt16 :=
  UInt16.ofNat (BigEndian.decode bytes)

def UInt32.toBeBytes (value : UInt32) : List UInt8 :=
  BigEndian.encode 4 value.toNat

def UInt32.fromBeBytes (bytes : List UInt8) : UInt32 :=
  UInt32.ofNat (BigEndian.decode bytes)

@[simp] theorem UInt16.length_toBeBytes (value : UInt16) : value.toBeBytes.length = 2 :=
  BigEndian.length_encode 2 _

@[simp] theorem UInt32.length_toBeBytes (value : UInt32) : value.toBeBytes.length = 4 :=
  BigEndian.length_encode 4 _

@[simp] theorem UInt16.fromBeBytes_toBeBytes (value : UInt16) :
    UInt16.fromBeBytes value.toBeBytes = value := by
  unfold UInt16.fromBeBytes UInt16.toBeBytes
  rw [BigEndian.decode_encode, Nat.mod_eq_of_lt (by simpa using value.toNat_lt),
    UInt16.ofNat_toNat]

@[simp] theorem UInt32.fromBeBytes_toBeBytes (value : UInt32) :
    UInt32.fromBeBytes value.toBeBytes = value := by
  unfold UInt32.fromBeBytes UInt32.toBeBytes
  rw [BigEndian.decode_encode, Nat.mod_eq_of_lt (by simpa using value.toNat_lt),
    UInt32.ofNat_toNat]

/-! Reading back the bytes of a word: a field of two or four bytes is the list
of its elements. -/

theorem List.getElem_pair {α : Type*} {l : List α} (two : l.length = 2) :
    [l[0], l[1]] = l := by
  match l, two with
  | [_, _], _ => rfl

theorem List.getElem_quad {α : Type*} {l : List α} (four : l.length = 4) :
    [l[0], l[1], l[2], l[3]] = l := by
  match l, four with
  | [_, _, _, _], _ => rfl
