import Rozi.Library.BigEndian

/-!
Text as bytes in UTF-8.
-/

namespace Utf8

def encode (text : List Char) : Bytes := text.flatMap String.utf8EncodeChar

def decode (bytes : Bytes) : Option (List Char) := bytes.toByteArray.utf8Decode?.map Array.toList

theorem decode_encode (text : List Char) : decode (encode text) = some text := by
  unfold decode encode
  have decodes := List.utf8Decode?_utf8Encode (l := text)
  unfold List.utf8Encode at decodes
  rw [decodes]
  rfl

theorem encode_of_decode {bytes : Bytes} {text : List Char} (decoded : decode bytes = some text) :
    encode text = bytes := by
  unfold decode at decoded
  rw [Option.map_eq_some_iff] at decoded
  rcases decoded with ⟨chars, found, rfl⟩
  have some : bytes.toByteArray.utf8Decode?.isSome := by
    rw [found]
    rfl
  have encodes := ByteArray.utf8Encode_get_utf8Decode? (h := some)
  simp only [found, Option.get_some] at encodes
  exact List.toByteArray_inj.mp encodes

theorem encode_injective : Function.Injective encode := by
  intro first second same
  have decodes := decode_encode first
  rw [same, decode_encode] at decodes
  exact (Option.some.inj decodes).symm

theorem ofNat_ne_zero {value : Nat} (some : 0 < value) (small : value < 256) :
    UInt8.ofNat value ≠ 0 := by
  intro zero
  have same := congrArg UInt8.toNat zero
  rw [UInt8.toNat_ofNat', Nat.mod_eq_of_lt small, UInt8.toNat_zero] at same
  omega

theorem zero_mem_encodeChar {c : Char} (zero : 0 ∈ String.utf8EncodeChar c) : c = '\x00' := by
  have limit : c.val.toNat < 0x110000 := by
    have valid := c.valid
    unfold UInt32.isValidChar Nat.isValidChar at valid
    omega
  unfold String.utf8EncodeChar at zero
  simp only at zero
  split_ifs at zero with one two three
  · rw [List.mem_singleton] at zero
    have same := congrArg UInt8.toNat zero
    rw [UInt8.toNat_zero, UInt8.toNat_ofNat', Nat.mod_eq_of_lt (by omega)] at same
    apply Char.ext
    apply UInt32.toNat_inj.mp
    exact same.symm
  all_goals
    simp only [List.mem_cons, List.not_mem_nil, or_false] at zero
    exfalso
  · rcases zero with zero | zero <;> exact ofNat_ne_zero (by omega) (by omega) zero.symm
  · rcases zero with zero | zero | zero <;> exact ofNat_ne_zero (by omega) (by omega) zero.symm
  · rcases zero with zero | zero | zero | zero <;>
      exact ofNat_ne_zero (by omega) (by omega) zero.symm

theorem zero_mem_encode {text : List Char} (zero : 0 ∈ encode text) : '\x00' ∈ text := by
  rcases List.mem_flatMap.mp zero with ⟨c, member, zero⟩
  rw [zero_mem_encodeChar zero] at member
  exact member

end Utf8
