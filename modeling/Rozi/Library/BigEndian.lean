import Mathlib.Data.List.Basic
import Mathlib.Tactic.Ring

/-!
Numbers as big-endian bytes of a fixed width, and byte strings cut into pieces of one size.
-/

abbrev Bytes := List UInt8

namespace Bytes

def ofNat : Nat → Nat → Bytes
  | 0, _ => []
  | width + 1, value => UInt8.ofNat (value / 256 ^ width) :: ofNat width value

def toNat (bytes : Bytes) : Nat :=
  bytes.foldl (fun value byte => value * 256 + byte.toNat) 0

def slice (bytes : Bytes) (start stop : Nat) : Bytes :=
  (bytes.drop start).take (stop - start)

@[simp] theorem length_ofNat (width value : Nat) : (ofNat width value).length = width := by
  induction width with
  | zero => rfl
  | succ width ih => simp [ofNat, ih]

theorem foldl_ofNat (width value start : Nat) :
    (ofNat width value).foldl (fun value byte => value * 256 + byte.toNat) start =
      start * 256 ^ width + value % 256 ^ width := by
  induction width generalizing start with
  | zero => simp [ofNat, Nat.mod_one]
  | succ width ih =>
      have digit : (UInt8.ofNat (value / 256 ^ width)).toNat = value / 256 ^ width % 256 := by
        simp
      calc
        _ = (start * 256 + value / 256 ^ width % 256) * 256 ^ width + value % 256 ^ width := by
          simp only [ofNat, List.foldl_cons, digit, ih]
        _ = start * 256 ^ (width + 1) +
            (value % 256 ^ width + 256 ^ width * (value / 256 ^ width % 256)) := by ring
        _ = start * 256 ^ (width + 1) + value % 256 ^ (width + 1) := by
          rw [← Nat.mod_mul, ← pow_succ]

theorem toNat_ofNat {width value : Nat} (fits : value < 256 ^ width) :
    toNat (ofNat width value) = value := by
  unfold toNat
  rw [foldl_ofNat, Nat.zero_mul, Nat.zero_add, Nat.mod_eq_of_lt fits]

theorem foldl_start (bytes : Bytes) (start : Nat) :
    bytes.foldl (fun value byte => value * 256 + byte.toNat) start =
      start * 256 ^ bytes.length + toNat bytes := by
  induction bytes generalizing start with
  | nil => simp [toNat]
  | cons byte bytes ih =>
      unfold toNat
      rw [List.foldl_cons, List.foldl_cons, ih, ih (0 * 256 + byte.toNat), List.length_cons]
      ring

theorem toNat_cons (byte : UInt8) (bytes : Bytes) :
    toNat (byte :: bytes) = byte.toNat * 256 ^ bytes.length + toNat bytes := by
  unfold toNat
  rw [List.foldl_cons, foldl_start, Nat.zero_mul, Nat.zero_add]
  rfl

theorem toNat_lt (bytes : Bytes) : toNat bytes < 256 ^ bytes.length := by
  induction bytes with
  | nil => exact Nat.one_pos
  | cons byte bytes ih =>
      have digit : byte.toNat + 1 ≤ 256 := byte.toNat_lt
      calc
        _ = byte.toNat * 256 ^ bytes.length + toNat bytes := toNat_cons byte bytes
        _ < (byte.toNat + 1) * 256 ^ bytes.length := by
          rw [Nat.add_mul, Nat.one_mul]
          exact Nat.add_lt_add_left ih _
        _ ≤ 256 * 256 ^ bytes.length := Nat.mul_le_mul_right _ digit
        _ = 256 ^ (byte :: bytes).length := by rw [List.length_cons, pow_succ, Nat.mul_comm]

theorem ofNat_add_mul (width count value : Nat) :
    ofNat width (count * 256 ^ width + value) = ofNat width value := by
  induction width generalizing count with
  | zero => rfl
  | succ width ih =>
      have shifted : count * 256 ^ (width + 1) + value =
          count * 256 * 256 ^ width + value := by ring
      have positive : 0 < 256 ^ width := Nat.pow_pos (by decide)
      have digit : UInt8.ofNat ((count * 256 * 256 ^ width + value) / 256 ^ width) =
          UInt8.ofNat (value / 256 ^ width) := by
        rw [Nat.add_comm, Nat.add_mul_div_right _ _ positive, ← UInt8.toNat_inj]
        simp
      rw [shifted, ofNat, digit, ih, ofNat]

theorem ofNat_toNat (bytes : Bytes) : ofNat bytes.length (toNat bytes) = bytes := by
  induction bytes with
  | nil => rfl
  | cons byte bytes ih =>
      have positive : 0 < 256 ^ bytes.length := Nat.pow_pos (by decide)
      have digit : UInt8.ofNat ((byte.toNat * 256 ^ bytes.length + toNat bytes) /
          256 ^ bytes.length) = byte := by
        rw [Nat.add_comm, Nat.add_mul_div_right _ _ positive, Nat.div_eq_of_lt (toNat_lt bytes),
          Nat.zero_add]
        exact UInt8.ofNat_toNat
      rw [toNat_cons, List.length_cons, ofNat, digit, ofNat_add_mul, ih]

theorem length_slice {bytes : Bytes} {start stop : Nat} (inside : stop ≤ bytes.length) :
    (slice bytes start stop).length = stop - start := by
  rw [slice, List.length_take, List.length_drop]
  omega

theorem slice_append_drop {bytes : Bytes} {start stop : Nat} (ordered : start ≤ stop) :
    slice bytes start stop ++ bytes.drop stop = bytes.drop start := by
  have parts := List.take_append_drop (stop - start) (bytes.drop start)
  rw [List.drop_drop, Nat.add_sub_cancel' ordered] at parts
  exact parts

/-- The pieces of `size` bytes a string is cut into; what is left over is not part of one. -/
def chunksExact (size : Nat) (bytes : Bytes) : List Bytes :=
  (List.range (bytes.length / size)).map fun index =>
    slice bytes (index * size) ((index + 1) * size)

theorem length_flatMap_const {α : Type*} {size : Nat} {encode : α → Bytes}
    (sized : ∀ item, (encode item).length = size) (items : List α) :
    (items.flatMap encode).length = items.length * size := by
  induction items with
  | nil => simp
  | cons item items ih => simp [sized, ih, Nat.succ_mul, Nat.add_comm]

theorem chunksExact_flatMap {α : Type*} {size : Nat} (positive : 0 < size) (encode : α → Bytes)
    (sized : ∀ item, (encode item).length = size) (items : List α) :
    chunksExact size (items.flatMap encode) = items.map encode := by
  unfold chunksExact
  rw [length_flatMap_const sized, Nat.mul_div_cancel _ positive]
  induction items with
  | nil => rfl
  | cons item items ih =>
      rw [List.length_cons, List.range_succ_eq_map, List.map_cons, List.map_cons]
      congr 1
      · simp [slice, sized]
      · rw [← ih, List.map_map]
        apply List.map_congr_left
        intro index _
        have shifted : (index + 1) * size = size + index * size := by ring
        have width : (index + 1 + 1) * size - (index + 1) * size =
            (index + 1) * size - index * size := by
          rw [← Nat.sub_mul, ← Nat.sub_mul]
          simp
        simp only [Function.comp_apply, slice, List.flatMap_cons, Nat.succ_eq_add_one, width]
        rw [shifted, ← sized item, List.drop_append, List.drop_eq_nil_of_le (by omega)]
        simp

theorem length_of_mem_chunksExact {size : Nat} {bytes chunk : Bytes}
    (member : chunk ∈ chunksExact size bytes) : chunk.length = size := by
  rcases List.mem_map.mp member with ⟨index, inside, same⟩
  have below : (index + 1) * size ≤ bytes.length :=
    (Nat.mul_le_mul_right size (List.mem_range.mp inside)).trans (Nat.div_mul_le_self _ _)
  rw [← same, length_slice below, ← Nat.sub_mul, Nat.add_sub_cancel_left, Nat.one_mul]

theorem flatten_take_chunks (size count : Nat) (bytes : Bytes) :
    ((List.range count).map fun index =>
      slice bytes (index * size) ((index + 1) * size)).flatten = bytes.take (count * size) := by
  induction count with
  | zero => simp
  | succ count ih =>
      have width : (count + 1) * size - count * size = size := by
        rw [← Nat.sub_mul, Nat.add_sub_cancel_left, Nat.one_mul]
      rw [List.range_succ, List.map_append, List.flatten_append, ih, Nat.succ_mul, List.take_add]
      simp [slice, width]

theorem flatten_chunksExact {size : Nat} {bytes : Bytes} (whole : bytes.length % size = 0) :
    (chunksExact size bytes).flatten = bytes := by
  unfold chunksExact
  rw [flatten_take_chunks, Nat.div_mul_cancel (Nat.dvd_of_mod_eq_zero whole), List.take_length]

end Bytes
