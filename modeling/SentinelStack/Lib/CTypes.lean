import Mathlib.Data.BitVec

/- The C data the models share: fixed-width words, and NUL-terminated strings as
   the list of their bytes before the NUL. -/
namespace SentinelStack.Lib

abbrev U8 := BitVec 8
abbrev U32 := BitVec 32
abbrev U64 := BitVec 64

/-- A C string: its bytes up to, and without, the terminating NUL. -/
abbrev CStr := List U8

/-- A string literal of the source, by its bytes. -/
def ascii (s : String) : CStr := s.toByteArray.data.toList.map (·.toBitVec)

/-- The C string stored in a buffer. -/
def cstrOf (buf : List U8) : CStr := buf.takeWhile (· ≠ 0)

/-- `strncpy(dst, src, n - 1); dst[n - 1] = 0` into a zeroed buffer of `n` bytes. -/
def strncpyz (n : Nat) (src : CStr) : CStr := src.take (n - 1)

/-- A buffer after `new` was written to its front. -/
def overwrite (new old : List U8) : List U8 := new ++ old.drop new.length

/-- A size stored in an `int`: its low 32 bits, read as a signed number. -/
def intOfSize (n : Nat) : Int := (BitVec.ofNat 32 n).toInt

/-- The little-endian word in a few bytes. -/
def leWord (bytes : List U8) : U64 := bytes.foldr (fun b acc => (acc <<< 8) ||| b.setWidth 64) 0

theorem ascii_inj {s t : String} : ascii s = ascii t ↔ s = t := by
  refine ⟨fun h => ?_, congrArg ascii⟩
  have hbytes := List.map_injective_iff.mpr (fun a b => UInt8.toBitVec_inj.mp) h
  exact String.toByteArray_inj.mp (ByteArray.ext (Array.toList_inj.mp hbytes))

theorem intOfSize_of_lt {n : Nat} (h : n < 2 ^ 31) : intOfSize n = n := by
  rw [intOfSize, BitVec.toInt_eq_toNat_of_lt]
  · rw [BitVec.toNat_ofNat, Nat.mod_eq_of_lt (by omega)]
  · rw [BitVec.toNat_ofNat, Nat.mod_eq_of_lt (by omega)]
    omega

theorem intOfSize_le (n : Nat) : intOfSize n ≤ n := by
  have hlow : (BitVec.ofNat 32 n).toNat ≤ n := by
    rw [BitVec.toNat_ofNat]
    exact Nat.mod_le n _
  rw [intOfSize, BitVec.toInt_eq_toNat_cond]
  split <;> omega

end SentinelStack.Lib
