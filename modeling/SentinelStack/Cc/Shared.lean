import SentinelStack.Lib.CTypes
import SentinelStack.Lib.Lpm
import Mathlib.Data.BitVec
import Mathlib.Tactic.IntervalCases

/- What the loader and the BPF program share (`sentinel_shared.h`): module ids,
   the encoding of policy values, and the trie that resolves an address to its
   module.

   The trie compares key bytes in memory order, so both sides store addresses
   byte-swapped: `agree_bswap64` says that the first `n` bits of two swapped
   keys agree exactly when the addresses agree from bit `64 - n` up. -/
namespace SentinelStack.Cc
open SentinelStack.Lib

def moduleMain : U32 := 1
def moduleLibc : U32 := 2
def moduleDynamicBase : U32 := 3

def policyFlagCheckNr : U64 := 1 <<< 32

def vmaBlockSize : U64 := 0x100000
def vmaBlockShift : Nat := 20
def vmaBlockPrefix : Nat := 44
def vmaMaxEntries : Nat := 512

structure VmaValue where
  moduleId : U32
  baseAddr : U64
  deriving DecidableEq, Repr

structure CfiRange where
  start : U64
  stop : U64
  deriving DecidableEq, Repr

/-- `__builtin_bswap64`: the bytes in the opposite order. -/
def bswap64 (x : U64) : U64 :=
  x.extractLsb' 0 8 ++ x.extractLsb' 8 8 ++ x.extractLsb' 16 8 ++ x.extractLsb' 24 8 ++
    x.extractLsb' 32 8 ++ x.extractLsb' 40 8 ++ x.extractLsb' 48 8 ++ x.extractLsb' 56 8

/-- The `i`-th bit of a 64-bit key as the trie reads it: bytes from the lowest address of the
    little-endian word on, each from its most significant bit. -/
def keyBit (data : U64) (i : Nat) : Bool := data.getLsbD (8 * (i / 8) + (7 - i % 8))

theorem keyBit_bswap64 (x : U64) {i : Nat} (hi : i < 64) : keyBit (bswap64 x) i = x.getLsbD (63 - i) := by
  simp only [keyBit, bswap64, BitVec.getLsbD_append, BitVec.getLsbD_extractLsb']
  interval_cases i <;> simp

theorem agree_bswap64 {n : Nat} (hn : n ≤ 64) (a b : U64) :
    Agree keyBit n (bswap64 a) (bswap64 b) ↔ a >>> (64 - n) = b >>> (64 - n) := by
  constructor
  · intro h
    apply BitVec.eq_of_getLsbD_eq
    intro j hj
    rw [BitVec.getLsbD_ushiftRight, BitVec.getLsbD_ushiftRight]
    by_cases hlow : 64 - n + j < 64
    · have := h (n - 1 - j) (by omega)
      rw [keyBit_bswap64 a (by omega), keyBit_bswap64 b (by omega)] at this
      rwa [show 63 - (n - 1 - j) = 64 - n + j by omega] at this
    · rw [BitVec.getLsbD_of_ge _ _ (by omega), BitVec.getLsbD_of_ge _ _ (by omega)]
  · intro h i hi
    rw [keyBit_bswap64 a (by omega), keyBit_bswap64 b (by omega)]
    have := congrArg (fun x : U64 => x.getLsbD (n - 1 - i)) h
    simp only [BitVec.getLsbD_ushiftRight] at this
    rwa [show 64 - n + (n - 1 - i) = 63 - i by omega] at this

/-- `vma_map`. -/
abbrev VmaMap := LpmTrie keyBit vmaMaxEntries VmaValue

/-- The entry `sentinel_check` finds for an address: a lookup with a full 64-bit key. -/
def vmaLookup (m : VmaMap) (addr : U64) : Option VmaValue := m.lookup 64 (bswap64 addr)

/-- The loader's update for the block at `addr`. -/
def vmaUpdate (m : VmaMap) (addr : U64) (v : VmaValue) : Option VmaMap := m.update vmaBlockPrefix (bswap64 addr) v

/-- A stored block is found from every address in it, and nothing else moves. -/
theorem vmaLookup_update {m m' : VmaMap} (hm : m.Uniform vmaBlockPrefix) {addr : U64} {v : VmaValue}
    (h : vmaUpdate m addr v = some m') (a : U64) :
    vmaLookup m' a = if addr >>> vmaBlockShift = a >>> vmaBlockShift then some v else vmaLookup m a := by
  rw [vmaLookup, LpmTrie.lookup_update hm (by decide) h]
  simp only [agree_bswap64 (n := vmaBlockPrefix) (by decide)]
  rfl

end SentinelStack.Cc
