import SentinelStack.Cc.LibcBase

/- Which addresses one module is found at: `populate_vma_for_module` against the
   lookup of `sentinel_check`.

   The loader rounds the hull `[lo, hi)` of the matching lines out to blocks of 1 MB
   and stores each under the first 44 bits of its byte-swapped address; the kernel
   looks up all 64 bits of a byte-swapped address. Main result: `block_coverage` —
   in a trie with room for the blocks, the module is found with the base `lo` at the
   addresses whose block is one of those from `lo`'s on that begin before `hi`, and
   nothing is found at any other. A line is what `fgets` hands over: 511 bytes of the
   text at most. -/
namespace SentinelStack.Cc
open SentinelStack.Lib

abbrev VmaTrie (cap : Nat) := LpmTrie keyBit cap VmaValue

/-- The trie after `bpf_map_update_elem` with each of these entries. -/
def storeBlocks {cap : Nat} (t : VmaTrie cap) (ws : List VmaWrite) : VmaTrie cap :=
  run (fun t w => t.put vmaBlockPrefix (bswap64 w.addr) w.value) t ws

/-- What `sentinel_check` finds for an address, by a key of 64 bits. -/
def lookupSite {cap : Nat} (t : VmaTrie cap) (addr : U64) : Option VmaValue := t.lookup 64 (bswap64 addr)

theorem vmaLookup_vmaAfter_eq (ws : List VmaWrite) (a : U64) :
    vmaLookup (vmaAfter ws) a = lookupSite (storeBlocks (.empty : VmaTrie vmaMaxEntries) ws) a := rfl

theorem storeBlocks_eq {cap : Nat} (t : VmaTrie cap) {ws : List VmaWrite} {v : VmaValue} (h : ∀ w ∈ ws, w.value = v) :
    storeBlocks t ws = t.putEach vmaBlockPrefix v (ws.map fun w => bswap64 w.addr) := by
  rw [LpmTrie.putEach, List.foldl_map, storeBlocks, run]
  apply List.foldl_ext
  intro t' w hw
  rw [h w hw]

/-- With room for them, they are found from the addresses of their blocks and from no others. -/
theorem lookupSite_storeBlocks {cap : Nat} {ws : List VmaWrite} {v : VmaValue} (h : ∀ w ∈ ws, w.value = v)
    (hcap : ws.length ≤ cap) (a : U64) :
    lookupSite (storeBlocks (.empty : VmaTrie cap) ws) a =
      if ∃ w ∈ ws, w.addr >>> vmaBlockShift = a >>> vmaBlockShift then some v else none := by
  have hroom : (.empty : VmaTrie cap).entries.length + (ws.map fun w => bswap64 w.addr).length ≤ cap := by
    rw [List.length_map, LpmTrie.empty, List.length_nil, Nat.zero_add]
    exact hcap
  rw [lookupSite, storeBlocks_eq _ h, LpmTrie.lookup_putEach (LpmTrie.uniform_empty _) (by decide) hroom]
  simp only [List.mem_map, exists_exists_and_eq_and, agree_bswap64 (n := vmaBlockPrefix) (by decide)]
  rfl

/-- The least start and the greatest end of the ranges. -/
structure IsHull (ranges : List (U64 × U64)) (lo hi : U64) : Prop where
  lowest : Lowest (ranges.map (·.1)) lo
  highest : Highest (ranges.map (·.2)) hi

/-- `⌊a / 2 ^ 20⌋` -/
def blockOf (a : U64) : Nat := a.toNat / 2 ^ vmaBlockShift

/-- `⌈a / 2 ^ 20⌉` -/
def blockEnd (a : U64) : Nat := (a.toNat + (2 ^ vmaBlockShift - 1)) / 2 ^ vmaBlockShift

theorem hullOf_eq {ranges : List (U64 × U64)} {lo hi : U64} (h : IsHull ranges lo hi) : hullOf ranges = (lo, hi) :=
  Prod.ext (hullOf_of_lowest h.lowest) (hullOf_of_highest h.highest)

/-! The entries. -/

theorem blockOf_alignDown (a : U64) : blockOf (alignDown vmaBlockShift a) = blockOf a := by
  rw [blockOf, toNat_alignDown, Nat.mul_div_cancel _ (Nat.two_pow_pos _), blockOf]

theorem lt_blockEnd_iff (n : Nat) (a : U64) : n < blockEnd a ↔ n * 2 ^ vmaBlockShift < a.toNat := by
  have hblock := lt_end_iff_block (k := vmaBlockShift) (e := a.toNat) (Nat.mul_mod_left n _)
  rw [Nat.mul_div_cancel _ (Nat.two_pow_pos _)] at hblock
  exact hblock.symm

section
variable {fuel : Nat} {lo hi : U64} (hhi : hi.toNat ≤ 2 ^ 63) (hfuel : blockEnd hi - blockOf lo ≤ fuel)
  (moduleId : U32) (baseAddr : U64)
include hhi hfuel

/-- The block loop ends, and has stored one entry a block. -/
theorem blockWrites_count :
    (blockWrites fuel lo hi moduleId baseAddr).finished = true ∧
      (blockWrites fuel lo hi moduleId baseAddr).writes.length = blockEnd hi - blockOf lo := by
  have halign : (alignDown vmaBlockShift lo).toNat % 2 ^ vmaBlockShift = 0 := by
    rw [toNat_alignDown, Nat.mul_mod_left]
  have hend : hi.toNat ≤ 2 ^ 64 - 2 ^ vmaBlockShift := hhi.trans (by decide)
  have hblocks : blockEnd hi - blockOf (alignDown vmaBlockShift lo) ≤ fuel := by
    rw [blockOf_alignDown]
    exact hfuel
  obtain ⟨hfin, hlen⟩ := stepLoop_count fuel halign hend hblocks
  refine ⟨hfin, ?_⟩
  calc
    (blockWrites fuel lo hi moduleId baseAddr).writes.length
      = (stepLoop vmaBlockSize fuel (alignDown vmaBlockShift lo) hi).1.length := List.length_map _
    _ = blockEnd hi - blockOf (alignDown vmaBlockShift lo) := hlen
    _ = blockEnd hi - blockOf lo := by rw [blockOf_alignDown]

theorem blockWrites_block_iff (a : U64) :
    (∃ w ∈ (blockWrites fuel lo hi moduleId baseAddr).writes, w.addr >>> vmaBlockShift = a >>> vmaBlockShift) ↔
      blockOf lo ≤ blockOf a ∧ blockOf a < blockEnd hi := by
  have hfin := (blockWrites_count hhi hfuel moduleId baseAddr).1
  rw [lt_blockEnd_iff, blockWrites]
  simp only [List.mem_map, exists_exists_and_eq_and, shift_eq_iff_div]
  exact hullBlocks_iff hfin a

theorem lookupSite_blockWrites {cap : Nat} (hcap : blockEnd hi - blockOf lo ≤ cap) (a : U64) :
    lookupSite (storeBlocks (.empty : VmaTrie cap) (blockWrites fuel lo hi moduleId baseAddr).writes) a =
      if blockOf lo ≤ blockOf a ∧ blockOf a < blockEnd hi then some ⟨moduleId, baseAddr⟩ else none := by
  have hlen := (blockWrites_count hhi hfuel moduleId baseAddr).2
  have hvalue : ∀ w ∈ (blockWrites fuel lo hi moduleId baseAddr).writes, w.value = ⟨moduleId, baseAddr⟩ := by
    intro w hw
    obtain ⟨b, -, rfl⟩ := List.mem_map.mp hw
    rfl
  rw [lookupSite_storeBlocks hvalue (hlen.le.trans hcap)]
  exact if_congr (blockWrites_block_iff hhi hfuel moduleId baseAddr a) rfl rfl

end

/-- **The blocks of a module.** For every maps text whose matching lines have the hull `[lo, hi)`, and
    every empty trie with room for its blocks: the population ends, and a lookup finds the module
    with the base `lo` exactly in the blocks from `⌊lo / 2 ^ 20⌋` up to, and without, `⌈hi / 2 ^ 20⌉`. -/
theorem block_coverage (text : List U8) (moduleName : CStr) (moduleId : U32) (lo hi : U64)
    (hhull : IsHull (matchingRanges (fgetsLines 512 text) moduleName) lo hi) (hhi : hi.toNat ≤ 2 ^ 63) (cap fuel : Nat)
    (hcap : blockEnd hi - blockOf lo ≤ cap) (hfuel : blockEnd hi - blockOf lo ≤ fuel) :
    (populateVmaForModule fuel (some text) moduleName moduleId).finished = true ∧
      ∀ a, lookupSite (storeBlocks (.empty : VmaTrie cap)
          (populateVmaForModule fuel (some text) moduleName moduleId).writes) a =
        if blockOf lo ≤ blockOf a ∧ blockOf a < blockEnd hi then some ⟨moduleId, lo⟩ else none := by
  have hpopulate : populateVmaForModule fuel (some text) moduleName moduleId =
      if lo = BitVec.allOnes 64 then ⟨[], none, true⟩ else blockWrites fuel lo hi moduleId lo := by
    have hlines : mapsLines 512 (some text) = fgetsLines 512 text := rfl
    rw [populateVmaForModule, hlines, hullOf_eq hhull]
  rw [hpopulate]
  split
  next hnone =>
    -- the last address of all: the population gives up, and no block begins there before `hi`
    refine ⟨rfl, fun a => ?_⟩
    have hfirst : blockEnd hi ≤ blockOf lo := by
      by_contra hlt
      have hbefore := (lt_blockEnd_iff _ hi).mp (Nat.not_le.mp hlt)
      rw [hnone, blockOf, BitVec.toNat_allOnes, vmaBlockShift] at hbefore
      omega
    rw [if_neg (fun h => absurd (h.1.trans_lt h.2) (Nat.not_lt.mpr hfirst))]
    rfl
  next => exact ⟨(blockWrites_count hhi hfuel moduleId lo).1, lookupSite_blockWrites hhi hfuel moduleId lo hcap⟩

/-- A library with two mappings, in two blocks. -/
def libmText : List U8 :=
  ascii "7f00000f0000-7f0000100000 r-xp 00000000 08:01 9 /lib/libm.so.6\n7f0000180000-7f0000181000 rw-p 00010000 08:01 9 /lib/libm.so.6\n"

theorem libmText_hull : IsHull (matchingRanges (fgetsLines 512 libmText) (ascii "libm")) 0x7f00000f0000 0x7f0000181000 := by
  have hranges : matchingRanges (fgetsLines 512 libmText) (ascii "libm") =
      [(0x7f00000f0000, 0x7f0000100000), (0x7f0000180000, 0x7f0000181000)] := by
    decide +kernel
  rw [hranges]
  refine ⟨⟨List.mem_cons_self, ?_⟩, ⟨List.mem_cons_of_mem _ List.mem_cons_self, ?_⟩⟩
  · simp
  · simp

/-- It is found up to the end of its second block, and not behind it. -/
theorem libm_blocks :
    vmaLookup (vmaAfter (populateVmaForModule 2 (some libmText) (ascii "libm") 3).writes) 0x7f00001fffff =
        some ⟨3, 0x7f00000f0000⟩ ∧
      vmaLookup (vmaAfter (populateVmaForModule 2 (some libmText) (ascii "libm") 3).writes) 0x7f0000200000 = none := by
  obtain ⟨-, hlookup⟩ := block_coverage libmText (ascii "libm") 3 0x7f00000f0000 0x7f0000181000 libmText_hull (by decide)
    vmaMaxEntries 2 (by decide) (by decide)
  rw [vmaLookup_vmaAfter_eq, vmaLookup_vmaAfter_eq, hlookup, hlookup]
  exact ⟨if_pos (by decide), if_neg (by decide)⟩

end SentinelStack.Cc
