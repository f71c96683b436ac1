import SentinelStack.Lib.CTypes

/- Translation tables of the ARMv8-A architecture with a 4 KB granule and 48-bit
   addresses: 512 descriptors of 8 bytes a table, levels 0 to 3, an address split
   into 9 bits a level and an offset.

   A descriptor with bit 0 clear is invalid. With both low bits set it is a table at
   levels 0 to 2 and a page at level 3; with bit 1 clear it is a block at levels 1 and
   2 and reserved, hence invalid, at levels 0 and 3. `leafFrom` follows the tables from
   a descriptor of a level down to the leaf. -/
namespace SentinelStack.Lib.Vmsa

/-- The bits below the index of a level: 39, 30, 21 and 12. -/
def levelShift (level : Nat) : Nat := 39 - 9 * level

def tableIndex (level : Nat) (addr : U64) : BitVec 9 := addr.extractLsb' (levelShift level) 9

def descType (d : U64) : BitVec 2 := d.extractLsb' 0 2

/-- The address in a table descriptor, bits 47 to 12. -/
def tableAddr (d : U64) : U64 := (d.extractLsb' 12 36).setWidth 64 <<< 12

def entryAddr (table : U64) (i : BitVec 9) : U64 := table + i.setWidth 64 <<< 3

/-- The access flag. -/
def accessFlag (d : U64) : Bool := d.getLsbD 10

/-- The bits of a word from `n` to 47, in place. -/
def highBits (n : Nat) (d : U64) : U64 := (d &&& 0x0000FFFFFFFFFFFF) >>> n <<< n

/-- The output of a leaf of a level: its address, with the bits of the input below the index. -/
def leafAddr (level : Nat) (d addr : U64) : U64 :=
  highBits (levelShift level) d ||| (addr &&& ((1 : U64) <<< levelShift level - 1))

/-- The level and the descriptor of the leaf, from a descriptor that has `below` levels under it. -/
def leafFrom (memory : U64 → U64) (addr : U64) : (below : Nat) → U64 → Option (Nat × U64)
  | 0, d => if descType d = 3 then some (3, d) else none
  | below + 1, d =>
    if descType d = 3 then
      leafFrom memory addr below (memory (entryAddr (tableAddr d) (tableIndex (3 - below) addr)))
    else if descType d = 1 ∧ below < 2 then some (2 - below, d)
    else none

/-! Stage 1: 48-bit virtual addresses. -/

/-- The bits above the address are all those of bit 55, which chooses the table. -/
def Canonical (va : U64) : Prop := va.extractLsb' 48 16 = if va.getLsbD 55 then BitVec.allOnes 16 else 0

instance (va : U64) : Decidable (Canonical va) := inferInstanceAs (Decidable (_ = _))

/-- The table of the lower or of the upper half. -/
def selectTtbr (ttbr0 ttbr1 va : U64) : U64 := if va.getLsbD 55 then ttbr1 else ttbr0

/-- The output of a leaf; one without the access flag faults, unless the hardware sets it (`ha`). -/
def stage1Leaf (ha : Bool) (va : U64) (leaf : Nat × U64) : Option U64 :=
  if accessFlag leaf.2 ∨ ha then some (leafAddr leaf.1 leaf.2 va) else none

/-- The translation of a virtual address; the ASID in the TTBR is no part of the base. -/
def stage1Translate (ha : Bool) (memory : U64 → U64) (ttbr0 ttbr1 va : U64) : Option U64 :=
  if Canonical va then
    (leafFrom memory va 3
      (memory (entryAddr (tableAddr (selectTtbr ttbr0 ttbr1 va)) (tableIndex 0 va)))).bind (stage1Leaf ha va)
  else none

/-! Stage 2: where the walk starts. -/

/-- The size of the input, from `T0SZ`. -/
def inputBits (vtcr : U64) : Nat := 64 - (vtcr.extractLsb' 0 6).toNat

/-- The level the walk starts at, from `SL0`. -/
def startLevel (vtcr : U64) : Nat := 2 - (vtcr.extractLsb' 6 2).toNat

/-- The low bits of the base that are zero: tables of the start level are concatenated to take
    the whole input, and aligned to their joint size. -/
def baseShift (vtcr : U64) : Nat := 3 + inputBits vtcr - levelShift (startLevel vtcr)

/-- Where the first descriptor of a stage-2 walk is read. -/
def firstEntryAddr (vtcr vttbr ipa : U64) : U64 :=
  highBits (baseShift vtcr) vttbr |||
    ((ipa &&& ((1 : U64) <<< inputBits vtcr - 1)) >>> levelShift (startLevel vtcr)) <<< 3

/-! Addresses of entries. -/

theorem toNat_highBits (n : Nat) (d : U64) : (highBits n d).toNat = 2 ^ n * (d.toNat % 2 ^ 48 / 2 ^ n) := by
  have hmask : (0x0000FFFFFFFFFFFF : U64).toNat = 2 ^ 48 - 1 := rfl
  rw [highBits, BitVec.toNat_shiftLeft, BitVec.toNat_ushiftRight, BitVec.toNat_and, hmask,
    Nat.and_two_pow_sub_one_eq_mod, Nat.shiftRight_eq_div_pow, Nat.shiftLeft_eq, Nat.mul_comm]
  refine Nat.mod_eq_of_lt ((Nat.mul_div_le _ _).trans_lt ?_)
  exact (Nat.mod_lt _ (by decide)).trans (by decide)

/-- The output address is the block's, and the offset in it. -/
theorem toNat_leafAddr (level : Nat) (d addr : U64) :
    (leafAddr level d addr).toNat =
      2 ^ levelShift level * (d.toNat % 2 ^ 48 / 2 ^ levelShift level) + addr.toNat % 2 ^ levelShift level := by
  have hshift : levelShift level ≤ 39 := Nat.sub_le 39 _
  have hlt : 2 ^ levelShift level ≤ 2 ^ 39 := Nat.pow_le_pow_right (by decide) hshift
  have hone : ((1 : U64) <<< levelShift level).toNat = 2 ^ levelShift level := by
    rw [BitVec.toNat_shiftLeft, Nat.shiftLeft_eq, show (1 : U64).toNat = 1 from rfl, Nat.one_mul]
    exact Nat.mod_eq_of_lt (by omega)
  have hmask : ((1 : U64) <<< levelShift level - 1).toNat = 2 ^ levelShift level - 1 := by
    have hpos := Nat.two_pow_pos (levelShift level)
    rw [BitVec.toNat_sub_of_le (by rw [BitVec.le_def, hone]; exact hpos), hone]
    rfl
  rw [leafAddr, BitVec.toNat_or, toNat_highBits, BitVec.toNat_and, hmask, Nat.and_two_pow_sub_one_eq_mod,
    Nat.two_pow_add_eq_or_of_lt (Nat.mod_lt _ (Nat.two_pow_pos _))]

theorem toNat_tableIndex (level : Nat) (addr : U64) :
    (tableIndex level addr).toNat = addr.toNat / 2 ^ levelShift level % 512 := by
  rw [tableIndex, BitVec.extractLsb'_toNat, Nat.shiftRight_eq_div_pow]

theorem toNat_page (page : BitVec 36) : (page.setWidth 64 <<< 12 : U64).toNat = page.toNat * 4096 := by
  have hlt := page.isLt
  rw [BitVec.toNat_shiftLeft, BitVec.toNat_setWidth, Nat.shiftLeft_eq]
  omega

theorem toNat_entryAddr (page : BitVec 36) (i : BitVec 9) :
    (entryAddr (page.setWidth 64 <<< 12) i).toNat = page.toNat * 4096 + i.toNat * 8 := by
  have hpage := page.isLt
  have hi := i.isLt
  rw [entryAddr, BitVec.toNat_add, toNat_page, BitVec.toNat_shiftLeft, BitVec.toNat_setWidth, Nat.shiftLeft_eq]
  omega

/-- The page and the place in it of an entry. -/
theorem entryAddr_page (page : BitVec 36) (i : BitVec 9) :
    (entryAddr (page.setWidth 64 <<< 12) i).extractLsb' 12 52 = page.setWidth 52 ∧
      (entryAddr (page.setWidth 64 <<< 12) i).extractLsb' 3 9 = i := by
  have hpage := page.isLt
  have hi := i.isLt
  constructor
  · apply BitVec.eq_of_toNat_eq
    rw [BitVec.extractLsb'_toNat, toNat_entryAddr, BitVec.toNat_setWidth, Nat.shiftRight_eq_div_pow]
    omega
  · apply BitVec.eq_of_toNat_eq
    rw [BitVec.extractLsb'_toNat, toNat_entryAddr, Nat.shiftRight_eq_div_pow]
    omega

end SentinelStack.Lib.Vmsa
