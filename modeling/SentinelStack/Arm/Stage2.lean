import SentinelStack.Lib.Vmsa
import SentinelStack.Lib.Run

/- The stage-2 tables of the hypervisor (`mmu_init_stage2` in `mmu.c`,
   `configure_stage2_mmu` in `boot.S`, descriptors from `hypervisor.h`), and what the
   hardware makes of them.

   Main results: `stage2_identity_iff` — below 2^39 exactly the first two gigabytes are
   mapped, each address to itself; `stage2_wx_iff` — there an address is writable and executable
   at once exactly if it is in the first gigabyte, the block mapped for the UART,
   and the drawbridge block is neither; `first_entry_inside_iff` — the walk that
   VTCR_EL2 sets up indexes 1024 descriptors, of which `stage2_l1_table` has 512: it
   stays inside exactly for the half of the addresses that bit 12 of the table's own
   address selects. -/
namespace SentinelStack.Arm
open SentinelStack.Lib SentinelStack.Lib.Vmsa

/-! Descriptors. -/

/-- The bit-fields of `stage2_desc_t`, all zero like `{0}`. -/
structure Stage2Desc where
  type : BitVec 2 := 0
  memattr : BitVec 4 := 0
  s2ap : BitVec 2 := 0
  sh : BitVec 2 := 0
  af : BitVec 1 := 0
  res01 : BitVec 1 := 0
  ipa : BitVec 36 := 0
  res02 : BitVec 6 := 0
  xn : BitVec 1 := 0
  res03 : BitVec 9 := 0

/-- The word of the union: every field at its place. -/
def Stage2Desc.val (d : Stage2Desc) : U64 :=
  BitVec.ofNat 64 (d.type.toNat + d.memattr.toNat * 2 ^ 2 + d.s2ap.toNat * 2 ^ 6 + d.sh.toNat * 2 ^ 8 +
    d.af.toNat * 2 ^ 10 + d.res01.toNat * 2 ^ 11 + d.ipa.toNat * 2 ^ 12 + d.res02.toNat * 2 ^ 48 +
    d.xn.toNat * 2 ^ 54 + d.res03.toNat * 2 ^ 55)

def stage2TableSize : Nat := 512

structure Stage2Tables where
  stage2L1Table : BitVec 9 → U64
  stage2L2Table : BitVec 9 → U64

/-- The tables before they are initialised. -/
def Stage2Tables.bss : Stage2Tables := ⟨fun _ => 0, fun _ => 0⟩

/-- The descriptor of the `i`-th 2 MB block of RAM. -/
def ramDesc (i : Nat) : Stage2Desc :=
  let physBase : U64 := 0x40000000 + BitVec.ofNat 64 i * 0x200000
  { type := 1
    af := 1
    memattr := 0xF
    ipa := (physBase >>> 12).setWidth 36
    s2ap := if physBase = 0x40000000 then 1 else if physBase = 0x40200000 then 1 else 3
    xn := if physBase = 0x40000000 then 0 else 1 }

/-- The block of the UART. -/
def uartDesc : Stage2Desc := { type := 1, af := 1, memattr := 0, s2ap := 3, ipa := 0 }

/-- The link to the level-2 table. -/
def linkDesc (l2PhysAddr : U64) : Stage2Desc := { type := 3, ipa := (l2PhysAddr >>> 12).setWidth 36 }

def mmuInitStage2 (l2PhysAddr : U64) (t : Stage2Tables) : Stage2Tables :=
  let t := { t with stage2L1Table := Function.update t.stage2L1Table 1 (linkDesc l2PhysAddr).val }
  let t := run (fun t i =>
    { t with stage2L2Table := Function.update t.stage2L2Table (BitVec.ofNat 9 i) (ramDesc i).val })
    t (List.range stage2TableSize)
  { t with stage2L1Table := Function.update t.stage2L1Table 0 uartDesc.val }

/-! What the hardware makes of them. -/

/-- Where the linker puts the tables: each in a page of its own, as they are aligned to 4096. -/
structure Stage2Layout where
  l1Page : BitVec 36
  l2Page : BitVec 36
  distinct : l1Page ≠ l2Page

namespace Stage2Layout

def l1Addr (L : Stage2Layout) : U64 := L.l1Page.setWidth 64 <<< 12
def l2Addr (L : Stage2Layout) : U64 := L.l2Page.setWidth 64 <<< 12

/-- The tables `mmu_init_stage2` builds there. -/
def tables (L : Stage2Layout) : Stage2Tables := mmuInitStage2 L.l2Addr Stage2Tables.bss

/-- Physical memory, with the tables in it. -/
def memory (L : Stage2Layout) (other : U64 → U64) (addr : U64) : U64 :=
  if addr.extractLsb' 12 52 = L.l1Page.setWidth 52 then L.tables.stage2L1Table (addr.extractLsb' 3 9)
  else if addr.extractLsb' 12 52 = L.l2Page.setWidth 52 then L.tables.stage2L2Table (addr.extractLsb' 3 9)
  else other addr

end Stage2Layout

/-- A translation: the physical address and the permissions. -/
structure Stage2Translation where
  pa : U64
  writable : Bool
  executable : Bool
  deriving DecidableEq, Repr

/-- The translation by a leaf; without the access flag it faults. `S2AP` is bits 7 and 6, write and
    read, and `XN` bit 54; what cannot be read cannot be fetched either. -/
def leafTranslation (level : Nat) (d ipa : U64) : Option Stage2Translation :=
  if accessFlag d then some ⟨leafAddr level d ipa, d.getLsbD 7, !d.getLsbD 54 && d.getLsbD 6⟩ else none

/-- The stage-2 translation from a level-1 descriptor on. -/
def stage2From (memory : U64 → U64) (d ipa : U64) : Option Stage2Translation :=
  (leafFrom memory ipa 2 d).bind fun leaf => leafTranslation leaf.1 leaf.2 ipa

/-- The translation through `stage2_l1_table`. -/
def Stage2Layout.translate (L : Stage2Layout) (other : U64 → U64) (ipa : U64) : Option Stage2Translation :=
  stage2From (L.memory other) (L.tables.stage2L1Table (tableIndex 1 ipa)) ipa

/-! Fields of a descriptor. -/

namespace Stage2Desc

variable (d : Stage2Desc)

/-- The fields below the address take the low 12 bits. -/
theorem low_fields_lt : d.type.toNat + d.memattr.toNat * 2 ^ 2 + d.s2ap.toNat * 2 ^ 6 + d.sh.toNat * 2 ^ 8 +
    d.af.toNat * 2 ^ 10 + d.res01.toNat * 2 ^ 11 < 2 ^ 12 := by
  have htype := d.type.isLt
  have hmemattr := d.memattr.isLt
  have hs2ap := d.s2ap.isLt
  have hsh := d.sh.isLt
  have haf := d.af.isLt
  have hres01 := d.res01.isLt
  omega

theorem toNat_val : d.val.toNat = d.type.toNat + d.memattr.toNat * 2 ^ 2 + d.s2ap.toNat * 2 ^ 6 + d.sh.toNat * 2 ^ 8 +
    d.af.toNat * 2 ^ 10 + d.res01.toNat * 2 ^ 11 + d.ipa.toNat * 2 ^ 12 + d.res02.toNat * 2 ^ 48 +
    d.xn.toNat * 2 ^ 54 + d.res03.toNat * 2 ^ 55 := by
  rw [val, BitVec.toNat_ofNat]
  refine Nat.mod_eq_of_lt ?_
  have hlow := d.low_fields_lt
  have hipa := d.ipa.isLt
  have hres02 := d.res02.isLt
  have hxn := d.xn.isLt
  have hres03 := d.res03.isLt
  omega

/-- A slice of the word that is a field of it. -/
theorem extract_val {start width : Nat} {x : BitVec width} (h : d.val.toNat / 2 ^ start % 2 ^ width = x.toNat) :
    d.val.extractLsb' start width = x := by
  apply BitVec.eq_of_toNat_eq
  rw [BitVec.extractLsb'_toNat, Nat.shiftRight_eq_div_pow, h]

/-- A bit of the word that is one of a field. -/
theorem getLsbD_val {k j width : Nat} {x : BitVec width} (h : d.val.toNat / 2 ^ k % 2 = x.toNat / 2 ^ j % 2) :
    d.val.getLsbD k = x.getLsbD j := by
  rw [← BitVec.testBit_toNat, ← BitVec.testBit_toNat, Nat.testBit_eq_decide_div_mod_eq,
    Nat.testBit_eq_decide_div_mod_eq, h]

theorem descType_val : descType d.val = d.type := by
  apply extract_val
  rw [toNat_val]
  have htype := d.type.isLt
  omega

theorem tableAddr_val : tableAddr d.val = d.ipa.setWidth 64 <<< 12 := by
  have hipa : d.val.extractLsb' 12 36 = d.ipa := by
    apply extract_val
    have hlow := d.low_fields_lt
    have hlt := d.ipa.isLt
    rw [toNat_val]
    omega
  rw [tableAddr, hipa]

theorem s2ap_val : d.val.getLsbD 6 = d.s2ap.getLsbD 0 ∧ d.val.getLsbD 7 = d.s2ap.getLsbD 1 := by
  have htype := d.type.isLt
  have hmemattr := d.memattr.isLt
  have hs2ap := d.s2ap.isLt
  constructor
  · apply getLsbD_val
    rw [toNat_val]
    omega
  · apply getLsbD_val
    rw [toNat_val]
    omega

theorem accessFlag_val : accessFlag d.val = d.af.getLsbD 0 := by
  rw [accessFlag]
  apply getLsbD_val
  have htype := d.type.isLt
  have hmemattr := d.memattr.isLt
  have hs2ap := d.s2ap.isLt
  have hsh := d.sh.isLt
  rw [toNat_val]
  omega

theorem xn_val : d.val.getLsbD 54 = d.xn.getLsbD 0 := by
  apply getLsbD_val
  have hlow := d.low_fields_lt
  have hipa := d.ipa.isLt
  have hres02 := d.res02.isLt
  rw [toNat_val]
  omega

/-- What a leaf with these fields gives. -/
theorem leafTranslation_val (haf : d.af = 1) (level : Nat) (ipa : U64) :
    leafTranslation level d.val ipa =
      some ⟨leafAddr level d.val ipa, d.s2ap.getLsbD 1, !d.xn.getLsbD 0 && d.s2ap.getLsbD 0⟩ := by
  rw [leafTranslation, accessFlag_val, haf, if_pos (by decide), d.s2ap_val.1, d.s2ap_val.2, d.xn_val]

end Stage2Desc

/-! The tables. -/

/-- After `n` turns of the loop the first `n` entries are written. -/
theorem fill_l2 (t : Stage2Tables) {n : Nat} (hn : n ≤ 512) :
    run (fun t i => { t with stage2L2Table := Function.update t.stage2L2Table (BitVec.ofNat 9 i) (ramDesc i).val })
        t (List.range n) =
      { t with stage2L2Table := fun i => if i.toNat < n then (ramDesc i.toNat).val else t.stage2L2Table i } := by
  induction n with
  | zero => rfl
  | succ n ih =>
    rw [List.range_succ, run_snoc, ih (by omega)]
    congr 1
    funext i
    by_cases hi : i = BitVec.ofNat 9 n
    · have hval : i.toNat = n := by
        rw [hi, BitVec.toNat_ofNat, Nat.mod_eq_of_lt (by omega)]
      rw [hi, Function.update_self, ← hi, hval, if_pos (Nat.lt_succ_self n)]
    · have hval : i.toNat ≠ n := by
        intro heq
        rw [← heq, BitVec.ofNat_toNat, BitVec.setWidth_eq] at hi
        exact hi rfl
      rw [Function.update_of_ne hi]
      dsimp only
      by_cases hlt : i.toNat < n
      · rw [if_pos hlt, if_pos (by omega)]
      · rw [if_neg hlt, if_neg (by omega)]

theorem mmuInitStage2_eq (l2PhysAddr : U64) (t : Stage2Tables) :
    mmuInitStage2 l2PhysAddr t =
      ⟨Function.update (Function.update t.stage2L1Table 1 (linkDesc l2PhysAddr).val) 0 uartDesc.val,
        fun i => (ramDesc i.toNat).val⟩ := by
  have hall : (fun i : BitVec 9 => if i.toNat < 512 then (ramDesc i.toNat).val else t.stage2L2Table i) =
      fun i => (ramDesc i.toNat).val := by
    funext i
    have hi := i.isLt
    rw [if_pos (by omega)]
  rw [mmuInitStage2, stage2TableSize, fill_l2 _ (Nat.le_refl 512)]
  dsimp only
  rw [hall]

namespace Stage2Layout

variable (L : Stage2Layout) (other : U64 → U64)

theorem l1_uart : L.tables.stage2L1Table 0 = uartDesc.val := by
  rw [tables, mmuInitStage2_eq]
  dsimp only
  rw [Function.update_self]

theorem l1_link : L.tables.stage2L1Table 1 = (linkDesc L.l2Addr).val := by
  rw [tables, mmuInitStage2_eq]
  dsimp only
  rw [Function.update_of_ne (by decide), Function.update_self]

theorem l1_unmapped {i : BitVec 9} (h : 2 ≤ i.toNat) : L.tables.stage2L1Table i = 0 := by
  have hne : ∀ j : BitVec 9, j.toNat < 2 → i ≠ j := by
    intro j hj heq
    rw [heq] at h
    omega
  rw [tables, mmuInitStage2_eq]
  dsimp only
  rw [Function.update_of_ne (hne 0 (by decide)), Function.update_of_ne (hne 1 (by decide))]
  rfl

/-- The level-2 table is read where it is. -/
theorem memory_l2 (i : BitVec 9) : L.memory other (entryAddr L.l2Addr i) = (ramDesc i.toNat).val := by
  obtain ⟨hpage, hplace⟩ := entryAddr_page L.l2Page i
  have hne : L.l2Page.setWidth 52 ≠ L.l1Page.setWidth 52 := by
    intro heq
    apply L.distinct
    apply BitVec.eq_of_toNat_eq
    have hval := congrArg BitVec.toNat heq
    have h1 := L.l1Page.isLt
    have h2 := L.l2Page.isLt
    rw [BitVec.toNat_setWidth, BitVec.toNat_setWidth] at hval
    omega
  rw [memory, l2Addr, hpage, hplace, if_neg hne, if_pos rfl, tables, mmuInitStage2_eq]

theorem tableAddr_link : tableAddr (linkDesc L.l2Addr).val = L.l2Addr := by
  have hpage : (L.l2Addr >>> 12).setWidth 36 = L.l2Page := by
    apply BitVec.eq_of_toNat_eq
    have hlt := L.l2Page.isLt
    rw [BitVec.toNat_setWidth, BitVec.toNat_ushiftRight, l2Addr, toNat_page, Nat.shiftRight_eq_div_pow]
    omega
  rw [Stage2Desc.tableAddr_val, linkDesc, hpage, l2Addr]

/-! The three kinds of addresses. -/

theorem translate_uart {ipa : U64} (h : tableIndex 1 ipa = 0) :
    L.translate other ipa = some ⟨leafAddr 1 uartDesc.val ipa, true, true⟩ := by
  have htype : descType uartDesc.val = 1 := uartDesc.descType_val
  rw [translate, h, l1_uart, stage2From, leafFrom, htype, if_neg (by decide), if_pos (by decide), Option.bind_some,
    Stage2Desc.leafTranslation_val _ rfl]
  rfl

theorem translate_ram {ipa : U64} (h : tableIndex 1 ipa = 1) :
    L.translate other ipa = some ⟨leafAddr 2 (ramDesc (tableIndex 2 ipa).toNat).val ipa,
      (ramDesc (tableIndex 2 ipa).toNat).s2ap.getLsbD 1,
      !(ramDesc (tableIndex 2 ipa).toNat).xn.getLsbD 0 && (ramDesc (tableIndex 2 ipa).toNat).s2ap.getLsbD 0⟩ := by
  have hlink : descType (linkDesc L.l2Addr).val = 3 := (linkDesc L.l2Addr).descType_val
  have htype : descType (ramDesc (tableIndex 2 ipa).toNat).val = 1 := Stage2Desc.descType_val _
  rw [translate, h, l1_link, stage2From, leafFrom, hlink, if_pos rfl, tableAddr_link, memory_l2, leafFrom, htype,
    if_neg (by decide), if_pos (by decide), Option.bind_some, Stage2Desc.leafTranslation_val _ rfl]

theorem translate_unmapped {ipa : U64} (h : 2 ≤ (tableIndex 1 ipa).toNat) : L.translate other ipa = none := by
  rw [translate, l1_unmapped L h]
  rfl

end Stage2Layout

/-- The block that starts at an address. -/
theorem ramBase_eq_iff {i : Nat} (hi : i < 512) (base : U64) :
    0x40000000 + BitVec.ofNat 64 i * 0x200000 = base ↔ 0x40000000 + i * 0x200000 = base.toNat := by
  have hfirst : (0x40000000 : U64).toNat = 0x40000000 := rfl
  have hsize : (0x200000 : U64).toNat = 0x200000 := rfl
  rw [← BitVec.toNat_inj, BitVec.toNat_add, BitVec.toNat_mul, BitVec.toNat_ofNat, hfirst, hsize]
  omega

/-- The tables as `dump.txt` has them. -/
def dumpLayout : Stage2Layout := ⟨0x40002, 0x40001, by decide⟩

/-! Where the addresses go. -/

theorem toNat_uartDesc_block : uartDesc.val.toNat % 2 ^ 48 / 2 ^ 30 = 0 := by decide

/-- The block of the `i`-th descriptor is the `i`-th of RAM. -/
theorem toNat_ramDesc_block {i : Nat} (hi : i < 512) : (ramDesc i).val.toNat % 2 ^ 48 / 2 ^ 21 = 512 + i := by
  have hipa : (ramDesc i).ipa.toNat = 0x40000 + i * 512 := by
    have hfirst : (0x40000000 : U64).toNat = 0x40000000 := rfl
    have hsize : (0x200000 : U64).toNat = 0x200000 := rfl
    show ((0x40000000 + BitVec.ofNat 64 i * 0x200000 : U64) >>> 12 |>.setWidth 36).toNat = _
    rw [BitVec.toNat_setWidth, BitVec.toNat_ushiftRight, BitVec.toNat_add, BitVec.toNat_mul, BitVec.toNat_ofNat,
      hfirst, hsize, Nat.shiftRight_eq_div_pow]
    omega
  have hlow := (ramDesc i).low_fields_lt
  rw [Stage2Desc.toNat_val, hipa]
  omega

section Identity

variable {ipa : U64}

theorem tableIndex_below (hipa : ipa.toNat < 2 ^ 39) : (tableIndex 1 ipa).toNat = ipa.toNat / 2 ^ 30 := by
  rw [toNat_tableIndex, levelShift]
  omega

theorem tableIndex_uart (h : ipa.toNat < 2 ^ 30) : tableIndex 1 ipa = 0 := by
  apply BitVec.eq_of_toNat_eq
  rw [tableIndex_below (by omega)]
  exact Nat.div_eq_of_lt h

theorem tableIndex_ram (hlo : 2 ^ 30 ≤ ipa.toNat) (hhi : ipa.toNat < 2 ^ 31) : tableIndex 1 ipa = 1 := by
  apply BitVec.eq_of_toNat_eq
  rw [tableIndex_below (by omega)]
  show ipa.toNat / 2 ^ 30 = 1
  omega

theorem leafAddr_uart (h : ipa.toNat < 2 ^ 30) : leafAddr 1 uartDesc.val ipa = ipa := by
  apply BitVec.eq_of_toNat_eq
  rw [toNat_leafAddr, levelShift, toNat_uartDesc_block]
  omega

theorem leafAddr_ram (hlo : 2 ^ 30 ≤ ipa.toNat) (hhi : ipa.toNat < 2 ^ 31) :
    leafAddr 2 (ramDesc (tableIndex 2 ipa).toNat).val ipa = ipa := by
  have hindex : (tableIndex 2 ipa).toNat = ipa.toNat / 2 ^ 21 % 512 := toNat_tableIndex _ ipa
  apply BitVec.eq_of_toNat_eq
  rw [toNat_leafAddr, levelShift, toNat_ramDesc_block (tableIndex 2 ipa).isLt, hindex]
  omega

end Identity

/-- **The identity map.** Below 2^39 the walk through the tables, wherever they are placed,
    succeeds exactly for the first two gigabytes, and then the output is the address itself. -/
theorem stage2_identity_iff (L : Stage2Layout) (other : U64 → U64) (ipa : U64) (hipa : ipa.toNat < 2 ^ 39) :
    ((L.translate other ipa).isSome ↔ ipa.toNat < 2 ^ 31) ∧
      ∀ tr, L.translate other ipa = some tr → tr.pa = ipa := by
  rcases Nat.lt_or_ge ipa.toNat (2 ^ 30) with hlow | hhigh
  · rw [L.translate_uart other (tableIndex_uart hlow), leafAddr_uart hlow]
    exact ⟨iff_of_true rfl (by omega), fun tr htr => by cases htr; rfl⟩
  · rcases Nat.lt_or_ge ipa.toNat (2 ^ 31) with hram | hrest
    · rw [L.translate_ram other (tableIndex_ram hhigh hram), leafAddr_ram hhigh hram]
      exact ⟨iff_of_true rfl hram, fun tr htr => by cases htr; rfl⟩
    · rw [L.translate_unmapped other (by rw [tableIndex_below hipa]; omega)]
      exact ⟨iff_of_false (by simp) (by omega), fun tr htr => by cases htr⟩

/-- The last byte of RAM is mapped to itself. -/
theorem stage2_identity_last :
    (0x7FFFFFFF : U64).toNat < 2 ^ 39 ∧ ∃ tr, dumpLayout.translate (fun _ => 0) 0x7FFFFFFF = some tr ∧ tr.pa = 0x7FFFFFFF := by
  obtain ⟨hiff, hpa⟩ := stage2_identity_iff dumpLayout (fun _ => 0) 0x7FFFFFFF (by decide)
  obtain ⟨tr, htr⟩ := Option.isSome_iff_exists.mp (hiff.mpr (by decide))
  exact ⟨by decide, tr, htr, hpa tr htr⟩

/-- The first block is read-only and executable, the second read-only, the others writable. -/
theorem ramDesc_permissions {i : Nat} (hi : i < 512) :
    ((ramDesc i).s2ap.getLsbD 1 = true ↔ 2 ≤ i) ∧ ((ramDesc i).xn.getLsbD 0 = false ↔ i = 0) := by
  have htext : 0x40000000 + BitVec.ofNat 64 i * 0x200000 = (0x40000000 : U64) ↔ i = 0 := by
    rw [ramBase_eq_iff hi, show (0x40000000 : U64).toNat = 0x40000000 from rfl]
    omega
  have hdrawbridge : 0x40000000 + BitVec.ofNat 64 i * 0x200000 = (0x40200000 : U64) ↔ i = 1 := by
    rw [ramBase_eq_iff hi, show (0x40200000 : U64).toNat = 0x40200000 from rfl]
    omega
  simp only [ramDesc, htext, hdrawbridge]
  by_cases h0 : i = 0
  · simp [h0]
  · by_cases h1 : i = 1
    · simp [h1]
    · simp only [h0, h1, if_false]
      exact ⟨iff_of_true (by decide) (by omega), iff_of_false (by decide) (by decide)⟩

/-- No block of RAM is writable and executable: a writable one is not the first, and only the first is
    executable. -/
theorem ram_not_wx (L : Stage2Layout) (other : U64 → U64) {ipa : U64} (h : tableIndex 1 ipa = 1)
    {tr : Stage2Translation} (htr : L.translate other ipa = some tr) :
    ¬ (tr.writable = true ∧ tr.executable = true) := by
  intro hwx
  obtain ⟨hwrite, hexec⟩ := ramDesc_permissions (tableIndex 2 ipa).isLt
  rw [L.translate_ram other h] at htr
  cases htr
  have hblock := hwrite.mp hwx.1
  have hx := hwx.2
  rw [Bool.and_eq_true, Bool.not_eq_true'] at hx
  have hfirst := hexec.mp hx.1
  omega

/-- The second block is neither. -/
theorem drawbridge_sealed (L : Stage2Layout) (other : U64 → U64) {ipa : U64} (h : tableIndex 1 ipa = 1)
    (hblock : (tableIndex 2 ipa).toNat = 1) : ∃ pa, L.translate other ipa = some ⟨pa, false, false⟩ := by
  rw [L.translate_ram other h, hblock]
  exact ⟨_, rfl⟩

/-- **Write and execute.** Below 2^39 the first gigabyte is writable and executable, and nothing
    else is; the drawbridge block is neither. -/
theorem stage2_wx_iff (L : Stage2Layout) (other : U64 → U64) (ipa : U64) (hipa : ipa.toNat < 2 ^ 39) :
    ((∀ tr, L.translate other ipa = some tr → ¬ (tr.writable = true ∧ tr.executable = true)) ↔
        2 ^ 30 ≤ ipa.toNat) ∧
      (0x40200000 ≤ ipa.toNat → ipa.toNat < 0x40400000 →
        ∃ pa, L.translate other ipa = some ⟨pa, false, false⟩) := by
  have hindex2 : (tableIndex 2 ipa).toNat = ipa.toNat / 2 ^ 21 % 512 := toNat_tableIndex _ ipa
  rcases Nat.lt_or_ge ipa.toNat (2 ^ 30) with hlow | hhigh
  · -- the block of the UART
    have huart := L.translate_uart other (tableIndex_uart hlow)
    refine ⟨iff_of_false ?_ (by omega), fun _ _ => by omega⟩
    intro h
    exact h _ huart ⟨rfl, rfl⟩
  · rcases Nat.lt_or_ge ipa.toNat (2 ^ 31) with hram | hrest
    · have hone := tableIndex_ram hhigh hram
      refine ⟨iff_of_true (fun tr htr => ram_not_wx L other hone htr) hhigh, ?_⟩
      intro hfrom hto
      apply drawbridge_sealed L other hone
      rw [hindex2]
      omega
    · rw [L.translate_unmapped other (by rw [tableIndex_below hipa]; omega)]
      refine ⟨iff_of_true (fun tr htr => ?_) hhigh, fun _ _ => by omega⟩
      cases htr

/-- A page of RAM that holds data. -/
theorem stage2_wx_data :
    (0x50000000 : U64).toNat < 2 ^ 39 ∧
      ∀ tr, dumpLayout.translate (fun _ => 0) 0x50000000 = some tr → ¬ (tr.writable = true ∧ tr.executable = true) :=
  ⟨by decide, (stage2_wx_iff dumpLayout (fun _ => 0) 0x50000000 (by decide)).1.mpr (by decide)⟩

/-- **The block of the UART is writable and executable.** -/
theorem uart_writable_executable :
    dumpLayout.translate (fun _ => 0) 0x09000000 = some ⟨0x09000000, true, true⟩ := by
  rw [Stage2Layout.translate_uart _ _ (by decide)]
  decide

/-! Where the walk starts. -/

/-- The value `configure_stage2_mmu` puts into VTCR_EL2. -/
def vtcrEl2 : U64 := 0x80023058

namespace Stage2Layout

variable (L : Stage2Layout) (other : U64 → U64)

/-- VTTBR_EL2: the table, and VMID 1. -/
def vttbrEl2 : U64 := L.l1Addr ||| (1 : U64) <<< 48

/-- The address of the level-1 descriptor the hardware reads. -/
def firstEntry (ipa : U64) : U64 := firstEntryAddr vtcrEl2 L.vttbrEl2 ipa

/-- The hardware's translation. -/
def hardwareTranslate (ipa : U64) : Option Stage2Translation :=
  stage2From (L.memory other) (L.memory other (L.firstEntry ipa)) ipa

/-- The address is that of an entry of `stage2_l1_table`. -/
def InL1Table (addr : U64) : Prop := ∃ i : BitVec 9, addr = entryAddr L.l1Addr i

theorem toNat_vttbrEl2 : L.vttbrEl2.toNat = 2 ^ 48 + L.l1Page.toNat * 4096 := by
  have hlt := L.l1Page.isLt
  have hvmid : ((1 : U64) <<< 48).toNat = 2 ^ 48 * 1 := rfl
  rw [vttbrEl2, BitVec.toNat_or, Nat.or_comm, hvmid, l1Addr, toNat_page, ← Nat.two_pow_add_eq_or_of_lt (by omega),
    Nat.mul_one]

end Stage2Layout

/-- The start of the walk: tables of 8 KB, 1024 descriptors. -/
theorem toNat_firstEntry (L : Stage2Layout) {ipa : U64} (hipa : ipa.toNat < 2 ^ 40) :
    (L.firstEntry ipa).toNat = L.l1Page.toNat / 2 * 8192 + ipa.toNat / 2 ^ 30 * 8 := by
  have hpage := L.l1Page.isLt
  have hbits : inputBits vtcrEl2 = 40 := by decide
  have hlevel : startLevel vtcrEl2 = 1 := by decide
  have hmask : ((1 : U64) <<< 40 - 1).toNat = 2 ^ 40 - 1 := rfl
  have hindex : ((ipa &&& ((1 : U64) <<< 40 - 1)) >>> 30 <<< 3).toNat = ipa.toNat / 2 ^ 30 * 8 := by
    rw [BitVec.toNat_shiftLeft, BitVec.toNat_ushiftRight, BitVec.toNat_and, hmask, Nat.and_two_pow_sub_one_eq_mod,
      Nat.shiftRight_eq_div_pow, Nat.shiftLeft_eq]
    omega
  rw [Stage2Layout.firstEntry, firstEntryAddr, baseShift, hbits, hlevel, levelShift, BitVec.toNat_or, hindex,
    toNat_highBits, L.toNat_vttbrEl2, ← Nat.two_pow_add_eq_or_of_lt (by omega)]
  omega

section firstEntry
variable (L : Stage2Layout) (other : U64 → U64) {ipa : U64}

theorem bit39 (ipa : U64) : ipa.getLsbD 39 = decide (ipa.toNat / 2 ^ 39 % 2 = 1) := by
  rw [← BitVec.testBit_toNat, Nat.testBit_eq_decide_div_mod_eq]

theorem bit12_l1Addr : L.l1Addr.getLsbD 12 = decide (L.l1Page.toNat % 2 = 1) := by
  rw [← BitVec.testBit_toNat, Nat.testBit_eq_decide_div_mod_eq, Stage2Layout.l1Addr, toNat_page]
  congr 2
  omega

/-- The entry read, if it is one of the table, is the one of the address. -/
theorem firstEntry_eq (hipa : ipa.toNat < 2 ^ 40) (hbit : ipa.getLsbD 39 = L.l1Addr.getLsbD 12) :
    L.firstEntry ipa = entryAddr L.l1Addr (tableIndex 1 ipa) := by
  apply BitVec.eq_of_toNat_eq
  have hindex : (tableIndex 1 ipa).toNat = ipa.toNat / 2 ^ 30 % 512 := toNat_tableIndex _ ipa
  rw [bit39, bit12_l1Addr, decide_eq_decide] at hbit
  rw [toNat_firstEntry L hipa, Stage2Layout.l1Addr, toNat_entryAddr, hindex]
  omega

theorem inL1Table_iff (hipa : ipa.toNat < 2 ^ 40) :
    L.InL1Table (L.firstEntry ipa) ↔ ipa.getLsbD 39 = L.l1Addr.getLsbD 12 := by
  constructor
  · rintro ⟨i, hi⟩
    have hval := congrArg BitVec.toNat hi
    have hlt := i.isLt
    rw [toNat_firstEntry L hipa, Stage2Layout.l1Addr, toNat_entryAddr] at hval
    rw [bit39, bit12_l1Addr, decide_eq_decide]
    omega
  · intro hbit
    exact ⟨_, firstEntry_eq L hipa hbit⟩

/-- The level-1 table is read where it is. -/
theorem memory_l1 (i : BitVec 9) : L.memory other (entryAddr L.l1Addr i) = L.tables.stage2L1Table i := by
  obtain ⟨hpage, hplace⟩ := entryAddr_page L.l1Page i
  rw [Stage2Layout.memory, Stage2Layout.l1Addr, hpage, hplace, if_pos rfl]

/-- **Where the walk stays inside.** The hardware reads an entry of `stage2_l1_table` exactly for
    the addresses whose bit 39 is bit 12 of the table's address; for those the translation is the
    one through the table, and what is not mapped there faults. -/
theorem first_entry_inside_iff (ipa : U64) (hipa : ipa.toNat < 2 ^ inputBits vtcrEl2) :
    (L.InL1Table (L.firstEntry ipa) ↔ ipa.getLsbD 39 = L.l1Addr.getLsbD 12) ∧
      (L.InL1Table (L.firstEntry ipa) → L.hardwareTranslate other ipa = L.translate other ipa) ∧
      (L.InL1Table (L.firstEntry ipa) → 2 ^ 31 ≤ ipa.toNat % 2 ^ 39 → L.hardwareTranslate other ipa = none) := by
  have hbits : inputBits vtcrEl2 = 40 := by decide
  rw [hbits] at hipa
  have htranslate : L.InL1Table (L.firstEntry ipa) → L.hardwareTranslate other ipa = L.translate other ipa := by
    intro hinside
    rw [Stage2Layout.hardwareTranslate, firstEntry_eq L hipa ((inL1Table_iff L hipa).mp hinside), memory_l1,
      Stage2Layout.translate]
  refine ⟨inL1Table_iff L hipa, htranslate, ?_⟩
  intro hinside hunmapped
  have hindex : (tableIndex 1 ipa).toNat = ipa.toNat / 2 ^ 30 % 512 := toNat_tableIndex _ ipa
  rw [htranslate hinside]
  exact L.translate_unmapped other (by rw [hindex]; omega)

end firstEntry

/-- An address that is not mapped, in the half that stays inside. -/
theorem first_entry_inside_unmapped :
    (0x100000000 : U64).toNat < 2 ^ inputBits vtcrEl2 ∧ dumpLayout.InL1Table (dumpLayout.firstEntry 0x100000000) ∧
      dumpLayout.hardwareTranslate (fun _ => 0x7C1) 0x100000000 = none := by
  obtain ⟨hiff, -, hfaults⟩ := first_entry_inside_iff dumpLayout (fun _ => 0x7C1) 0x100000000 (by decide)
  have hinside : dumpLayout.InL1Table (dumpLayout.firstEntry 0x100000000) := hiff.mpr (by decide)
  exact ⟨by decide, hinside, hfaults hinside (by decide)⟩

/-- **A walk that leaves the table.** From 2^39 on the hardware reads what follows the table in
    memory, here the EL2 stack; a word there that looks like a block descriptor maps a gigabyte. -/
theorem walk_leaves_table :
    (0x8000000000 : U64).toNat < 2 ^ inputBits vtcrEl2 ∧ dumpLayout.firstEntry 0x8000000000 = 0x40003000 ∧
      ¬ dumpLayout.InL1Table (dumpLayout.firstEntry 0x8000000000) ∧
      dumpLayout.hardwareTranslate (fun _ => 0x7C1) 0x8000000000 = some ⟨0, true, true⟩ := by
  refine ⟨by decide, by decide, ?_, ?_⟩
  · rw [inL1Table_iff dumpLayout (by decide)]
    decide
  · decide +kernel

end SentinelStack.Arm
