import SentinelStack.Lib.Vmsa
import SentinelStack.Lib.Blocks

/- The software walk of the guest's stage-1 tables (`handle_sync_lower` in
   `hypervisor.c`), against the translation of the architecture.

   The walk tests bit 0 of every entry and nothing else: it takes a block for a
   table, a reserved descriptor for a table or a page, and keeps the ASID of the TTBR
   in the base. `oa << 12` shifts a bit-field of 36 bits, which GNU C does in 36 bits
   and other compilers do in 64 (`BitFieldRule`). Main result: `software_walk_iff` —
   over the memories whose descriptors on the path are plain (`PlainPath`), the walk
   is the architecture's translation exactly for canonical addresses and a TTBR with
   ASID 0. `block_walked_as_table` is the guest of the repository, with its block. -/
namespace SentinelStack.Arm
open SentinelStack.Lib SentinelStack.Lib.Vmsa

/-! The code. -/

def esrEcMask : U64 := 0x3F <<< 26
def esrEcDataAbortL : U64 := 0x24
def esrEcInstrAbortL : U64 := 0x20
def esrEcHvcEl1 : U64 := 0x16
def esrIssMask : U64 := 0x1FFFFFF
def esrIssWnR : U64 := 1 <<< 6
def esrIssDfscMask : U64 := 0x3F

/-- How the compiler shifts a bit-field that is wider than `int`: in the width of the field (GNU C),
    or in the type it is declared with. -/
inductive BitFieldRule where
  | fieldWidth
  | declaredType
  deriving DecidableEq, Repr

/-- The levels of the walk, by the names of the messages. -/
inductive Stage1Level where
  | pgd
  | pud
  | pmd
  | pte
  deriving DecidableEq, Repr

/-- `PGD_SHIFT`, `PUD_SHIFT`, `PMD_SHIFT` and `PTE_SHIFT`. -/
def Stage1Level.shift : Stage1Level → Nat
  | pgd => 39
  | pud => 30
  | pmd => 21
  | pte => 12

def ptIndexMask : U64 := 0x1FF

/-- `entry.fields.oa << PTE_SHIFT`. -/
def oaShifted (rule : BitFieldRule) (entry : U64) : U64 :=
  match rule with
  | .fieldWidth => (entry.extractLsb' 12 36 <<< 12).setWidth 64
  | .declaredType => (entry.extractLsb' 12 36).setWidth 64 <<< 12

/-- The entry of a level, unless `(entry.fields.type & 1) == 0`. -/
def readEntry (memory : U64 → U64) (base guestVa : U64) (level : Stage1Level) : Except Stage1Level U64 :=
  let idx := (guestVa >>> level.shift) &&& ptIndexMask
  let entry := memory (base + idx * 8)
  if entry.extractLsb' 0 2 &&& 1 = 0 then .error level else .ok entry

def pgdBase (ttbr0 ttbr1 guestVa : U64) : U64 :=
  if guestVa &&& ((1 : U64) <<< 55) ≠ 0 then ttbr1 &&& ~~~(0xFFF : U64) else ttbr0 &&& ~~~(0xFFF : U64)

/-- The walk: the level whose entry is invalid, or the physical address. -/
def softwareWalk (rule : BitFieldRule) (memory : U64 → U64) (ttbr0 ttbr1 guestVa : U64) : Except Stage1Level U64 := do
  let pgdEntry ← readEntry memory (pgdBase ttbr0 ttbr1 guestVa) guestVa .pgd
  let pudEntry ← readEntry memory (oaShifted rule pgdEntry) guestVa .pud
  let pmdEntry ← readEntry memory (oaShifted rule pudEntry) guestVa .pmd
  let pteEntry ← readEntry memory (oaShifted rule pmdEntry) guestVa .pte
  return oaShifted rule pteEntry ||| (guestVa &&& 0xFFF)

/-- What `handle_sync_lower` does with an exception. -/
inductive SyncAction where
  | lockdown
  | readBlocked
  | frozen (far esr : U64)
  | vmiFailed (level : Stage1Level)
  | vmiSuccess (va pa : U64)
  | ignored
  deriving DecidableEq, Repr

def handleSyncLower (rule : BitFieldRule) (memory : U64 → U64) (ttbr0 ttbr1 esr far x0 : U64) : SyncAction :=
  let ec := (esr &&& esrEcMask) >>> 26
  if ec = esrEcDataAbortL then
    let iss := esr &&& esrIssMask
    let dfsc := iss &&& esrIssDfscMask
    if 0x04 ≤ dfsc ∧ dfsc ≤ 0x07 ∨ 0x0C ≤ dfsc ∧ dfsc ≤ 0x0F then
      if iss &&& esrIssWnR ≠ 0 then .lockdown else .readBlocked
    else .ignored
  else if ec = esrEcInstrAbortL then .frozen far esr
  else if ec = esrEcHvcEl1 then
    match softwareWalk rule memory ttbr0 ttbr1 x0 with
    | .error level => .vmiFailed level
    | .ok pa => .vmiSuccess x0 pa
  else .ignored

/-- The handler reports what the architecture translates to, and failure where that faults. -/
def ReportsTranslation (action : SyncAction) (va : U64) (translated : Option U64) : Prop :=
  (∀ pa, action = .vmiSuccess va pa ↔ translated = some pa) ∧
    ((∃ level, action = .vmiFailed level) ↔ translated = none)

/-! The words of the source and those of the architecture. -/

theorem type_valid_iff (entry : U64) : entry.extractLsb' 0 2 &&& 1 ≠ 0 ↔ descType entry = 1 ∨ descType entry = 3 := by
  unfold descType
  generalize entry.extractLsb' 0 2 = type
  revert type
  decide

theorem index_addr (base va : U64) (level : Nat) :
    base + ((va >>> levelShift level) &&& ptIndexMask) * 8 = entryAddr base (tableIndex level va) := by
  have hmask : ptIndexMask.toNat = 2 ^ 9 - 1 := rfl
  have height : (8 : U64).toNat = 8 := rfl
  rw [entryAddr]
  congr 1
  apply BitVec.eq_of_toNat_eq
  rw [BitVec.toNat_mul, BitVec.toNat_and, BitVec.toNat_ushiftRight, hmask, Nat.and_two_pow_sub_one_eq_mod,
    Nat.shiftRight_eq_div_pow, height, BitVec.toNat_shiftLeft, BitVec.toNat_setWidth, toNat_tableIndex,
    Nat.shiftLeft_eq]
  omega

theorem toNat_tableAddr (d : U64) : (tableAddr d).toNat = d.toNat / 4096 * 4096 % 2 ^ 48 := by
  rw [tableAddr, toNat_page, BitVec.extractLsb'_toNat, Nat.shiftRight_eq_div_pow]
  omega

theorem toNat_clearOffset (base : U64) : (base &&& ~~~(0xFFF : U64)).toNat = base.toNat / 4096 * 4096 :=
  toNat_alignDown 12 base

theorem pgdBase_eq (ttbr0 ttbr1 va : U64) :
    pgdBase ttbr0 ttbr1 va = selectTtbr ttbr0 ttbr1 va &&& ~~~(0xFFF : U64) := by
  have hbit : va &&& ((1 : U64) <<< 55) ≠ 0 ↔ va.getLsbD 55 = true := and_bit_ne_zero_iff_getLsbD 55 (by decide) va
  unfold pgdBase selectTtbr
  by_cases h : va.getLsbD 55 = true
  · rw [if_pos (hbit.mpr h), if_pos h]
  · rw [if_neg (mt hbit.mp h), if_neg h]

theorem asid_eq_zero_iff (ttbr : U64) : ttbr.extractLsb' 48 16 = 0 ↔ ttbr.toNat < 2 ^ 48 := by
  have hlt := ttbr.isLt
  rw [← BitVec.toNat_inj, BitVec.extractLsb'_toNat, Nat.shiftRight_eq_div_pow]
  have hzero : (0 : BitVec 16).toNat = 0 := rfl
  omega

/-- The base of the walk is the architecture's exactly if the ASID is zero. -/
theorem pgdBase_of_asid_zero {ttbr0 ttbr1 va : U64} (hasid : (selectTtbr ttbr0 ttbr1 va).extractLsb' 48 16 = 0) :
    pgdBase ttbr0 ttbr1 va = tableAddr (selectTtbr ttbr0 ttbr1 va) := by
  have hlt := (asid_eq_zero_iff _).mp hasid
  rw [pgdBase_eq]
  apply BitVec.eq_of_toNat_eq
  rw [toNat_clearOffset, toNat_tableAddr]
  omega

/-! The walk, level by level. -/

variable (rule : BitFieldRule) (ha : Bool) (memory : U64 → U64)

/-- The walk from an entry that has `below` levels under it. -/
def followFrom (va : U64) : (below : Nat) → U64 → Option U64
  | 0, entry =>
    if descType entry = 1 ∨ descType entry = 3 then some (oaShifted rule entry ||| (va &&& 0xFFF)) else none
  | below + 1, entry =>
    if descType entry = 1 ∨ descType entry = 3 then
      followFrom va below (memory (entryAddr (oaShifted rule entry) (tableIndex (3 - below) va)))
    else none

/-- A level of the walk: the two valid types are taken together. -/
theorem readEntry_bind (base va : U64) {level : Stage1Level} {n : Nat} (hshift : level.shift = levelShift n)
    (next : U64 → Except Stage1Level U64) :
    (readEntry memory base va level >>= next).toOption =
      let entry := memory (entryAddr base (tableIndex n va))
      if descType entry = 1 ∨ descType entry = 3 then (next entry).toOption else none := by
  dsimp only [readEntry]
  rw [hshift, index_addr]
  by_cases hvalid : descType (memory (entryAddr base (tableIndex n va))) = 1 ∨
      descType (memory (entryAddr base (tableIndex n va))) = 3
  · rw [if_pos hvalid, if_neg ((type_valid_iff _).mpr hvalid)]
    rfl
  · rw [if_neg hvalid, if_pos (not_not.mp (mt (type_valid_iff _).mp hvalid))]
    rfl

theorem softwareWalk_eq (ttbr0 ttbr1 va : U64) :
    (softwareWalk rule memory ttbr0 ttbr1 va).toOption =
      followFrom rule memory va 3 (memory (entryAddr (pgdBase ttbr0 ttbr1 va) (tableIndex 0 va))) := by
  have hpgd : Stage1Level.pgd.shift = levelShift 0 := rfl
  have hpud : Stage1Level.pud.shift = levelShift 1 := rfl
  have hpmd : Stage1Level.pmd.shift = levelShift 2 := rfl
  have hpte : Stage1Level.pte.shift = levelShift 3 := rfl
  unfold softwareWalk
  simp only [readEntry_bind memory _ va hpgd, readEntry_bind memory _ va hpud, readEntry_bind memory _ va hpmd,
    readEntry_bind memory _ va hpte, followFrom]
  rfl

/-- On an HVC the handler reports what the walk finds. -/
theorem reportsTranslation_iff (ttbr0 ttbr1 far va : U64) {esr : U64} (hhvc : (esr &&& esrEcMask) >>> 26 = esrEcHvcEl1)
    (translated : Option U64) :
    ReportsTranslation (handleSyncLower rule memory ttbr0 ttbr1 esr far va) va translated ↔
      (softwareWalk rule memory ttbr0 ttbr1 va).toOption = translated := by
  have hdata : esrEcHvcEl1 ≠ esrEcDataAbortL := by decide
  have hinstr : esrEcHvcEl1 ≠ esrEcInstrAbortL := by decide
  have haction : handleSyncLower rule memory ttbr0 ttbr1 esr far va =
      match softwareWalk rule memory ttbr0 ttbr1 va with
      | .error level => .vmiFailed level
      | .ok pa => .vmiSuccess va pa := by
    dsimp only [handleSyncLower]
    rw [hhvc, if_neg hdata, if_neg hinstr, if_pos rfl]
  rw [ReportsTranslation, haction]
  cases softwareWalk rule memory ttbr0 ttbr1 va with
  | error level => 
    cases translated <;> simp [Except.toOption]
  | ok pa => 
    cases translated <;> simp [Except.toOption]

/-! Plain paths. -/

/-- The shift loses no bit of the output address. -/
def KeepsOa (entry : U64) : Prop := oaShifted rule entry = tableAddr entry

instance (entry : U64) : Decidable (KeepsOa rule entry) := inferInstanceAs (Decidable (_ = _))

/-- Every valid descriptor from this one down is a table or, at level 3, a page with the access flag
    set or set by the hardware, and its address survives the shift. -/
def PlainFrom (va : U64) : (below : Nat) → U64 → Prop
  | 0, entry => descType entry = 1 ∨ descType entry = 3 →
      descType entry = 3 ∧ KeepsOa rule entry ∧ (accessFlag entry ∨ ha)
  | below + 1, entry => descType entry = 1 ∨ descType entry = 3 →
      descType entry = 3 ∧ KeepsOa rule entry ∧
        PlainFrom va below (memory (entryAddr (tableAddr entry) (tableIndex (3 - below) va)))

def PlainPath (ttbr0 ttbr1 va : U64) : Prop :=
  PlainFrom rule ha memory va 3 (memory (entryAddr (tableAddr (selectTtbr ttbr0 ttbr1 va)) (tableIndex 0 va)))

/-- A page keeps its address and takes the offset of the input. -/
theorem leafAddr_page (entry va : U64) : leafAddr 3 entry va = tableAddr entry ||| (va &&& 0xFFF) := by
  have hbits : highBits 12 entry = tableAddr entry := by
    apply BitVec.eq_of_toNat_eq
    rw [toNat_highBits, toNat_tableAddr]
    omega
  have hmask : (1 : U64) <<< 12 - 1 = 0xFFF := by decide
  rw [leafAddr, levelShift, hbits, hmask]

/-- On a plain path the walk finds the leaf of the architecture. -/
theorem followFrom_plain (va : U64) : ∀ (below : Nat) (entry : U64), PlainFrom rule ha memory va below entry →
    followFrom rule memory va below entry = (leafFrom memory va below entry).bind (stage1Leaf ha va)
  | 0, entry, hplain => by
    by_cases hvalid : descType entry = 1 ∨ descType entry = 3
    · obtain ⟨htype, hoa, haf⟩ := hplain hvalid
      have hleaf : stage1Leaf ha va (3, entry) = some (leafAddr 3 entry va) := if_pos haf
      have hoa : oaShifted rule entry = tableAddr entry := hoa
      rw [followFrom, if_pos hvalid, leafFrom, if_pos htype, Option.bind_some, hleaf, leafAddr_page, hoa]
    · have htype : descType entry ≠ 3 := fun h => hvalid (Or.inr h)
      rw [followFrom, if_neg hvalid, leafFrom, if_neg htype, Option.bind_none]
  | below + 1, entry, hplain => by
    by_cases hvalid : descType entry = 1 ∨ descType entry = 3
    · obtain ⟨htype, hoa, hrest⟩ := hplain hvalid
      have hoa : oaShifted rule entry = tableAddr entry := hoa
      rw [followFrom, if_pos hvalid, leafFrom, if_pos htype, hoa]
      exact followFrom_plain va below _ hrest
    · have htype : descType entry ≠ 3 := fun h => hvalid (Or.inr h)
      have hblock : ¬(descType entry = 1 ∧ below < 2) := fun h => hvalid (Or.inl h.1)
      rw [followFrom, if_neg hvalid, leafFrom, if_neg htype, if_neg hblock, Option.bind_none]

/-! Memories of one descriptor, which lead to page 0 at every level. -/

/-- A table or page at address 0 with the access flag. -/
def pageZero : U64 := 0x703

theorem oaShifted_pageZero : oaShifted rule pageZero = tableAddr pageZero := by
  cases rule <;> decide

variable {memory}

section PageZero

variable (hmem : ∀ d i, memory (entryAddr (tableAddr d) i) = pageZero) (va : U64)
include hmem

theorem plainFrom_pageZero : ∀ below, PlainFrom rule ha memory va below pageZero
  | 0 => fun _ => ⟨by decide, oaShifted_pageZero rule, Or.inl (by decide)⟩
  | below + 1 => fun _ => by
    refine ⟨by decide, oaShifted_pageZero rule, ?_⟩
    rw [hmem]
    exact plainFrom_pageZero below

theorem leafFrom_pageZero : ∀ below, leafFrom memory va below pageZero = some (3, pageZero)
  | 0 => by rw [leafFrom, if_pos (by decide)]
  | below + 1 => by rw [leafFrom, if_pos (by decide), hmem, leafFrom_pageZero below]

theorem plainPath_pageZero (ttbr0 ttbr1 : U64) : PlainPath rule ha memory ttbr0 ttbr1 va := by
  rw [PlainPath, hmem]
  exact plainFrom_pageZero rule ha hmem va 3

theorem followFrom_pageZero : followFrom rule memory va 3 pageZero = some (leafAddr 3 pageZero va) := by
  rw [followFrom_plain rule true memory va 3 pageZero (plainFrom_pageZero rule true hmem va 3),
    leafFrom_pageZero hmem, Option.bind_some, stage1Leaf, if_pos (Or.inr rfl)]

theorem stage1Translate_pageZero (ttbr0 ttbr1 : U64) (hcanonical : Canonical va) :
    stage1Translate ha memory ttbr0 ttbr1 va = some (leafAddr 3 pageZero va) := by
  rw [stage1Translate, if_pos hcanonical, hmem, leafFrom_pageZero hmem, Option.bind_some, stage1Leaf,
    if_pos (Or.inl (by decide))]

end PageZero

/-! The walk against the architecture. -/

/-- Memory below 2^48 only. -/
def lowMemory (a : U64) : U64 := if a.toNat < 2 ^ 48 then pageZero else 0

theorem lowMemory_table (d : U64) (i : BitVec 9) : lowMemory (entryAddr (tableAddr d) i) = pageZero := by
  have hpage := (d.extractLsb' 12 36).isLt
  have hi := i.isLt
  refine if_pos ?_
  rw [tableAddr, toNat_entryAddr]
  omega

/-- With an ASID in the TTBR the walk starts above 2^48. -/
theorem lowMemory_asid {ttbr0 ttbr1 va : U64} (hasid : (selectTtbr ttbr0 ttbr1 va).extractLsb' 48 16 ≠ 0) :
    lowMemory (entryAddr (pgdBase ttbr0 ttbr1 va) (tableIndex 0 va)) = 0 := by
  have hge := mt (asid_eq_zero_iff _).mpr hasid
  have hlt := (selectTtbr ttbr0 ttbr1 va).isLt
  have hi := (tableIndex 0 va).isLt
  refine if_neg ?_
  rw [entryAddr, BitVec.toNat_add, pgdBase_eq, toNat_clearOffset, BitVec.toNat_shiftLeft, BitVec.toNat_setWidth,
    Nat.shiftLeft_eq]
  omega

/-- **The walk is the architecture's.** On an HVC, over the guest memories in which every valid
    descriptor on the path of the address is a table or a page (no block, no reserved type), has the
    access flag where it is needed, and keeps its address through the shift of the bit-field, the walk
    reports the translation of the architecture exactly if the address is canonical and the TTBR it
    takes has ASID 0. -/
theorem software_walk_iff (ttbr0 ttbr1 esr far va : U64) (hhvc : (esr &&& esrEcMask) >>> 26 = esrEcHvcEl1) :
    (∀ memory, PlainPath rule ha memory ttbr0 ttbr1 va →
      ReportsTranslation (handleSyncLower rule memory ttbr0 ttbr1 esr far va) va
        (stage1Translate ha memory ttbr0 ttbr1 va)) ↔
      Canonical va ∧ (selectTtbr ttbr0 ttbr1 va).extractLsb' 48 16 = 0 := by
  constructor
  · intro hall
    have hwalk (memory : U64 → U64) (hmem : ∀ d i, memory (entryAddr (tableAddr d) i) = pageZero) :=
      (reportsTranslation_iff rule memory ttbr0 ttbr1 far va hhvc _).mp
        (hall memory (plainPath_pageZero rule ha hmem va ttbr0 ttbr1))
    have hcanonical : Canonical va := by
      by_contra hnot
      -- every entry leads to page 0: the walk succeeds, and the architecture faults
      have h := hwalk (fun _ => pageZero) (fun _ _ => rfl)
      rw [softwareWalk_eq, followFrom_pageZero rule (fun _ _ => rfl), stage1Translate, if_neg hnot] at h
      exact Option.some_ne_none _ h
    refine ⟨hcanonical, ?_⟩
    by_contra hasid
    -- the first entry is read above 2^48, where there is nothing
    have h := hwalk lowMemory lowMemory_table
    rw [softwareWalk_eq, lowMemory_asid hasid, stage1Translate_pageZero ha lowMemory_table va _ _ hcanonical,
      followFrom, if_neg (by decide)] at h
    exact Option.some_ne_none _ h.symm
  · rintro ⟨hcanonical, hasid⟩ memory hplain
    rw [reportsTranslation_iff rule memory ttbr0 ttbr1 far va hhvc, softwareWalk_eq, pgdBase_of_asid_zero hasid,
      followFrom_plain rule ha memory va 3 _ hplain, stage1Translate, if_pos hcanonical]

/-! The guest of the repository. -/

/-- The words of `dummy_guest.S` at the addresses of `output.txt`, and the first of the code at
    `0x40000000`. -/
def guestWords : List (U64 × U64) :=
  [(0x40002000, 0x40003003), (0x40002000 + 36 * 8, 0x40004003), (0x40003000 + 8, 0x40000701),
   (0x40004000 + 209 * 8, 0x40005003), (0x40005000 + 179 * 8, 0x40006003), (0x40006000 + 393 * 8, 0x40200703),
   (0x40000000, 0xd342fc00d5384240)]

def guestMemory (addr : U64) : U64 := (guestWords.lookup addr).getD 0

/-- The address the guest asks for: its path is plain, and the walk reports its page. -/
theorem software_walk_guest :
    PlainPath .fieldWidth false guestMemory 0x40002000 0 0x123456789000 ∧
      ReportsTranslation (handleSyncLower .fieldWidth guestMemory 0x40002000 0 0x5A000000 0 0x123456789000)
        0x123456789000 (stage1Translate false guestMemory 0x40002000 0 0x123456789000) := by
  have hplain : PlainPath .fieldWidth false guestMemory 0x40002000 0 0x123456789000 :=
    fun _ => ⟨by decide +kernel, by decide +kernel, fun _ => ⟨by decide +kernel, by decide +kernel,
      fun _ => ⟨by decide +kernel, by decide +kernel, fun _ => ⟨by decide +kernel, by decide +kernel,
        by decide +kernel⟩⟩⟩⟩
  refine ⟨hplain, ?_⟩
  exact (software_walk_iff .fieldWidth false 0x40002000 0 0x5A000000 0 0x123456789000 (by decide)).mpr
    ⟨by decide, by decide⟩ guestMemory hplain

example : handleSyncLower .fieldWidth guestMemory 0x40002000 0 0x5A000000 0 0x123456789000 =
    .vmiSuccess 0x123456789000 0x40200000 := by
  decide +kernel

/-- The identity map of the guest is a block of 1 GB: the walk takes the code it maps for a table and
    fails, where the architecture translates. -/
theorem block_walked_as_table :
    handleSyncLower .fieldWidth guestMemory 0x40002000 0 0x5A000000 0 0x40000000 = .vmiFailed .pmd ∧
      stage1Translate false guestMemory 0x40002000 0 0x40000000 = some 0x40000000 := by
  decide +kernel

end SentinelStack.Arm
