import SentinelStack.Lib.Fnv
import SentinelStack.Vmi.MemslotWrite
import SentinelStack.Vmi.NptGuard

/- What a region's hash says about guest memory (`hash_guest_region`,
   `snapshot_syscall_table` of `npt_guard.c`).

   The region is read a page at a time and hashed as it is read. `Readable` says
   that reads of parts of it succeed with the bytes of one memory; memslots over the
   region give that (`readable_guestMemory`). Main result: `region_hash_flat` — the
   hash is FNV-1a of the region's bytes in one string, the same as is stored with the
   snapshot of the syscall table, and it changes with any one byte of the region. It
   says nothing about changes to more than one byte. -/
namespace SentinelStack.Vmi
open SentinelStack.Lib

/-- The 64-bit FNV prime. -/
def fnvPrime64 : U64 := 0x100000001b3

theorem fnv1a64Update_eq (h : U64) (data : List U8) : fnv1a64Update h data = fnv1a fnvPrime64 h data := rfl

/-- The prime is odd, so that multiplying by it can be undone. -/
theorem fnvPrime64_unit : fnvPrime64 * 0xce965057aff6957b = 1 := by decide

/-- Every read of a part of the region, of up to a page, succeeds and returns what `memory` holds. -/
def Readable (host : Host) (s : VmiSession) (memory : U64 → U8) (gpa : U64) (size : Nat) : Prop :=
  ∀ offset n, 0 < n → n ≤ vmiPageSize → offset + n ≤ size →
    vmiReadPhysical host s (gpa + BitVec.ofNat 64 offset) n =
      ⟨true, bytesAt memory (gpa + BitVec.ofNat 64 offset) n⟩

/-- The memories differ in one byte of the region, and in no other. -/
def DifferInOneByte (memory memory' : U64 → U8) (gpa : U64) (size : Nat) : Prop :=
  ∃ i < size, memory (gpa + BitVec.ofNat 64 i) ≠ memory' (gpa + BitVec.ofNat 64 i) ∧
    ∀ j < size, j ≠ i → memory (gpa + BitVec.ofNat 64 j) = memory' (gpa + BitVec.ofNat 64 j)

/-- Slots that cover the region make it readable. -/
theorem readable_guestMemory {s : VmiSession} (hslots : EndToEnd 0 s.memslots) (hpid : 0 < s.qemuPid) {host : Host}
    (hread : SlotTransfersComplete s host.processVmReadv) {gpa : U64} {size : Nat}
    (hcovered : gpa.toNat + size ≤ slotsEnd 0 s.memslots) : Readable host s (guestMemory host s) gpa size := by
  intro offset n hpos _ hfits
  have hspan := hslots.end_lt (by decide)
  have haddr : (gpa + BitVec.ofNat 64 offset).toNat = gpa.toNat + offset := toNat_add_ofNat (by omega)
  have hslice : readViaMemslots host s (gpa + BitVec.ofNat 64 offset) n =
      ⟨true, bytesAt (guestMemory host s) (gpa + BitVec.ofNat 64 offset) n⟩ := by
    rw [readViaMemslots_eq hslots hpid hread _ hpos, readSpan, haddr, decide_eq_true (by omega), List.length_nil,
      Nat.min_eq_left (by omega), List.nil_append, BitVec.add_zero, Nat.sub_zero]
  rw [vmiReadPhysical_of_memslots (by rw [hslice]), hslice]

section
variable {host : Host} {s : VmiSession} {memory : U64 → U8} {gpa : U64}

/-! The loop. -/

/-- With `offset` bytes behind it the loop adds the rest of the region to the hash. -/
theorem hashLoop_eq {size : Nat} (hread : Readable host s memory gpa size) (fuel remaining offset : Nat) (h : U64)
    (hsize : offset + remaining = size) (hfuel : remaining ≤ fuel) :
    hashLoop host s gpa fuel remaining offset h =
      some (fnv1a fnvPrime64 h (bytesAt memory (gpa + BitVec.ofNat 64 offset) remaining)) := by
  induction fuel generalizing remaining offset h with
  | zero =>
    obtain rfl : remaining = 0 := Nat.le_zero.mp hfuel
    rw [hashLoop, if_neg (Nat.lt_irrefl 0)]
    rfl
  | succ fuel ih =>
    rw [hashLoop]
    split
    next hpos =>
      dsimp only
      have hpage : 0 < vmiPageSize := by decide
      generalize hc : min remaining vmiPageSize = chunk
      have hchunk := hread offset chunk (by omega) (by omega) (by omega)
      have hsplit : bytesAt memory (gpa + BitVec.ofNat 64 offset) remaining =
          bytesAt memory (gpa + BitVec.ofNat 64 offset) chunk ++
            bytesAt memory (gpa + BitVec.ofNat 64 (offset + chunk)) (remaining - chunk) := by
        rw [BitVec.ofNat_add, ← BitVec.add_assoc, ← bytesAt_add, show chunk + (remaining - chunk) = remaining by omega]
      rw [hchunk, ReadResult.bytes?, if_pos rfl]
      dsimp only
      rw [ih (remaining - chunk) (offset + chunk) _ (by omega) (by omega), fnv1a64Update_eq, hsplit, fnv1a_append]
    next hdone =>
      obtain rfl : remaining = 0 := by omega
      rfl

theorem hashGuestRegion_eq {size : U64} (hsize : size ≠ 0) (hread : Readable host s memory gpa size.toNat) :
    hashGuestRegion host s gpa size = some (fnv1a fnvPrime64 fnv1a64Init (bytesAt memory gpa size.toNat)) := by
  rw [hashGuestRegion, if_neg hsize, hashLoop_eq hread size.toNat size.toNat 0 fnv1a64Init (Nat.zero_add _) le_rfl,
    BitVec.add_zero]

/-! The snapshot of the syscall table. -/

theorem snapshotSyscallTable_eq (hread : Readable host s memory s.syscallTableGpa sysCallTableSize) {gs : GuardState}
    (hlen : gs.cleanSyscallTable.length = sysCallTableSize) :
    snapshotSyscallTable host s gs =
      (true, { gs with
        cleanSyscallTable := bytesAt memory s.syscallTableGpa sysCallTableSize
        snapshotTaken := true
        cleanSyscallHash := fnv1a fnvPrime64 fnv1a64Init (bytesAt memory s.syscallTableGpa sysCallTableSize) }) := by
  have hwhole := hread 0 sysCallTableSize (by decide) (by decide) (by omega)
  rw [BitVec.add_zero] at hwhole
  have htable : overwrite (bytesAt memory s.syscallTableGpa sysCallTableSize) gs.cleanSyscallTable =
      bytesAt memory s.syscallTableGpa sysCallTableSize := by
    rw [overwrite, length_bytesAt, List.drop_of_length_le (by omega), List.append_nil]
  rw [snapshotSyscallTable]
  dsimp only
  rw [hwhole, if_pos rfl, htable, fnv1a64Update_eq]

/-! Two memories. -/

theorem differAt_bytesAt {memory' : U64 → U8} {size i : Nat} (hi : i < size)
    (hdiffer : memory (gpa + BitVec.ofNat 64 i) ≠ memory' (gpa + BitVec.ofNat 64 i))
    (hsame : ∀ j < size, j ≠ i → memory (gpa + BitVec.ofNat 64 j) = memory' (gpa + BitVec.ofNat 64 j)) :
    DifferAt i (bytesAt memory gpa size) (bytesAt memory' gpa size) := by
  have hget : ∀ (m : U64 → U8) (j : Nat), j < size → (bytesAt m gpa size)[j]? = some (m (gpa + BitVec.ofNat 64 j)) := by
    intro m j hj
    rw [bytesAt, List.getElem?_map, List.getElem?_range hj, Option.map_some]
  refine ⟨by rw [length_bytesAt, length_bytesAt], ?_, fun j hj => ?_⟩
  · rw [hget memory i hi, hget memory' i hi]
    exact fun heq => hdiffer (Option.some.inj heq)
  · by_cases hlt : j < size
    · rw [hget memory j hlt, hget memory' j hlt, hsame j hlt hj]
    · rw [List.getElem?_eq_none (by rw [length_bytesAt]; omega), List.getElem?_eq_none (by rw [length_bytesAt]; omega)]

/-- A byte written over another in the region is such a difference. -/
theorem differInOneByte_poke {memory' : U64 → U8} {size i : Nat} (hsize : size ≤ 2 ^ 64) (hi : i < size) {b : U8}
    (hnew : memory (gpa + BitVec.ofNat 64 i) ≠ b)
    (hpoke : ∀ j < size, memory' (gpa + BitVec.ofNat 64 j) =
      poke memory (gpa + BitVec.ofNat 64 i) [b] (gpa + BitVec.ofNat 64 j)) :
    DifferInOneByte memory memory' gpa size := by
  refine ⟨i, hi, ?_, fun j hj hne => ?_⟩
  · have hat := @poke_at memory (gpa + BitVec.ofNat 64 i) [b] 0 Nat.one_pos (by simp)
    rw [BitVec.add_zero] at hat
    rw [hpoke i hi, hat]
    exact hnew
  · rw [hpoke j hj, poke_elsewhere]
    have hapart : gpa + BitVec.ofNat 64 j - (gpa + BitVec.ofNat 64 i) = BitVec.ofNat 64 j - BitVec.ofNat 64 i := by
      bv_omega
    rw [hapart, BitVec.toNat_sub, BitVec.toNat_ofNat, BitVec.toNat_ofNat, List.length_singleton]
    omega

end

/-- **The hash of a region.** It is FNV-1a of the region's bytes, however they are cut into reads. Of
    the syscall table it is the hash the snapshot stores. Where one byte of the region is another,
    the hash is. -/
theorem region_hash_flat (host : Host) (s : VmiSession) (memory : U64 → U8) (gpa size : U64) (hsize : size ≠ 0)
    (hread : Readable host s memory gpa size.toNat) :
    hashGuestRegion host s gpa size = some (fnv1a fnvPrime64 fnv1a64Init (bytesAt memory gpa size.toNat)) ∧
      (gpa = s.syscallTableGpa → size = BitVec.ofNat 64 sysCallTableSize →
        ∀ gs : GuardState, gs.cleanSyscallTable.length = sysCallTableSize →
          (snapshotSyscallTable host s gs).1 = true ∧
            hashGuestRegion host s gpa size = some (snapshotSyscallTable host s gs).2.cleanSyscallHash) ∧
      ∀ (host' : Host) (s' : VmiSession) (memory' : U64 → U8), Readable host' s' memory' gpa size.toNat →
        DifferInOneByte memory memory' gpa size.toNat →
          hashGuestRegion host s gpa size ≠ hashGuestRegion host' s' gpa size := by
  refine ⟨hashGuestRegion_eq hsize hread, ?_, ?_⟩
  · intro hgpa htable gs hlen
    have hbytes : size.toNat = sysCallTableSize := by
      rw [htable]
      decide
    have hregion := hashGuestRegion_eq hsize hread
    rw [hbytes, hgpa] at hread hregion
    rw [hgpa, hregion, snapshotSyscallTable_eq hread hlen]
    refine ⟨rfl, ?_⟩
    dsimp only
  · intro host' s' memory' hread' hone
    obtain ⟨i, hi, hdiffer, hsame⟩ := hone
    rw [hashGuestRegion_eq hsize hread, hashGuestRegion_eq hsize hread']
    intro heq
    exact fnv1a_ne_of_differAt fnvPrime64_unit (by decide) (differAt_bytesAt hi hdiffer hsame) fnv1a64Init
      (Option.some.inj heq)

/-! A syscall table that lies across the two mappings of the guest. -/

def tableSession : VmiSession := enumerateMemslots (some twoMaps) true ⟨[], 1, 0x1FFF00, 0, false, 0, 0⟩

def emptyGuardState : GuardState := ⟨⟨[], Nat.zero_le _⟩, List.replicate sysCallTableSize 0, false, 0, []⟩

/-- The guest after the first byte in the second mapping was written over. -/
def patchedHost : Host := (writeViaMemslots (fun _ size _ => .moved size) ramHost tableSession 0x200000 [0x41]).host

theorem tableSession_eq : tableSession = ⟨twoSession.memslots, 1, 0x1FFF00, 0, false, 0, 0⟩ := by
  decide +kernel

theorem tableSession_pid : 0 < tableSession.qemuPid := by
  rw [tableSession_eq]
  exact Int.one_pos

theorem tableSession_span : slotsEnd 0 tableSession.memslots = 0x400000 := by
  rw [tableSession_eq, twoSession_memslots]
  decide

theorem tableSession_endToEnd : EndToEnd 0 tableSession.memslots := by
  rw [tableSession]
  exact enumerateMemslots_endToEnd (some twoMaps) true _

theorem readable_tableSession {host : Host} (hread : host.processVmReadv = fun _ size _ => .moved size) :
    Readable host tableSession (guestMemory host tableSession) 0x1FFF00 (4096 : U64).toNat := by
  apply readable_guestMemory tableSession_endToEnd tableSession_pid
  · rw [hread]
    exact slotTransfersComplete_moved _
  · rw [tableSession_span]
    decide

/-- The hash is that of the snapshot, and it is another after the write. -/
theorem patched_table_hash :
    hashGuestRegion ramHost tableSession 0x1FFF00 4096 =
        some (snapshotSyscallTable ramHost tableSession emptyGuardState).2.cleanSyscallHash ∧
      hashGuestRegion ramHost tableSession 0x1FFF00 4096 ≠ hashGuestRegion patchedHost tableSession 0x1FFF00 4096 := by
  have hapart : SlotsApart tableSession.memslots := by
    rw [tableSession]
    exact enumerateMemslots_apart twoMaps_disjoint true _
  obtain ⟨hok, hcalls, hview⟩ := writeViaMemslots_spec tableSession_endToEnd tableSession_pid hapart
    (slotTransfersComplete_moved _) ramHost 0x200000 (List.cons_ne_nil 0x41 [])
  have hwritten := hok.mpr (by rw [tableSession_span]; decide)
  have hold : guestMemory ramHost tableSession (0x1FFF00 + BitVec.ofNat 64 0x100) ≠ 0x41 := by
    rw [guestMemory, hostAddr, tableSession_eq, findMemslot, twoSession_memslots]
    decide
  have hone : DifferInOneByte (guestMemory ramHost tableSession) (guestMemory patchedHost tableSession) 0x1FFF00
      (4096 : U64).toNat := by
    apply differInOneByte_poke (by decide) (by decide) hold
    intro j hj
    apply hview hwritten
    rw [tableSession_span, toNat_add_ofNat (by simp at hj ⊢; omega)]
    simp at hj ⊢
    omega
  have hgpa : (0x1FFF00 : U64) = tableSession.syscallTableGpa := by rw [tableSession_eq]
  obtain ⟨-, hsnapshot, hpatched⟩ := region_hash_flat ramHost tableSession _ 0x1FFF00 4096 (by decide)
    (readable_tableSession rfl)
  exact ⟨(hsnapshot hgpa (by decide) emptyGuardState List.length_replicate).2,
    hpatched patchedHost tableSession _ (readable_tableSession hcalls) hone⟩

end SentinelStack.Vmi
